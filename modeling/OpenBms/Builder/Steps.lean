/-
# `OpenBms.Builder.Steps` — the cards of the segment builder, and the JSON they are stored as

A segment is stored as a list of cards, each a list of entries.  An entry of the type
`conditionalCard` connects its card to the one before, and the `conditional` of a step
connects the step to the one before.  `parseSteps` reads the entries into cards with
connectors of their own, `serializeSteps` writes them again.

| entry                     | read as                                | written as           |
| :------------------------ | :------------------------------------- | :------------------- |
| `conditionalCard`         | the connector of its card              | an entry, where it is truthy |
| a step of a known type    | its fields, without `conditional`      | its fields, without those that are null |
| a step of another type    | itself, and its connector              | itself, with its connector |

**Proved here.**

    reading a field after another was written (`get_set_of_ne`, `get_delete_of_ne`)
    what is written has the connector the step has (`conditional_serializeStep`)
    and its type (`type_serializeStep`)
-/
import OpenBms.Lib.Js

namespace OpenBms.Builder

/-! ## JSON -/

/-- A value; numbers are not rounded. -/
inductive Json where
  | undefined
  | null
  | bool (b : Bool)
  | num (q : ℚ)
  | str (s : String)
  | arr (items : List Json)
  | obj (fields : List (String × Json))
  deriving Inhabited

/-- The fields of an object. -/
abbrev Obj := List (String × Json)

namespace Obj

/-- `o[key]`. -/
def get (o : Obj) (key : String) : Json := (o.lookup key).getD .undefined

/-- `o[key] = v`. -/
def set : Obj → String → Json → Obj
  | [], key, v => [(key, v)]
  | (k, w) :: o, key, v => if k == key then (key, v) :: o else (k, w) :: set o key v

/-- `delete o[key]`. -/
def delete (o : Obj) (key : String) : Obj := o.filter fun p => p.1 != key

/-- `Object.assign(o, data)`. -/
def assign (o data : Obj) : Obj := data.foldl (fun o p => o.set p.1 p.2) o

def keys (o : Obj) : List String := o.map Prod.fst

theorem get_set_self (o : Obj) (key : String) (v : Json) : (o.set key v).get key = v := by
  induction o with
  | nil => rw [set, get, List.lookup_cons, beq_self_eq_true]; rfl
  | cons p o ih =>
      obtain ⟨k, w⟩ := p
      rw [set]
      split
      · rw [get, List.lookup_cons, beq_self_eq_true]
        rfl
      · rename_i hne
        have hne' : (key == k) = false := by
          rw [beq_eq_false_iff_ne]
          rintro rfl
          exact hne (beq_self_eq_true key)
        rw [get, List.lookup_cons, hne']
        exact ih

theorem get_set_of_ne (o : Obj) {key other : String} (h : other ≠ key) (v : Json) :
    (o.set key v).get other = o.get other := by
  have hbeq : (other == key) = false := beq_eq_false_iff_ne.mpr h
  induction o with
  | nil =>
      rw [set, get, List.lookup_cons, hbeq]
      rfl
  | cons p o ih =>
      obtain ⟨k, w⟩ := p
      rw [set]
      split
      · rename_i heq
        rw [beq_iff_eq.mp heq, get, get, List.lookup_cons, List.lookup_cons, hbeq]
      · rw [get, get, List.lookup_cons, List.lookup_cons]
        cases other == k with
        | true => rfl
        | false => exact ih

theorem get_delete_of_ne (o : Obj) {key other : String} (h : other ≠ key) :
    (o.delete key).get other = o.get other := by
  induction o with
  | nil => rfl
  | cons p o ih =>
      obtain ⟨k, w⟩ := p
      rw [delete, List.filter_cons]
      split
      · rw [get, get, List.lookup_cons, List.lookup_cons]
        cases other == k with
        | true => rfl
        | false => exact ih
      · rename_i hk
        have hkey : k = key := by
          rw [Bool.not_eq_true, bne_eq_false_iff_eq] at hk
          exact hk
        have hbeq : (other == k) = false := beq_eq_false_iff_ne.mpr (hkey ▸ h)
        rw [get, get, List.lookup_cons, hbeq]
        exact ih

theorem get_of_not_mem {o : Obj} {key : String} (h : key ∉ o.keys) : o.get key = .undefined := by
  have hnone : o.lookup key = none := by
    rw [List.lookup_eq_none_iff]
    intro p hp
    rw [bne_iff_ne]
    rintro rfl
    exact h (List.mem_map_of_mem hp)
  rw [get, hnone]
  rfl

theorem mem_keys_set {o : Obj} {key k : String} {v : Json} (h : k ∈ (o.set key v).keys) :
    k = key ∨ k ∈ o.keys := by
  induction o with
  | nil => exact .inl (List.mem_singleton.mp h)
  | cons p o ih =>
      obtain ⟨k', w⟩ := p
      rw [set] at h
      split at h
      · rcases List.mem_cons.mp h with rfl | h
        · exact .inl rfl
        · exact .inr (List.mem_cons_of_mem k' h)
      · rcases List.mem_cons.mp h with rfl | h
        · exact .inr List.mem_cons_self
        · rcases ih h with heq | hmem
          · exact .inl heq
          · exact .inr (List.mem_cons_of_mem k' hmem)

theorem mem_keys_assign {o data : Obj} {k : String} (h : k ∈ (o.assign data).keys) :
    k ∈ o.keys ∨ k ∈ data.keys := by
  induction data generalizing o with
  | nil => exact .inl h
  | cons p data ih =>
      rcases ih h with hk | hk
      · rcases mem_keys_set hk with rfl | hk
        · exact .inr List.mem_cons_self
        · exact .inl hk
      · exact .inr (List.mem_cons_of_mem p.1 hk)

end Obj

namespace Json

/-- What `if (v)` tests. -/
def truthy : Json → Bool
  | .undefined | .null => false
  | .bool b => b
  | .num q => q != 0
  | .str s => s != ""
  | .arr _ | .obj _ => true

/-- `v == null`. -/
def isNullish : Json → Bool
  | .undefined | .null => true
  | _ => false

def isStr (v : Json) (s : String) : Bool :=
  match v with
  | .str t => t == s
  | _ => false

/-- `v === w`, where neither is an object. -/
def strictEq : Json → Json → Bool
  | .undefined, .undefined | .null, .null => true
  | .bool a, .bool b => a == b
  | .num p, .num q => p == q
  | .str s, .str t => s == t
  | _, _ => false

/-- `Number(v)` of a scalar; `none` is `NaN`. -/
def number : Json → Option ℚ
  | .null => some 0
  | .bool b => some (if b then 1 else 0)
  | .num q => some q
  | .str s => Js.finite s
  | _ => none

/-- The fields of `{ ...v }`. -/
def spread : Json → Obj
  | .obj o => o
  | .arr items => items.zipIdx.map fun p => (toString p.2, p.1)
  | .str s => s.toList.zipIdx.map fun p => (toString p.2, .str (String.singleton p.1))
  | _ => []

/-- `v[key]`; `none` where it throws. -/
def field (v : Json) (key : String) : Option Json :=
  match v with
  | .undefined | .null => none
  | v => some (Obj.get v.spread key)

theorem getD_field (v : Json) (key : String) : (v.field key).getD .undefined = Obj.get v.spread key := by
  cases v <;> rfl

end Json

/-! ## The actions of the channels -/

structure ActionOption where
  value : String
  dbField : String
  isNegation : Bool
  deriving DecidableEq

/-- An action and its negation. -/
def actionPair (value dbField : String) : List ActionOption :=
  [⟨value, dbField, false⟩, ⟨"no" ++ value, dbField, true⟩]

def emailActions : List ActionOption :=
  actionPair "open" "last_open_date" ++ actionPair "click" "last_click_date" ++
    actionPair "send" "last_sent_date"

def pushActions : List ActionOption :=
  actionPair "click" "last_click_date" ++ actionPair "delivered" "last_delivered_date" ++
    actionPair "send" "last_sent_date"

def smsActions : List ActionOption :=
  actionPair "delivered" "sms_last_delivered" ++ actionPair "click" "sms_last_click" ++
    actionPair "send" "sms_last_sent"

def whatsappActions : List ActionOption :=
  actionPair "open" "whatsapp_last_open" ++ actionPair "delivered" "whatsapp_last_delivered" ++
    actionPair "click" "whatsapp_last_click" ++ actionPair "send" "whatsapp_last_sent"

def pageViewActions : List ActionOption := actionPair "pageview" "page_view"

def ACTIONS_BY_CHANNEL (channelType : String) : List ActionOption :=
  match channelType with
  | "email" => emailActions
  | "web-push" | "mobile-push" => pushActions
  | "sms" => smsActions
  | "whatsapp" => whatsappActions
  | "page_view" => pageViewActions
  | _ => []

def getDbFieldForAction (channelType actionValue : String) : Option String :=
  ((ACTIONS_BY_CHANNEL channelType).find? fun a => a.value == actionValue).map ActionOption.dbField

/-! ## Steps and cards -/

/-- An id: a new one, or what a stored step has under `id`. -/
inductive Id where
  | uuid (n : Nat)
  | stored (v : Json)

/-- `id === other`. -/
def Id.eq : Id → Id → Bool
  | .uuid m, .uuid n => m == n
  | .stored v, .stored w => v.strictEq w
  | _, _ => false

def KNOWN_STEP_TYPES : List String :=
  ["interation", "custom_field", "user_field", "tag", "automation_state", "lead"]

def INTERNAL_FIELDS : List String := ["id", "stepConnector", "cardConnector", "originalType", "raw"]

def PRESET_TIME_VALUES : List ℚ := [0, 1, 7, 15]

/-- A step of a known type, or the entry of one that is not. -/
inductive StepType where
  | known (type : String)
  | unknown (originalType : Json) (raw : Obj)

/-- A step; `fields` are those besides `id`, `type` and `stepConnector`. -/
structure StepData where
  id : Id
  type : StepType
  stepConnector : Json
  fields : Obj

structure BuilderCard where
  id : Id
  steps : List StepData
  cardConnector : Json

/-- The cards, and how many new ids there were. -/
structure BuilderState where
  cards : List BuilderCard
  fresh : Nat

/-! ## Parse -/

def normalizeValue (key : String) (value : Json) : Json :=
  if key == "time" || key == "time_custom" then
    match value with
    | .undefined | .null => .null
    | .str s =>
        if s == "" then .null
        else
          match Js.finite s with
          | some q => if s.toList.all Char.isWhitespace then value else .num q
          | none => value
    | _ => value
  else
    value

def normalizeTagEntry (entry : Json) : Json :=
  match entry with
  | .obj e =>
      let normalizedType := if (Obj.get e "type").isStr "segment" then "segment" else "tag"
      let count :=
        match Obj.get e "count" with
        | .undefined => if (Obj.get e "lastCount").isNullish then .null else Obj.get e "lastCount"
        | c => c
      .obj [("id", Obj.get e "id"), ("name", Obj.get e "name"), ("type", .str normalizedType),
        ("count", count)]
  | .arr _ => .obj [("id", .undefined), ("name", .undefined), ("type", .str "tag"), ("count", .null)]
  | _ => entry

def normalizeTagOnParse (step : Obj) : Obj :=
  match step.get "tag_info" with
  | .arr tagInfo => step.set "tag_info" (.arr (tagInfo.map normalizeTagEntry))
  | _ => step

/-- `event` from a field of the database to an action. -/
def eventOnParse (step : Obj) : Obj :=
  match step.get "event_type", step.get "event" with
  | .str channelType, .str eventDbField =>
      let actions := ACTIONS_BY_CHANNEL channelType
      let isNegation := (step.get "conditional_interation").isStr "not"
      if eventDbField == "" || actions.any (fun a => a.value == eventDbField) then step
      else
        match actions.find? fun a => a.dbField == eventDbField && a.isNegation == isNegation with
        | some action => step.set "event" (.str action.value)
        | none => step
  | _, _ => step

/-- A number of days that is not offered is a custom one. -/
def timeOnParse (step : Obj) : Obj :=
  match step.get "time" with
  | .num time =>
      if PRESET_TIME_VALUES.contains time then step
      else (step.set "time_custom" (.num time)).set "time" (.str "custom")
  | _ => step

def normalizeInteractionOnParse (step : Obj) : Obj :=
  let step := if (step.get "event_type").truthy then step else step.set "event_type" (.str "email")
  timeOnParse (eventOnParse step)

/-- What a field of an entry does to the step that is read. -/
def readField (step : StepData) (entry : String × Json) : StepData :=
  let (key, value) := entry
  if key == "conditional" || key == "type" then step
  else if key == "id" then { step with id := .stored (normalizeValue key value) }
  else if key == "stepConnector" then { step with stepConnector := normalizeValue key value }
  else { step with fields := step.fields.set key (normalizeValue key value) }

def normalizeOnParse (type : String) (fields : Obj) : Obj :=
  if type == "interation" then normalizeInteractionOnParse fields
  else if type == "tag" then normalizeTagOnParse fields
  else fields

/-- A type that is known. -/
def knownType (type : Json) : Option String :=
  match type with
  | .str s => if KNOWN_STEP_TYPES.contains s then some s else none
  | _ => none

def parseRawStep (id : Nat) (raw : Json) (stepConnector : Json) : StepData :=
  match knownType ((raw.field "type").getD .undefined) with
  | none => ⟨.uuid id, .unknown ((raw.field "type").getD .undefined) raw.spread, stepConnector, []⟩
  | some type =>
      let step := raw.spread.foldl readField ⟨.uuid id, .known type, stepConnector, []⟩
      { step with fields := normalizeOnParse type step.fields }

/-- The entries of a card that are steps. -/
def isStep (entry : Json) : Bool := !((entry.field "type").getD .undefined).isStr "conditionalCard"

/-- The steps of a card, the `i`-th of them first. -/
def parseEntries (fresh i : Nat) : List Json → List StepData
  | [] => []
  | raw :: raws =>
      let stepConnector := if i = 0 then .undefined else (raw.field "conditional").getD .undefined
      parseRawStep fresh raw stepConnector :: parseEntries (fresh + 1) (i + 1) raws

/-- The connector of a card: the value of the last entry that is one. -/
def cardConnectorOf (entries : List Json) : Json :=
  ((entries.filter fun e => !isStep e).getLast?.bind fun e => e.field "value").getD .undefined

/-- The `i`-th card; `none` where an entry is `null`. -/
def parseCard (fresh i : Nat) (rawCard : Json) : Option (BuilderCard × Nat) :=
  match rawCard with
  | .arr entries =>
      if entries.any fun e => (e.field "type").isNone then none
      else
        let steps := parseEntries fresh 0 (entries.filter isStep)
        let cardConnector := if i = 0 then .undefined else cardConnectorOf entries
        some (⟨.uuid (fresh + steps.length), steps, cardConnector⟩, fresh + steps.length + 1)
  | _ => some (⟨.uuid fresh, [], .undefined⟩, fresh + 1)

def parseCards (fresh i : Nat) : List Json → Option (List BuilderCard × Nat)
  | [] => some ([], fresh)
  | rawCard :: rawCards => do
      let (card, fresh) ← parseCard fresh i rawCard
      let (cards, fresh) ← parseCards fresh (i + 1) rawCards
      return (card :: cards, fresh)

/-- The stored text is `none` where it is no JSON; no cards are read then, and from a value
that is no list. -/
def parseSteps (fresh : Nat) (parsed : Option Json) : Option BuilderState :=
  match parsed with
  | some (.arr rawCards) => (parseCards fresh 0 rawCards).map fun r => ⟨r.1, r.2⟩
  | _ => some ⟨[], fresh⟩

/-! ## Serialize -/

def defaultOperatorForUserField (fieldKey : Json) : Option String :=
  match fieldKey with
  | .str "created_at_date" | .str "last_automation_date" | .str "email_provider"
  | .str "last_vertical_type" => some "="
  | .str "communication_channels" | .str "is_email_deliverable" => some "true"
  | _ => none

/-- The comparison of the times a step asks for, where it asks for more than one. -/
def backfillTimes (output : Obj) : Obj :=
  if ((output.get "custom_times_value").number.any fun q => 1 < q) &&
      (output.get "conditional_times_value").isNullish then
    output.set "conditional_times_value" (.str ">=")
  else output

def backfillUserField (type : String) (output : Obj) : Obj :=
  if type == "user_field" && (output.get "conditional_user_field").isNullish then
    match defaultOperatorForUserField (output.get "user_field_key") with
    | some backfill => output.set "conditional_user_field" (.str backfill)
    | none => output
  else output

def eventOnSerialize (output : Obj) : Obj :=
  match output.get "event_type", output.get "event" with
  | .str channelType, .str actionKey =>
      if channelType == "" || actionKey == "" then output
      else
        match getDbFieldForAction channelType actionKey with
        | some dbField => output.set "event" (.str dbField)
        | none => output
  | _, _ => output

def timeOnSerialize (output : Obj) : Obj :=
  let output :=
    if (output.get "time").isStr "custom" && !(output.get "time_custom").isNullish then
      output.set "time" (output.get "time_custom")
    else output
  output.delete "time_custom"

def normalizeInteractionOnSerialize (output : Obj) : Obj := timeOnSerialize (eventOnSerialize output)

/-- The connector of a step, as the `conditional` of its entry. -/
def withConditional (stepConnector : Json) (output : Obj) : Obj :=
  if stepConnector.truthy then output.set "conditional" stepConnector else output

def serializeStep (step : StepData) : Obj :=
  match step.type with
  | .unknown _ raw => withConditional step.stepConnector raw
  | .known type =>
      let fields := step.fields.filter fun p => !INTERNAL_FIELDS.contains p.1 && !p.2.isNullish
      let output := withConditional step.stepConnector (("type", .str type) :: fields)
      let output := backfillUserField type (backfillTimes output)
      if type == "interation" then normalizeInteractionOnSerialize output else output

def conditionalCard (value : Json) : Obj := [("type", .str "conditionalCard"), ("value", value)]

def serializeCard (card : BuilderCard) : List Obj :=
  (if card.cardConnector.truthy then [conditionalCard card.cardConnector] else []) ++
    card.steps.map serializeStep

def serializeSteps (cards : List BuilderCard) : List (List Obj) := cards.map serializeCard

/-! ## What is written -/

/-- The connector a step is written with. -/
def StepData.connector (s : StepData) : Json :=
  match s.type with
  | .unknown _ raw => if s.stepConnector.truthy then s.stepConnector else Obj.get raw "conditional"
  | .known _ => if s.stepConnector.truthy then s.stepConnector else .undefined

/-- Fields that are of no other place of a step. -/
def Plain (fields : Obj) : Prop := "type" ∉ Obj.keys fields ∧ "conditional" ∉ Obj.keys fields

section
variable {key : String}

theorem get_backfillTimes (h : key ≠ "conditional_times_value") (o : Obj) :
    (backfillTimes o).get key = o.get key := by
  rw [backfillTimes]
  split
  · exact o.get_set_of_ne h _
  · rfl

theorem get_backfillUserField (h : key ≠ "conditional_user_field") (type : String) (o : Obj) :
    (backfillUserField type o).get key = o.get key := by
  rw [backfillUserField]
  split
  · split
    · exact o.get_set_of_ne h _
    · rfl
  · rfl

theorem get_eventOnSerialize (h : key ≠ "event") (o : Obj) : (eventOnSerialize o).get key = o.get key := by
  rw [eventOnSerialize]
  split
  · split
    · rfl
    · split
      · exact o.get_set_of_ne h _
      · rfl
  · rfl

theorem get_timeOnSerialize (h : key ≠ "time") (h' : key ≠ "time_custom") (o : Obj) :
    (timeOnSerialize o).get key = o.get key := by
  rw [timeOnSerialize, Obj.get_delete_of_ne _ h']
  split
  · exact o.get_set_of_ne h _
  · rfl

theorem get_withConditional (h : key ≠ "conditional") (v : Json) (o : Obj) :
    (withConditional v o).get key = o.get key := by
  rw [withConditional]
  split
  · exact o.get_set_of_ne h _
  · rfl

theorem conditional_withConditional (v : Json) (o : Obj) :
    (withConditional v o).get "conditional" = if v.truthy then v else o.get "conditional" := by
  rw [withConditional]
  split
  · exact o.get_set_self _ _
  · rfl

theorem get_serializeStep_known {s : StepData} {type : String} (htype : s.type = .known type)
    (hkey : key = "type" ∨ key = "conditional") : (serializeStep s).get key =
      (withConditional s.stepConnector (("type", .str type) ::
        s.fields.filter fun p => !INTERNAL_FIELDS.contains p.1 && !p.2.isNullish)).get key := by
  have hne : key ≠ "conditional_times_value" ∧ key ≠ "conditional_user_field" ∧ key ≠ "event" ∧
      key ≠ "time" ∧ key ≠ "time_custom" := by
    rcases hkey with rfl | rfl
    · decide
    · decide
  obtain ⟨htimes, huser, hevent, htime, hcustom⟩ := hne
  rw [serializeStep, htype]
  show (if type == "interation" then _ else _ : Obj).get key = _
  split
  · rw [normalizeInteractionOnSerialize, get_timeOnSerialize htime hcustom,
      get_eventOnSerialize hevent, get_backfillUserField huser, get_backfillTimes htimes]
  · rw [get_backfillUserField huser, get_backfillTimes htimes]

theorem not_mem_filter_keys {fields : Obj} (h : key ∉ fields.keys) (q : String × Json → Bool) :
    key ∉ Obj.keys (fields.filter q) :=
  fun hmem => h ((List.filter_sublist.map Prod.fst).subset hmem)

theorem conditional_serializeStep {s : StepData} (h : Plain s.fields) :
    (serializeStep s).get "conditional" = s.connector := by
  cases htype : s.type with
  | unknown originalType raw =>
      rw [serializeStep, StepData.connector, htype]
      exact conditional_withConditional _ _
  | known type =>
      rw [get_serializeStep_known htype (.inr rfl), conditional_withConditional, StepData.connector,
        htype]
      have hkeys : "conditional" ∉ Obj.keys (("type", Json.str type) ::
          s.fields.filter fun p => !INTERNAL_FIELDS.contains p.1 && !p.2.isNullish) := by
        intro hmem
        rcases List.mem_cons.mp hmem with heq | hmem
        · exact absurd heq (by decide : "conditional" ≠ "type")
        · exact not_mem_filter_keys h.2 _ hmem
      rw [Obj.get_of_not_mem hkeys]

theorem type_serializeStep (s : StepData) : (serializeStep s).get "type" =
    match s.type with
    | .known type => .str type
    | .unknown _ raw => Obj.get raw "type" := by
  cases htype : s.type with
  | unknown originalType raw =>
      rw [serializeStep, htype]
      exact get_withConditional (by decide) _ _
  | known type =>
      rw [get_serializeStep_known htype (.inl rfl), get_withConditional (by decide)]
      rfl

end

end OpenBms.Builder
