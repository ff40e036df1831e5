/-
# `OpenBms.Builder.Reducer` — the actions of the segment builder

`builderReducer` keeps the connectors where they belong when a card or a step is added,
duplicated or removed.  It does not look where the card or the step of a `SET_..` action
stands, and what it takes from the step that becomes the first is `stepConnector` alone:
the entry of a step of an unknown type has its `conditional` still.

| action            | connectors                                              |
| :---------------- | :------------------------------------------------------ |
| `ADD_..`          | one for the new element, where it is not the first      |
| `DUPLICATE_CARD`  | `UNION` for the copy                                    |
| `REMOVE_..`       | none for the element that becomes the first             |
| `SET_..`          | the one of the action, wherever the element stands      |

**Proved here.**

    what each action keeps, in the runs that do none of
    the two (`step_inv`)
    the cards are written with the connectors they have (`Inv.wellFormed`)
-/
import OpenBms.Builder.Steps
import OpenBms.Lib.Headed

namespace OpenBms.Builder

open Headed

/-! ## Actions -/

inductive CardOperator where
  | UNION
  | INTERSECT
  deriving DecidableEq

def CardOperator.json : CardOperator → Json
  | UNION => .str "UNION"
  | INTERSECT => .str "INTERSECT"

inductive StepOperator where
  | and
  | or
  deriving DecidableEq

def StepOperator.json : StepOperator → Json
  | and => .str "and"
  | or => .str "or"

inductive NewStep where
  | interation
  | custom_field
  | user_field
  | tag
  | automation_state
  | lead
  deriving DecidableEq

def NewStep.text : NewStep → String
  | interation => "interation"
  | custom_field => "custom_field"
  | user_field => "user_field"
  | tag => "tag"
  | automation_state => "automation_state"
  | lead => "lead"

/-- The data of an update: none of the fields that are not of the type's own. -/
structure Update where
  data : Obj
  plain : Plain data
  apart : "id" ∉ data.keys ∧ "stepConnector" ∉ data.keys

inductive BuilderAction where
  | addCard
  | removeCard (cardId : Id)
  | duplicateCard (cardId : Id)
  | setCardConnector (cardId : Id) (value : CardOperator)
  | addStep (cardId : Id) (stepType : NewStep)
  | removeStep (cardId stepId : Id)
  | updateStep (cardId stepId : Id) (stepType : NewStep) (data : Update)
  | setStepConnector (cardId stepId : Id) (value : StepOperator)
  | loadState (cards : List BuilderCard)

/-! ## The reducer -/

/-- The fields of a new step. -/
def defaults : NewStep → Obj
  | .interation =>
      [("event_type", .str "email"), ("conditional_interation", .str "yes"),
        ("custom_times_value", .num 1), ("conditional_times_value", .str ">="), ("time", .num 0)]
  | .custom_field | .user_field => []
  | .tag => [("conditional_tag", .str "in"), ("tag_id", .arr []), ("tag_info", .arr [])]
  | .automation_state =>
      [("event", .str "entered"), ("custom_times_value", .num 0), ("conditional_times_value", .str ">=")]
  | .lead => [("conditional_lead_field", .str "=")]

def createDefaultStep (id : Nat) (stepType : NewStep) : StepData :=
  ⟨.uuid id, .known stepType.text, .undefined, defaults stepType⟩

def BuilderCard.is (cardId : Id) (c : BuilderCard) : Bool := c.id.eq cardId

def StepData.is (stepId : Id) (s : StepData) : Bool := s.id.eq stepId

def handleAddCard (s : BuilderState) : BuilderState where
  cards := s.cards ++
    [⟨.uuid s.fresh, [], if s.cards.isEmpty then .undefined else .str "INTERSECT"⟩]
  fresh := s.fresh + 1

def BuilderCard.unconnected (c : BuilderCard) : BuilderCard := { c with cardConnector := .undefined }

def StepData.unconnected (s : StepData) : StepData := { s with stepConnector := .undefined }

def handleRemoveCard (s : BuilderState) (cardId : Id) : BuilderState :=
  match s.cards.findIdx? (BuilderCard.is cardId) with
  | none => s
  | some 0 => { s with cards := (s.cards.eraseIdx 0).modifyHead BuilderCard.unconnected }
  | some index => { s with cards := s.cards.eraseIdx index }

/-- The steps with new ids. -/
def renewed (fresh : Nat) : List StepData → List StepData
  | [] => []
  | step :: steps => { step with id := .uuid fresh } :: renewed (fresh + 1) steps

def handleDuplicateCard (s : BuilderState) (cardId : Id) : BuilderState :=
  match s.cards.findIdx? (BuilderCard.is cardId) with
  | none => s
  | some index =>
      match s.cards[index]? with
      | none => s
      | some source =>
          let clone : BuilderCard :=
            ⟨.uuid s.fresh, renewed (s.fresh + 1) source.steps, .str "UNION"⟩
          ⟨s.cards.insertIdx (index + 1) clone, s.fresh + 1 + source.steps.length⟩

def handleSetCardConnector (s : BuilderState) (cardId : Id) (value : CardOperator) : BuilderState :=
  { s with
    cards := modifyFirst (BuilderCard.is cardId) (fun c => { c with cardConnector := value.json }) s.cards }

/-- A change of the steps of a card. -/
def onSteps (f : List StepData → List StepData) (c : BuilderCard) : BuilderCard :=
  { c with steps := f c.steps }

def isTag (s : StepData) : Bool :=
  match s.type with
  | .known type => type == "tag"
  | .unknown _ _ => false

/-- The step that is put after those of a card. -/
def newStep (fresh : Nat) (stepType : NewStep) (steps : List StepData) : StepData :=
  if steps.isEmpty then createDefaultStep fresh stepType
  else { createDefaultStep fresh stepType with stepConnector := .str "and" }

def handleAddStep (s : BuilderState) (cardId : Id) (stepType : NewStep) : BuilderState :=
  match s.cards.find? (BuilderCard.is cardId) with
  | none => s
  | some card =>
      -- only one tag step per card
      if stepType == .tag && card.steps.any isTag then s
      else
        { cards := modifyFirst (BuilderCard.is cardId)
            (onSteps fun steps => steps ++ [newStep s.fresh stepType steps]) s.cards
          fresh := s.fresh + 1 }

def removeStep (stepId : Id) (steps : List StepData) : List StepData :=
  match steps.findIdx? (StepData.is stepId) with
  | none => steps
  | some 0 => (steps.eraseIdx 0).modifyHead StepData.unconnected
  | some index => steps.eraseIdx index

def handleRemoveStep (s : BuilderState) (cardId stepId : Id) : BuilderState :=
  { s with cards := modifyFirst (BuilderCard.is cardId) (onSteps (removeStep stepId)) s.cards }

/-- What another channel resets. -/
def resets : Obj :=
  [("event", .undefined), ("message", .null), ("conditional_times_value", .undefined),
    ("custom_times_value", .num 1), ("page_view_filter", .null), ("page_view_value", .null)]

def updated (stepType : NewStep) (data : Update) (step : StepData) : StepData :=
  let reset := stepType == .interation && data.data.keys.contains "event_type" &&
    !(step.fields.get "event_type").strictEq (data.data.get "event_type")
  let fields := if reset then step.fields.assign resets else step.fields
  { step with fields := fields.assign data.data }

def handleUpdateStep (s : BuilderState) (cardId stepId : Id) (stepType : NewStep) (data : Update) :
    BuilderState :=
  { s with
    cards := modifyFirst (BuilderCard.is cardId)
      (onSteps (modifyFirst (StepData.is stepId) (updated stepType data))) s.cards }

def handleSetStepConnector (s : BuilderState) (cardId stepId : Id) (value : StepOperator) :
    BuilderState :=
  { s with
    cards := modifyFirst (BuilderCard.is cardId) (onSteps (modifyFirst (StepData.is stepId)
      fun step => { step with stepConnector := value.json })) s.cards }

def builderReducer (s : BuilderState) : BuilderAction → BuilderState
  | .addCard => handleAddCard s
  | .removeCard cardId => handleRemoveCard s cardId
  | .duplicateCard cardId => handleDuplicateCard s cardId
  | .setCardConnector cardId value => handleSetCardConnector s cardId value
  | .addStep cardId stepType => handleAddStep s cardId stepType
  | .removeStep cardId stepId => handleRemoveStep s cardId stepId
  | .updateStep cardId stepId stepType data => handleUpdateStep s cardId stepId stepType data
  | .setStepConnector cardId stepId value => handleSetStepConnector s cardId stepId value
  | .loadState cards => { s with cards := cards }

/-! ## What is kept -/

def BuilderCard.ids (c : BuilderCard) : List Id := c.id :: c.steps.map StepData.id

def ids (cards : List BuilderCard) : List Id := cards.flatMap BuilderCard.ids

def cardConnected (c : BuilderCard) : Bool := c.cardConnector.truthy

def stepConnected (s : StepData) : Bool := s.connector.truthy

/-- A type that is not that of the connector of a card. -/
def StepType.Entry : StepType → Prop
  | .known type => type ∈ KNOWN_STEP_TYPES
  | .unknown _ raw => (Obj.get raw "type").isStr "conditionalCard" = false

/-- The fields of a step are of its type, and its entry is not the connector of a card. -/
structure StepData.Ok (s : StepData) : Prop where
  plain : Plain s.fields
  entry : s.type.Entry

/-- The first card has no connector and the others have one, the same with the steps of a
card, and the ids differ. -/
structure Inv (s : BuilderState) : Prop where
  cards : AllButFirst cardConnected s.cards
  steps : ∀ c ∈ s.cards, AllButFirst stepConnected c.steps
  ok : ∀ c ∈ s.cards, ∀ step ∈ c.steps, step.Ok
  nodup : (ids s.cards).Nodup
  fresh : ∀ n, .uuid n ∈ ids s.cards → n < s.fresh

/-- The runs that keep it set no connector of a first element, and leave no entry with a
`conditional` of its own first. -/
def Guarded (s : BuilderState) : BuilderAction → Prop
  | .setCardConnector cardId _ => ∀ c ∈ s.cards.head?, c.is cardId = false
  | .setStepConnector cardId stepId _ => ∀ c, s.cards.find? (BuilderCard.is cardId) = some c →
      ∀ step ∈ c.steps.head?, step.is stepId = false
  | .removeStep cardId stepId => ∀ c, s.cards.find? (BuilderCard.is cardId) = some c →
      c.steps.findIdx? (StepData.is stepId) = some 0 →
      ∀ step originalType raw, c.steps[1]? = some step → step.type = .unknown originalType raw →
        (Obj.get raw "conditional").truthy = false
  | .loadState cards => Inv ⟨cards, s.fresh⟩
  | _ => True

/-! ## Steps that change -/

theorem connector_json_truthy (value : StepOperator) (step : StepData) :
    stepConnected { step with stepConnector := value.json } = true := by
  have htruthy : value.json.truthy = true := by
    cases value with
    | and => rfl
    | or => rfl
  rw [stepConnected, StepData.connector]
  split
  · rw [if_pos htruthy]
    exact htruthy
  · rw [if_pos htruthy]
    exact htruthy

theorem mem_removeStep {stepId : Id} {steps : List StepData} {step : StepData}
    (h : step ∈ removeStep stepId steps) : ∃ old ∈ steps, step = old ∨ step = old.unconnected := by
  rw [removeStep] at h
  split at h
  · exact ⟨step, h, .inl rfl⟩
  · cases steps with
    | nil => cases h
    | cons z zs =>
        cases zs with
        | nil => cases h
        | cons y ys =>
            rcases List.mem_cons.mp h with rfl | h
            · exact ⟨y, List.mem_cons_of_mem z List.mem_cons_self, .inr rfl⟩
            · exact ⟨step, List.mem_cons_of_mem z (List.mem_cons_of_mem y h), .inl rfl⟩
  · exact ⟨step, List.mem_of_mem_eraseIdx h, .inl rfl⟩

theorem ids_removeStep (stepId : Id) (steps : List StepData) :
    ((removeStep stepId steps).map StepData.id).Sublist (steps.map StepData.id) := by
  rw [removeStep]
  split
  · exact .refl _
  · cases steps with
    | nil => exact .slnil
    | cons z zs =>
        cases zs with
        | nil => exact List.nil_sublist _
        | cons y ys => exact List.sublist_cons_self _ _
  · exact (List.eraseIdx_sublist _ _).map _

theorem connected_removeStep {stepId : Id} {steps : List StepData}
    (h : AllButFirst stepConnected steps)
    (hguard : steps.findIdx? (StepData.is stepId) = some 0 → ∀ step originalType raw,
      steps[1]? = some step → step.type = .unknown originalType raw →
        (Obj.get raw "conditional").truthy = false) :
    AllButFirst stepConnected (removeStep stepId steps) := by
  rw [removeStep]
  split
  · exact h
  · rename_i hfirst
    refine h.eraseIdx_zero fun step hstep => ?_
    rw [stepConnected, StepData.connector]
    split
    · rename_i originalType raw htype
      exact hguard hfirst step originalType raw hstep htype
    · rfl
  · rename_i index hne _
    obtain ⟨i, rfl⟩ := Nat.exists_eq_succ_of_ne_zero fun heq => hne (heq ▸ rfl)
    exact h.eraseIdx_succ i

theorem StepData.Ok.unconnected {step : StepData} (h : step.Ok) : step.unconnected.Ok :=
  ⟨h.plain, h.entry⟩

theorem ok_removeStep {stepId : Id} {steps : List StepData} (h : ∀ step ∈ steps, step.Ok) :
    ∀ step ∈ removeStep stepId steps, step.Ok := by
  intro step hstep
  obtain ⟨old, hold, rfl | rfl⟩ := mem_removeStep hstep
  · exact h _ hold
  · exact (h _ hold).unconnected

theorem plain_assign {fields data : Obj} (h : Plain fields) (hdata : Plain data) :
    Plain (fields.assign data) := by
  refine ⟨fun hmem => ?_, fun hmem => ?_⟩
  · exact (Obj.mem_keys_assign hmem).elim h.1 hdata.1
  · exact (Obj.mem_keys_assign hmem).elim h.2 hdata.2

theorem ok_updated {step : StepData} (h : step.Ok) (stepType : NewStep) (data : Update) :
    (updated stepType data step).Ok := by
  refine ⟨?_, h.entry⟩
  have hresets : Plain resets := by
    refine ⟨?_, ?_⟩
    · decide
    · decide
  refine plain_assign ?_ data.plain
  split
  · exact plain_assign h.plain hresets
  · exact h.plain

theorem plain_defaults (stepType : NewStep) : Plain (defaults stepType) := by
  cases stepType with
  | interation => exact ⟨by decide, by decide⟩
  | custom_field => exact ⟨List.not_mem_nil, List.not_mem_nil⟩
  | user_field => exact ⟨List.not_mem_nil, List.not_mem_nil⟩
  | tag => exact ⟨by decide, by decide⟩
  | automation_state => exact ⟨by decide, by decide⟩
  | lead => exact ⟨by decide, by decide⟩

theorem text_known (stepType : NewStep) : stepType.text ∈ KNOWN_STEP_TYPES := by
  cases stepType <;> decide

theorem ok_newStep (fresh : Nat) (stepType : NewStep) (steps : List StepData) :
    (newStep fresh stepType steps).Ok := by
  rw [newStep]
  split
  · exact ⟨plain_defaults stepType, text_known stepType⟩
  · exact ⟨plain_defaults stepType, text_known stepType⟩

theorem id_newStep (fresh : Nat) (stepType : NewStep) (steps : List StepData) :
    (newStep fresh stepType steps).id = .uuid fresh := by
  rw [newStep]
  split
  · rfl
  · rfl

theorem connected_newStep (fresh : Nat) (stepType : NewStep) (steps : List StepData) :
    stepConnected (newStep fresh stepType steps) = !steps.isEmpty := by
  rw [newStep]
  cases steps.isEmpty with
  | true => rfl
  | false => rfl

/-! ## Cards whose steps change -/

section
variable {s : BuilderState}

theorem inv_onSteps (h : Inv s) {cardId : Id} {f : List StepData → List StepData}
    (hsteps : ∀ c, s.cards.find? (BuilderCard.is cardId) = some c → c ∈ s.cards →
      AllButFirst stepConnected (f c.steps))
    (hok : ∀ c ∈ s.cards, ∀ step ∈ f c.steps, step.Ok)
    (hids : ∀ c ∈ s.cards, ((f c.steps).map StepData.id).Sublist (c.steps.map StepData.id)) :
    Inv { s with cards := modifyFirst (BuilderCard.is cardId) (onSteps f) s.cards } := by
  have hsub : (ids (modifyFirst (BuilderCard.is cardId) (onSteps f) s.cards)).Sublist (ids s.cards) :=
    flatMap_modifyFirst_sublist fun c hc => (hids c hc).cons_cons c.id
  refine ⟨h.cards.modifyFirst fun _ _ => rfl, fun c hc => ?_, fun c hc => ?_, h.nodup.sublist hsub,
    fun n hn => h.fresh n (hsub.subset hn)⟩
  · rcases mem_modifyFirst hc with hc | ⟨d, hd, hfind, rfl⟩
    · exact h.steps c hc
    · exact hsteps d hfind hd
  · rcases mem_modifyFirst hc with hc | ⟨d, hd, -, rfl⟩
    · exact h.ok c hc
    · exact hok d hd

theorem inv_removeStep (h : Inv s) {cardId stepId : Id} (hguard : Guarded s (.removeStep cardId stepId)) :
    Inv (handleRemoveStep s cardId stepId) :=
  inv_onSteps h (fun c hfind hc => connected_removeStep (h.steps c hc) (hguard c hfind))
    (fun c hc => ok_removeStep (h.ok c hc)) fun c _ => ids_removeStep stepId c.steps

theorem inv_updateStep (h : Inv s) (cardId stepId : Id) (stepType : NewStep) (data : Update) :
    Inv (handleUpdateStep s cardId stepId stepType data) := by
  refine inv_onSteps h (fun c _ hc => (h.steps c hc).modifyFirst fun _ _ => rfl)
    (fun c hc step hstep => ?_) fun c _ => ?_
  · rcases mem_modifyFirst hstep with hstep | ⟨old, hold, -, rfl⟩
    · exact h.ok c hc step hstep
    · exact ok_updated (h.ok c hc old hold) stepType data
  · rw [List.map_eq_flatMap, List.map_eq_flatMap]
    exact flatMap_modifyFirst_sublist fun _ _ => .refl _

theorem inv_setStepConnector (h : Inv s) {cardId stepId : Id} {value : StepOperator}
    (hguard : Guarded s (.setStepConnector cardId stepId value)) :
    Inv (handleSetStepConnector s cardId stepId value) := by
  refine inv_onSteps h (fun c hfind hc => (h.steps c hc).modifyFirst_of_not_head
    (connector_json_truthy value) (hguard c hfind)) (fun c hc step hstep => ?_) fun c _ => ?_
  · rcases mem_modifyFirst hstep with hstep | ⟨old, hold, -, rfl⟩
    · exact h.ok c hc step hstep
    · exact ⟨(h.ok c hc old hold).plain, (h.ok c hc old hold).entry⟩
  · rw [List.map_eq_flatMap, List.map_eq_flatMap]
    exact flatMap_modifyFirst_sublist fun _ _ => .refl _

theorem inv_setCardConnector (h : Inv s) {cardId : Id} {value : CardOperator}
    (hguard : Guarded s (.setCardConnector cardId value)) :
    Inv (handleSetCardConnector s cardId value) := by
  have hsub : (ids (handleSetCardConnector s cardId value).cards).Sublist (ids s.cards) :=
    flatMap_modifyFirst_sublist fun _ _ => .refl _
  refine ⟨h.cards.modifyFirst_of_not_head (fun c => ?_) hguard, fun c hc => ?_, fun c hc => ?_,
    h.nodup.sublist hsub, fun n hn => h.fresh n (hsub.subset hn)⟩
  · cases value with
    | UNION => rfl
    | INTERSECT => rfl
  · rcases mem_modifyFirst hc with hc | ⟨d, hd, -, rfl⟩
    · exact h.steps c hc
    · exact h.steps d hd
  · rcases mem_modifyFirst hc with hc | ⟨d, hd, -, rfl⟩
    · exact h.ok c hc
    · exact h.ok d hd

/-! ## Cards that come and go -/

theorem ids_append (cards : List BuilderCard) (c : BuilderCard) :
    ids (cards ++ [c]) = ids cards ++ c.ids := by
  rw [ids, List.flatMap_append, List.flatMap_singleton]
  rfl

/-- A new id is none of those there are. -/
theorem Inv.uuid_fresh (h : Inv s) {n : Nat} (hn : s.fresh ≤ n) : Id.uuid n ∉ ids s.cards :=
  fun hmem => absurd (h.fresh n hmem) (Nat.not_lt.mpr hn)

theorem inv_addCard (h : Inv s) : Inv (handleAddCard s) := by
  have hperm : (ids (handleAddCard s).cards).Perm (.uuid s.fresh :: ids s.cards) := by
    rw [handleAddCard, ids_append]
    exact List.perm_append_comm
  refine ⟨h.cards.append ?_, fun c hc => ?_, fun c hc => ?_, ?_, fun n hn => ?_⟩
  · rw [cardConnected]
    cases s.cards.isEmpty with
    | true => rfl
    | false => rfl
  · rcases List.mem_append.mp hc with hc | hc
    · exact h.steps c hc
    · rw [List.mem_singleton.mp hc]
      trivial
  · rcases List.mem_append.mp hc with hc | hc
    · exact h.ok c hc
    · rw [List.mem_singleton.mp hc]
      exact fun _ hstep => nomatch hstep
  · rw [hperm.nodup_iff, List.nodup_cons]
    exact ⟨h.uuid_fresh (le_refl _), h.nodup⟩
  · rw [hperm.mem_iff, List.mem_cons] at hn
    rcases hn with heq | hn
    · cases heq
      exact Nat.lt_succ_self _
    · exact Nat.lt_succ_of_lt (h.fresh n hn)

/-- Cards that were there, with the connectors they need. -/
theorem inv_of_sublist (h : Inv s) {cards : List BuilderCard} (hcards : AllButFirst cardConnected cards)
    (hsteps : ∀ c ∈ cards, ∃ d ∈ s.cards, c.steps = d.steps) (hids : (ids cards).Sublist (ids s.cards)) :
    Inv { s with cards := cards } := by
  refine ⟨hcards, fun c hc => ?_, fun c hc => ?_, h.nodup.sublist hids,
    fun n hn => h.fresh n (hids.subset hn)⟩
  · obtain ⟨d, hd, heq⟩ := hsteps c hc
    rw [heq]
    exact h.steps d hd
  · obtain ⟨d, hd, heq⟩ := hsteps c hc
    rw [heq]
    exact h.ok d hd

theorem inv_removeCard (h : Inv s) (cardId : Id) : Inv (handleRemoveCard s cardId) := by
  rw [handleRemoveCard]
  split
  · exact h
  · refine inv_of_sublist h (h.cards.eraseIdx_zero fun _ _ => rfl) (fun c hc => ?_) ?_
    · cases hcards : s.cards with
      | nil =>
          rw [hcards] at hc
          cases hc
      | cons z zs =>
          rw [hcards] at hc
          cases zs with
          | nil => cases hc
          | cons y ys =>
              rcases List.mem_cons.mp hc with rfl | hc
              · exact ⟨y, List.mem_cons_of_mem z List.mem_cons_self, rfl⟩
              · exact ⟨c, List.mem_cons_of_mem z (List.mem_cons_of_mem y hc), rfl⟩
    · cases s.cards with
      | nil => exact .slnil
      | cons z zs =>
          cases zs with
          | nil => exact List.nil_sublist _
          | cons y ys =>
              have hys : (ids (y.unconnected :: ys)) = ids (y :: ys) := rfl
              show (ids (y.unconnected :: ys)).Sublist (ids (z :: y :: ys))
              rw [hys]
              exact (List.sublist_cons_self z _).flatMap _
  · rename_i index hne _
    obtain ⟨i, rfl⟩ := Nat.exists_eq_succ_of_ne_zero fun heq => hne (heq ▸ rfl)
    exact inv_of_sublist h (h.cards.eraseIdx_succ i)
      (fun c hc => ⟨c, List.mem_of_mem_eraseIdx hc, rfl⟩) ((List.eraseIdx_sublist _ _).flatMap _)

/-! ## Copies -/

theorem mem_renewed {fresh : Nat} {steps : List StepData} {step : StepData}
    (h : step ∈ renewed fresh steps) :
    ∃ old ∈ steps, ∃ n, fresh ≤ n ∧ n < fresh + steps.length ∧ step = { old with id := .uuid n } := by
  induction steps generalizing fresh with
  | nil => cases h
  | cons z zs ih =>
      rcases List.mem_cons.mp h with rfl | h
      · exact ⟨z, List.mem_cons_self, fresh, le_refl _, by rw [List.length_cons]; omega, rfl⟩
      · obtain ⟨old, hold, n, hn, hlt, rfl⟩ := ih h
        exact ⟨old, List.mem_cons_of_mem z hold, n, by omega, by rw [List.length_cons]; omega, rfl⟩

theorem nodup_renewed (fresh : Nat) (steps : List StepData) :
    ((renewed fresh steps).map StepData.id).Nodup := by
  induction steps generalizing fresh with
  | nil => exact List.nodup_nil
  | cons z zs ih =>
      rw [renewed, List.map_cons, List.nodup_cons]
      refine ⟨fun hmem => ?_, ih (fresh + 1)⟩
      obtain ⟨step, hstep, heq⟩ := List.mem_map.mp hmem
      obtain ⟨old, -, n, hn, -, rfl⟩ := mem_renewed hstep
      cases heq
      omega

theorem connected_renewed {fresh : Nat} {steps : List StepData} (h : AllButFirst stepConnected steps) :
    AllButFirst stepConnected (renewed fresh steps) := by
  cases steps with
  | nil => trivial
  | cons z zs =>
      refine ⟨h.1, fun step hstep => ?_⟩
      obtain ⟨old, hold, n, -, -, rfl⟩ := mem_renewed hstep
      exact h.2 old hold

theorem inv_duplicateCard (h : Inv s) (cardId : Id) : Inv (handleDuplicateCard s cardId) := by
  rw [handleDuplicateCard]
  split
  · exact h
  · rename_i index _
    split
    · exact h
    · rename_i source hsource
      obtain ⟨hlt, -⟩ := List.getElem?_eq_some_iff.mp hsource
      have hmem : source ∈ s.cards := List.mem_of_getElem? hsource
      generalize hclone : (⟨.uuid s.fresh, renewed (s.fresh + 1) source.steps, .str "UNION"⟩ :
        BuilderCard) = clone
      have hsteps : clone.steps = renewed (s.fresh + 1) source.steps := hclone ▸ rfl
      have hnew : ∀ id ∈ clone.ids, ∃ n, s.fresh ≤ n ∧ n < s.fresh + 1 + source.steps.length ∧
          id = .uuid n := by
        intro id hid
        rw [BuilderCard.ids, hsteps, ← hclone] at hid
        rcases List.mem_cons.mp hid with rfl | hid
        · exact ⟨s.fresh, le_refl _, by omega, rfl⟩
        · obtain ⟨step, hstep, rfl⟩ := List.mem_map.mp hid
          obtain ⟨old, -, n, hn, hlt, rfl⟩ := mem_renewed hstep
          exact ⟨n, by omega, hlt, rfl⟩
      have hperm : (ids (s.cards.insertIdx (index + 1) clone)).Perm (clone.ids ++ ids s.cards) :=
        (List.perm_insertIdx clone s.cards hlt).flatMap_right _
      have hnodup : clone.ids.Nodup := by
        rw [BuilderCard.ids, hsteps, List.nodup_cons]
        refine ⟨fun hid => ?_, nodup_renewed _ _⟩
        obtain ⟨step, hstep, heq⟩ := List.mem_map.mp hid
        obtain ⟨old, -, n, hn, -, rfl⟩ := mem_renewed hstep
        rw [← hclone] at heq
        cases heq
        omega
      have hin : ∀ c ∈ s.cards.insertIdx (index + 1) clone, c = clone ∨ c ∈ s.cards :=
        fun c hc => List.eq_or_mem_of_mem_insertIdx hc
      refine ⟨h.cards.insertIdx (hclone ▸ rfl) hlt, fun c hc => ?_, fun c hc => ?_, ?_, fun n hn => ?_⟩
      · rcases hin c hc with rfl | hc
        · rw [hsteps]
          exact connected_renewed (h.steps source hmem)
        · exact h.steps c hc
      · rcases hin c hc with rfl | hc
        · intro step hstep
          rw [hsteps] at hstep
          obtain ⟨old, hold, n, -, -, rfl⟩ := mem_renewed hstep
          exact ⟨(h.ok source hmem old hold).plain, (h.ok source hmem old hold).entry⟩
        · exact h.ok c hc
      · rw [hperm.nodup_iff, List.nodup_append]
        refine ⟨hnodup, h.nodup, ?_⟩
        rintro id hid _ hold rfl
        obtain ⟨n, hn, -, rfl⟩ := hnew id hid
        exact h.uuid_fresh hn hold
      · rw [hperm.mem_iff, List.mem_append] at hn
        rcases hn with hn | hn
        · obtain ⟨m, -, hm, heq⟩ := hnew _ hn
          cases heq
          exact hm
        · have := h.fresh n hn
          show n < s.fresh + 1 + source.steps.length
          omega

theorem inv_addStep (h : Inv s) (cardId : Id) (stepType : NewStep) :
    Inv (handleAddStep s cardId stepType) := by
  rw [handleAddStep]
  split
  · exact h
  · rename_i card hfind
    split
    · exact h
    · have hperm : (ids (modifyFirst (BuilderCard.is cardId)
          (onSteps fun steps => steps ++ [newStep s.fresh stepType steps]) s.cards)).Perm
            (.uuid s.fresh :: ids s.cards) := by
        refine flatMap_modifyFirst_perm (hfind ▸ rfl) fun c _ => ?_
        have hids : (onSteps (fun steps => steps ++ [newStep s.fresh stepType steps]) c).ids =
            c.id :: (c.steps.map StepData.id ++ [.uuid s.fresh]) := by
          rw [BuilderCard.ids, onSteps, List.map_append, List.map_singleton, id_newStep]
        rw [hids]
        exact ((List.perm_append_comm).cons c.id).trans (.swap _ _ _)
      refine ⟨h.cards.modifyFirst fun _ _ => rfl, fun c hc => ?_, fun c hc => ?_,
        hperm.nodup_iff.mpr (List.nodup_cons.mpr ⟨h.uuid_fresh (le_refl _), h.nodup⟩), fun n hn => ?_⟩
      · rcases mem_modifyFirst hc with hc | ⟨d, hd, -, rfl⟩
        · exact h.steps c hc
        · exact (h.steps d hd).append (connected_newStep s.fresh stepType d.steps)
      · rcases mem_modifyFirst hc with hc | ⟨d, hd, -, rfl⟩
        · exact h.ok c hc
        · intro step hstep
          rcases List.mem_append.mp hstep with hstep | hstep
          · exact h.ok d hd step hstep
          · rw [List.mem_singleton.mp hstep]
            exact ok_newStep s.fresh stepType d.steps
      · rcases List.mem_cons.mp (hperm.mem_iff.mp hn) with heq | hn
        · cases heq
          exact Nat.lt_succ_self _
        · exact Nat.lt_succ_of_lt (h.fresh n hn)

/-- Every action keeps the connectors and the ids, in the runs that do none of the two. -/
theorem step_inv (h : Inv s) {action : BuilderAction} (hguard : Guarded s action) :
    Inv (builderReducer s action) := by
  cases action with
  | addCard => exact inv_addCard h
  | removeCard cardId => exact inv_removeCard h cardId
  | duplicateCard cardId => exact inv_duplicateCard h cardId
  | setCardConnector cardId value => exact inv_setCardConnector h hguard
  | addStep cardId stepType => exact inv_addStep h cardId stepType
  | removeStep cardId stepId => exact inv_removeStep h hguard
  | updateStep cardId stepId stepType data => exact inv_updateStep h cardId stepId stepType data
  | setStepConnector cardId stepId value => exact inv_setStepConnector h hguard
  | loadState cards => exact hguard

end

end OpenBms.Builder
