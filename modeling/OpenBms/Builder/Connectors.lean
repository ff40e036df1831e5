/-
# `OpenBms.Builder.Connectors` — the connectors in what the builder saves

What is stored is read as it is: a card may come without an entry for its connector, a
step without its `conditional`, and a step of a known type may have fields named `id`
and `stepConnector`, which take the place of the builder's own.

| stored, or done                               | saved                                     |
| :-------------------------------------------- | :---------------------------------------- |
| a later card without a connector              | without one                               |
| a first step of an unknown type with one      | with it                                   |
| the step before one of an unknown type removed | with the connector it had                |
| the connector of the first card set           | with it                                   |

**Proved here.**

    what is read of a well stored segment keeps the
    connectors and the ids (`inv_parseSteps`)
    what is kept is saved well formed (`Inv.wellFormed`)
    a well stored segment is saved well formed after any
    allowed actions (`builder_wellFormed`)
-/
import OpenBms.Builder.Reducer
import OpenBms.Lib.Runs

namespace OpenBms.Builder

open Headed

/-! ## What is saved -/

def isConditionalCard (entry : Obj) : Bool := (entry.get "type").isStr "conditionalCard"

def hasConnector (entry : Obj) : Bool := (entry.get "conditional").truthy

/-- Each card but the first has one entry for its connector, each step but the first of its
card has a connector, and the ids of the cards and the steps differ. -/
structure WellFormed (s : BuilderState) : Prop where
  cards : ∀ i card, (serializeSteps s.cards)[i]? = some card →
    card.countP isConditionalCard = if i = 0 then 0 else 1
  steps : ∀ card ∈ serializeSteps s.cards,
    AllButFirst hasConnector (card.filter fun entry => !isConditionalCard entry)
  ids : (ids s.cards).Nodup

theorem isConditionalCard_serializeStep {step : StepData} (h : step.Ok) :
    isConditionalCard (serializeStep step) = false := by
  have hentry := h.entry
  rw [isConditionalCard, type_serializeStep]
  cases htype : step.type with
  | unknown originalType raw =>
      rw [htype] at hentry
      exact hentry
  | known type =>
      rw [htype] at hentry
      show (type == "conditionalCard") = false
      rw [beq_eq_false_iff_ne]
      rintro rfl
      have hmem : "conditionalCard" ∈ KNOWN_STEP_TYPES := hentry
      exact absurd hmem (by decide)

theorem Inv.wellFormed {s : BuilderState} (h : Inv s) : WellFormed s := by
  have hentries : ∀ c ∈ s.cards, ∀ entry ∈ c.steps.map serializeStep, isConditionalCard entry = false := by
    intro c hc entry hentry
    obtain ⟨step, hstep, rfl⟩ := List.mem_map.mp hentry
    exact isConditionalCard_serializeStep (h.ok c hc step hstep)
  refine ⟨fun i card hcard => ?_, fun card hcard => ?_, h.nodup⟩
  · rw [serializeSteps, List.getElem?_map, Option.map_eq_some_iff] at hcard
    obtain ⟨c, hc, rfl⟩ := hcard
    have hmem : c ∈ s.cards := List.mem_of_getElem? hc
    have hnone : (c.steps.map serializeStep).countP isConditionalCard = 0 :=
      List.countP_eq_zero.mpr fun entry hentry =>
        Bool.not_eq_true _ ▸ hentries c hmem entry hentry
    have hplace : c.cardConnector.truthy = true ↔ i ≠ 0 := allButFirst_iff.mp h.cards i c hc
    rw [serializeCard, List.countP_append, hnone, Nat.add_zero]
    rcases Decidable.em (i = 0) with hi | hi
    · rw [if_neg fun htrue => hplace.mp htrue hi, if_pos hi]
      rfl
    · rw [if_pos (hplace.mpr hi), if_neg hi]
      rfl
  · obtain ⟨c, hc, rfl⟩ := List.mem_map.mp hcard
    have hfilter : (serializeCard c).filter (fun entry => !isConditionalCard entry) =
        c.steps.map serializeStep := by
      have hself : (c.steps.map serializeStep).filter (fun entry => !isConditionalCard entry) =
          c.steps.map serializeStep :=
        List.filter_eq_self.mpr fun entry hentry => by rw [hentries c hc entry hentry]; rfl
      rw [serializeCard, List.filter_append, hself]
      split
      · rfl
      · rfl
    rw [hfilter]
    refine AllButFirst.map (fun step hstep => ?_) (h.steps c hc)
    rw [hasConnector, conditional_serializeStep (h.ok c hc step hstep).plain]
    rfl

/-! ## What is stored -/

/-- The last of the fields with a name. -/
def lastOf : Obj → String → Option Json
  | [], _ => none
  | p :: o, key => (lastOf o key).or (if p.1 == key then some p.2 else none)

/-- The connector the `i`-th step of a card is read with. -/
def storedConnector (i : Nat) (raw : Json) : Json :=
  match knownType (Obj.get raw.spread "type") with
  | none => Obj.get raw.spread "conditional"
  | some _ => (lastOf raw.spread "stepConnector").getD
      (if i = 0 then .undefined else Obj.get raw.spread "conditional")

/-- The `id` of a step of a known type. -/
def storedId (raw : Json) : Option Json :=
  match knownType (Obj.get raw.spread "type") with
  | none => none
  | some _ => lastOf raw.spread "id"

/-- The entries of a card that are steps; none where it is no list. -/
def storedSteps (rawCard : Json) : List Json :=
  match rawCard with
  | .arr entries => entries.filter isStep
  | _ => []

/-- Each card but the first is a list with a connector, each step but the first of its card
has one, and the ids that are stored differ. -/
structure WellStored (rawCards : List Json) : Prop where
  cards : ∀ i rawCard, rawCards[i]? = some rawCard → i ≠ 0 →
    ∃ entries, rawCard = .arr entries ∧ (cardConnectorOf entries).truthy = true
  steps : ∀ rawCard ∈ rawCards, ∀ i raw, (storedSteps rawCard)[i]? = some raw →
    ((storedConnector i raw).truthy = true ↔ i ≠ 0)
  ids : ((rawCards.flatMap storedSteps).filterMap storedId).Nodup

/-! ## A step that is read -/

theorem knownType_mem {v : Json} {type : String} (h : knownType v = some type) :
    type ∈ KNOWN_STEP_TYPES := by
  cases v with
  | str t =>
      have hdef : knownType (.str t) = if KNOWN_STEP_TYPES.contains t then some t else none := rfl
      rw [hdef] at h
      split at h
      · rename_i hknown
        cases h
        exact List.contains_iff_mem.mp hknown
      · cases h
  | undefined | null | bool _ | num _ | arr _ | obj _ => cases h

theorem plain_set {fields : Obj} (h : Plain fields) {key : String} (htype : key ≠ "type")
    (hcond : key ≠ "conditional") (v : Json) : Plain (fields.set key v) := by
  refine ⟨fun hmem => ?_, fun hmem => ?_⟩
  · rcases Obj.mem_keys_set hmem with heq | hmem
    · exact htype heq.symm
    · exact h.1 hmem
  · rcases Obj.mem_keys_set hmem with heq | hmem
    · exact hcond heq.symm
    · exact h.2 hmem

theorem plain_normalizeOnParse (type : String) {fields : Obj} (h : Plain fields) :
    Plain (normalizeOnParse type fields) := by
  have hevent : ∀ o : Obj, Plain o → Plain (eventOnParse o) := by
    intro o ho
    rw [eventOnParse]
    split
    · dsimp only
      split
      · exact ho
      · split
        · exact plain_set ho (by decide) (by decide) _
        · exact ho
    · exact ho
  have htime : ∀ o : Obj, Plain o → Plain (timeOnParse o) := by
    intro o ho
    rw [timeOnParse]
    split
    · split
      · exact ho
      · exact plain_set (plain_set ho (by decide) (by decide) _) (by decide) (by decide) _
    · exact ho
  rw [normalizeOnParse]
  split
  · refine htime _ (hevent _ ?_)
    split
    · exact h
    · exact plain_set h (by decide) (by decide) _
  · split
    · rw [normalizeTagOnParse]
      split
      · exact plain_set h (by decide) (by decide) _
      · exact h
    · exact h

theorem foldl_readField (o : Obj) (step : StepData) (h : Plain step.fields) :
    (o.foldl readField step).id = ((lastOf o "id").map Id.stored).getD step.id ∧
      (o.foldl readField step).stepConnector = (lastOf o "stepConnector").getD step.stepConnector ∧
      (o.foldl readField step).type = step.type ∧ Plain (o.foldl readField step).fields := by
  induction o generalizing step with
  | nil => exact ⟨rfl, rfl, rfl, h⟩
  | cons p o ih =>
      obtain ⟨key, value⟩ := p
      have hfields : Plain (readField step (key, value)).fields := by
        rw [readField]
        split
        · exact h
        · rename_i hkey
          rw [Bool.not_eq_true, Bool.or_eq_false_iff, beq_eq_false_iff_ne, beq_eq_false_iff_ne] at hkey
          split
          · exact h
          · split
            · exact h
            · exact plain_set h hkey.2 hkey.1 _
      obtain ⟨hid, hconn, htype, hplain⟩ := ih (readField step (key, value)) hfields
      rw [List.foldl_cons]
      refine ⟨hid.trans ?_, hconn.trans ?_, htype.trans ?_, hplain⟩
      · rw [lastOf]
        cases lastOf o "id" with
        | some v => rfl
        | none =>
            rw [Option.map_none, Option.getD_none, Option.none_or, readField]
            split
            · rename_i hkey
              rcases Bool.or_eq_true _ _ ▸ hkey with hkey | hkey
              · rw [beq_iff_eq.mp hkey]
                rfl
              · rw [beq_iff_eq.mp hkey]
                rfl
            · split
              · rename_i hkey
                rw [beq_iff_eq.mp hkey]
                rfl
              · split
                · rfl
                · rfl
      · rw [lastOf]
        cases lastOf o "stepConnector" with
        | some v => rfl
        | none =>
            rw [Option.getD_none, Option.none_or, readField]
            split
            · rename_i hkey
              rcases Bool.or_eq_true _ _ ▸ hkey with hkey | hkey
              · rw [beq_iff_eq.mp hkey]
                rfl
              · rw [beq_iff_eq.mp hkey]
                rfl
            · split
              · rename_i hkey
                rw [beq_iff_eq.mp hkey]
                rfl
              · split
                · rename_i hkey
                  rw [beq_iff_eq.mp hkey]
                  rfl
                · rfl
      · rw [readField]
        split
        · rfl
        · split
          · rfl
          · split
            · rfl
            · rfl

section
variable {fresh i : Nat} {raw : Json}

/-- The connector that is given to the step that is read. -/
def givenConnector (i : Nat) (raw : Json) : Json :=
  if i = 0 then .undefined else (raw.field "conditional").getD .undefined

theorem plain_nil : Plain [] := ⟨List.not_mem_nil, List.not_mem_nil⟩

theorem id_parseRawStep (fresh : Nat) (raw given : Json) :
    (parseRawStep fresh raw given).id = ((storedId raw).map Id.stored).getD (.uuid fresh) := by
  rw [parseRawStep, storedId, Json.getD_field]
  cases knownType (Obj.get raw.spread "type") with
  | none => rfl
  | some type => exact (foldl_readField raw.spread _ plain_nil).1

theorem ok_parseRawStep (hstep : isStep raw = true) (given : Json) :
    (parseRawStep fresh raw given).Ok := by
  rw [isStep, Json.getD_field, Bool.not_eq_true'] at hstep
  rw [parseRawStep, Json.getD_field]
  cases hknown : knownType (Obj.get raw.spread "type") with
  | none => exact ⟨plain_nil, hstep⟩
  | some type =>
      obtain ⟨-, -, htype, hplain⟩ := foldl_readField raw.spread
        ⟨.uuid fresh, .known type, given, []⟩ plain_nil
      refine ⟨plain_normalizeOnParse type hplain, ?_⟩
      show (List.foldl readField _ raw.spread).type.Entry
      rw [htype]
      exact knownType_mem hknown

theorem truthy_orElse (v w : Json) :
    (if v.truthy = true then v else w).truthy = (v.truthy || w.truthy) := by
  cases hv : v.truthy with
  | true => exact hv
  | false => rfl

theorem connected_parseRawStep (fresh i : Nat) (raw : Json) :
    stepConnected (parseRawStep fresh raw (givenConnector i raw)) = (storedConnector i raw).truthy := by
  rw [stepConnected, StepData.connector, storedConnector, parseRawStep, givenConnector,
    Json.getD_field, Json.getD_field]
  cases hknown : knownType (Obj.get raw.spread "type") with
  | none =>
      dsimp only
      rw [truthy_orElse]
      split
      · rfl
      · exact Bool.or_self _
  | some type =>
      obtain ⟨-, hconn, htype, -⟩ := foldl_readField raw.spread ⟨.uuid fresh, .known type,
        if i = 0 then .undefined else Obj.get raw.spread "conditional", []⟩ plain_nil
      simp only [htype, hconn]
      rw [truthy_orElse]
      exact Bool.or_false _

end

/-! ## The ids -/

/-- The ids are new ones of a range, or among these stored ones; where the stored ones differ
they do. -/
structure Ranged (lo hi : Nat) (vs : List Json) (l : List Id) : Prop where
  le : lo ≤ hi
  nodup : vs.Nodup → l.Nodup
  mem : ∀ id ∈ l, (∃ n, lo ≤ n ∧ n < hi ∧ id = .uuid n) ∨ ∃ v ∈ vs, id = .stored v

theorem Ranged.nil (n : Nat) : Ranged n n [] [] :=
  ⟨le_refl n, fun _ => List.nodup_nil, fun _ h => nomatch h⟩

theorem Ranged.uuid (n : Nat) : Ranged n (n + 1) [] [.uuid n] where
  le := Nat.le_succ n
  nodup := fun _ => List.nodup_singleton _
  mem := fun _ h => .inl ⟨n, le_refl n, Nat.lt_succ_self n, List.mem_singleton.mp h⟩

theorem Ranged.stored (n : Nat) (v : Json) : Ranged n (n + 1) [v] [.stored v] where
  le := Nat.le_succ n
  nodup := fun _ => List.nodup_singleton _
  mem := fun _ h => .inr ⟨v, List.mem_singleton_self v, List.mem_singleton.mp h⟩

theorem Ranged.append {lo mid hi : Nat} {vs ws : List Json} {l m : List Id} (hl : Ranged lo mid vs l)
    (hm : Ranged mid hi ws m) : Ranged lo hi (vs ++ ws) (l ++ m) where
  le := hl.le.trans hm.le
  nodup := by
    intro h
    obtain ⟨hvs, hws, hdisj⟩ := List.nodup_append.mp h
    refine List.nodup_append.mpr ⟨hl.nodup hvs, hm.nodup hws, ?_⟩
    rintro id hid _ hid' rfl
    rcases hl.mem id hid with ⟨n, -, hn, rfl⟩ | ⟨v, hv, rfl⟩
    · rcases hm.mem _ hid' with ⟨n', hn', -, heq⟩ | ⟨v, -, heq⟩
      · cases heq
        omega
      · cases heq
    · rcases hm.mem _ hid' with ⟨n', -, -, heq⟩ | ⟨w, hw, heq⟩
      · cases heq
      · cases heq
        exact hdisj v hv v hw rfl
  mem := by
    intro id hid
    rcases List.mem_append.mp hid with hid | hid
    · rcases hl.mem id hid with ⟨n, hlo, hn, heq⟩ | ⟨v, hv, heq⟩
      · exact .inl ⟨n, hlo, hn.trans_le hm.le, heq⟩
      · exact .inr ⟨v, List.mem_append_left _ hv, heq⟩
    · rcases hm.mem id hid with ⟨n, hlo, hn, heq⟩ | ⟨v, hv, heq⟩
      · exact .inl ⟨n, hl.le.trans hlo, hn, heq⟩
      · exact .inr ⟨v, List.mem_append_right _ hv, heq⟩

theorem Ranged.perm {lo hi : Nat} {vs : List Json} {l m : List Id} (h : Ranged lo hi vs l)
    (hperm : l.Perm m) : Ranged lo hi vs m :=
  ⟨h.le, fun hvs => hperm.nodup_iff.mp (h.nodup hvs), fun id hid => h.mem id (hperm.mem_iff.mpr hid)⟩

/-! ## The cards that are read -/

theorem length_parseEntries (fresh i : Nat) (raws : List Json) :
    (parseEntries fresh i raws).length = raws.length := by
  induction raws generalizing fresh i with
  | nil => rfl
  | cons raw raws ih => rw [parseEntries, List.length_cons, ih, List.length_cons]

theorem getElem?_parseEntries {raws : List Json} {step : StepData} : ∀ fresh i k : Nat,
    (parseEntries fresh i raws)[k]? = some step →
      ∃ raw f, raws[k]? = some raw ∧ step = parseRawStep f raw (givenConnector (i + k) raw) := by
  induction raws with
  | nil =>
      intro fresh i k h
      cases h
  | cons raw raws ih =>
      intro fresh i k h
      cases k with
      | zero =>
          cases h
          exact ⟨raw, fresh, rfl, rfl⟩
      | succ k =>
          obtain ⟨raw', f, hraw, heq⟩ := ih (fresh + 1) (i + 1) k h
          rw [Nat.add_right_comm] at heq
          exact ⟨raw', f, hraw, heq⟩

theorem ranged_parseEntries (raws : List Json) : ∀ fresh i,
    Ranged fresh (fresh + raws.length) (raws.filterMap storedId)
      ((parseEntries fresh i raws).map StepData.id) := by
  induction raws with
  | nil =>
      intro fresh i
      exact .nil fresh
  | cons raw raws ih =>
      intro fresh i
      have hrest := ih (fresh + 1) (i + 1)
      rw [Nat.add_assoc, Nat.add_comm 1] at hrest
      rw [parseEntries, List.map_cons, id_parseRawStep, List.length_cons, List.filterMap_cons]
      cases storedId raw with
      | none => exact (Ranged.uuid fresh).append hrest
      | some v => exact (Ranged.stored fresh v).append hrest

/-- The connector of a card that is not the first. -/
def connectorOf (rawCard : Json) : Json :=
  match rawCard with
  | .arr entries => cardConnectorOf entries
  | _ => .undefined

theorem parseCard_spec {fresh i fresh' : Nat} {rawCard : Json} {card : BuilderCard}
    (h : parseCard fresh i rawCard = some (card, fresh')) :
    card.steps = parseEntries fresh 0 (storedSteps rawCard) ∧
      card.id = .uuid (fresh + card.steps.length) ∧ fresh' = fresh + card.steps.length + 1 ∧
      card.cardConnector = if i = 0 then .undefined else connectorOf rawCard := by
  cases rawCard with
  | arr entries =>
      rw [parseCard] at h
      split at h
      · cases h
      · cases h
        exact ⟨rfl, rfl, rfl, rfl⟩
  | undefined | null | bool _ | num _ | str _ | obj _ =>
      cases h
      refine ⟨rfl, rfl, rfl, ?_⟩
      split
      · rfl
      · rfl

theorem ranged_parseCard {fresh i fresh' : Nat} {rawCard : Json} {card : BuilderCard}
    (h : parseCard fresh i rawCard = some (card, fresh')) :
    Ranged fresh fresh' ((storedSteps rawCard).filterMap storedId) card.ids := by
  obtain ⟨hsteps, hid, hfresh, -⟩ := parseCard_spec h
  have hlen : card.steps.length = (storedSteps rawCard).length := by
    rw [hsteps, length_parseEntries]
  have happ := (ranged_parseEntries (storedSteps rawCard) fresh 0).append
    (Ranged.uuid (fresh + (storedSteps rawCard).length))
  rw [List.append_nil, ← hsteps, ← hlen, ← hid, ← hfresh] at happ
  exact happ.perm List.perm_append_comm

theorem parseCards_spec {rawCards : List Json} : ∀ {fresh i fresh' : Nat} {cards : List BuilderCard},
    parseCards fresh i rawCards = some (cards, fresh') →
      Ranged fresh fresh' ((rawCards.flatMap storedSteps).filterMap storedId) (ids cards) ∧
      ∀ (k : Nat) c, cards[k]? = some c → ∃ rawCard f f', rawCards[k]? = some rawCard ∧
        parseCard f (i + k) rawCard = some (c, f') := by
  induction rawCards with
  | nil =>
      intro fresh i fresh' cards h
      cases h
      exact ⟨.nil fresh, fun k c hc => nomatch hc⟩
  | cons rawCard rawCards ih =>
      intro fresh i fresh' cards h
      rw [parseCards, Option.bind_eq_bind, Option.bind_eq_some_iff] at h
      obtain ⟨⟨card, mid⟩, hcard, h⟩ := h
      rw [Option.bind_eq_bind, Option.bind_eq_some_iff] at h
      obtain ⟨⟨rest, last⟩, hrest, h⟩ := h
      cases h
      obtain ⟨hranged, hplaces⟩ := ih hrest
      refine ⟨?_, fun k c hc => ?_⟩
      · rw [List.flatMap_cons, List.filterMap_append, ids, List.flatMap_cons]
        exact (ranged_parseCard hcard).append hranged
      · cases k with
        | zero =>
            cases hc
            exact ⟨rawCard, fresh, mid, rfl, hcard⟩
        | succ k =>
            obtain ⟨raw, f, f', hraw, hparse⟩ := hplaces k c hc
            rw [Nat.add_right_comm] at hparse
            exact ⟨raw, f, f', hraw, hparse⟩

theorem isStep_of_mem {rawCard raw : Json} (h : raw ∈ storedSteps rawCard) : isStep raw = true := by
  cases rawCard with
  | arr entries => exact (List.mem_filter.mp h).2
  | undefined | null | bool _ | num _ | str _ | obj _ => cases h

theorem inv_parseCards {fresh fresh' : Nat} {rawCards : List Json} {cards : List BuilderCard}
    (hparse : parseCards fresh 0 rawCards = some (cards, fresh')) (h : WellStored rawCards) :
    Inv ⟨cards, fresh'⟩ := by
  obtain ⟨hranged, hplaces⟩ := parseCards_spec hparse
  have hcard : ∀ c ∈ cards, ∃ rawCard ∈ rawCards, ∃ f, c.steps = parseEntries f 0 (storedSteps rawCard) := by
    intro c hc
    obtain ⟨k, hk⟩ := List.mem_iff_getElem?.mp hc
    obtain ⟨rawCard, f, f', hraw, hone⟩ := hplaces k c hk
    exact ⟨rawCard, List.mem_of_getElem? hraw, f, (parseCard_spec hone).1⟩
  have hstep : ∀ rawCard f, ∀ (k : Nat) step, (parseEntries f 0 (storedSteps rawCard))[k]? = some step →
      ∃ raw g, (storedSteps rawCard)[k]? = some raw ∧
        step = parseRawStep g raw (givenConnector k raw) := by
    intro rawCard f k step hk
    obtain ⟨raw, g, hraw, heq⟩ := getElem?_parseEntries _ _ _ hk
    rw [Nat.zero_add] at heq
    exact ⟨raw, g, hraw, heq⟩
  refine ⟨allButFirst_iff.mpr fun k c hc => ?_, fun c hc => ?_, fun c hc step hmem => ?_,
    hranged.nodup h.ids, fun n hn => ?_⟩
  · obtain ⟨rawCard, f, f', hraw, hone⟩ := hplaces k c hc
    rw [cardConnected, (parseCard_spec hone).2.2.2, Nat.zero_add]
    rcases Decidable.em (k = 0) with hk | hk
    · rw [if_pos hk]
      exact ⟨fun hfalse => absurd hfalse Bool.false_ne_true, fun hne => absurd hk hne⟩
    · obtain ⟨entries, rfl, htruthy⟩ := h.cards k rawCard hraw hk
      rw [if_neg hk]
      exact ⟨fun _ => hk, fun _ => htruthy⟩
  · obtain ⟨rawCard, hraw, f, hsteps⟩ := hcard c hc
    rw [hsteps, allButFirst_iff]
    intro k step hk
    obtain ⟨raw, g, hrawk, rfl⟩ := hstep rawCard f k step hk
    rw [connected_parseRawStep]
    exact h.steps rawCard hraw k raw hrawk
  · obtain ⟨rawCard, hraw, f, hsteps⟩ := hcard c hc
    rw [hsteps] at hmem
    obtain ⟨k, hk⟩ := List.mem_iff_getElem?.mp hmem
    obtain ⟨raw, g, hrawk, rfl⟩ := hstep rawCard f k step hk
    exact ok_parseRawStep (isStep_of_mem (List.mem_of_getElem? hrawk)) _
  · rcases hranged.mem _ hn with ⟨m, -, hm, heq⟩ | ⟨v, -, heq⟩
    · cases heq
      exact hm
    · cases heq

/-- A stored value that is no list holds no cards. -/
def storedCards (parsed : Option Json) : List Json :=
  match parsed with
  | some (.arr rawCards) => rawCards
  | _ => []

theorem inv_parseSteps {fresh : Nat} {parsed : Option Json} {s : BuilderState}
    (hparse : parseSteps fresh parsed = some s) (h : WellStored (storedCards parsed)) : Inv s := by
  have hempty : Inv ⟨[], fresh⟩ :=
    ⟨trivial, fun _ hc => (nomatch hc), fun _ hc => (nomatch hc), List.nodup_nil,
      fun _ hn => (nomatch hn)⟩
  cases parsed with
  | none =>
      cases hparse
      exact hempty
  | some v =>
      cases v with
      | arr rawCards =>
          obtain ⟨r, hr, rfl⟩ := Option.map_eq_some_iff.mp hparse
          exact inv_parseCards hr h
      | undefined | null | bool _ | num _ | str _ | obj _ =>
          cases hparse
          exact hempty

/-! ## Runs -/

/-- What the builder saves of a well stored segment is well formed, after any actions that
set no connector of a first card or step, and take out no first step before an entry of an
unknown type that has one. -/
theorem builder_wellFormed {fresh : Nat} {parsed : Option Json} {s : BuilderState}
    (hparse : parseSteps fresh parsed = some s) (hstored : WellStored (storedCards parsed))
    (actions : List BuilderAction)
    (hguarded : Runs.Meets (fun s a => some (builderReducer s a)) Guarded s actions) :
    ∀ before after, actions = before ++ after → WellFormed (before.foldl builderReducer s) :=
  fun before after heq => ((Runs.always_steps (I := Inv) (K := fun _ _ => True)
    (fun _ _ h hguard => ⟨step_inv h hguard, trivial⟩) (inv_parseSteps hparse hstored)
    hguarded).1 before after heq).wellFormed

/-! ## A step of an unknown type -/

/-- A card with a tag, and a step of a type that is not known after it. -/
def stored : Json :=
  .arr [.arr [.obj [("type", .str "tag"), ("conditional_tag", .str "in")],
    .obj [("type", .str "custom"), ("conditional", .str "or")]]]

def opened : BuilderState where
  cards :=
    [⟨.uuid 2,
      [⟨.uuid 0, .known "tag", .undefined, [("conditional_tag", .str "in")]⟩,
        ⟨.uuid 1, .unknown (.str "custom") [("type", .str "custom"), ("conditional", .str "or")],
          .str "or", []⟩],
      .undefined⟩]
  fresh := 3

theorem parseSteps_stored : parseSteps 0 (some stored) = some opened := rfl

theorem wellStored_stored : WellStored (storedCards (some stored)) where
  cards := by
    intro i rawCard hraw hi
    obtain ⟨i, rfl⟩ := Nat.exists_eq_succ_of_ne_zero hi
    cases hraw
  steps := by
    intro rawCard hraw i raw hi
    rw [List.mem_singleton.mp hraw] at hi
    match i with
    | 0 =>
        cases hi
        exact ⟨fun h => absurd h (by decide), fun h => absurd rfl h⟩
    | 1 =>
        cases hi
        exact ⟨fun _ => by decide, fun _ => rfl⟩
    | i + 2 => cases hi
  ids := List.nodup_nil

/-- The connector between them is set, and a card is put after theirs. -/
theorem builder_wellFormed_stored :
    WellFormed ([BuilderAction.setStepConnector (.uuid 2) (.uuid 1) .and, .addCard].foldl
      builderReducer opened) := by
  refine builder_wellFormed parseSteps_stored wellStored_stored
    [.setStepConnector (.uuid 2) (.uuid 1) .and, .addCard]
    (.cons ?_ rfl (.cons trivial rfl trivial)) _ [] (List.append_nil _).symm
  intro c hc step hstep
  cases hc
  cases hstep
  rfl

/-- With the tag taken out, the other step is the first and has its connector. -/
theorem first_connected : ¬ ∀ (parsed : Option Json) (s : BuilderState), parseSteps 0 parsed = some s →
    ∀ actions : List BuilderAction, WellFormed (actions.foldl builderReducer s) := by
  intro h
  have hwell := h (some stored) opened parseSteps_stored [.removeStep (.uuid 2) (.uuid 0)]
  have hfirst := hwell.steps [[("type", .str "custom"), ("conditional", .str "or")]] List.mem_cons_self
  exact absurd hfirst.1 (by decide)

end OpenBms.Builder
