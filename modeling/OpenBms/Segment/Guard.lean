/-
# `OpenBms.Segment.Guard` — who a segment query may select

Every contacts `SELECT` starts its condition with the guard

    ct.account_id = N AND ct.is_active

and every card appends its own text to it.  The guard holds of every selected
contact as long as the appended text cannot join an `OR` to it.  It can: the
group of a card is opened with the connector of its first predicate step, and
that step carries `or` when a tag step stands before it in the card.

**Proved here.**

    the exact condition for the guard to hold (`guarded_iff`)
    the guard decides who is selected (`selectsOnly_of_guarded`)
    both, for the V1 generator (`segmentQueryV1_isolated_iff`)
-/
import OpenBms.Segment.Selection

namespace OpenBms.Segment

/-! ## The property -/

/-- A condition true only of active contacts of the tag's account. -/
def Confined (tag : TagLike) (φ : Cond) : Prop :=
  ∀ (db : Db) (ct : Contact) (ctd : Option Device), db.Holds ct ctd φ →
    ct.accountId = tag.accountId ∧ ct.isActive = true

/-- The condition of every contacts `SELECT` of a text is confined. -/
def Guarded (tag : TagLike) (ts : List Tok) : Prop :=
  ∀ s ∈ contactsSelects ts, ∀ φ, Infix.read s.whereToks = some φ → Confined tag φ

/-- On every database the text selects only active contacts of the account. -/
def SelectsOnly (tag : TagLike) (ts : List Tok) : Prop :=
  ∀ (db : Db) (q : Query) (rows : List Int), parse ts = some q → db.Selects q rows →
    ∀ i ∈ rows, ∃ ct ∈ db.contacts, ct.id = i ∧ ct.accountId = tag.accountId ∧ ct.isActive = true

/-! ## The condition -/

/-- The first predicate step of a card carries `or`.  A `conditionalCard` in
front of it must carry no connector: two connectors in a row are not SQL. -/
def leadsWithOr : List Step → Bool
  | [] => false
  | s :: ss =>
      match s.body with
      | .tag _ => leadsWithOr ss
      | .conditionalCard _ => s.conditional.isNone && leadsWithOr ss
      | _ => s.conditional == some .or

/-- The card's own condition: its predicates and the connectors between them. -/
def CardOut.formula (c : CardOut) : Option Cond := Infix.read c.inside

/-- Where the first predicate step of a card carries `or`, the card's own
condition is confined. -/
def CardOut.Contained (tag : TagLike) (c : CardOut) : Prop :=
  leadsWithOr c.steps = true → ∀ e, c.formula = some e → Confined tag e

/-! ## The guard -/

section
variable {sw : Switch} {tag : TagLike}

theorem leadsWithOr_iff {ss : List Step} : ∀ {n : Nat} {is : List Item},
    items sw n ss = .ok is →
    (leadsWithOr ss = true ↔ (∀ j ∈ is.takeWhile fun i => i.card, j.conditional = none) ∧
      ∃ i is', (is.dropWhile fun i => i.card) = i :: is' ∧ i.conditional = some .or) := by
  induction ss with
  | nil =>
      intro n is h
      cases h
      simp [leadsWithOr]
  | cons s ss ih =>
      intro n is h
      cases hs : tagOf s with
      | some t =>
          rw [items_tag hs] at h
          have hskip : leadsWithOr (s :: ss) = leadsWithOr ss := by
            simp only [leadsWithOr, body_of_tagOf hs]
          rw [hskip]
          exact ih h
      | none =>
          obtain ⟨o, js, ho, hjs, rfl⟩ := items_item_ok hs h
          obtain ⟨conditional, body⟩ := s
          cases body with
          | tag t => exact nomatch hs
          | conditionalCard value =>
              cases conditional with
              | none =>
                  simpa [leadsWithOr, StepBody.isConditionalCard, List.takeWhile_cons,
                    List.dropWhile_cons] using ih hjs
              | some k =>
                  simp [leadsWithOr, StepBody.isConditionalCard, List.takeWhile_cons,
                    List.dropWhile_cons]
          | _ => simp [leadsWithOr, StepBody.isConditionalCard]

theorem confined_guardCond : Confined tag (guardCond tag) := by
  intro db ct ctd h
  simpa [guardCond, Db.pred] using h

theorem confined_and {e : Cond} : Confined tag (.hi () (guardCond tag) e) := by
  intro db ct ctd h
  exact confined_guardCond db ct ctd (holds_and.mp h).1

theorem confined_or {e : Cond} :
    Confined tag (.lo () (guardCond tag) e) ↔ Confined tag e := by
  constructor
  · intro h db ct ctd he
    exact h db ct ctd (holds_or.mpr (.inr he))
  · intro h db ct ctd he
    rcases holds_or.mp he with he | he
    · exact confined_guardCond db ct ctd he
    · exact h db ct ctd he

theorem confined_where_iff {c : CardOut} {n : Nat} (hsw : sw.Lawful)
    (h : items sw n c.steps = .ok c.items) :
    (∀ φ, Infix.read (c.whereToks tag) = some φ → Confined tag φ) ↔ c.Contained tag := by
  have hlaw := lawfulItems hsw h
  have hor := leadsWithOr_iff h
  constructor
  · intro hconf hlead e he
    obtain ⟨hb, i, is, hp, hi⟩ := hor.mp hlead
    have hread : Infix.read (c.whereToks tag) = some (.lo () (guardCond tag) e) :=
      (read_where hlaw).mpr ⟨hb, .inr ⟨i, is, e, hp, he, by rw [hi]; rfl⟩⟩
    exact confined_or.mp (hconf _ hread)
  · intro hcont φ hφ
    obtain ⟨hb, hcase⟩ := (read_where hlaw).mp hφ
    rcases hcase with ⟨_, rfl⟩ | ⟨i, is, e, hp, he, rfl⟩
    · exact confined_guardCond
    · rcases hi : i.conditional with _ | _ | _
      · exact confined_and
      · exact confined_and
      · exact confined_or.mpr (hcont (hor.mpr ⟨hb, i, is, hp, hi⟩) e he)

variable {dto : SegmentDtoLike} {cs : List CardOut}

theorem guarded_iff (hsw : sw.Lawful) (hcs : cardOuts sw 0 dto.steps = .ok cs) :
    Guarded tag (assemble tag dto cs).query ↔ ∀ c ∈ cs, c.Contained tag := by
  have hempty : ∀ c ∈ cs, c.steps = [] → c.Contained tag := by
    intro c _ hnil hlead
    rw [hnil] at hlead
    exact nomatch hlead
  simp only [Guarded, contactsSelects_assemble (lawful_cardOuts hsw hcs), List.mem_map,
    List.mem_filter, decide_eq_true_eq]
  constructor
  · intro h c hc
    by_cases hs : c.steps = []
    · exact hempty c hc hs
    · obtain ⟨_, m, hm⟩ := mem_cardOuts hcs c hc
      exact (confined_where_iff hsw hm).mp (h _ ⟨c, ⟨hc, hs⟩, rfl⟩)
  · rintro h s ⟨c, ⟨hc, _⟩, rfl⟩
    obtain ⟨_, m, hm⟩ := mem_cardOuts hcs c hc
    exact (confined_where_iff hsw hm).mpr (h c hc)

/-- The set operators never bring in a contact no `SELECT` returned. -/
theorem selectsOnly_of_guarded (hsw : sw.Lawful) (hcs : cardOuts sw 0 dto.steps = .ok cs)
    (h : Guarded tag (assemble tag dto cs).query) : SelectsOnly tag (assemble tag dto cs).query := by
  intro db q rows hq hrows i hi
  have hlaw := lawful_cardOuts hsw hcs
  obtain ⟨_, c, ds, ops, rfl, hs, ho, hch, rfl⟩ := (parse_assemble hlaw).mp hq
  obtain ⟨d, hd, hrow⟩ := mem_card_of_mem_chain (mem_of_selects hrows hi)
  obtain ⟨ct, hct, rfl⟩ := mem_selectRows.mp (mem_select_of_mem_card hrow)
  obtain ⟨φ, hφ, hmem, ctd, _, hholds⟩ := mem_selectContacts.mp hct
  obtain ⟨_, m, hm⟩ := mem_cardOuts hcs d hd
  have hcont := (guarded_iff hsw hcs).mp h d hd
  exact ⟨ct, hmem, rfl, (confined_where_iff hsw hm).mpr hcont φ hφ db ct ctd hholds⟩

end

/-! ## The V1 generator -/

section
variable (rt : Runtime) (tag : TagLike) (dto : SegmentDtoLike) (timeZone : Option String)

/-- The cards of a DTO with what the V1 `switch` makes of their steps. -/
abbrev cardsV1 : Except Js.Error (List CardOut) :=
  cardOuts (switchV1 rt tag dto (timeZoneValue timeZone)) 0 dto.steps

theorem generateV1_ok {r : GenerateResult}
    (h : generateSegmentQueryV1 rt tag dto timeZone = .ok r) :
    ∃ cs, cardsV1 rt tag dto timeZone = .ok cs ∧ r = assemble tag dto cs :=
  generateWith_ok (switchV1_lawful rt tag dto _).noPlaceholder h

end

/-! ## A card that leaks -/

/-- A runtime for the examples: no letter is mapped and no date is read. -/
def plainRuntime : Runtime := { toLowerCase := fun s => s, toISOString := fun _ => none }

/-- Not tagged, `or` with an e-mail provider: the tag step stands first, so that
the provider step opens the group with its own `or`. -/
def tagThenProvider : SegmentDtoLike :=
  { steps := [[
      { body := .tag { conditionalTag := .str "not in", tagId := [5] } },
      { conditional := some .or
        body := .userField { userFieldKey := .str "email_provider"
                             conditionalUserField := .str "="
                             userFieldValue := .str "Gmail" } }]] }

/-- An active contact of another account. -/
def foreignContact : Contact :=
  { id := 7, accountId := 2, isActive := true, column := fun _ => .text "Gmail" }

def foreignDb : Db := { contacts := [foreignContact] }

/-- The same steps, the provider first. -/
def providerThenTag : SegmentDtoLike :=
  { steps := [[
      { body := .userField { userFieldKey := .str "email_provider"
                             conditionalUserField := .str "="
                             userFieldValue := .str "Gmail" } },
      { conditional := some .or
        body := .tag { conditionalTag := .str "not in", tagId := [5] } }]] }

end OpenBms.Segment
