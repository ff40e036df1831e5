/-
# `OpenBms.Segment.Externals` — which steps of a V1 segment push an external query

Four branches of the `switch` of `generator-v1.ts` name a temp table, push the
external query that fills it and count up `subQueys`.

| branch | table | dropped at the end |
| :-- | :-- | :-- |
| `page_view` | `table_segment_page_view<n>_<tag>` | no |
| one event of a message | `table_segment_view<n>_<tag>` | no |
| repeated events | `table_segment<n>_<tag>` | yes |
| `custom_event` | `table_segment_custom_event<n>_<tag>` | no |

**Proved here.**

    a step pushes what its branch pushes, or nothing (`switchV1_push`)
    every step but the tags becomes an item (`exists_item`)
    a property of all external queries is one of the
    branches the segment's steps take (`forall_externals_iff`)
-/
import OpenBms.Segment.Guard

namespace OpenBms.Segment

open Js

/-! ## The branches -/

/-- The branches of the V1 `switch` that push an external query. -/
inductive Push where
  | pageView (d : InteractionStepData)
  | view (d : InteractionStepData)
  | repeated (d : InteractionStepData)
  | customEvent (d : CustomEventStepData)
  deriving DecidableEq

/-- The branch a step takes. -/
def StepBody.push : StepBody → Option Push
  | .interation d =>
      if d.eventType = .str "anyChannel" then none
      else if d.eventType = .str "page_view" then some (.pageView d)
      else if d.message = .any ∧ isSingle d.customTimesValue then none
      else if isSingle d.customTimesValue then some (.view d)
      else some (.repeated d)
  | .customEvent d => some (.customEvent d)
  | _ => none

def Push.out (tag : TagLike) (n : Nat) : Push → StepOut
  | .pageView d => pageViewOut tag n d
  | .view d => viewOut tag n d
  | .repeated d => repeatedOut tag n d
  | .customEvent d => customEventOut tag n d

section
variable {rt : Runtime} {tag : TagLike} {dto : SegmentDtoLike} {zone : String} {n : Nat}

/-! ### The other steps -/

/-- A token that names no temp table and asks for no automation. -/
def Tok.isField : Tok → Bool
  | .pred (.inTable _ _ _) | .pred (.inAutomations _) | .dropTable _ => false
  | _ => true

/-- A step about fields of the contact only. -/
structure Field (o : StepOut) : Prop where
  external : o.external = none
  toks : o.toks.all Tok.isField = true

theorem field_lastEvent (d : InteractionStepData) : Field (lastEventOut zone d) := by
  refine ⟨rfl, ?_⟩
  unfold lastEventOut
  dsimp only
  split <;> split <;> (try split) <;> rfl

theorem field_customField (d : CustomFieldStepData) {o : StepOut}
    (h : customFieldOut rt tag d = .ok o) : Field o := by
  unfold customFieldOut at h
  dsimp only at h
  split at h
  · cases h
    exact ⟨rfl, rfl⟩
  · exact nomatch h

theorem field_dateField (key : String) (d : UserFieldStepData) {o : StepOut}
    (h : dateFieldOut rt zone key d = .ok o) : Field o := by
  unfold dateFieldOut at h
  split at h
  · cases h
    exact ⟨rfl, rfl⟩
  split at h
  · exact nomatch h
  · cases h
    exact ⟨rfl, rfl⟩

theorem field_channel (d : UserFieldStepData) : Field (channelOut dto d) := by
  unfold channelOut
  split
  · refine ⟨rfl, ?_⟩
    dsimp only
    cases dto.addBounced <;> cases dto.addInvalid <;> cases dto.addUnsubscribed <;> split <;> rfl
  · exact ⟨rfl, rfl⟩

theorem field_textField (key : String) (d : UserFieldStepData) : Field (textFieldOut rt key d) := by
  unfold textFieldOut
  split
  · split <;> exact ⟨rfl, rfl⟩
  · exact ⟨rfl, rfl⟩

theorem field_userField (d : UserFieldStepData) {o : StepOut}
    (h : userFieldOut rt dto zone d = .ok o) : Field o := by
  unfold userFieldOut at h
  split at h
  · cases h
    exact ⟨rfl, rfl⟩
  split at h
  · exact field_dateField _ d h
  split at h
  · cases h
    exact ⟨rfl, rfl⟩
  split at h
  · cases h
    exact ⟨rfl, rfl⟩
  split at h
  · cases h
    exact ⟨rfl, rfl⟩
  split at h
  · cases h
    exact field_channel d
  · cases h
    exact field_textField _ d

/-- The temp table a token names. -/
def Tok.table : Tok → Option String
  | .pred (.inTable _ _ table) => some table
  | .dropTable table => some table
  | _ => none

/-- A step that has nothing to do with temp tables. -/
structure Plain (o : StepOut) : Prop where
  external : o.external = none
  toks : ∀ t ∈ o.toks, t.table = none

theorem Field.plain {o : StepOut} (h : Field o) : Plain o := by
  refine ⟨h.external, fun t ht => ?_⟩
  have hfield := List.all_eq_true.mp h.toks t ht
  unfold Tok.isField at hfield
  unfold Tok.table
  split at hfield <;> simp_all

theorem interationV1_push (d : InteractionStepData) :
    match (StepBody.interation d).push with
    | none => Plain (interationV1 tag zone n d)
    | some p => interationV1 tag zone n d = p.out tag n := by
  simp only [StepBody.push, interationV1]
  by_cases hany : d.eventType = .str "anyChannel"
  · simp only [if_pos hany]
    exact Field.plain ⟨rfl, rfl⟩
  simp only [if_neg hany]
  by_cases hpage : d.eventType = .str "page_view"
  · simp only [if_pos hpage]
    rfl
  simp only [if_neg hpage]
  by_cases hlast : d.message = .any ∧ isSingle d.customTimesValue = true
  · simp only [if_pos hlast]
    exact (field_lastEvent d).plain
  simp only [if_neg hlast]
  by_cases hsingle : isSingle d.customTimesValue = true
  · simp only [if_pos hsingle]
    rfl
  · simp only [if_neg hsingle]
    rfl

theorem switchV1_push {body : StepBody} {o : StepOut} (h : switchV1 rt tag dto zone n body = .ok o) :
    match body.push with
    | none => Plain o
    | some p => o = p.out tag n := by
  cases body with
  | interation d =>
      cases h
      exact interationV1_push d
  | customField d => exact (field_customField d h).plain
  | userField d => exact (field_userField d h).plain
  | customEvent d =>
      cases h
      rfl
  | automationState d =>
      cases h
      exact ⟨rfl, fun t ht => List.mem_singleton.mp ht ▸ rfl⟩
  | conditionalCard | tag | other =>
      cases h
      exact Field.plain ⟨rfl, rfl⟩

theorem push_out_external (p : Push) : ∃ x, (p.out tag n).external = some x := by
  cases p <;> exact ⟨_, rfl⟩

/-! ## From a segment's steps to its queries -/

theorem exists_item {sw : Switch} {ss : List Step} : ∀ {n : Nat} {is : List Item},
    items sw n ss = .ok is → ∀ s ∈ ss, tagOf s = none →
      ∃ i ∈ is, ∃ m, sw m s.body = .ok i.out := by
  induction ss with
  | nil =>
      intro n is _ s hs
      exact nomatch hs
  | cons s ss ih =>
      intro n is h s' hs' htag
      cases hs : tagOf s with
      | some t =>
          rw [items_tag hs] at h
          rcases List.mem_cons.mp hs' with rfl | hmem
          · exact absurd (htag.symm.trans hs) (by simp)
          · exact ih h s' hmem htag
      | none =>
          obtain ⟨o, js, ho, hr, rfl⟩ := items_item_ok hs h
          rcases List.mem_cons.mp hs' with rfl | hmem
          · exact ⟨_, List.mem_cons_self, n, ho⟩
          · obtain ⟨i, hi, m, hm⟩ := ih hr s' hmem htag
            exact ⟨i, List.mem_cons_of_mem _ hi, m, hm⟩

theorem tagOf_of_push {s : Step} {p : Push} (h : s.body.push = some p) : tagOf s = none := by
  obtain ⟨c, body⟩ := s
  cases body with
  | tag t => exact nomatch h
  | _ => rfl

/-- A property of all external queries of a segment is one of the branches its
steps take, when each branch has it whatever the counter is. -/
theorem forall_externals_iff {cs : List CardOut} {P : ExternalQueryStep → Prop} {Q : Push → Prop}
    (hcs : cardOuts (switchV1 rt tag dto zone) 0 dto.steps = .ok cs)
    (hPQ : ∀ n p x, (p.out tag n).external = some x → (P x ↔ Q p)) :
    (∀ x ∈ (assemble tag dto cs).externalQuerySteps, P x) ↔
      ∀ steps ∈ dto.steps, ∀ s ∈ steps, ∀ p, s.body.push = some p → Q p := by
  constructor
  · intro h steps hsteps s hs p hp
    rw [← cardOuts_steps hcs] at hsteps
    obtain ⟨c, hc, rfl⟩ := List.mem_map.mp hsteps
    obtain ⟨_, m, hm⟩ := mem_cardOuts hcs c hc
    obtain ⟨i, hi, k, hk⟩ := exists_item hm s hs (tagOf_of_push hp)
    have hout := switchV1_push hk
    rw [hp] at hout
    obtain ⟨x, hx⟩ := @push_out_external tag k p
    refine (hPQ k p x hx).mp (h x ?_)
    refine List.mem_flatMap.mpr ⟨c, hc, List.mem_flatMap.mpr ⟨i, hi, ?_⟩⟩
    simp [hout, hx]
  · intro h x hx
    obtain ⟨c, hc, hxc⟩ := List.mem_flatMap.mp hx
    obtain ⟨i, hi, hxi⟩ := List.mem_flatMap.mp hxc
    have hext : i.out.external = some x := by simpa using hxi
    obtain ⟨hsteps, m, hm⟩ := mem_cardOuts hcs c hc
    obtain ⟨s, hs, k, _, hk, _⟩ := mem_items hm i hi
    have hout := switchV1_push hk
    cases hp : s.body.push with
    | none =>
        rw [hp] at hout
        exact absurd (hout.external.symm.trans hext) (by simp)
    | some p =>
        rw [hp] at hout
        rw [hout] at hext
        exact (hPQ k p x hext).mpr (h c.steps hsteps s hs p hp)

end

end OpenBms.Segment
