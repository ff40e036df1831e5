/-
# `OpenBms.Automation.StopMarker` — the marker of a cancelled run

`tag-process` sets `automation_to_stop:${leadMessage.id}`, the id of the message
that cancelled; `message-trigger` looks
`automation_to_stop:${email}:${automation.name}:${startedAt}` up.

| key | names the run by | set by |
| :-- | :-- | :-- |
| `stopKey` | nothing | a cancellation |
| `leadRedisKey` | contact, automation, start | nobody |
| `removeKey` | contact, automation | a `removeAutomation` step |
| `targetKey` | contact, record | an achieved target |

**Proved here.**

    the first differs from the others (`leadRedisKey_ne_stopKey`, ..)
    Redis holds keys of the other three kinds only (`markers_of_reached`)
    the consumer sees cancellations only in runs
    where no step of a cancelled run arrives (`stopMarker_iff`)
-/
import OpenBms.Automation.Lifecycle
import OpenBms.Lib.Text

namespace OpenBms.Automation

/-! ## The keys -/

/-- The looked up key has a colon where the set key ends. -/
theorem leadRedisKey_ne_stopKey (m : LeadStateMessage) (id : Option Int) :
    leadRedisKey m ≠ stopKey id := by
  intro heq
  cases id with
  | none =>
      have htail := (String.append_right_inj "automation_to_stop:").mp heq
      have hmem := htail ▸ Text.colon_mem_append m.email (m.automationName ++ (":" ++ toString m.startedAt))
      exact absurd hmem (by decide)
  | some id =>
      have htail := (String.append_right_inj "automation_to_stop:").mp heq
      have hmem := htail ▸ Text.colon_mem_append m.email (m.automationName ++ (":" ++ toString m.startedAt))
      exact Text.colon_not_mem_toString id hmem

theorem leadRedisKey_ne_removeKey (m : LeadStateMessage) (a c : Int) :
    leadRedisKey m ≠ removeKey a c :=
  Text.append_ne_append _ _ 11 (by decide) (by decide) (by decide)

theorem leadRedisKey_ne_targetKey (m : LeadStateMessage) (c : Int) (i : Nat) :
    leadRedisKey m ≠ targetKey c i :=
  Text.append_ne_append _ _ 13 (by decide) (by decide) (by decide)

/-- A key that some command sets. -/
def Written (k : String) : Prop :=
  (∃ id, k = stopKey id) ∨ (∃ a c, k = removeKey a c) ∨ ∃ c i, k = targetKey c i

theorem leadRedisKey_not_written (m : LeadStateMessage) : ¬ Written (leadRedisKey m) := by
  rintro (⟨id, h⟩ | ⟨a, c, h⟩ | ⟨c, i, h⟩)
  · exact leadRedisKey_ne_stopKey m id h
  · exact leadRedisKey_ne_removeKey m a c h
  · exact leadRedisKey_ne_targetKey m c i h

/-! ## What Redis holds -/

/-- Every key set, or about to be set, is one of the three kinds; and no receipt
has found the fourth. -/
structure MarkersInv (s : State) : Prop where
  redis : ∀ k ∈ s.redis, Written k
  marks : ∀ k ∈ s.marks, Written k.key
  pending : ∀ u ∈ s.pending, Written u.mark.key
  log : ∀ e ∈ s.log, e.leadHit = false

section
variable {freq : Int → Frequency} {s s' t : State} {e : Event} {now : Int}

theorem written_cancel (no : Option Nat) (id : Option Int) (row : ContactAutomation) :
    Written (State.cancel no id row).mark.key :=
  .inl ⟨id, rfl⟩

theorem MarkersInv.advance (h : MarkersInv s) (hd : Handler) :
    MarkersInv (s.advance freq hd) := by
  have hgoto : ∀ stage, MarkersInv (s.goto hd stage) :=
    fun _ => ⟨h.redis, h.marks, h.pending, h.log⟩
  have hleave : MarkersInv (s.leave hd.no) := ⟨h.redis, h.marks, h.pending, h.log⟩
  unfold State.advance
  split
  · split
    · exact hleave
    · exact hgoto _
  · split
    · exact hgoto _
    · split
      · exact hgoto _
      · split
        · refine ⟨h.redis, h.marks, fun u hu => ?_, h.log⟩
          rcases List.mem_append.mp hu with hu | hu
          · exact h.pending u hu
          · rw [List.mem_singleton.mp hu]
            exact written_cancel _ _ _
        · exact hgoto _
  · exact ⟨h.redis, h.marks, h.pending, h.log⟩
  · exact ⟨h.redis, h.marks, h.pending, h.log⟩

theorem MarkersInv.receive (h : MarkersInv s) (m : LeadStateMessage) (last : Bool) :
    MarkersInv (s.receive m last) := by
  have hmiss : leadRedisKey m ∉ s.redis := fun hmem => leadRedisKey_not_written m (h.redis _ hmem)
  have hlog : ∀ stopped, ∀ e ∈ s.log ++ [(⟨m, decide (m.id ∈ s.cancelled),
      decide (leadRedisKey m ∈ s.redis), stopped⟩ : Receipt)], e.leadHit = false := by
    intro stopped e he
    rcases List.mem_append.mp he with he | he
    · exact h.log e he
    · rw [List.mem_singleton.mp he]
      exact decide_eq_false hmiss
  unfold State.receive
  dsimp only
  split
  · exact ⟨fun k hk => h.redis k (Finset.mem_sdiff.mp hk).1, h.marks, h.pending, hlog _⟩
  · exact ⟨h.redis, h.marks, h.pending, hlog _⟩

theorem MarkersInv.step (h : MarkersInv s) (hs : step freq s e = some s') : MarkersInv s' := by
  cases e with
  | advance no =>
      obtain ⟨hd, _, rfl⟩ := Option.map_eq_some_iff.mp hs
      exact h.advance hd
  | receive m last =>
      simp only [Automation.step] at hs
      split at hs
      · cases hs
        exact h.receive m last
      · cases hs
  | untag pair id =>
      simp only [Automation.step] at hs
      split at hs
      · cases hs
        exact h
      · cases hs
        refine ⟨h.redis, h.marks, fun u hu => ?_, h.log⟩
        rcases List.mem_append.mp hu with hu | hu
        · exact h.pending u hu
        · rw [List.mem_singleton.mp hu]
          exact written_cancel _ _ _
  | target pair =>
      cases hs
      refine ⟨h.redis, h.marks, fun u hu => ?_, h.log⟩
      rcases List.mem_append.mp hu with hu | hu
      · exact h.pending u hu
      · obtain ⟨row, _, rfl⟩ := List.mem_map.mp hu
        exact .inr (.inr ⟨_, _, rfl⟩)
  | land i =>
      obtain ⟨u, hu, rfl⟩ := Option.map_eq_some_iff.mp hs
      refine ⟨h.redis, fun k hk => ?_, fun u' hu' => h.pending u' (List.mem_of_mem_eraseIdx hu'), h.log⟩
      rcases List.mem_append.mp hk with hk | hk
      · exact h.marks k hk
      · rw [List.mem_singleton.mp hk]
        exact h.pending u (List.mem_of_getElem? hu)
  | lose i =>
      obtain ⟨u, _, rfl⟩ := Option.map_eq_some_iff.mp hs
      exact ⟨h.redis, h.marks, fun u' hu' => h.pending u' (List.mem_of_mem_eraseIdx hu'), h.log⟩
  | mark i =>
      obtain ⟨k, hk, rfl⟩ := Option.map_eq_some_iff.mp hs
      refine ⟨fun k' hk' => ?_, fun k' hk' => h.marks k' (List.mem_of_mem_eraseIdx hk'), h.pending,
        h.log⟩
      rcases Finset.mem_insert.mp hk' with rfl | hk'
      · exact h.marks k (List.mem_of_getElem? hk)
      · exact h.redis k' hk'
  | removeContact a c =>
      cases hs
      refine ⟨fun k hk => ?_, h.marks, h.pending, h.log⟩
      rcases Finset.mem_insert.mp hk with rfl | hk
      · exact .inr (.inl ⟨a, c, rfl⟩)
      · exact h.redis k hk
  | expire key =>
      cases hs
      exact ⟨fun k hk => h.redis k (Finset.mem_of_mem_erase hk), h.marks, h.pending, h.log⟩
  | complete a m =>
      simp only [Automation.step] at hs
      split at hs
      · cases hs
        exact ⟨h.redis, h.marks, h.pending, h.log⟩
      · cases hs
  | crash no =>
      obtain ⟨_, _, rfl⟩ := Option.map_eq_some_iff.mp hs
      exact ⟨h.redis, h.marks, h.pending, h.log⟩
  | arrive t | wait d =>
      cases hs
      exact ⟨h.redis, h.marks, h.pending, h.log⟩

/-- In every reached state Redis holds keys of the other three kinds only. -/
theorem markers_of_reached (h : Runs.Reached (step freq) (init now) t) : MarkersInv t := by
  refine h.induction ⟨fun k hk => ?_, fun k hk => ?_, fun u hu => ?_, fun e he => ?_⟩
    fun _ _ _ hinv hs => hinv.step hs
  · exact absurd hk (Finset.notMem_empty k)
  · cases hk
  · cases hu
  · cases he

/-- A step message finds the cancellation's marker if and only if its run has been
cancelled: only in the runs of the system where no step message of a cancelled run
arrives. -/
theorem stopMarker_iff {as : List Event} (h : Runs.exec (step freq) (init now) as = some t) :
    (∀ e ∈ t.log, e.leadHit = e.cancelled) ↔ ∀ e ∈ t.log, e.cancelled = false := by
  have hlog := (markers_of_reached ⟨as, h⟩).log
  constructor
  · intro hfound e he
    rw [← hfound e he, hlog e he]
  · intro hnone e he
    rw [hlog e he, hnone e he]

end

/-! ## A cancelled run goes on -/

def start7 : Trigger := ⟨⟨1, 7, 5⟩, "a@b.c", "Welcome", 0, none⟩

def step7 : LeadStateMessage := ⟨1, 7, "a@b.c", 5, "Welcome", 0⟩

/-- A run starts; the tag is removed, the record canceled and the marker set; then
the run's next step arrives. -/
def cancelThenStep : List Event :=
  [.arrive start7, .advance 0, .advance 0, .untag ⟨1, 7, 5⟩ none, .land 0, .mark 0,
    .receive step7 false]

theorem stopMarker_iff_cancelThenStep : ∃ t,
    Runs.exec (step fun _ => .multiply) (init 0) cancelThenStep = some t ∧
      ((∀ e ∈ t.log, e.leadHit = e.cancelled) ↔ ∀ e ∈ t.log, e.cancelled = false) := by
  obtain ⟨t, ht⟩ : ∃ t, Runs.exec (step fun _ => .multiply) (init 0) cancelThenStep = some t :=
    ⟨_, rfl⟩
  exact ⟨t, ht, stopMarker_iff ht⟩

/-- The step is executed: no marker is found, although the run is cancelled. -/
theorem stopMarker_missed : ∃ t,
    Runs.exec (step fun _ => .multiply) (init 0) cancelThenStep = some t ∧
      t.log = [⟨step7, true, false, false⟩] ∧ ¬ ∀ e ∈ t.log, e.leadHit = e.cancelled := by
  obtain ⟨t, ht, hlog⟩ : ∃ t, Runs.exec (step fun _ => .multiply) (init 0) cancelThenStep = some t ∧
      t.log = [⟨step7, true, false, false⟩] := ⟨_, rfl, rfl⟩
  refine ⟨t, ht, hlog, fun h => ?_⟩
  rw [hlog] at h
  exact absurd (h _ List.mem_cons_self) (by decide)

end OpenBms.Automation
