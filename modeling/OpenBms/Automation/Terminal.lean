/-
# `OpenBms.Automation.Terminal` — when a canceled or completed row stays so

`completeAutomations` passes a status to a `where` that does not ask for one, so a
completion message completes a row whatever its state; and an update decided on
while a row was running lands on what the row is by then.

**Proved here.**

    a step keeps every ended row exactly when it is timely (`timely_iff`)
    a run of timely steps keeps every ended row (`ended_kept`)
    a completion after a cancellation completes the row (`completed_canceled`)
-/
import OpenBms.Automation.Lifecycle

namespace OpenBms.Automation

/-- A status that ends a run. -/
def Status.ended : Status → Bool
  | .canceled | .completed => true
  | .running | .disengaged | .duplicate | .started => false

/-- A step that ends no row a second time in another way: the row a completion
message names is not canceled, and the row a landing update was decided on has not
ended otherwise since. -/
def Timely (s : State) : Event → Prop
  | .land i => ∀ u, s.pending[i]? = some u → ∀ r ∈ s.table.rows, r.pair.accountId = u.accountId →
      r.id = u.id → r.status.ended = true → r.status = u.status
  | .complete accountId m => ∀ r ∈ s.table.rows, r.pair.accountId = accountId → r.id = m.id →
      r.status ≠ .canceled
  | _ => True

section
variable {freq : Int → Frequency} {s s' t : State} {e : Event}

theorem setStatus_keeps_iff {table : Table} {a : Int} {i : Nat} {st : Status} :
    (∀ r ∈ table.rows, r.status.ended = true → r ∈ (table.setStatus a i st).rows) ↔
      ∀ r ∈ table.rows, r.pair.accountId = a → r.id = i → r.status.ended = true →
        r.status = st := by
  constructor
  · intro h r hr ha hi hended
    obtain ⟨r', hr', heq⟩ := Table.mem_setStatus.mp (h r hr hended)
    have hid : r'.id = r.id := by rw [← heq, Table.update_id]
    obtain rfl := Table.eq_of_id hr' hr hid
    rw [← heq, Table.update, if_pos ⟨ha, hi⟩]
  · intro h r hr hended
    refine Table.mem_setStatus.mpr ⟨r, hr, ?_⟩
    unfold Table.update
    split
    · rename_i hpos
      rw [← h r hr hpos.1 hpos.2 hended]
    · rfl

theorem not_canceled_iff {table : Table} {a : Int} {i : Nat} :
    (∀ r ∈ table.rows, r.pair.accountId = a → r.id = i → r.status.ended = true →
      r.status = .completed) ↔
      ∀ r ∈ table.rows, r.pair.accountId = a → r.id = i → r.status ≠ .canceled := by
  have hcases : ∀ st : Status, (st.ended = true → st = .completed) ↔ st ≠ .canceled := by
    intro st
    cases st <;> simp [Status.ended]
  simp only [hcases]

theorem timely_iff (hs : step freq s e = some s') :
    (∀ r ∈ s.table.rows, r.status.ended = true → r ∈ s'.table.rows) ↔ Timely s e := by
  rcases table_step hs with heq | ⟨h, rfl, _, hins⟩ | ⟨i, u, rfl, hu, heq⟩ | ⟨a, m, rfl, _, heq⟩
  · refine iff_of_true (fun r hr _ => heq ▸ hr) ?_
    cases e with
    | land i =>
        obtain ⟨u, hu, rfl⟩ := Option.map_eq_some_iff.mp hs
        intro u' hu' r hr ha hi hended
        obtain rfl : u = u' := Option.some.inj (hu.symm.trans hu')
        have hkeeps : ∀ r ∈ s.table.rows, r.status.ended = true →
            r ∈ (s.table.setStatus u.accountId u.id u.status).rows := fun r hr _ => by
          have hrows : (s.table.setStatus u.accountId u.id u.status).rows = s.table.rows := heq
          rwa [hrows]
        exact setStatus_keeps_iff.mp hkeeps r hr ha hi hended
    | complete a m =>
        simp only [step] at hs
        split at hs
        · cases hs
          have hkeeps : ∀ r ∈ s.table.rows, r.status.ended = true →
              r ∈ (s.table.setStatus a m.id .completed).rows := fun r hr _ => by
            have hrows : (s.table.setStatus a m.id .completed).rows = s.table.rows := heq
            rwa [hrows]
          exact not_canceled_iff.mp (setStatus_keeps_iff.mp hkeeps)
        · cases hs
    | _ => trivial
  · refine iff_of_true (fun r hr _ => ?_) trivial
    rcases hins with ⟨_, heq⟩ | ⟨_, heq⟩ <;> rw [heq] <;> exact Table.mem_insert.mpr (.inl hr)
  · rw [heq, setStatus_keeps_iff]
    constructor
    · intro h u' hu'
      obtain rfl : u = u' := Option.some.inj (hu.symm.trans hu')
      exact h
    · intro h
      exact h u hu
  · rw [heq, setStatus_keeps_iff]
    exact not_canceled_iff

/-- A run of timely steps keeps every row that has ended, as it ended. -/
theorem ended_kept {as : List Event} (hmeets : Runs.Meets (step freq) Timely s as)
    (h : Runs.exec (step freq) s as = some t) :
    ∀ r ∈ s.table.rows, r.status.ended = true → r ∈ t.table.rows := by
  intro r hr hended
  refine Runs.invariant (I := fun s => r ∈ s.table.rows) ?_ hr hmeets h
  intro s e s' hr htimely hs
  exact (timely_iff hs).mpr htimely r hr hended

end

def contact7 : Pair := ⟨1, 7, 5⟩

/-- A canceled row, and a new run of its pair. -/
def canceledOnce : State := { table := (Table.empty 0).insert contact7 .canceled }

theorem ended_kept_canceledOnce :
    ∃ t, Runs.exec (step fun _ => .multiply) canceledOnce
        [.arrive ⟨contact7, "a@b.c", "Welcome", 9, none⟩, .advance 0, .advance 0] = some t ∧
      ⟨1, contact7, .canceled, 0⟩ ∈ t.table.rows := by
  obtain ⟨t, ht⟩ : ∃ t, Runs.exec (step fun _ => .multiply) canceledOnce
      [.arrive ⟨contact7, "a@b.c", "Welcome", 9, none⟩, .advance 0, .advance 0] = some t := ⟨_, rfl⟩
  refine ⟨t, ht, ended_kept ?_ ht _ List.mem_cons_self rfl⟩
  exact ⟨trivial, fun _ _ => ⟨trivial, fun _ _ => ⟨trivial, fun _ _ => trivial⟩⟩⟩

/-! ## A completion after a cancellation -/

/-- The message of the run that the trigger below starts. -/
def message7 : LeadStateMessage := ⟨1, 7, "a@b.c", 5, "Welcome", 0⟩

/-- A run starts and executes its last step; before its completion message is
handled, the tag is removed and the run canceled. -/
def cancelThenComplete : List Event :=
  [.arrive ⟨contact7, "a@b.c", "Welcome", 0, none⟩, .advance 0, .advance 0, .receive message7 true,
    .untag contact7 none, .land 0]

theorem completed_canceled : ∃ s t, Runs.exec (step fun _ => .multiply) (init 0)
      cancelThenComplete = some s ∧
    s.table.rows = [⟨1, contact7, .canceled, 0⟩] ∧
    step (fun _ => .multiply) s (.complete 1 message7) = some t ∧
    t.table.rows = [⟨1, contact7, .completed, 0⟩] :=
  ⟨_, _, rfl, rfl, rfl, rfl⟩

end OpenBms.Automation
