/-
# `OpenBms.SendEmail.Counters` — the counters of contacts and IP pools in Redis

Every send counts its contact with three commands and its pool with two; a batch does
the same for each of its contacts, and counts the pool by all of them at once.  The
commands of any number of workers alternate.

| counter | commands |
| :-- | :-- |
| contact | `EXISTS`, if there is none `SET 0 EX`, `INCR` |
| pool | `INCRBY n`, if the answer is 1 `EXPIRE` |

A key that expires takes its count with it: its window ends.

**Proved here.**

    while no counter is set over one that counts, no `INCR`
    comes after the end of a window and the first send of
    a pool is a single one, every counter counts its sends
    and has an expiry, or its creator is about to set it (`counters_exact`)
    two sends of a contact can count as one, and a batch
    creates a counter that never expires (`counters_lost`)
-/
import OpenBms.Lib.Runs
import OpenBms.SendEmail.Types

namespace OpenBms.SendEmail

/-- A value in Redis: the count, and whether it expires. -/
structure Counter where
  value : Nat
  expires : Bool
  deriving DecidableEq

/-- What a worker's next command is. -/
inductive Task where
  | existsKey (key : String)
  | setZero (key : String)
  | incr (key : String)
  | incrby (key : String) (increment : Nat)
  | expire (key : String)
  | done
  deriving DecidableEq

/-- Redis, the sends recorded in the window of each key, and the tasks by their numbers. -/
structure Store where
  counters : String → Option Counter
  recorded : String → Nat
  tasks : Nat → Option Task

def Store.init : Store := ⟨fun _ => none, fun _ => 0, fun _ => none⟩

/-- Somebody starts to count a send, executes a command, or the window of a key ends. -/
inductive Action where
  | countContact (i : Nat) (key : String)
  | countPool (i : Nat) (key : String) (increment : Nat)
  | command (i : Nat)
  | lapse (key : String)
  deriving DecidableEq

namespace Store

/-- The count of a key; a missing one counts nothing. -/
def value (s : Store) (key : String) : Nat := (s.counters key).elim 0 Counter.value

def goto (s : Store) (i : Nat) (task : Task) : Store :=
  { s with tasks := Function.update s.tasks i (some task) }

def put (s : Store) (key : String) (c : Option Counter) : Store :=
  { s with counters := Function.update s.counters key c }

/-- `INCRBY key n`: the expiry stays as it is, and a new key has none. -/
def increment (s : Store) (key : String) (n : Nat) : Store :=
  { s.put key (some ⟨s.value key + n, (s.counters key).elim false Counter.expires⟩) with
    recorded := Function.update s.recorded key (s.recorded key + n) }

end Store

/-- The command of a task, and what the worker does next. -/
def execute (s : Store) (i : Nat) : Task → Option Store
  | .existsKey key => some (s.goto i (if (s.counters key).isSome then .incr key else .setZero key))
  | .setZero key => some ((s.put key (some ⟨0, true⟩)).goto i (.incr key))
  | .incr key => some ((s.increment key 1).goto i .done)
  | .incrby key n =>
      some ((s.increment key n).goto i (if s.value key + n = 1 then .expire key else .done))
  | .expire key =>
      some ((s.put key ((s.counters key).map fun c => { c with expires := true })).goto i .done)
  | .done => none

def act (s : Store) : Action → Option Store
  | .countContact i key => if s.tasks i = none then some (s.goto i (.existsKey key)) else none
  | .countPool i key n =>
      if s.tasks i = none ∧ 0 < n then some (s.goto i (.incrby key n)) else none
  | .command i => (s.tasks i).bind (execute s i)
  | .lapse key =>
      if (s.counters key).elim false Counter.expires then
        some { s.put key none with recorded := Function.update s.recorded key 0 }
      else none

/-! ## Exact counters -/

/-- A counter counts its sends, and expires unless its creator is about to see to it. -/
structure Exact (s : Store) : Prop where
  value : ∀ key, s.value key = s.recorded key
  expires : ∀ key c, s.counters key = some c → c.expires = true ∨ ∃ i, s.tasks i = some (.expire key)

/-- No counter is set to zero over sends that were recorded, none is incremented after
its window ended, and a pool's counter starts with a single send. -/
def Apart (s : Store) : Action → Prop
  | .command i => ∀ task, s.tasks i = some task → match task with
      | .setZero key => s.recorded key = 0
      | .incr key => s.counters key ≠ none
      | .incrby key n => s.counters key = none → n = 1
      | _ => True
  | _ => True

theorem Exact.init : Exact Store.init where
  value := fun _ => rfl
  expires := fun _ _ h => by cases h

section
variable {s s' : Store} {a : Action} {i : Nat} {key : String} {task : Task} {n : Nat}

theorem Store.value_put (k : String) (c : Option Counter) :
    (s.put key c).value k = if k = key then c.elim 0 Counter.value else s.value k := by
  simp only [Store.value, Store.put, Function.update_apply]
  split <;> rfl

theorem Store.put_counters (k : String) (c : Option Counter) :
    (s.put key c).counters k = if k = key then c else s.counters k := by
  simp only [Store.put, Function.update_apply]

/-- A worker that is not about to set an expiry goes on. -/
theorem Exact.goto (h : Exact s) (hi : ∀ key, s.tasks i ≠ some (.expire key)) :
    Exact (s.goto i task) := by
  refine ⟨h.value, fun key c hc => ?_⟩
  rcases h.expires key c hc with hexp | ⟨j, hj⟩
  · exact .inl hexp
  · have hji : j ≠ i := by
      rintro rfl
      exact hi key hj
    exact .inr ⟨j, (Function.update_of_ne hji ..).trans hj⟩

/-- The count of the sends goes up with the counter. -/
theorem Store.increment_value (h : Exact s) (k : String) :
    (s.increment key n).value k = (s.increment key n).recorded k := by
  show (s.put key _).value k = Function.update s.recorded key (s.recorded key + n) k
  rw [Store.value_put, Function.update_apply]
  split
  · rw [← h.value key]
    rfl
  · exact h.value k

theorem Exact.execute (h : Exact s) (hi : s.tasks i = some task) (happart : Apart s (.command i))
    (hs : execute s i task = some s') : Exact s' := by
  have hcond := happart task hi
  cases task with
  | existsKey key =>
      cases hs
      exact h.goto fun k hk => by cases hi.symm.trans hk
  | setZero key =>
      cases hs
      refine Exact.goto ⟨fun k => ?_, fun k c hc => ?_⟩ fun k hk => by cases hi.symm.trans hk
      · rw [Store.value_put]
        split
        · rename_i hk
          rw [hk]
          exact Eq.symm hcond
        · exact h.value k
      · rw [Store.put_counters] at hc
        split at hc
        · cases hc
          exact .inl rfl
        · exact h.expires k c hc
  | incr key =>
      cases hs
      refine Exact.goto ⟨Store.increment_value h, fun k c hc => ?_⟩ fun k hk => by
        cases hi.symm.trans hk
      have hc' : (s.put key _).counters k = some c := hc
      rw [Store.put_counters] at hc'
      split at hc'
      · rename_i hk
        obtain ⟨c₀, hc₀⟩ := Option.ne_none_iff_exists'.mp hcond
        cases hc'
        rcases h.expires key c₀ hc₀ with hexp | hj
        · exact .inl (by simp only [hc₀, Option.elim_some, hexp])
        · exact .inr (hk ▸ hj)
      · exact h.expires k c hc'
  | incrby key n =>
      cases hs
      refine ⟨Store.increment_value h, fun k c hc => ?_⟩
      have hc' : (s.put key _).counters k = some c := hc
      rw [Store.put_counters] at hc'
      have hother : ∀ j, s.tasks j = some (.expire k) →
          ∃ j, ((s.increment key n).goto i (if s.value key + n = 1 then .expire key else .done)).tasks
            j = some (.expire k) := by
        intro j hj
        have hji : j ≠ i := by
          rintro rfl
          cases hi.symm.trans hj
        exact ⟨j, (Function.update_of_ne hji ..).trans hj⟩
      split at hc'
      · rename_i hk
        subst hk
        cases hc'
        cases hnone : s.counters k with
        | some c₀ =>
            rcases h.expires k c₀ hnone with hexp | ⟨j, hj⟩
            · exact .inl (by simp only [Option.elim_some, hexp])
            · exact .inr (hother j hj)
        | none =>
            -- the first send of the pool is a single one, so the answer is 1
            have hone : s.value k + n = 1 := by
              rw [hcond hnone, Store.value, hnone]
              rfl
            refine .inr ⟨i, ?_⟩
            rw [if_pos hone]
            exact Function.update_self ..
      · rcases h.expires k c hc' with hexp | ⟨j, hj⟩
        · exact .inl hexp
        · exact .inr (hother j hj)
  | expire key =>
      cases hs
      refine ⟨fun k => ?_, fun k c hc => ?_⟩
      · show (s.put key _).value k = s.recorded k
        rw [Store.value_put]
        split
        · rename_i hk
          rw [hk, ← h.value key, Store.value]
          cases s.counters key <;> rfl
        · exact h.value k
      · have hc' : (s.put key _).counters k = some c := hc
        rw [Store.put_counters] at hc'
        split at hc'
        · obtain ⟨c₀, _, rfl⟩ := Option.map_eq_some_iff.mp hc'
          exact .inl rfl
        · rename_i hk
          rcases h.expires k c hc' with hexp | ⟨j, hj⟩
          · exact .inl hexp
          · have hji : j ≠ i := by
              rintro rfl
              cases hi.symm.trans hj
              exact hk rfl
            exact .inr ⟨j, (Function.update_of_ne hji ..).trans hj⟩
  | done => cases hs

/-- What every step that keeps apart keeps. -/
theorem Exact.act (h : Exact s) (hapart : Apart s a) (hs : act s a = some s') : Exact s' := by
  cases a with
  | countContact i key =>
      simp only [SendEmail.act] at hs
      split at hs
      · rename_i hi
        cases hs
        exact h.goto fun k hk => by cases hi.symm.trans hk
      · cases hs
  | countPool i key n =>
      simp only [SendEmail.act] at hs
      split at hs
      · rename_i hi
        cases hs
        exact h.goto fun k hk => by cases hi.1.symm.trans hk
      · cases hs
  | command i =>
      obtain ⟨task, hi, hs⟩ := Option.bind_eq_some_iff.mp hs
      exact h.execute hi hapart hs
  | lapse key =>
      simp only [SendEmail.act] at hs
      split at hs
      · cases hs
        refine ⟨fun k => ?_, fun k c hc => ?_⟩
        · show (s.put key none).value k = Function.update s.recorded key 0 k
          rw [Store.value_put, Function.update_apply]
          split
          · rfl
          · exact h.value k
        · have hc' : (s.put key none).counters k = some c := hc
          rw [Store.put_counters] at hc'
          split at hc'
          · cases hc'
          · exact h.expires k c hc'
      · cases hs

end

/-- In every run whose steps keep apart, each counter is the number of the sends
recorded in its window, and expires unless its creator is about to see to it. -/
theorem counters_exact {s : Store} {as : List Action} (h : Runs.exec act Store.init as = some s)
    (hapart : Runs.Meets act Apart Store.init as) :
    (∀ key, s.value key = s.recorded key) ∧
      ∀ key c, s.counters key = some c →
        c.expires = true ∨ ∃ i, s.tasks i = some (.expire key) := by
  have hexact : Exact s := Runs.invariant (fun _ _ _ hI hC hs => hI.act hC hs) Exact.init hapart h
  exact ⟨hexact.value, hexact.expires⟩

/-- One send, counted for its contact and its pool. -/
theorem counters_exact_single :
    ∃ s, Runs.exec act Store.init [.countContact 0 "c", .command 0, .command 0, .command 0,
        .countPool 1 "p" 1, .command 1, .command 1] = some s ∧
      (∀ key, s.value key = s.recorded key) ∧ ∀ key c, s.counters key = some c →
        c.expires = true ∨ ∃ i, s.tasks i = some (.expire key) := by
  refine ⟨_, rfl, counters_exact (rfl : Runs.exec act Store.init
    [.countContact 0 "c", .command 0, .command 0, .command 0, .countPool 1 "p" 1, .command 1,
      .command 1] = some _) ?_⟩
  refine .cons trivial rfl (.cons ?_ rfl (.cons ?_ rfl (.cons ?_ rfl (.cons trivial rfl
    (.cons ?_ rfl (.cons ?_ rfl trivial))))))
  · intro task htask
    cases htask
    trivial
  · intro task htask
    cases htask
    rfl
  · intro task htask
    cases htask
    exact Option.some_ne_none _
  · intro task htask
    cases htask
    exact fun _ => rfl
  · intro task htask
    cases htask
    trivial

/-- Two workers count one contact, and a batch of two counts its pool first: one send of
the two is lost, and nobody is left to give the pool's counter an expiry. -/
theorem counters_lost :
    ∃ s, Runs.exec act Store.init [.countContact 0 "c", .countContact 1 "c", .command 0, .command 1,
        .command 0, .command 0, .command 1, .command 1, .countPool 2 "p" 2, .command 2] = some s ∧
      s.value "c" = 1 ∧ s.recorded "c" = 2 ∧ s.counters "p" = some ⟨2, false⟩ ∧
      s.tasks 0 = some .done ∧ s.tasks 1 = some .done ∧ s.tasks 2 = some .done :=
  ⟨_, rfl, by decide, by decide, by decide, by decide, by decide, by decide⟩

end OpenBms.SendEmail
