/-
# `OpenBms.TagProcess.SegmentLock` — the lock around `processSegment`

A run of a segment begins with `SET processingsegment:<id> <token> EX 1900 NX` and ends, on
every path, with a script that deletes the key if it still has the run's token.  Between the
two lie the awaited calls of `try` and `catch`; any of them may fail, and they may take any
time.  A worker may also die, and leave its key behind.

| operation of a run | effect on the key |
| :-- | :-- |
| `SET .. NX` | the token, where the key has no value |
| a call of `try` or `catch` | none |
| the script | none, where the key has another token |

**Proved here.**

    while a run is within the time to live, its token is in
    its segment's key (`Held`, `step_held`)
    two runs of a segment never overlap, and no run takes
    the lock of another one (`processSegment_excludes`)
-/
import OpenBms.Lib.Expiring
import OpenBms.Lib.Runs

namespace OpenBms.TagProcess.Lock

open Expiring

/-! ## A run -/

/-- What a run awaits, from the lock on. -/
inductive Stage where
  | getTagById
  | findAccount
  | accountInactive
  | segmentActive
  | deactivate
  | segmentInactive
  | recalculate
  | getNumberContactsByTag
  | scheduleSegmentRecalculation
  | publishSegmentData
  | updateTag
  | cancelSegmentJob
  | updateFailed
  | release
  | ended
  deriving DecidableEq

/-- Where a failure of `try` goes, once the segment is loaded. -/
def caught : List Stage := [.cancelSegmentJob, .updateFailed]

/-- The calls that may follow one: `try` goes on or returns, or the call fails. -/
def Stage.follows : Stage → List Stage
  | .getTagById => [.findAccount, .release]
  | .findAccount => [.accountInactive, .segmentActive, .recalculate] ++ caught
  | .accountInactive => .release :: caught
  -- a segment that no campaign uses is deactivated; the query may not be generated
  | .segmentActive => [.deactivate, .recalculate] ++ caught
  | .deactivate => .segmentInactive :: caught
  | .segmentInactive => .release :: caught
  | .recalculate => .getNumberContactsByTag :: caught
  | .getNumberContactsByTag =>
      [.scheduleSegmentRecalculation, .publishSegmentData, .updateTag] ++ caught
  | .scheduleSegmentRecalculation => [.publishSegmentData, .updateTag] ++ caught
  | .publishSegmentData => [.publishSegmentData, .updateTag] ++ caught
  | .updateTag => .release :: caught
  | .cancelSegmentJob => [.updateFailed]
  | .updateFailed => [.release]
  | .release => []
  | .ended => []

/-- A run that has its lock, from the moment `acquired` on. -/
structure Run where
  id : Int
  acquired : Nat
  stage : Stage
  deriving DecidableEq

def Run.inProgress (run : Run) : Bool := run.stage != .ended

/-! ## Runs together -/

def redisKey (id : Int) : String := "processingsegment:" ++ toString id

/-- The time to live of a lock, in seconds. -/
def ttl : Nat := 1900

/-- The runs of all the workers, by their numbers; a run is over, or refused, as `ended`. -/
structure State where
  redis : Store String String
  runs : Nat → Option Run

def State.init : State := ⟨.empty 0, fun _ => none⟩

inductive Op where
  /-- a message is delivered; the answer of `SET` may be lost -/
  | begin (r : Nat) (id : Int) (lost : Bool)
  /-- the call that a run awaits is answered, or fails -/
  | answer (r : Nat) (next : Stage)
  /-- the script; it may not be executed -/
  | release (r : Nat) (executed : Bool)
  /-- a worker dies -/
  | crash (r : Nat)
  /-- seconds pass -/
  | wait (d : Nat)

section
variable (uuid : Nat → String)

def State.setRun (s : State) (r : Nat) (run : Run) : State :=
  { s with runs := Function.update s.runs r (some run) }

/-- `SET` with `NX`, and what follows on its answer. -/
def State.acquire (s : State) (r : Nat) (id : Int) (lost : Bool) : State :=
  let stage := if s.redis.has (redisKey id) || lost then .ended else .getTagById
  { s.setRun r ⟨id, s.redis.now, stage⟩ with
    redis := s.redis.setNx (redisKey id) (uuid r) ttl }

def State.step (s : State) : Op → State
  | .begin r id lost =>
      match s.runs r with
      | some _ => s
      | none => s.acquire uuid r id lost
  | .answer r next =>
      match s.runs r with
      | none => s
      | some run =>
          if run.stage.follows.contains next then s.setRun r { run with stage := next } else s
  | .release r executed =>
      match s.runs r with
      | none => s
      | some run =>
          if run.stage = .release then
            { s.setRun r { run with stage := .ended } with
              redis := if executed then s.redis.compareDelete (redisKey run.id) (uuid r) else s.redis }
          else s
  | .crash r =>
      match s.runs r with
      | none => s
      | some run => s.setRun r { run with stage := .ended }
  | .wait d => { s with redis := s.redis.wait d }

/-! ## Exclusion -/

/-- Two runs in progress are not of one segment. -/
def Excludes (s : State) : Prop :=
  ∀ r r' run run', s.runs r = some run → s.runs r' = some run' → run.inProgress = true →
    run'.inProgress = true → run.id = run'.id → r = r'

/-- The run that takes the step. -/
def Op.run : Op → Option Nat
  | .begin r _ _ => some r
  | .answer r _ => some r
  | .release r _ => some r
  | .crash r => some r
  | .wait _ => none

/-- A step of a run leaves the locks alone that have the tokens of other runs. -/
def Spares (s : State) (op : Op) : Prop :=
  ∀ r r' k, op.run = some r → r' ≠ r → s.redis.get k = some (uuid r') →
    (s.step uuid op).redis.get k = some (uuid r')

/-- No run lasts longer than the time to live. -/
def InTime (s : State) : Op → Prop
  | .wait d => ∀ r run, s.runs r = some run → run.inProgress = true →
      s.redis.now + d ≤ run.acquired + ttl
  | _ => True

/-- A run in progress has its token in the key, until its time to live is over. -/
def Held (s : State) : Prop :=
  ∀ r run, s.runs r = some run → run.inProgress = true →
    s.redis.entries (redisKey run.id) = some (uuid r, run.acquired + ttl) ∧
      s.redis.now ≤ run.acquired + ttl

end

section
variable {uuid : Nat → String} {s : State} {r : Nat} {run : Run}

theorem runs_setRun {i : Nat} {run' : Run} (h : (s.setRun r run).runs i = some run') :
    i = r ∧ run' = run ∨ i ≠ r ∧ s.runs i = some run' := by
  rcases eq_or_ne i r with rfl | hne
  · have hself : (s.setRun i run).runs i = some run := Function.update_self ..
    exact .inl ⟨rfl, (Option.some_inj.mp (hself.symm.trans h)).symm⟩
  · exact .inr ⟨hne, (Function.update_of_ne hne ..).symm.trans h⟩

/-- Tokens of two runs are not in one key. -/
theorem Held.excludes (h : Held uuid s) (huuid : Function.Injective uuid) : Excludes s := by
  intro r r' run run' hrun hrun' hprogress hprogress' hid
  obtain ⟨hentry, -⟩ := h r run hrun hprogress
  obtain ⟨hentry', -⟩ := h r' run' hrun' hprogress'
  rw [hid] at hentry
  have heq := Option.some_inj.mp (hentry.symm.trans hentry')
  exact huuid (congrArg Prod.fst heq)

theorem Held.setRun (h : Held uuid s) (hrun : s.runs r = some run) {stage : Stage}
    (hstage : stage ≠ .ended → run.inProgress = true) :
    Held uuid (s.setRun r { run with stage := stage }) := by
  intro i run' hrun' hprogress
  rcases runs_setRun hrun' with ⟨rfl, rfl⟩ | ⟨-, hrun'⟩
  · exact h i run hrun (hstage (bne_iff_ne.mp hprogress))
  · exact h i run' hrun' hprogress

/-- A run that gets the lock has its token in the key; it gets none that another one holds. -/
theorem Held.acquire (h : Held uuid s) (r : Nat) (id : Int) (lost : Bool) :
    Held uuid (s.acquire uuid r id lost) := by
  intro i run hrun hprogress
  cases hhas : s.redis.has (redisKey id) with
  | true =>
      have hredis : (s.acquire uuid r id lost).redis = s.redis := Store.setNx_of_has hhas
      rw [hredis]
      rcases runs_setRun hrun with ⟨-, rfl⟩ | ⟨-, hrun⟩
      · rw [hhas] at hprogress
        cases hprogress
      · exact h i run hrun hprogress
  | false =>
      have hredis : (s.acquire uuid r id lost).redis = s.redis.set (redisKey id) (uuid r) ttl :=
        Store.setNx_of_not_has hhas
      rw [hredis]
      rcases runs_setRun hrun with ⟨rfl, rfl⟩ | ⟨-, hrun⟩
      · exact ⟨Function.update_self .., Nat.le_add_right ..⟩
      · obtain ⟨hentry, hnow⟩ := h i run hrun hprogress
        have hne : redisKey run.id ≠ redisKey id := by
          intro heq
          have hvalue : s.redis.get (redisKey id) = some (uuid i) :=
            Store.get_eq_some.mpr ⟨_, heq ▸ hentry, hnow⟩
          exact Bool.false_ne_true (hhas.symm.trans (Store.has_iff.mpr ⟨_, hvalue⟩))
        exact ⟨(Function.update_of_ne hne ..).trans hentry, hnow⟩

/-- The script of a run deletes the key of no other one. -/
theorem Held.release (h : Held uuid s) (huuid : Function.Injective uuid) (executed : Bool) :
    Held uuid { s.setRun r { run with stage := .ended } with
      redis := if executed then s.redis.compareDelete (redisKey run.id) (uuid r) else s.redis } := by
  intro i run' hrun' hprogress
  rcases runs_setRun hrun' with ⟨-, rfl⟩ | ⟨hne, hrun'⟩
  · cases hprogress
  obtain ⟨hentry, hnow⟩ := h i run' hrun' hprogress
  cases executed with
  | false => exact ⟨hentry, hnow⟩
  | true =>
      have hother : redisKey run'.id = redisKey run.id → s.redis.get (redisKey run.id) ≠ some (uuid r) := by
        intro heq hvalue
        have hmine : s.redis.get (redisKey run.id) = some (uuid i) :=
          Store.get_eq_some.mpr ⟨_, heq ▸ hentry, hnow⟩
        exact hne (huuid (Option.some_inj.mp (hmine.symm.trans hvalue)))
      have hnow' : (s.redis.compareDelete (redisKey run.id) (uuid r)).now = s.redis.now :=
        Store.now_compareDelete
      show (s.redis.compareDelete (redisKey run.id) (uuid r)).entries _ = _ ∧ _ ≤ _
      rw [Store.entries_compareDelete hother]
      exact ⟨hentry, hnow'.le.trans hnow⟩

/-- What a step keeps, while no run lasts longer than the time to live. -/
theorem step_held (huuid : Function.Injective uuid) (h : Held uuid s) {op : Op} (htime : InTime s op) :
    Held uuid (s.step uuid op) := by
  cases op with
  | begin r id lost =>
      show Held uuid (match s.runs r with | some _ => s | none => s.acquire uuid r id lost)
      cases s.runs r with
      | some _ => exact h
      | none => exact h.acquire r id lost
  | answer r next =>
      show Held uuid (match s.runs r with | none => s | some run => _)
      cases hrun : s.runs r with
      | none => exact h
      | some run =>
          dsimp only
          split
          next hnext =>
            refine h.setRun hrun fun _ => bne_iff_ne.mpr fun hended => ?_
            rw [hended] at hnext
            cases hnext
          · exact h
  | release r executed =>
      show Held uuid (match s.runs r with | none => s | some run => _)
      cases hrun : s.runs r with
      | none => exact h
      | some run =>
          dsimp only
          split
          · exact h.release huuid executed
          · exact h
  | crash r =>
      show Held uuid (match s.runs r with | none => s | some run => _)
      cases hrun : s.runs r with
      | none => exact h
      | some run => exact h.setRun hrun fun hne => (hne rfl).elim
  | wait d =>
      intro r run hrun hprogress
      exact ⟨(h r run hrun hprogress).1, htime r run hrun hprogress⟩

/-- A token that is in a key stays there, whatever the other runs do. -/
theorem spares (huuid : Function.Injective uuid) (s : State) (op : Op) : Spares uuid s op := by
  intro r r' k hop hne hvalue
  have hhas : s.redis.has k = true := Store.has_iff.mpr ⟨_, hvalue⟩
  cases op with
  | begin i id lost =>
      show (match s.runs i with | some _ => s | none => s.acquire uuid i id lost).redis.get k = _
      cases s.runs i with
      | some _ => exact hvalue
      | none =>
          show (s.redis.setNx (redisKey id) (uuid i) ttl).get k = _
          cases hid : s.redis.has (redisKey id) with
          | true =>
              rw [Store.setNx_of_has hid]
              exact hvalue
          | false =>
              rw [Store.setNx_of_not_has hid, Store.get_set_ne ?_]
              · exact hvalue
              · rintro rfl
                exact Bool.false_ne_true (hid.symm.trans hhas)
  | answer i next =>
      show (match s.runs i with | none => s | some run => _).redis.get k = _
      cases s.runs i with
      | none => exact hvalue
      | some run =>
          dsimp only
          split
          · exact hvalue
          · exact hvalue
  | release i executed =>
      cases hop
      show (match s.runs r with | none => s | some run => _).redis.get k = _
      cases s.runs r with
      | none => exact hvalue
      | some run =>
          dsimp only
          split
          · cases executed with
            | false => exact hvalue
            | true =>
                show (s.redis.compareDelete (redisKey run.id) (uuid r)).get k = _
                rw [Store.get_compareDelete, if_neg ?_]
                · exact hvalue
                · rintro ⟨rfl, hmine⟩
                  exact hne (huuid (Option.some_inj.mp (hvalue.symm.trans hmine)))
          · exact hvalue
  | crash i =>
      show (match s.runs i with | none => s | some run => _).redis.get k = _
      cases s.runs i with
      | none => exact hvalue
      | some run => exact hvalue
  | wait d => cases hop

end

theorem held_init (uuid : Nat → String) : Held uuid .init := fun _ _ hrun => (by cases hrun)

/-- While no run lasts longer than the time to live, two runs of a segment never overlap, and no
run ever takes the lock of another one. -/
theorem processSegment_excludes (uuid : Nat → String) (huuid : Function.Injective uuid) (ops : List Op)
    (htime : Runs.Meets (fun s op => some (State.step uuid s op)) InTime .init ops) :
    (∀ before after, ops = before ++ after → Excludes (before.foldl (State.step uuid) .init)) ∧
      ∀ before op after, ops = before ++ op :: after →
        Spares uuid (before.foldl (State.step uuid) .init) op := by
  have hsteps := Runs.always_steps (I := Held uuid) (K := Spares uuid)
    (fun s op h htime => ⟨step_held huuid h htime, spares huuid s op⟩) (held_init uuid) htime
  exact ⟨fun before after heq => (hsteps.1 before after heq).excludes huuid, hsteps.2⟩

/-- A job and its retry: the second run is refused while the first one lasts. -/
def retried : List Op :=
  [.begin 0 7 false, .answer 0 .findAccount, .wait 1900, .begin 1 7 false, .answer 0 .updateFailed,
    .answer 0 .release, .release 0 true]

theorem processSegment_excludes_retried :
    Excludes (retried.foldl (State.step Nat.repr) .init) := by
  refine (processSegment_excludes Nat.repr (fun _ _ h => Nat.repr_injective h) retried ?_).1 retried []
    (List.append_nil _).symm
  refine .cons trivial rfl (.cons trivial rfl (.cons ?_ rfl (.cons trivial rfl (.cons trivial rfl
    (.cons trivial rfl (.cons trivial rfl trivial))))))
  intro r run hrun _
  cases r with
  | zero =>
      cases hrun
      exact Nat.le_refl _
  | succ r => cases hrun

end OpenBms.TagProcess.Lock
