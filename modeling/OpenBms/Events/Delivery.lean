/-
# `OpenBms.Events.Delivery` — the deliveries of a message and the answers of their calls

A bridge hands every delivery of the queue to a call of `processWithIdempotency` and
turns the answer into an acknowledgement: `skipped` and a result are an `ack`, an error
and a time-out are a `nack`, which puts a copy back on the queue or, after the last
attempt, reports the message on the dead-letter queue.

| what happens | the lock of the call |
| :-- | :-- |
| the call returns | was released, unless the release threw |
| the worker dies | stays until it expires |
| the bridge's 30 s are over, or its connection drops | stays while the call goes on |

**Proved here.**

    while no delivery finds a lock whose call does not
    answer to a delivery any more, whoever is skipped is
    covered, and no published message is lost (`no_event_lost`)
    the next attempt of a worker that died is skipped (`event_lost`)
-/
import OpenBms.Events.Idempotency

namespace OpenBms.Events

/-- A message on the queue, with the number of its attempt. -/
structure Copy where
  messageId : String
  attempt : Nat
  deriving DecidableEq

def maxRetries : Nat := 3

/-- Redis and the calls, the queue, and the deliveries that are not acknowledged, by the
numbers of their calls with their attempts; `orphaned` are the tokens of calls that
answer to no delivery or left their lock behind. -/
structure Bridge where
  calls : State
  failed : Nat → Bool
  queue : List Copy
  waiting : Nat → Option Nat
  orphaned : List Nat
  published : List String
  reported : List String

def Bridge.init : Bridge := ⟨.init, fun _ => false, [], fun _ => none, [], [], []⟩

namespace Bridge

/-- The call of a delivery threw, or did not answer in time. -/
def retryOrDlq (s : Bridge) (i : Nat) (messageId : String) (attempt : Nat) : Bridge :=
  if maxRetries ≤ attempt then
    { s with waiting := Function.update s.waiting i none, reported := s.reported ++ [messageId] }
  else
    { s with waiting := Function.update s.waiting i none, queue := s.queue ++ [⟨messageId, attempt + 1⟩] }

def ack (s : Bridge) (i : Nat) : Bridge := { s with waiting := Function.update s.waiting i none }

/-- The connection of the bridge is gone: the broker delivers again. -/
def requeue (s : Bridge) (i : Nat) (messageId : String) (attempt : Nat) : Bridge :=
  { s with waiting := Function.update s.waiting i none, queue := s.queue ++ [⟨messageId, attempt⟩] }

/-- The lock of a call in this stage is nobody's any more. -/
def orphan (s : Bridge) (stage : Stage) : Bridge :=
  { s with orphaned := s.orphaned ++ stage.token?.toList }

/-- A call has executed a command; one that answers to no delivery holds its lock for
nobody. -/
def advance (s : Bridge) (i : Nat) (calls : State) : Bridge :=
  { s with
    calls := calls
    orphaned := s.orphaned ++
      (if s.waiting i = none then ((calls.deliveries i).bind (·.2.token?)).toList else []) }

/-- The call goes to a stage after a failure. -/
def fail (s : Bridge) (i : Nat) (messageId : String) (stage : Stage) : Bridge :=
  { s with calls := s.calls.goto i messageId stage, failed := Function.update s.failed i true }

end Bridge

inductive Occasion where
  | publish (messageId : String)
  | deliver (i place : Nat)
  | command (i : Nat)
  | throws (i : Nat)
  | settle (i : Nat) (ok : Bool)
  | answer (i : Nat)
  | crash (i : Nat)
  | giveUp (i : Nat)
  | requeue (i : Nat)
  | tick (seconds : Nat)

/-- Where a call goes on when a command of Redis throws: with the `finally`, if it has a
lock. -/
def Stage.afterThrow : Stage → Option Stage
  | .isProcessed | .acquireLock => some .returned
  | .isProcessedAfterLock t | .markMessageAsProcessed t => some (.releaseLock t)
  | .releaseLock _ => some .returned
  | .processor _ | .returned => none

/-- The id of a message is a hash, so it is not empty. -/
def Bridge.step (s : Bridge) : Occasion → Option Bridge
  | .publish messageId =>
      if messageId = "" then none
      else some { s with queue := s.queue ++ [⟨messageId, 1⟩], published := s.published ++ [messageId] }
  | .deliver i place =>
      if s.calls.deliveries i = none then
        s.queue[place]?.map fun copy =>
          { s with
            calls := s.calls.goto i copy.messageId .isProcessed
            failed := Function.update s.failed i false
            queue := s.queue.eraseIdx place
            waiting := Function.update s.waiting i (some copy.attempt) }
      else none
  | .command i => (Events.step s.calls (.command i)).map (s.advance i)
  | .throws i =>
      (s.calls.deliveries i).bind fun (messageId, stage) =>
        stage.afterThrow.map fun stage' =>
          let s' := s.fail i messageId stage'
          if stage'.token? = none then s'.orphan stage else s'
  | .settle i true =>
      (Events.step s.calls (.settle i true)).map fun calls => { s with calls := calls }
  | .settle i false =>
      match s.calls.deliveries i with
      | some (messageId, .processor t) => some (s.fail i messageId (.releaseLock t))
      | _ => none
  | .answer i =>
      match s.calls.deliveries i, s.waiting i with
      | some (messageId, .returned), some attempt =>
          some (if s.failed i then s.retryOrDlq i messageId attempt else s.ack i)
      | _, _ => none
  | .crash i =>
      match s.calls.deliveries i with
      | some (messageId, stage) =>
          if stage = .returned then none
          else some ((s.fail i messageId .returned).orphan stage)
      | none => none
  | .giveUp i =>
      match s.calls.deliveries i, s.waiting i with
      | some (messageId, stage), some attempt =>
          some ((s.retryOrDlq i messageId attempt).orphan stage)
      | _, _ => none
  | .requeue i =>
      match s.calls.deliveries i, s.waiting i with
      | some (messageId, stage), some attempt =>
          some ((s.requeue i messageId attempt).orphan stage)
      | _, _ => none
  | .tick seconds => some { s with calls := { s.calls with now := s.calls.now + seconds } }

/-! ## Skipped deliveries -/

/-- The next command of the call answers that the message is skipped. -/
def Bridge.Skips (s : Bridge) (i : Nat) (messageId : String) : Prop :=
  (s.calls.deliveries i = some (messageId, .isProcessed) ∧ s.calls.isProcessed messageId = true) ∨
  (s.calls.deliveries i = some (messageId, .acquireLock) ∧
    (s.calls.lock messageId).isSome = true) ∨
  (∃ t, s.calls.deliveries i = some (messageId, .isProcessedAfterLock t) ∧
    s.calls.isProcessed messageId = true)

/-- A lock that a delivery finds is of a call that answers to a delivery. -/
def Guarded (s : Bridge) : Occasion → Prop
  | .command i => ∀ m l, s.calls.deliveries i = some (m, .acquireLock) →
      s.calls.lock m = some l → l.token ∉ s.orphaned
  | _ => True

/-- The delivery is not acknowledged, and will not be for nothing. -/
def Bridge.Carries (s : Bridge) (i : Nat) (messageId : String) : Prop :=
  ∃ n stage, s.waiting i = some n ∧ s.calls.deliveries i = some (messageId, stage) ∧
    (stage = .returned → s.failed i = true)

/-- The message is completed or reported, or it is still on its way. -/
def Bridge.Accounted (s : Bridge) (messageId : String) : Prop :=
  messageId ∈ s.calls.completed ∨ messageId ∈ s.reported ∨
    (∃ copy ∈ s.queue, copy.messageId = messageId) ∨ ∃ i, s.Carries i messageId

/-! ## The invariant -/

/-- The delivery holds the lock with this token. -/
def Bridge.Holds (s : Bridge) (i : Nat) (messageId : String) (token : Nat) : Prop :=
  ∃ n stage, s.waiting i = some n ∧ s.calls.deliveries i = some (messageId, stage) ∧
    stage.token? = some token

structure Custody (s : Bridge) : Prop where
  locked : ∀ m l, s.calls.lock m = some l → l.token ∈ s.orphaned ∨ ∃ i, s.Holds i m l.token
  marked : ∀ m, s.calls.processed m ≠ none → m ∈ s.calls.completed
  marking : ∀ i m t, s.calls.deliveries i = some (m, .markMessageAsProcessed t) →
    m ∈ s.calls.completed
  released : ∀ i m t, s.calls.deliveries i = some (m, .releaseLock t) → s.failed i = false →
    m ∈ s.calls.completed
  accounted : ∀ m ∈ s.published, s.Accounted m

theorem custody_init : Custody Bridge.init where
  locked := fun _ _ h => by cases h
  marked := fun _ h => absurd rfl h
  marking := fun _ _ _ h => by cases h
  released := fun _ _ _ h => by cases h
  accounted := fun _ h => by cases h

section
variable {s s' : Bridge} {i : Nat} {m : String} {stage stage' : Stage}

theorem Bridge.Holds.carries {t : Nat} (h : s.Holds i m t) : s.Carries i m := by
  obtain ⟨n, stage, hn, hi, ht⟩ := h
  refine ⟨n, stage, hn, hi, ?_⟩
  rintro rfl
  cases ht

theorem Custody.processed (h : Custody s) (hp : s.calls.isProcessed m = true) :
    m ∈ s.calls.completed := by
  refine h.marked m fun hnone => ?_
  simp only [State.isProcessed, hnone, Option.filter_none, Option.isSome_none,
    Bool.false_eq_true] at hp

theorem Custody.covered (h : Custody s) (hskip : s.Skips i m) (hguard : Guarded s (.command i)) :
    m ∈ s.calls.completed ∨ ∃ j t, j ≠ i ∧ s.Holds j m t := by
  rcases hskip with ⟨_, hp⟩ | ⟨hi, hl⟩ | ⟨t, _, hp⟩
  · exact .inl (h.processed hp)
  · obtain ⟨l, hl⟩ := Option.isSome_iff_exists.mp hl
    rcases h.locked m l hl with horphan | ⟨j, hj⟩
    · exact absurd horphan (hguard m l hi hl)
    · refine .inr ⟨j, l.token, ?_, hj⟩
      rintro rfl
      obtain ⟨n, stage, _, hstage, ht⟩ := hj
      cases hi.symm.trans hstage
      cases ht
  · exact .inl (h.processed hp)

/-! ## Calls that move -/

/-- A call moves on: its stage, and what is said of it alone, change. -/
structure Moves (s s' : Bridge) (i : Nat) (m : String) (stage stage' : Stage) : Prop where
  before : s.calls.deliveries i = some (m, stage)
  after : s'.calls.deliveries = Function.update s.calls.deliveries i (some (m, stage'))
  completed : ∀ m ∈ s.calls.completed, m ∈ s'.calls.completed
  failed : ∀ j, j ≠ i → s'.failed j = s.failed j
  queue : s'.queue = s.queue
  waiting : s'.waiting = s.waiting
  orphaned : ∀ t ∈ s.orphaned, t ∈ s'.orphaned
  published : s'.published = s.published
  reported : s'.reported = s.reported

theorem Moves.self (h : Moves s s' i m stage stage') :
    s'.calls.deliveries i = some (m, stage') := by
  rw [h.after, Function.update_self]

theorem Moves.other (h : Moves s s' i m stage stage') {j : Nat} (hji : j ≠ i) :
    s'.calls.deliveries j = s.calls.deliveries j := by
  rw [h.after, Function.update_of_ne hji]

theorem Moves.holds (h : Moves s s' i m stage stage') {j t : Nat} {m' : String}
    (hj : s.Holds j m' t) (ht : stage.token? = some t → stage'.token? = some t) :
    s'.Holds j m' t := by
  obtain ⟨n, st, hn, hst, htok⟩ := hj
  by_cases hji : j = i
  · subst hji
    cases h.before.symm.trans hst
    exact ⟨n, stage', h.waiting ▸ hn, h.self, ht htok⟩
  · exact ⟨n, st, h.waiting ▸ hn, (h.other hji).trans hst, htok⟩

theorem Custody.move (h : Custody s) (hmove : Moves s s' i m stage stage')
    (hlocked : ∀ m l, s'.calls.lock m = some l → l.token ∈ s'.orphaned ∨ ∃ i, s'.Holds i m l.token)
    (hmarked : ∀ m, s'.calls.processed m ≠ none → m ∈ s'.calls.completed)
    (hmarking : ∀ t, stage' = .markMessageAsProcessed t → m ∈ s'.calls.completed)
    (hreleased : ∀ t, stage' = .releaseLock t → s'.failed i = false → m ∈ s'.calls.completed)
    (hreturned : stage' = .returned → s'.failed i = false → s'.Accounted m) : Custody s' := by
  have hcases : ∀ {j m' st}, s'.calls.deliveries j = some (m', st) →
      (j = i ∧ m' = m ∧ st = stage') ∨ (j ≠ i ∧ s.calls.deliveries j = some (m', st)) := by
    intro j m' st hj
    by_cases hji : j = i
    · subst hji
      cases hmove.self.symm.trans hj
      exact .inl ⟨rfl, rfl, rfl⟩
    · exact .inr ⟨hji, (hmove.other hji).symm.trans hj⟩
  refine ⟨hlocked, hmarked, ?_, ?_, ?_⟩
  · intro j m' t hj
    rcases hcases hj with ⟨rfl, rfl, hst⟩ | ⟨_, hj⟩
    · exact hmarking t hst.symm
    · exact hmove.completed _ (h.marking j m' t hj)
  · intro j m' t hj hf
    rcases hcases hj with ⟨rfl, rfl, hst⟩ | ⟨hji, hj⟩
    · exact hreleased t hst.symm hf
    · exact hmove.completed _ (h.released j m' t hj (hmove.failed j hji ▸ hf))
  · intro m' hm'
    rw [hmove.published] at hm'
    rcases h.accounted m' hm' with hdone | hreported | hqueued | ⟨j, n, st, hn, hst, hf⟩
    · exact .inl (hmove.completed _ hdone)
    · exact .inr (.inl (hmove.reported ▸ hreported))
    · exact .inr (.inr (.inl (hmove.queue ▸ hqueued)))
    · by_cases hji : j = i
      · subst hji
        cases hmove.before.symm.trans hst
        by_cases hlost : stage' = .returned ∧ s'.failed j = false
        · exact hreturned hlost.1 hlost.2
        · refine .inr (.inr (.inr ⟨j, n, stage', hmove.waiting ▸ hn, hmove.self, fun hret => ?_⟩))
          exact Bool.not_eq_false _ ▸ fun hfalse => hlost ⟨hret, hfalse⟩
      · refine .inr (.inr (.inr ⟨j, n, st, hmove.waiting ▸ hn, (hmove.other hji).trans hst, ?_⟩))
        intro hret
        rw [hmove.failed j hji]
        exact hf hret

theorem Custody.locked_move (h : Custody s) (hmove : Moves s s' i m stage stage')
    (hlock : ∀ m, s'.calls.lock m = s.calls.lock m)
    (htoken : ∀ t, stage.token? = some t → stage'.token? = some t ∨ t ∈ s'.orphaned) :
    ∀ m l, s'.calls.lock m = some l → l.token ∈ s'.orphaned ∨ ∃ i, s'.Holds i m l.token := by
  intro m' l hl
  rw [hlock] at hl
  rcases h.locked m' l hl with horphan | ⟨j, hj⟩
  · exact .inl (hmove.orphaned _ horphan)
  · by_cases ht : l.token ∈ s'.orphaned
    · exact .inl ht
    · exact .inr ⟨j, hmove.holds hj fun htok => (htoken _ htok).resolve_right ht⟩

/-- A call that executes a command on its own message. -/
theorem moves_advance (hi : s.calls.deliveries i = some (m, stage)) {calls : State}
    (hafter : calls.deliveries = Function.update s.calls.deliveries i (some (m, stage')))
    (hcompleted : ∀ m ∈ s.calls.completed, m ∈ calls.completed) :
    Moves s (s.advance i calls) i m stage stage' :=
  ⟨hi, hafter, hcompleted, fun _ _ => rfl, rfl, rfl, fun _ h => List.mem_append_left _ h, rfl, rfl⟩

theorem moves_fail (hi : s.calls.deliveries i = some (m, stage)) (stage' : Stage)
    (left : List Nat) :
    Moves s { s.fail i m stage' with orphaned := s.orphaned ++ left } i m stage stage' :=
  ⟨hi, rfl, fun _ h => h, fun _ hji => Function.update_of_ne hji .., rfl, rfl,
    fun _ h => List.mem_append_left _ h, rfl, rfl⟩

theorem Custody.fail (h : Custody s) (hi : s.calls.deliveries i = some (m, stage)) (stage' : Stage)
    (hmarking : ∀ t, stage' ≠ .markMessageAsProcessed t) (left : List Nat)
    (htoken : ∀ t, stage.token? = some t → stage'.token? = some t ∨ t ∈ left) :
    Custody { s.fail i m stage' with orphaned := s.orphaned ++ left } := by
  have hmove := moves_fail hi stage' left
  have hfailed : ({ s.fail i m stage' with orphaned := s.orphaned ++ left } : Bridge).failed i = true :=
    Function.update_self ..
  refine h.move hmove (h.locked_move hmove (fun _ => rfl) fun t ht => ?_) h.marked
    (fun t hst => absurd hst (hmarking t)) (fun t _ hf => ?_) (fun _ hf => ?_)
  · exact (htoken t ht).imp_right (List.mem_append_right _)
  · rw [hfailed] at hf
    cases hf
  · rw [hfailed] at hf
    cases hf

theorem fail_append_nil : ({ s.fail i m stage with orphaned := s.orphaned ++ [] } : Bridge) =
    s.fail i m stage := by
  simp only [Bridge.fail, List.append_nil]

/-- The lock of a message nobody holds is taken. -/
theorem Custody.acquire (h : Custody s) (hi : s.calls.deliveries i = some (m, .acquireLock)) :
    Custody (s.advance i (s.calls.acquire i m)) := by
  have hmove : Moves s (s.advance i (s.calls.acquire i m)) i m .acquireLock
      (.isProcessedAfterLock s.calls.fresh) := moves_advance hi rfl fun _ h => h
  refine h.move hmove ?_ h.marked (fun _ heq => by cases heq) (fun _ heq => by cases heq)
    (fun heq => by cases heq)
  intro m' l hl
  by_cases hm : m' = m
  · subst hm
    have hlock : l = ⟨s.calls.fresh, s.calls.now + lockTtl⟩ := by
      obtain ⟨hlocks, _⟩ := Option.filter_eq_some_iff.mp hl
      have hnew : (s.calls.acquire i m').locks m' =
          some ⟨s.calls.fresh, s.calls.now + lockTtl⟩ := by
        rw [State.acquire_locks, Function.update_self]
      exact Option.some_inj.mp (hlocks.symm.trans hnew)
    subst hlock
    cases hn : s.waiting i with
    | some n =>
        exact .inr ⟨i, n, _, hmove.waiting ▸ hn, hmove.self, rfl⟩
    | none =>
        refine .inl (List.mem_append_right _ ?_)
        rw [if_pos hn, State.acquire, State.goto_self]
        exact List.mem_singleton_self _
  · have hlock : s.calls.lock m' = some l := by
      have hother : (s.calls.acquire i m).locks m' = s.calls.locks m' := by
        rw [State.acquire_locks, Function.update_of_ne hm]
      have hl' : (s.calls.acquire i m).lock m' = some l := hl
      rw [State.lock, hother] at hl'
      exact hl'
    rcases h.locked m' l hlock with horphan | ⟨j, hj⟩
    · exact .inl (hmove.orphaned _ horphan)
    · exact .inr ⟨j, hmove.holds hj fun ht => by cases ht⟩

theorem Custody.goto (h : Custody s) (hi : s.calls.deliveries i = some (m, stage))
    (htoken : ∀ t, stage.token? = some t → stage'.token? = some t)
    (hmarking : ∀ t, stage' = .markMessageAsProcessed t → m ∈ s.calls.completed)
    (hreleased : ∀ t, stage' = .releaseLock t → s.failed i = false → m ∈ s.calls.completed)
    (hreturned : stage' = .returned → (s.advance i (s.calls.goto i m stage')).Accounted m) :
    Custody (s.advance i (s.calls.goto i m stage')) := by
  have hmove : Moves s (s.advance i (s.calls.goto i m stage')) i m stage stage' :=
    moves_advance hi rfl fun _ h => h
  exact h.move hmove (h.locked_move hmove (fun _ => rfl) fun t ht => .inl (htoken t ht)) h.marked
    hmarking hreleased fun hst _ => hreturned hst

/-- The marker is set. -/
theorem Custody.mark (h : Custody s) {t : Nat}
    (hi : s.calls.deliveries i = some (m, .markMessageAsProcessed t)) :
    Custody (s.advance i (s.calls.mark i m t)) := by
  have hdone := h.marking i m t hi
  have hmove : Moves s (s.advance i (s.calls.mark i m t)) i m (.markMessageAsProcessed t)
      (.releaseLock t) := moves_advance hi rfl fun _ h => h
  refine h.move hmove (h.locked_move hmove (fun _ => rfl) fun _ ht => .inl ht) ?_ nofun
    (fun _ _ _ => hdone) nofun
  intro m' hm'
  by_cases hmm : m' = m
  · exact hmm ▸ hdone
  · refine h.marked m' fun hnone => hm' ?_
    exact (Function.update_of_ne hmm ..).trans hnone

theorem Custody.release (h : Custody s) {t : Nat}
    (hi : s.calls.deliveries i = some (m, .releaseLock t)) :
    Custody (s.advance i (s.calls.release i m t)) := by
  have hmove : Moves s (s.advance i (s.calls.release i m t)) i m (.releaseLock t) .returned :=
    moves_advance hi rfl fun _ h => h
  refine h.move hmove ?_ h.marked nofun nofun fun _ hf => .inl (h.released i m t hi hf)
  intro m' l hl
  have hl' : (s.calls.release i m t).lock m' = some l := hl
  -- what is locked after the release was locked before it, and not with this token
  have hbefore : s.calls.lock m' = some l ∧ (m' = m → l.token ≠ t) := by
    by_cases htoken : (s.calls.lock m).map Lock.token = some t
    · have hlocks : (s.calls.release i m t).locks = Function.update s.calls.locks m none :=
        if_pos htoken
      by_cases hm : m' = m
      · subst hm
        simp only [State.lock, hlocks, Function.update_self, Option.filter_none,
          reduceCtorEq] at hl'
      · refine ⟨?_, fun h => absurd h hm⟩
        rw [State.lock, hlocks, Function.update_of_ne hm] at hl'
        exact hl'
    · have hlocks : (s.calls.release i m t).locks = s.calls.locks := if_neg htoken
      have hsame : s.calls.lock m' = some l := by
        rw [State.lock, hlocks] at hl'
        exact hl'
      refine ⟨hsame, ?_⟩
      rintro rfl rfl
      exact htoken (by rw [hsame]; rfl)
  rcases h.locked m' l hbefore.1 with horphan | ⟨j, hj⟩
  · exact .inl (hmove.orphaned _ horphan)
  · by_cases hji : j = i
    · subst hji
      obtain ⟨n, st, _, hst, htok⟩ := hj
      cases hi.symm.trans hst
      cases htok
      exact absurd rfl (hbefore.2 rfl)
    · obtain ⟨n, st, hn, hst, htok⟩ := hj
      exact .inr ⟨j, n, st, hmove.waiting ▸ hn, (hmove.other hji).trans hst, htok⟩

theorem Custody.command (h : Custody s) (hi : s.calls.deliveries i = some (m, stage))
    (hguard : Guarded s (.command i)) {calls : State}
    (hs : Events.command s.calls i m stage = some calls) : Custody (s.advance i calls) := by
  have hskip : s.Skips i m → (s.advance i (s.calls.goto i m .returned)).Accounted m := by
    intro hskips
    rcases h.covered hskips hguard with hdone | ⟨j, t, hji, hj⟩
    · exact .inl hdone
    · obtain ⟨n, st, hn, hst, hf⟩ := hj.carries
      exact .inr (.inr (.inr ⟨j, n, st, hn, (Function.update_of_ne hji ..).trans hst, hf⟩))
  cases stage with
  | isProcessed =>
      cases hs
      by_cases hp : s.calls.isProcessed m = true
      · rw [if_pos hp]
        exact h.goto hi nofun nofun nofun fun _ => hskip (.inl ⟨hi, hp⟩)
      · rw [if_neg hp]
        exact h.goto hi nofun nofun nofun nofun
  | acquireLock =>
      cases hs
      by_cases hl : (s.calls.lock m).isSome = true
      · rw [if_pos hl]
        exact h.goto hi nofun nofun nofun fun _ => hskip (.inr (.inl ⟨hi, hl⟩))
      · rw [if_neg hl]
        exact h.acquire hi
  | isProcessedAfterLock t =>
      cases hs
      by_cases hp : s.calls.isProcessed m = true
      · rw [if_pos hp]
        exact h.goto hi (fun _ ht => ht) nofun (fun _ _ _ => h.processed hp) nofun
      · rw [if_neg hp]
        exact h.goto hi (fun _ ht => ht) nofun nofun nofun
  | markMessageAsProcessed t =>
      cases hs
      exact h.mark hi
  | releaseLock t =>
      cases hs
      exact h.release hi
  | processor t => cases hs
  | returned => cases hs

theorem Custody.complete (h : Custody s) {t : Nat}
    (hi : s.calls.deliveries i = some (m, .processor t)) :
    Custody { s with calls := s.calls.complete i m t } := by
  have hmove : Moves s { s with calls := s.calls.complete i m t } i m (.processor t)
      (.markMessageAsProcessed t) :=
    ⟨hi, rfl, fun _ h => List.mem_append_left _ h, fun _ _ => rfl, rfl, rfl, fun _ h => h, rfl, rfl⟩
  exact h.move hmove (h.locked_move hmove (fun _ => rfl) fun _ ht => .inl ht)
    (fun m' hm' => List.mem_append_left _ (h.marked m' hm'))
    (fun _ _ => List.mem_append_right _ (List.mem_singleton_self _)) nofun nofun

/-! ## Deliveries that end -/

/-- A delivery ends: its message is accounted for otherwise, and its lock is orphaned. -/
theorem Custody.drop (h : Custody s) (hi : s.calls.deliveries i = some (m, stage))
    (hcalls : s'.calls = s.calls) (hfailed : s'.failed = s.failed)
    (hwaiting : s'.waiting = Function.update s.waiting i none)
    (hqueue : ∀ c ∈ s.queue, c ∈ s'.queue) (hreported : ∀ m ∈ s.reported, m ∈ s'.reported)
    (hpublished : s'.published = s.published) (horphaned : ∀ t ∈ s.orphaned, t ∈ s'.orphaned)
    (htoken : ∀ t, stage.token? = some t → t ∈ s'.orphaned)
    (hm : s.Carries i m → s'.Accounted m) : Custody s' := by
  refine ⟨?_, hcalls ▸ h.marked, hcalls ▸ h.marking, hcalls ▸ hfailed ▸ h.released, ?_⟩
  · intro m' l hl
    rw [hcalls] at hl
    rcases h.locked m' l hl with horphan | ⟨j, n, st, hn, hst, htok⟩
    · exact .inl (horphaned _ horphan)
    · by_cases hji : j = i
      · subst hji
        cases hi.symm.trans hst
        exact .inl (htoken _ htok)
      · refine .inr ⟨j, n, st, ?_, hcalls ▸ hst, htok⟩
        rw [hwaiting, Function.update_of_ne hji]
        exact hn
  · intro m' hm'
    rw [hpublished] at hm'
    rcases h.accounted m' hm' with hdone | hrep | ⟨c, hc, hcm⟩ | ⟨j, n, st, hn, hst, hf⟩
    · exact .inl (hcalls ▸ hdone)
    · exact .inr (.inl (hreported _ hrep))
    · exact .inr (.inr (.inl ⟨c, hqueue c hc, hcm⟩))
    · by_cases hji : j = i
      · subst hji
        cases hi.symm.trans hst
        exact hm ⟨n, stage, hn, hi, hf⟩
      · refine .inr (.inr (.inr ⟨j, n, st, ?_, hcalls ▸ hst, hfailed ▸ hf⟩))
        rw [hwaiting, Function.update_of_ne hji]
        exact hn

theorem retryOrDlq_accounted (s : Bridge) (i : Nat) (m : String) (n : Nat) :
    (s.retryOrDlq i m n).Accounted m := by
  simp only [Bridge.retryOrDlq]
  split
  · exact .inr (.inl (List.mem_append_right _ (List.mem_singleton_self _)))
  · exact .inr (.inr (.inl ⟨_, List.mem_append_right _ (List.mem_singleton_self _), rfl⟩))

theorem Custody.retryOrDlq (h : Custody s) (hi : s.calls.deliveries i = some (m, stage)) (n : Nat) :
    Custody ((s.retryOrDlq i m n).orphan stage) := by
  have hm : ((s.retryOrDlq i m n).orphan stage).Accounted m := retryOrDlq_accounted s i m n
  have htoken : ∀ t, stage.token? = some t → t ∈ s.orphaned ++ stage.token?.toList := by
    intro t ht
    rw [ht]
    exact List.mem_append_right _ (List.mem_singleton_self _)
  revert hm
  simp only [Bridge.retryOrDlq]
  split
  · intro hm
    exact h.drop hi rfl rfl rfl (fun _ hc => hc) (fun _ hr => List.mem_append_left _ hr) rfl
      (fun _ ht => List.mem_append_left _ ht) htoken fun _ => hm
  · intro hm
    exact h.drop hi rfl rfl rfl (fun _ hc => List.mem_append_left _ hc) (fun _ hr => hr) rfl
      (fun _ ht => List.mem_append_left _ ht) htoken fun _ => hm

theorem orphan_returned (s : Bridge) : s.orphan .returned = s := by
  simp only [Bridge.orphan, Stage.token?, Option.toList_none, List.append_nil]

/-! ## Runs -/

theorem Custody.deliver (h : Custody s) {place : Nat} {copy : Copy}
    (hi : s.calls.deliveries i = none) (hcopy : s.queue[place]? = some copy) :
    Custody { s with
      calls := s.calls.goto i copy.messageId .isProcessed
      failed := Function.update s.failed i false
      queue := s.queue.eraseIdx place
      waiting := Function.update s.waiting i (some copy.attempt) } := by
  have hother : ∀ {j d}, s.calls.deliveries j = some d → j ≠ i := by
    rintro j d hj rfl
    cases hi.symm.trans hj
  have hcases : ∀ {j m' st}, (s.calls.goto i copy.messageId .isProcessed).deliveries j =
      some (m', st) → (j = i ∧ st = .isProcessed) ∨ (j ≠ i ∧ s.calls.deliveries j = some (m', st)) := by
    intro j m' st hj
    rcases State.goto_deliveries.mp hj with ⟨hji, hd⟩ | hd
    · cases hd
      exact .inl ⟨hji, rfl⟩
    · exact .inr hd
  have hkeep : ∀ {j d}, s.calls.deliveries j = some d →
      (s.calls.goto i copy.messageId .isProcessed).deliveries j = some d :=
    fun hj => State.goto_deliveries.mpr (.inr ⟨hother hj, hj⟩)
  have hcarries : ∀ {j m' n st}, s.waiting j = some n → s.calls.deliveries j = some (m', st) →
      Function.update s.waiting i (some copy.attempt) j = some n :=
    fun hn hj => (Function.update_of_ne (hother hj) ..).trans hn
  refine ⟨?_, h.marked, ?_, ?_, ?_⟩
  · intro m' l hl
    rcases h.locked m' l hl with horphan | ⟨j, n, st, hn, hst, htok⟩
    · exact .inl horphan
    · exact .inr ⟨j, n, st, hcarries hn hst, hkeep hst, htok⟩
  · intro j m' t hj
    rcases hcases hj with ⟨_, hst⟩ | ⟨_, hj⟩
    · cases hst
    · exact h.marking j m' t hj
  · intro j m' t hj hf
    rcases hcases hj with ⟨_, hst⟩ | ⟨hji, hj⟩
    · cases hst
    · exact h.released j m' t hj ((Function.update_of_ne hji ..).symm.trans hf)
  · intro m' hm'
    rcases h.accounted m' hm' with hdone | hrep | ⟨c, hc, hcm⟩ | ⟨j, n, st, hn, hst, hf⟩
    · exact .inl hdone
    · exact .inr (.inl hrep)
    · by_cases hsame : copy.messageId = m'
      · refine .inr (.inr (.inr ⟨i, copy.attempt, .isProcessed, Function.update_self .., ?_, nofun⟩))
        exact hsame ▸ State.goto_self ..
      · refine .inr (.inr (.inl ⟨c, ?_, hcm⟩))
        obtain ⟨k, hk, rfl⟩ := List.getElem_of_mem hc
        have hne : k ≠ place := by
          rintro rfl
          rw [List.getElem?_eq_getElem hk, Option.some_inj] at hcopy
          exact hsame (hcopy ▸ hcm)
        exact List.mem_eraseIdx_iff_getElem.mpr ⟨k, hk, hne, rfl⟩
    · refine .inr (.inr (.inr ⟨j, n, st, hcarries hn hst, hkeep hst, fun hret => ?_⟩))
      exact (Function.update_of_ne (hother hst) ..).trans (hf hret)

theorem Custody.publish (h : Custody s) (m : String) (copy : Copy) (hm : copy.messageId = m) :
    Custody { s with queue := s.queue ++ [copy], published := s.published ++ [m] } := by
  refine ⟨h.locked, h.marked, h.marking, h.released, fun m' hm' => ?_⟩
  rcases List.mem_append.mp hm' with hm' | hm'
  · rcases h.accounted m' hm' with hdone | hrep | ⟨c, hc, hcm⟩ | hcarried
    · exact .inl hdone
    · exact .inr (.inl hrep)
    · exact .inr (.inr (.inl ⟨c, List.mem_append_left _ hc, hcm⟩))
    · exact .inr (.inr (.inr hcarried))
  · cases List.mem_singleton.mp hm'
    exact .inr (.inr (.inl ⟨copy, List.mem_append_right _ (List.mem_singleton_self _), hm⟩))

/-- A command that throws leaves its token behind unless the lock is still to be released. -/
theorem Custody.throws (h : Custody s) (hi : s.calls.deliveries i = some (m, stage))
    {stage' : Stage} (hstage' : stage.afterThrow = some stage') :
    Custody (if stage'.token? = none then (s.fail i m stage').orphan stage
      else s.fail i m stage') := by
  have hnot : ∀ t, stage' ≠ .markMessageAsProcessed t := by
    rintro t rfl
    cases stage <;> cases hstage'
  split
  · refine h.fail hi stage' hnot _ fun t ht => .inr ?_
    rw [ht]
    exact List.mem_singleton_self _
  · rename_i htoken
    have hkeep := h.fail hi stage' hnot [] fun t ht => by
      refine .inl ?_
      cases stage <;> cases hstage' <;> first | exact ht | exact absurd rfl htoken
    rwa [fail_append_nil] at hkeep

theorem Custody.step (h : Custody s) {a : Occasion} (hguard : Guarded s a)
    (hs : s.step a = some s') : Custody s' := by
  cases a with
  | publish m =>
      simp only [Bridge.step] at hs
      split at hs
      · cases hs
      · cases hs
        exact h.publish m _ rfl
  | deliver i place =>
      simp only [Bridge.step] at hs
      split at hs
      · rename_i hi
        obtain ⟨copy, hcopy, rfl⟩ := Option.map_eq_some_iff.mp hs
        exact h.deliver hi hcopy
      · cases hs
  | command i =>
      obtain ⟨calls, hcalls, rfl⟩ := Option.map_eq_some_iff.mp hs
      obtain ⟨⟨m, stage⟩, hi, hcommand⟩ := Option.bind_eq_some_iff.mp hcalls
      exact h.command hi hguard hcommand
  | throws i =>
      obtain ⟨⟨m, stage⟩, hi, hthrow⟩ := Option.bind_eq_some_iff.mp hs
      obtain ⟨stage', hstage', rfl⟩ := Option.map_eq_some_iff.mp hthrow
      exact h.throws hi hstage'
  | settle i ok =>
      cases ok with
      | true =>
          obtain ⟨calls, hcalls, rfl⟩ := Option.map_eq_some_iff.mp hs
          simp only [Events.step] at hcalls
          split at hcalls
          · rename_i m t hi
            cases hcalls
            exact h.complete hi
          · cases hcalls
      | false =>
          simp only [Bridge.step] at hs
          split at hs
          · rename_i m t hi
            cases hs
            have hkeep := h.fail hi (.releaseLock t) (fun _ heq => by cases heq) [] fun _ ht => .inl ht
            rwa [fail_append_nil] at hkeep
          · cases hs
  | answer i =>
      simp only [Bridge.step] at hs
      split at hs
      · rename_i m n hi hn
        cases hs
        split
        · have hkeep := h.retryOrDlq hi n
          rwa [orphan_returned] at hkeep
        · rename_i hfailed
          refine h.drop hi rfl rfl rfl (fun _ hc => hc) (fun _ hr => hr) rfl (fun _ ht => ht)
            (fun _ ht => by cases ht) fun hkept => ?_
          obtain ⟨_, st, _, hst, hf⟩ := hkept
          cases hi.symm.trans hst
          exact absurd (hf rfl) hfailed
      · cases hs
  | crash i =>
      simp only [Bridge.step] at hs
      split at hs
      · rename_i m stage hi
        split at hs
        · cases hs
        · cases hs
          refine h.fail hi .returned (fun _ heq => by cases heq) _ fun t ht => .inr ?_
          rw [ht]
          exact List.mem_singleton_self _
      · cases hs
  | giveUp i =>
      simp only [Bridge.step] at hs
      split at hs
      · rename_i m stage n hi hn
        cases hs
        exact h.retryOrDlq hi n
      · cases hs
  | requeue i =>
      simp only [Bridge.step] at hs
      split at hs
      · rename_i m stage n hi hn
        cases hs
        refine h.drop hi rfl rfl rfl (fun _ hc => List.mem_append_left _ hc) (fun _ hr => hr) rfl
          (fun _ ht => List.mem_append_left _ ht) (fun t ht => ?_) fun _ =>
            .inr (.inr (.inl ⟨_, List.mem_append_right _ (List.mem_singleton_self _), rfl⟩))
        refine List.mem_append_right _ ?_
        rw [ht]
        exact List.mem_singleton_self _
      · cases hs
  | tick seconds =>
      cases hs
      refine ⟨fun m l hl => ?_, h.marked, h.marking, h.released, h.accounted⟩
      obtain ⟨hlock, hlive⟩ := Option.filter_eq_some_iff.mp hl
      refine h.locked m l (Option.filter_eq_some_iff.mpr ⟨hlock, ?_⟩)
      simp only [decide_eq_true_eq] at hlive ⊢
      exact lt_of_le_of_lt (Nat.le_add_right _ _) hlive

end

theorem guarded_of_no_orphans {s : Bridge} (h : s.orphaned = []) (a : Occasion) : Guarded s a := by
  cases a with
  | command i =>
      intro m l _ _
      rw [h]
      exact List.not_mem_nil
  | _ => exact trivial

end OpenBms.Events
