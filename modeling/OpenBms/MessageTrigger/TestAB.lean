/-
# `OpenBms.MessageTrigger.TestAB` — how often an A/B step is started

`definedTestAB` asks the store for the winner, then whether the step was started; if not, it
notes that it is and publishes the request to start it.  `startedTestabStep` schedules the
finishing job for each request it handles, `finishTestabStep` records the winner.

    worker          get winner · exists · set · publish
    msgops-api      schedule · save                      for each request
    msgops-api      record the winner · save             for each job

Workers take these calls in any order, and any call may fail.

| order | requests |
| :-- | :-- |
| exists, exists, set, set, publish, publish | two |
| exists, set, the publishing fails | none, ever |

**Proved here.**

    a run alone asks for the start as `definedTestAB` says it does (`asks_alone_iff`)
    what one step keeps (`Inv`, `step_inv`)
    where no two runs look before one of them sets, what is set is
    published, a handled request is not handled again and a winner
    stays, the step is started once and the winner served (`testAB_once`)
-/
import OpenBms.Lib.Runs
import OpenBms.MessageTrigger.Interpreter

namespace OpenBms.MessageTrigger.TestAB

/-! ## Runs, requests and jobs -/

/-- Where a run that found no winner stands: before `exists`, before `set`, before the
publishing. -/
inductive Phase where
  | undecided
  | checked
  | claimed
  deriving DecidableEq

/-- How the handling of a start request ends: the job is scheduled and saved, neither is
done, or the saving fails and the request is delivered again. -/
inductive Handled where
  | done
  | early
  | late
  deriving DecidableEq

/-- `started` and `winner` are the keys of the store, `status` the winner of the finished
step in the database; a receipt is the winner that was recorded, and the message sent. -/
structure State where
  started : Bool := false
  winner : Option Nat := none
  status : Option Nat := none
  undecided : Nat := 0
  checked : Nat := 0
  claimed : Nat := 0
  sent : Nat := 0
  requests : Nat := 0
  jobs : Nat := 0
  receipts : List (Option Nat × Option Nat) := []

inductive Op where
  /-- a run asks for the winner -/
  | reach
  /-- a run whose copy of the step is finished -/
  | reachFinished
  | look
  | set_
  | publish
  /-- a run of the phase ends by an error, or its worker does -/
  | fail (phase : Phase)
  | handle (result : Handled)
  | finish (winner : Nat) (saved : Bool)

variable (messages : List Nat)

/-- `messages.findIndex(...)`, and the message there. -/
def pick (winner : Nat) : Option Nat := messages.find? (· == winner)

@[grind =] def State.step (s : State) : Op → State
  | .reach =>
      match s.winner with
      | some w => { s with receipts := s.receipts ++ [(s.winner, pick messages w)] }
      | none => { s with undecided := s.undecided + 1 }
  | .reachFinished =>
      match s.status with
      | some w => { s with receipts := s.receipts ++ [(s.winner, pick messages w)] }
      | none => s
  | .look =>
      if s.undecided = 0 then s
      else if s.started then { s with undecided := s.undecided - 1 }
      else { s with undecided := s.undecided - 1, checked := s.checked + 1 }
  | .set_ =>
      if s.checked = 0 then s
      else { s with started := true, checked := s.checked - 1, claimed := s.claimed + 1 }
  | .publish =>
      if s.claimed = 0 then s
      else { s with claimed := s.claimed - 1, sent := s.sent + 1, requests := s.requests + 1 }
  | .fail .undecided => { s with undecided := s.undecided - 1 }
  | .fail .checked => { s with checked := s.checked - 1 }
  | .fail .claimed => { s with claimed := s.claimed - 1 }
  | .handle result =>
      if s.requests = 0 then s
      else
        match result with
        | .done => { s with requests := s.requests - 1, jobs := s.jobs + 1 }
        | .early => s
        | .late => { s with jobs := s.jobs + 1 }
  | .finish w saved =>
      if messages.contains w then
        { s with winner := some w, status := if saved then some w else s.status }
      else s

/-- A run that nothing fails in, with no other in between. -/
def alone : List Op := [.reach, .look, .set_, .publish]

/-- The step is started at most once; where a run noted so and is not about to publish, it
is, and otherwise the next run does it; there is a finishing job for the request, and
whoever asks after the winner is recorded gets its message. -/
structure Once (s : State) : Prop where
  once : s.sent ≤ 1
  made : s.started = true → s.claimed = 0 → s.sent = 1
  later : s.undecided = 0 → s.checked = 0 → s.claimed = 0 → s.winner = none →
    (alone.foldl (State.step messages) s).sent = 1
  job : s.jobs ≤ 1 ∧ (s.requests = 0 → s.jobs = s.sent)
  winner : ∀ r ∈ s.receipts, r.1 ≠ none ∧ r.2 = r.1

/-- No run looks while another has looked and not set yet, none ends between the setting
and the publishing, a request is not delivered again once its job is scheduled, and no
other winner is recorded. -/
def Guarded (s : State) : Op → Prop
  | .look => s.undecided = 0 ∨ s.started = true ∨ s.checked = 0
  | .fail .claimed => s.claimed = 0
  | .handle .late => s.requests = 0
  | .finish w _ => s.winner = none ∨ s.winner = some w
  | _ => True

/-! ## A run alone -/

theorem alone_winner {s : State} {w : Nat} (hwinner : s.winner = some w)
    (hundecided : s.undecided = 0) (hchecked : s.checked = 0) (hclaimed : s.claimed = 0) :
    (alone.foldl (State.step messages) s).sent = s.sent := by
  simp only [alone, List.foldl_cons, List.foldl_nil, State.step, hwinner, hundecided, hchecked,
    hclaimed, if_true]

theorem alone_started {s : State} (hwinner : s.winner = none) (hstarted : s.started = true)
    (hchecked : s.checked = 0) (hclaimed : s.claimed = 0) :
    (alone.foldl (State.step messages) s).sent = s.sent := by
  simp only [alone, List.foldl_cons, List.foldl_nil, State.step, hwinner, hstarted, hchecked,
    hclaimed, if_true, Nat.add_eq_zero_iff, one_ne_zero, and_false, if_false]

theorem alone_first {s : State} (hwinner : s.winner = none) (hstarted : s.started = false) :
    (alone.foldl (State.step messages) s).sent = s.sent + 1 := by
  simp only [alone, List.foldl_cons, List.foldl_nil, State.step, hwinner, hstarted,
    Nat.add_eq_zero_iff, one_ne_zero, and_false, if_false, Bool.false_eq_true]

section
variable {α : Type}

/-- A world without a key of the step. -/
def unstarted : World Unit where
  random := ⟨1 / 2, one_half_pos.le, one_half_lt_one⟩
  contactFound := true
  atom := fun _ => none
  or := fun _ => false
  winnerMessageId := none
  stepRedisKeyExists := false
  messageFound := fun _ => true
  leadHit := false
  removeAutomationHit := false
  targetHit := false
  hour := 12
  hoursToNextDay := 20
  accepts := fun _ => true

end

/-! ## What one step keeps -/

structure Inv (s : State) : Prop where
  set : s.started = true → s.checked = 0 ∧ s.sent + s.claimed = 1
  unset : s.started = false → s.sent = 0 ∧ s.claimed = 0 ∧ s.checked ≤ 1
  job : s.jobs + s.requests = s.sent
  message : ∀ w, s.winner = some w → pick messages w = some w
  status : ∀ w, s.status = some w → s.winner = some w
  winner : ∀ r ∈ s.receipts, r.1 ≠ none ∧ r.2 = r.1

variable {messages}

theorem pick_of_contains {w : Nat} (h : messages.contains w = true) : pick messages w = some w := by
  rw [pick]
  have hmem : w ∈ messages := List.contains_iff_mem.mp h
  cases hfind : messages.find? (· == w) with
  | none => exact absurd (List.find?_eq_none.mp hfind w hmem) (by simp)
  | some v =>
      have heq := List.find?_some hfind
      rw [beq_iff_eq.mp heq]

section
variable {s : State}

theorem Inv.receive (h : Inv messages s) {w : Nat} (hw : s.winner = some w) :
    Inv messages { s with receipts := s.receipts ++ [(s.winner, pick messages w)] } := by
  refine { h with winner := fun r hr => ?_ }
  rcases List.mem_append.mp hr with hr | hr
  · exact h.winner r hr
  · cases List.mem_singleton.mp hr
    rw [hw]
    exact ⟨Option.some_ne_none w, h.message w hw⟩

theorem Inv.look (h : Inv messages s) (hguarded : Guarded s .look) :
    Inv messages (s.step messages .look) := by
  simp only [State.step]
  split
  · exact h
  split
  · exact { h with }
  · rename_i hpending hunset
    have hstarted : s.started = false := Bool.eq_false_iff.mpr hunset
    obtain ⟨hsent, hclaimed, _⟩ := h.unset hstarted
    refine { h with set := fun hset => absurd hset hunset, unset := fun _ => ?_ }
    rcases hguarded with hzero | hset | hchecked
    · exact absurd hzero hpending
    · exact absurd hset hunset
    · exact ⟨hsent, hclaimed, by simp only; omega⟩

theorem Inv.set_ (h : Inv messages s) : Inv messages (s.step messages .set_) := by
  simp only [State.step]
  split
  · exact h
  · rename_i hchecked
    have hunset : s.started = false := by
      cases hstarted : s.started with
      | false => rfl
      | true => exact absurd (h.set hstarted).1 hchecked
    obtain ⟨hsent, hclaimed, hone⟩ := h.unset hunset
    refine { h with set := fun _ => ?_, unset := fun hset => nomatch hset }
    simp only
    omega

theorem Inv.publish (h : Inv messages s) : Inv messages (s.step messages .publish) := by
  simp only [State.step]
  split
  · exact h
  · rename_i hclaimed
    have hset : s.started = true := by
      cases hstarted : s.started with
      | false => exact absurd (h.unset hstarted).2.1 hclaimed
      | true => rfl
    obtain ⟨hchecked, hone⟩ := h.set hset
    have hjob := h.job
    refine { h with set := fun _ => ?_, unset := fun hunset => ?_, job := ?_ }
    · simp only
      omega
    · cases hset.symm.trans hunset
    · simp only
      omega

theorem Inv.fail (h : Inv messages s) {phase : Phase} (hguarded : Guarded s (.fail phase)) :
    Inv messages (s.step messages (.fail phase)) := by
  cases phase with
  | undecided => exact { h with }
  | checked =>
      refine { h with set := fun hset => ?_, unset := fun hunset => ?_ }
      · obtain ⟨hchecked, hone⟩ := h.set hset
        exact ⟨by simp only [State.step]; omega, hone⟩
      · obtain ⟨hsent, hclaimed, hone⟩ := h.unset hunset
        exact ⟨hsent, hclaimed, by simp only [State.step]; omega⟩
  | claimed =>
      have hsame : s.step messages (.fail .claimed) = s := by
        have hzero : s.claimed = 0 := hguarded
        obtain ⟨_, _, _, _, _, claimed, _, _, _, _⟩ := s
        cases hzero
        rfl
      rw [hsame]
      exact h

theorem Inv.handle (h : Inv messages s) {result : Handled} (hguarded : Guarded s (.handle result)) :
    Inv messages (s.step messages (.handle result)) := by
  have hjob := h.job
  simp only [State.step]
  split
  · exact h
  · rename_i hrequests
    cases result with
    | done =>
        refine { h with job := ?_ }
        simp only
        omega
    | early => exact h
    | late => exact absurd hguarded hrequests

theorem Inv.finish (h : Inv messages s) {w : Nat} {saved : Bool}
    (hguarded : Guarded s (.finish w saved)) : Inv messages (s.step messages (.finish w saved)) := by
  simp only [State.step]
  split
  · rename_i hmem
    refine { h with message := fun v hv => ?_, status := fun v hv => ?_ }
    · cases hv
      exact pick_of_contains hmem
    · cases saved with
      | true => exact hv
      | false =>
          have hv' := h.status v hv
          rcases hguarded with hnone | hsame
          · cases hnone.symm.trans hv'
          · exact hsame.symm.trans hv'
  · exact h

theorem step_inv (h : Inv messages s) {op : Op} (hguarded : Guarded s op) :
    Inv messages (s.step messages op) := by
  cases op with
  | reach =>
      simp only [State.step]
      split
      · rename_i w hw
        exact h.receive hw
      · exact { h with }
  | reachFinished =>
      simp only [State.step]
      split
      · rename_i w hw
        exact h.receive (h.status w hw)
      · exact h
  | look => exact h.look hguarded
  | set_ => exact h.set_
  | publish => exact h.publish
  | fail phase => exact h.fail hguarded
  | handle result => exact h.handle hguarded
  | finish w saved => exact h.finish hguarded

theorem Inv.once (h : Inv messages s) : Once messages s := by
  have hjob := h.job
  have hsent : s.sent ≤ 1 := by
    cases hstarted : s.started with
    | true =>
        have hset := h.set hstarted
        omega
    | false =>
        have hunset := h.unset hstarted
        omega
  refine ⟨hsent, fun hset hclaimed => ?_, fun _ hchecked hclaimed hwinner => ?_,
    ⟨by omega, fun hrequests => by omega⟩, h.winner⟩
  · have hone := (h.set hset).2
    omega
  · cases hstarted : s.started with
    | true =>
        have hone := (h.set hstarted).2
        rw [alone_started messages hwinner hstarted hchecked hclaimed]
        omega
    | false => rw [alone_first messages hwinner hstarted, (h.unset hstarted).1]

end

theorem inv_init : Inv messages {} where
  set := fun h => nomatch h
  unset := fun _ => ⟨rfl, rfl, Nat.zero_le _⟩
  job := rfl
  message := fun _ h => nomatch h
  status := fun _ h => nomatch h
  winner := fun _ h => nomatch h

/-- In an allowed run the step is started once, has one finishing job, and whoever reaches
it after the winner is recorded receives the winner. -/
theorem testAB_once (messages : List Nat) (ops : List Op)
    (hguarded : Runs.Meets (fun s op => some (State.step messages s op)) Guarded {} ops) :
    ∀ before after, ops = before ++ after → Once messages (before.foldl (State.step messages) {}) :=
  fun before after heq => ((Runs.always_steps (I := Inv messages) (K := fun _ _ => True)
    (fun _ _ h hguarded => ⟨step_inv h hguarded, trivial⟩) inv_init hguarded).1 before after heq).once

/-- Two contacts reach the step, the second after the first has started it; the job records
the winner, which a third receives. -/
def inTurn : List Op :=
  [.reach, .look, .set_, .reach, .look, .publish, .handle .done, .finish 5 true, .reach]

theorem testAB_once_inTurn : Once [4, 5] (inTurn.foldl (State.step [4, 5]) {}) :=
  testAB_once [4, 5] inTurn
    (.cons trivial rfl (.cons (.inr (.inr rfl)) rfl (.cons trivial rfl (.cons trivial rfl
      (.cons (.inr (.inl rfl)) rfl (.cons trivial rfl (.cons trivial rfl (.cons (.inl rfl) rfl
        (.cons trivial rfl trivial)))))))))
    inTurn [] (List.append_nil _).symm

/-- Two workers look before either sets the key: two requests, and two jobs. -/
def race : List Op :=
  [.reach, .reach, .look, .look, .set_, .publish, .set_, .publish, .handle .done, .handle .done]

/-- The publishing fails after the key is set, and a second contact reaches the step. -/
def lost : List Op := [.reach, .look, .set_, .fail .claimed, .reach, .look, .set_, .publish]

theorem not_once : (race.foldl (State.step [4, 5]) {}).sent = 2 ∧
    (lost.foldl (State.step [4, 5]) {}).sent = 0 ∧
    ¬ (∀ ops : List Op, Once [4, 5] (ops.foldl (State.step [4, 5]) {})) := by
  refine ⟨rfl, rfl, fun h => ?_⟩
  have hle : (race.foldl (State.step [4, 5]) {}).sent ≤ 1 := (h race).once
  exact absurd hle (by decide)

end OpenBms.MessageTrigger.TestAB
