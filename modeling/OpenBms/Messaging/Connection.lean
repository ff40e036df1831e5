/-
# `OpenBms.Messaging.Connection` — the broker connections of a connection manager

`getConnection` returns the connection that is held, joins a connect that is under
way, or starts one; a lost connection is replaced by a timer of its own, which does
not know about `getConnection`.

| step | starts a connect when | and does not look at |
| :-- | :-- | :-- |
| `getConnection` | nothing is held or being connected | the timer, `attemptReconnect` |
| the timer | it fires before `close` | what is held, `getConnection`'s connect |
| `close` | | a connect that is under way |

The continuations of a connect that has succeeded run before the next event, so
opening a connection and holding it are one step.

**Proved here.**

    at most one of: held, being connected, to be reconnected (`Single.step`)
    when `getConnection` starts no connect beside a reconnection
    and `close` comes while none is under way, at most one
    connection is open, and none after `close` (`connections_single`)
-/
import OpenBms.Lib.Runs

namespace OpenBms.Connection

/-- `connectWithInitialRetry`: the `i`-th connect, or the wait after it failed. -/
inductive Initial where
  | idle
  | connecting (i : Nat)
  | sleeping (i : Nat)
  deriving DecidableEq

/-- `close`: not called, waiting for the connection it closes, or done. -/
inductive Closing where
  | no
  | closing (conn : Option Nat)
  | done
  deriving DecidableEq

/-- `live` are the connections open at the broker, numbered in the order of their
opening; `attempts` the reconnections under way; `discarding` the connections that
`attemptReconnect` closes again. -/
structure Manager where
  opened : Nat
  live : List Nat
  conn : Option Nat
  connPromise : Initial
  timer : Bool
  reconnectPending : Bool
  attempts : Nat
  discarding : List Nat
  closing : Closing

def Manager.init : Manager := ⟨0, [], none, .idle, false, false, 0, [], .no⟩

inductive Event where
  | getConnection
  | connected
  | refused
  | wake
  | lost (c : Nat)
  | tick
  | reconnected
  | unreachable
  | discard (c : Nat)
  | close
  | closeDone

namespace Manager

variable (s : Manager)

def closed : Bool := s.closing ≠ .no

def scheduleReconnect : Manager :=
  if s.reconnectPending then s else { s with reconnectPending := true, timer := true }

/-- The connection is gone at the broker; `handleLoss` hears of it. -/
def lose (c : Nat) : Manager :=
  let s : Manager :=
    { s with
      live := s.live.filter fun x => x ≠ c
      discarding := s.discarding.filter fun x => x ≠ c
      conn := s.conn.filter fun x => x ≠ c }
  if s.closed then s else s.scheduleReconnect

/-- The broker has accepted a connection. -/
def accept : Manager := { s with opened := s.opened + 1, live := s.live ++ [s.opened] }

def step (maxInitialRetries : Nat) : Event → Option Manager
  | .getConnection =>
      some (if s.closed ∨ s.conn ≠ none ∨ s.connPromise ≠ .idle ∨ maxInitialRetries = 0 then s
        else { s with connPromise := .connecting 0 })
  | .connected =>
      match s.connPromise with
      | .connecting _ => some { s.accept with conn := some s.opened, connPromise := .idle }
      | _ => none
  | .refused =>
      match s.connPromise with
      | .connecting i =>
          some { s with connPromise := if i + 1 < maxInitialRetries then .sleeping i else .idle }
      | _ => none
  | .wake =>
      match s.connPromise with
      | .sleeping i => some { s with connPromise := .connecting (i + 1) }
      | _ => none
  | .lost c => if c ∈ s.live then some (s.lose c) else none
  | .tick =>
      if s.timer then
        some { s with
          timer := false
          reconnectPending := false
          attempts := if s.closed then s.attempts else s.attempts + 1 }
      else none
  | .reconnected =>
      if 0 < s.attempts then
        let s : Manager := { s with attempts := s.attempts - 1 }
        some (if s.closed then { s.accept with discarding := s.discarding ++ [s.opened] }
          else { s.accept with conn := some s.opened })
      else none
  | .unreachable =>
      if 0 < s.attempts then
        let s : Manager := { s with attempts := s.attempts - 1 }
        some (if s.closed then s else s.scheduleReconnect)
      else none
  | .discard c => if c ∈ s.discarding then some (s.lose c) else none
  | .close =>
      some (if s.closed then s
        else { s with timer := false, conn := none, closing := .closing s.conn })
  | .closeDone =>
      match s.closing with
      | .closing none => some { s with closing := .done }
      | .closing (some c) => some { s.lose c with closing := .done }
      | _ => none

end Manager

/-! ## One connection at a time -/

/-- `getConnection` does not start a connect beside a reconnection, and `close` does
not come while a connect is under way. -/
def Calm (s : Manager) : Event → Prop
  | .getConnection =>
      s.closed = true ∨ s.conn ≠ none ∨ s.connPromise ≠ .idle ∨ s.timer = false ∧ s.attempts = 0
  | .close => s.closed = true ∨ s.connPromise = .idle ∧ s.attempts = 0
  | _ => True

/-- What a manager that is not closed is about; at most one of them at a time. -/
inductive Open (s : Manager) : Prop
  | nothing (hlive : s.live = []) (hconn : s.conn = none) (hpromise : s.connPromise = .idle)
      (htimer : s.timer = false) (hattempts : s.attempts = 0)
  | held (c : Nat) (hlive : s.live = [c]) (hconn : s.conn = some c) (hpromise : s.connPromise = .idle)
      (htimer : s.timer = false) (hattempts : s.attempts = 0)
  | connecting (hlive : s.live = []) (hconn : s.conn = none) (hpromise : s.connPromise ≠ .idle)
      (htimer : s.timer = false) (hattempts : s.attempts = 0)
  | waiting (hlive : s.live = []) (hconn : s.conn = none) (hpromise : s.connPromise = .idle)
      (htimer : s.timer = true) (hattempts : s.attempts = 0)
  | reconnecting (hlive : s.live = []) (hconn : s.conn = none) (hpromise : s.connPromise = .idle)
      (htimer : s.timer = false) (hattempts : s.attempts = 1)

/-- What a closed manager can still be about: the connection it is closing. -/
structure Shut (s : Manager) (c : Option Nat) : Prop where
  live : ∀ x ∈ s.live, c = some x
  single : s.live.length ≤ 1
  conn : s.conn = none
  promise : s.connPromise = .idle
  timer : s.timer = false
  attempts : s.attempts = 0

structure Single (s : Manager) : Prop where
  no : s.closing = .no → Open s ∧ s.reconnectPending = s.timer
  closing : ∀ c, s.closing = .closing c → Shut s c
  done : s.closing = .done → Shut s none
  discarding : s.discarding = []

section
variable {s s' : Manager} {n : Nat}

theorem Single.of_open (hno : s.closing = .no) (h : Open s) (hpending : s.reconnectPending = s.timer)
    (hdiscarding : s.discarding = []) : Single s := by
  refine ⟨fun _ => ⟨h, hpending⟩, fun c hc => ?_, fun hc => ?_, hdiscarding⟩
  · rw [hno] at hc
    cases hc
  · rw [hno] at hc
    cases hc

theorem Single.of_shut {c : Option Nat} (hclosing : s.closing = .closing c) (h : Shut s c)
    (hdiscarding : s.discarding = []) : Single s := by
  refine ⟨fun hc => ?_, fun d hd => ?_, fun hc => ?_, hdiscarding⟩
  · rw [hclosing] at hc
    cases hc
  · rw [hclosing] at hd
    cases hd
    exact h
  · rw [hclosing] at hc
    cases hc

theorem Single.of_done (hdone : s.closing = .done) (h : Shut s none)
    (hdiscarding : s.discarding = []) : Single s := by
  refine ⟨fun hc => ?_, fun d hd => ?_, fun _ => h, hdiscarding⟩
  · rw [hdone] at hc
    cases hc
  · rw [hdone] at hd
    cases hd

theorem closed_of_no (h : s.closing = .no) : s.closed = false := by
  rw [Manager.closed, h]
  rfl

theorem not_closed_of_no (h : s.closing = .no) : ¬ s.closed = true := by
  rw [closed_of_no h]
  exact Bool.false_ne_true

theorem closed_of_ne (h : s.closing ≠ .no) : s.closed = true :=
  decide_eq_true h

/-! ### A manager that is closed -/

theorem lose_of_closed (hclosed : s.closed = true) (x : Nat) :
    s.lose x = { s with
      live := s.live.filter fun y => y ≠ x
      discarding := s.discarding.filter fun y => y ≠ x
      conn := s.conn.filter fun y => y ≠ x } := by
  have hsame : s.closing ≠ .no := of_decide_eq_true hclosed
  simp only [Manager.lose, Manager.closed, ne_eq, hsame, not_false_eq_true, decide_true, if_true]

theorem Shut.lose {c : Option Nat} (h : Shut s c) (hclosed : s.closed = true) (x : Nat) :
    Shut (s.lose x) c := by
  rw [lose_of_closed hclosed]
  refine ⟨fun y hy => h.live y (List.mem_of_mem_filter hy),
    (List.length_filter_le _ _).trans h.single, ?_, h.promise, h.timer, h.attempts⟩
  show s.conn.filter _ = none
  rw [h.conn]
  rfl

theorem Shut.step {c : Option Nat} (h : Shut s c) (hclosed : s.closed = true)
    (hdiscarding : s.discarding = []) {e : Event} (hs : s.step n e = some s') :
    s' = s ∨ (∃ x, s' = s.lose x) ∨ ∃ d, s.closing = .closing d ∧
      s' = { d.elim s s.lose with closing := .done } := by
  cases e with
  | getConnection =>
      cases hs
      left
      rw [if_pos (.inl hclosed)]
  | connected =>
      rw [Manager.step, h.promise] at hs
      cases hs
  | refused =>
      rw [Manager.step, h.promise] at hs
      cases hs
  | wake =>
      rw [Manager.step, h.promise] at hs
      cases hs
  | lost x =>
      rw [Manager.step] at hs
      split at hs
      · cases hs
        exact .inr (.inl ⟨x, rfl⟩)
      · cases hs
  | tick =>
      rw [Manager.step, h.timer] at hs
      cases hs
  | reconnected =>
      rw [Manager.step, h.attempts] at hs
      cases hs
  | unreachable =>
      rw [Manager.step, h.attempts] at hs
      cases hs
  | discard x =>
      rw [Manager.step, hdiscarding] at hs
      cases hs
  | close =>
      cases hs
      left
      rw [if_pos hclosed]
  | closeDone =>
      rw [Manager.step] at hs
      split at hs
      · rename_i hclosing
        cases hs
        exact .inr (.inr ⟨none, hclosing, rfl⟩)
      · rename_i x hclosing
        cases hs
        exact .inr (.inr ⟨some x, hclosing, rfl⟩)
      · cases hs

theorem Shut.kept {c : Option Nat} (h : Shut s c) (hdiscarding : s.discarding = [])
    (hclosing : s.closing = .closing c ∨ s.closing = .done ∧ c = none) {e : Event}
    (hs : s.step n e = some s') : Single s' := by
  have hclosed : s.closed = true := by
    refine closed_of_ne fun hno => ?_
    rcases hclosing with hc | ⟨hc, -⟩
    · rw [hno] at hc
      cases hc
    · rw [hno] at hc
      cases hc
  have hsame : ∀ t : Manager, t.closing = s.closing → Shut t c → t.discarding = [] → Single t := by
    intro t ht hshut hd
    rcases hclosing with hc | ⟨hc, rfl⟩
    · exact .of_shut (ht.trans hc) hshut hd
    · exact .of_done (ht.trans hc) hshut hd
  have hlose : ∀ x, (s.lose x).discarding = [] := by
    intro x
    rw [lose_of_closed hclosed]
    show s.discarding.filter _ = []
    rw [hdiscarding]
    rfl
  rcases h.step hclosed hdiscarding hs with rfl | ⟨x, rfl⟩ | ⟨d, hd, rfl⟩
  · exact hsame s' rfl h hdiscarding
  · refine hsame _ ?_ (h.lose hclosed x) (hlose x)
    rw [lose_of_closed hclosed]
  · have hcd : c = d := by
      rcases hclosing with hc | ⟨hc, -⟩
      · rw [hc] at hd
        cases hd
        rfl
      · rw [hc] at hd
        cases hd
    subst hcd
    cases c with
    | none => exact .of_done rfl ⟨h.live, h.single, h.conn, h.promise, h.timer, h.attempts⟩ hdiscarding
    | some x =>
        have hgone := h.lose hclosed x
        refine .of_done rfl ⟨fun y hy => ?_, hgone.single, hgone.conn, hgone.promise, hgone.timer,
          hgone.attempts⟩ (hlose x)
        have hmem : y ∈ (s.lose x).live := hy
        have hx := hgone.live y hmem
        rw [lose_of_closed hclosed] at hmem
        have hne := of_decide_eq_true (List.mem_filter.mp hmem).2
        exact absurd (Option.some.inj hx).symm hne

/-! ### A manager that is not closed -/

/-- Losing the connection that is held leaves a timer; nothing else is open. -/
theorem Open.lose (h : Open s) (hpending : s.reconnectPending = s.timer) (hno : s.closing = .no)
    (hdiscarding : s.discarding = []) {c : Nat} (hc : c ∈ s.live) : Single (s.lose c) := by
  cases h with
  | nothing hlive =>
      rw [hlive] at hc
      cases hc
  | connecting hlive =>
      rw [hlive] at hc
      cases hc
  | waiting hlive =>
      rw [hlive] at hc
      cases hc
  | reconnecting hlive =>
      rw [hlive] at hc
      cases hc
  | held d hlive hconn hpromise htimer hattempts =>
      rw [hlive, List.mem_singleton] at hc
      subst hc
      have hlose : s.lose c = { s with
          live := [], conn := none, discarding := [], reconnectPending := true, timer := true } := by
        have hp : s.reconnectPending = false := hpending.trans htimer
        simp [Manager.lose, Manager.closed, Manager.scheduleReconnect, hlive, hconn, hdiscarding,
          hno, hp]
      rw [hlose]
      exact .of_open hno (.waiting rfl rfl hpromise rfl hattempts) rfl rfl

/-- Only a manager in the `connecting` case awaits a connect of `getConnection`. -/
theorem Open.of_promise (h : Open s) (hpromise : s.connPromise ≠ .idle) :
    s.live = [] ∧ s.conn = none ∧ s.timer = false ∧ s.attempts = 0 := by
  cases h with
  | nothing _ _ hidle => exact absurd hidle hpromise
  | held _ _ _ hidle => exact absurd hidle hpromise
  | connecting hlive hconn _ htimer hattempts => exact ⟨hlive, hconn, htimer, hattempts⟩
  | waiting _ _ hidle => exact absurd hidle hpromise
  | reconnecting _ _ hidle => exact absurd hidle hpromise

theorem Open.of_attempts (h : Open s) (hattempts : 0 < s.attempts) :
    s.live = [] ∧ s.conn = none ∧ s.connPromise = .idle ∧ s.timer = false ∧ s.attempts = 1 := by
  cases h with
  | nothing _ _ _ _ hzero => omega
  | held _ _ _ _ _ hzero => omega
  | connecting _ _ _ _ hzero => omega
  | waiting _ _ _ _ hzero => omega
  | reconnecting hlive hconn hpromise htimer hone => exact ⟨hlive, hconn, hpromise, htimer, hone⟩

theorem Open.of_timer (h : Open s) (htimer : s.timer = true) :
    s.live = [] ∧ s.conn = none ∧ s.connPromise = .idle ∧ s.attempts = 0 := by
  cases h with
  | nothing _ _ _ hoff => exact absurd (htimer.symm.trans hoff) (by decide)
  | held _ _ _ _ hoff => exact absurd (htimer.symm.trans hoff) (by decide)
  | connecting _ _ _ hoff => exact absurd (htimer.symm.trans hoff) (by decide)
  | waiting hlive hconn hpromise _ hattempts => exact ⟨hlive, hconn, hpromise, hattempts⟩
  | reconnecting _ _ _ hoff => exact absurd (htimer.symm.trans hoff) (by decide)

theorem Open.of_conn (h : Open s) (hconn : s.conn = none) : s.live = [] := by
  cases h with
  | nothing hlive => exact hlive
  | held c _ hsome =>
      rw [hconn] at hsome
      cases hsome
  | connecting hlive => exact hlive
  | waiting hlive => exact hlive
  | reconnecting hlive => exact hlive

theorem Open.close (h : Open s) (hpromise : s.connPromise = .idle) (hattempts : s.attempts = 0) :
    Shut { s with timer := false, conn := none, closing := .closing s.conn } s.conn := by
  have hlive : s.live = [] ∨ ∃ c, s.live = [c] ∧ s.conn = some c := by
    cases h with
    | nothing hlive => exact .inl hlive
    | held c hlive hconn => exact .inr ⟨c, hlive, hconn⟩
    | connecting hlive => exact .inl hlive
    | waiting hlive => exact .inl hlive
    | reconnecting hlive => exact .inl hlive
  refine ⟨fun x hx => ?_, ?_, rfl, hpromise, rfl, hattempts⟩
  · have hx : x ∈ s.live := hx
    rcases hlive with hlive | ⟨c, hlive, hconn⟩
    · rw [hlive] at hx
      cases hx
    · rw [hlive] at hx
      rw [hconn, List.mem_singleton.mp hx]
  · show s.live.length ≤ 1
    rcases hlive with hlive | ⟨c, hlive, -⟩
    · rw [hlive]
      exact Nat.zero_le 1
    · rw [hlive]
      exact Nat.le_refl 1

theorem Open.step (h : Open s) (hpending : s.reconnectPending = s.timer) (hno : s.closing = .no)
    (hdiscarding : s.discarding = []) {e : Event} (hcalm : Calm s e) (hs : s.step n e = some s') :
    Single s' := by
  have hclosed : s.closed = false := closed_of_no hno
  cases e with
  | getConnection =>
      cases hs
      split
      · exact .of_open hno h hpending hdiscarding
      · rename_i hstart
        simp only [hclosed, Bool.false_eq_true, false_or, not_or, ne_eq, not_not] at hstart
        obtain ⟨hconn, hpromise, -⟩ := hstart
        have hquiet : s.timer = false ∧ s.attempts = 0 := by
          rcases hcalm with hc | hc | hc | hc
          · rw [hclosed] at hc
            cases hc
          · exact absurd hconn hc
          · exact absurd hpromise hc
          · exact hc
        exact .of_open hno (.connecting (h.of_conn hconn) hconn
          (by simp) hquiet.1 hquiet.2) hpending hdiscarding
  | connected =>
      rw [Manager.step] at hs
      split at hs
      · rename_i i hpromise
        cases hs
        obtain ⟨hlive, -, htimer, hattempts⟩ := h.of_promise (by rw [hpromise]; simp)
        refine .of_open hno (.held s.opened ?_ rfl rfl htimer hattempts) hpending hdiscarding
        show s.live ++ [s.opened] = [s.opened]
        rw [hlive]
        rfl
      · cases hs
  | refused =>
      rw [Manager.step] at hs
      split at hs
      · rename_i i hpromise
        cases hs
        obtain ⟨hlive, hconn, htimer, hattempts⟩ := h.of_promise (by rw [hpromise]; simp)
        by_cases hi : i + 1 < n
        · rw [if_pos hi]
          exact .of_open hno (.connecting hlive hconn (by simp) htimer hattempts) hpending hdiscarding
        · rw [if_neg hi]
          exact .of_open hno (.nothing hlive hconn rfl htimer hattempts) hpending hdiscarding
      · cases hs
  | wake =>
      rw [Manager.step] at hs
      split at hs
      · rename_i i hpromise
        cases hs
        obtain ⟨hlive, hconn, htimer, hattempts⟩ := h.of_promise (by rw [hpromise]; simp)
        exact .of_open hno (.connecting hlive hconn (by simp) htimer hattempts) hpending hdiscarding
      · cases hs
  | lost c =>
      rw [Manager.step] at hs
      split at hs
      · rename_i hc
        cases hs
        exact h.lose hpending hno hdiscarding hc
      · cases hs
  | tick =>
      rw [Manager.step] at hs
      split at hs
      · rename_i htimer
        cases hs
        obtain ⟨hlive, hconn, hpromise, hattempts⟩ := h.of_timer htimer
        refine .of_open hno (.reconnecting hlive hconn hpromise rfl ?_) rfl hdiscarding
        show (if s.closed = true then s.attempts else s.attempts + 1) = 1
        rw [hclosed, hattempts]
        rfl
      · cases hs
  | reconnected =>
      rw [Manager.step] at hs
      split at hs
      · rename_i hpos
        obtain ⟨hlive, -, hpromise, htimer, hone⟩ := h.of_attempts hpos
        have hopen : ¬ Manager.closed { s with attempts := s.attempts - 1 } = true :=
          not_closed_of_no hno
        dsimp only at hs
        rw [if_neg hopen] at hs
        cases hs
        refine .of_open hno (.held s.opened ?_ rfl hpromise htimer ?_) hpending hdiscarding
        · show s.live ++ [s.opened] = [s.opened]
          rw [hlive]
          rfl
        · show s.attempts - 1 = 0
          rw [hone]
      · cases hs
  | unreachable =>
      rw [Manager.step] at hs
      split at hs
      · rename_i hpos
        obtain ⟨hlive, hconn, hpromise, htimer, hone⟩ := h.of_attempts hpos
        have hopen : ¬ Manager.closed { s with attempts := s.attempts - 1 } = true :=
          not_closed_of_no hno
        have hsame : ¬ s.reconnectPending = true := by
          rw [hpending, htimer]
          decide
        dsimp only at hs
        rw [if_neg hopen, Manager.scheduleReconnect, if_neg hsame] at hs
        cases hs
        refine .of_open hno (.waiting hlive hconn hpromise rfl ?_) rfl hdiscarding
        show s.attempts - 1 = 0
        rw [hone]
      · cases hs
  | discard c =>
      rw [Manager.step, hdiscarding] at hs
      cases hs
  | close =>
      cases hs
      have hopen : ¬ s.closed = true := not_closed_of_no hno
      rw [if_neg hopen]
      have hquiet : s.connPromise = .idle ∧ s.attempts = 0 := by
        rcases hcalm with hc | hc
        · exact absurd hc hopen
        · exact hc
      exact .of_shut rfl (h.close hquiet.1 hquiet.2) hdiscarding
  | closeDone =>
      rw [Manager.step, hno] at hs
      cases hs

theorem Single.step (h : Single s) {e : Event} (hcalm : Calm s e) (hs : s.step n e = some s') :
    Single s' := by
  cases hclosing : s.closing with
  | no => exact (h.no hclosing).1.step (h.no hclosing).2 hclosing h.discarding hcalm hs
  | closing c => exact (h.closing c hclosing).kept h.discarding (.inl hclosing) hs
  | done => exact (h.done hclosing).kept h.discarding (.inr ⟨hclosing, rfl⟩) hs

theorem Single.length_le (h : Single s) : s.live.length ≤ 1 := by
  cases hclosing : s.closing with
  | no =>
      cases (h.no hclosing).1 with
      | nothing hlive => rw [hlive]; exact Nat.zero_le 1
      | held c hlive => rw [hlive]; exact Nat.le_refl 1
      | connecting hlive => rw [hlive]; exact Nat.zero_le 1
      | waiting hlive => rw [hlive]; exact Nat.zero_le 1
      | reconnecting hlive => rw [hlive]; exact Nat.zero_le 1
  | closing c => exact (h.closing c hclosing).single
  | done => exact (h.done hclosing).single

theorem Single.live_done (h : Single s) (hdone : s.closing = .done) : s.live = [] := by
  refine List.eq_nil_iff_forall_not_mem.mpr fun x hx => ?_
  have hnone := (h.done hdone).live x hx
  cases hnone

theorem single_init : Single Manager.init :=
  .of_open rfl (.nothing rfl rfl rfl rfl rfl) rfl rfl

end

/-- In a run of calm events, in every state reached, at most one connection is open,
and none once `close` is done. -/
theorem connections_single (n : Nat) (es : List Event) (s : Manager)
    (hcalm : Runs.Meets (fun s e => s.step n e) Calm Manager.init es)
    (hs : Runs.exec (fun s e => s.step n e) Manager.init es = some s) :
    s.live.length ≤ 1 ∧ (s.closing = .done → s.live = []) := by
  have hsingle : Single s := Runs.invariant (fun _ _ _ h hc hs => h.step hc hs) single_init hcalm hs
  exact ⟨hsingle.length_le, hsingle.live_done⟩

/-- A connection that is lost, replaced and closed. -/
theorem connections_single_replaced :
    ∃ s, Runs.exec (fun s e => s.step 5 e) Manager.init
        [.getConnection, .connected, .lost 0, .tick, .reconnected, .close, .closeDone] = some s ∧
      s.opened = 2 ∧ s.live.length ≤ 1 ∧ (s.closing = .done → s.live = []) := by
  refine ⟨_, rfl, rfl, connections_single 5
    [.getConnection, .connected, .lost 0, .tick, .reconnected, .close, .closeDone] _ ?_ rfl⟩
  exact .cons (.inr (.inr (.inr ⟨rfl, rfl⟩))) rfl (.cons trivial rfl (.cons trivial rfl
    (.cons trivial rfl (.cons trivial rfl (.cons (.inr ⟨rfl, rfl⟩) rfl (.cons trivial rfl trivial))))))

/-- `getConnection` between the loss and the timer leaves two connections open; a
`close` during a connect leaves one open. -/
theorem two_connections :
    (Runs.exec (fun s e => s.step 5 e) Manager.init
        [.getConnection, .connected, .lost 0, .getConnection, .connected, .tick, .reconnected]).map
      (fun s => s.live) = some [1, 2] ∧
    (Runs.exec (fun s e => s.step 5 e) Manager.init
        [.getConnection, .close, .closeDone, .connected]).map
      (fun s => (s.closing, s.live)) = some (.done, [0]) := by
  decide

end OpenBms.Connection
