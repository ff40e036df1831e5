/-
# `OpenBms.Messaging.Consumer` — deliveries, retries, reconnections and the shutdown of a consumer

The consumer holds one channel it consumes and settles on and one it publishes on.
Handlers, confirms, retry timers, the re-establishment after a reconnect and the
shutdown are tasks of their own; what happens between two of their awaits is one
step here, and the steps come in any order.

| task | its steps |
| :-- | :-- |
| a delivery | `deliver`, `answer`, `confirm` |
| a retry | `timer`, `republish` |
| `reestablish` | `reconnect`, `openChannels`, `consume`, `giveUp` |
| `shutdown` | `shutdown`, `cancel`, `drained` or `timeout`, the closing steps |

The broker numbers the deliveries of each channel from one, and settles what the
channel and the tag of an `ack` or `nack` name.  The last five fields of a state are
its history.
-/
import OpenBms.Messaging.Retry
import OpenBms.Lib.Runs

namespace OpenBms.Messaging

/-! ## States -/

/-- A message as the broker handed it over. -/
structure Delivery where
  no : Nat
  channel : Nat
  tag : Nat
  message : Message

/-- What `handleMessage` awaits: the handler, or the confirm of a dead letter. -/
inductive Stage where
  | running
  | deadLettering (copy : Message)

structure Task where
  delivery : Delivery
  stage : Stage

/-- A copy to be published, after the delay or while its confirm is awaited. -/
structure Pending where
  delivery : Delivery
  copy : Message

inductive Kind where
  | ack
  | requeue
  deriving DecidableEq

/-- An `ack` or `nack` that reached the broker on `channel`, for `delivery`. -/
structure Settlement where
  channel : Nat
  delivery : Delivery
  kind : Kind

/-- How far `reestablish` is. -/
inductive Establishing where
  | idle
  | connecting
  | opened (channel : Nat)
  deriving DecidableEq

/-- How far `doShutdown` is; `shuttingDown` is every phase but the first. -/
inductive Phase where
  | serving
  | cancelling
  | draining
  | closingChannel
  | closingPublish
  | closingConnection
  | closed
  deriving DecidableEq

structure State where
  opened : Nat
  live : List Nat
  channel : Option Nat
  publishChannel : Option Nat
  consuming : Option Nat
  establishing : Establishing
  phase : Phase
  inFlight : List Nat
  tasks : List Task
  timers : List Pending
  republishing : List Pending
  deliveries : List Delivery
  settlements : List Settlement
  acked : List Nat
  handled : List Nat
  republished : List Nat
  deadLettered : List Nat

/-- After `consume`: channel 0 consumes, channel 1 publishes. -/
def init : State where
  opened := 2
  live := [0, 1]
  channel := some 0
  publishChannel := some 1
  consuming := some 0
  establishing := .idle
  phase := .serving
  inFlight := []
  tasks := []
  timers := []
  republishing := []
  deliveries := []
  settlements := []
  acked := []
  handled := []
  republished := []
  deadLettered := []

inductive Label where
  | deliver (m : Message)
  | answer (no : Nat) (r : Outcome)
  | confirm (no : Nat) (ok : Bool)
  | timer (no : Nat)
  | republish (no : Nat) (ok : Bool)
  | lose
  | reconnect
  | openChannels (alive : Bool)
  | consume
  | giveUp
  | shutdown
  | cancel
  | drained
  | timeout
  | closeChannel
  | closePublish
  | closeConnection

namespace State

variable (s : State)

def task (no : Nat) : Option Task := s.tasks.find? fun t => t.delivery.no = no

/-- The delivery a channel's tag names, if it has not been settled. -/
def outstanding (c tag : Nat) : Option Delivery :=
  s.deliveries.find? fun d => d.channel = c && d.tag = tag &&
    s.settlements.all fun x => !(x.channel = c && x.delivery.tag = tag)

/-! ## Settling -/

/-- A dead channel: the broker neither takes anything on it nor delivers. -/
def kill (c : Nat) : State :=
  { s with
    live := s.live.filter fun x => x ≠ c
    consuming := s.consuming.filter fun x => x ≠ c }

def send (x : Settlement) : State := { s with settlements := s.settlements ++ [x] }

def credit (kind : Kind) (no : Nat) : State :=
  { s with acked := if kind = .ack then s.acked ++ [no] else s.acked }

/-- `safeAck` and `safeNack`: on `this.channel`, whatever channel the delivery came
on.  The broker closes a channel that names no outstanding delivery. -/
def safeSettle (d : Delivery) (kind : Kind) : State :=
  match s.channel with
  | none => s
  | some c =>
      if c ∈ s.live then
        match s.outstanding c d.tag with
        | some e => (s.send ⟨c, d, kind⟩).credit kind e.no
        | none => (s.send ⟨c, d, kind⟩).kill c
      else s

/-- The end of `handleMessage`. -/
def finish (no : Nat) : State :=
  { s with
    tasks := s.tasks.filter fun t => t.delivery.no ≠ no
    inFlight := s.inFlight.filter fun n => n ≠ no }

/-- Publishing to the dead-letter exchange: skipped without a publish channel, an
error on a dead one. -/
def deadLetter (d : Delivery) (copy : Message) : State :=
  match s.publishChannel with
  | none => (s.safeSettle d .ack).finish d.no
  | some c =>
      if c ∈ s.live then
        { s with tasks := (s.tasks.filter fun t => t.delivery.no ≠ d.no) ++ [⟨d, .deadLettering copy⟩] }
      else s.finish d.no

/-! ## Handling a delivery -/

def succeed (no : Nat) : State := { s with handled := s.handled ++ [no] }

def deadLettering (no : Nat) : State := { s with deadLettered := s.deadLettered ++ [no] }

def delay (p : Pending) : State := { s with timers := s.timers ++ [p] }

variable (rt : Runtime) (o : ConsumerOptions)

def record (d : Delivery) : State := { s with deliveries := s.deliveries ++ [d] }

def start (d : Delivery) : State :=
  { s with inFlight := s.inFlight ++ [d.no], tasks := s.tasks ++ [⟨d, .running⟩] }

/-- The callback of `consume`, up to its first await. -/
def receive (c : Nat) (m : Message) : State :=
  let d : Delivery :=
    ⟨s.deliveries.length, c, (s.deliveries.filter fun d => d.channel = c).length + 1, m⟩
  match s.channel with
  | none => s.record d
  | some _ =>
      match rt.jsonError m.content with
      | some error => ((s.record d).start d).deadLetter d (m.unparsed error)
      | none => (s.record d).start d

/-- `handleMessage` after the handler. -/
def answered (d : Delivery) (r : Outcome) : State :=
  match settle rt o d.message r with
  | .ack =>
      ((if r = .ack ∨ r = .void then s.succeed d.no else s).safeSettle d .ack).finish d.no
  | .requeue => (s.safeSettle d .requeue).finish d.no
  | .deadLetter copy => s.deadLetter d copy
  | .retry copy => ((s.safeSettle d .ack).delay ⟨d, copy⟩).finish d.no

/-- `handleMessage` after the confirm of the dead letter, which may fail. -/
def confirmed (d : Delivery) (ok : Bool) : State :=
  if ok then ((s.deadLettering d.no).safeSettle d .ack).finish d.no
  else s.finish d.no

def expire (p : Pending) : State :=
  { s with timers := s.timers.filter fun q => q.delivery.no ≠ p.delivery.no }

def publish (p : Pending) : State := { s with republishing := s.republishing ++ [p] }

/-- A retry timer: nothing is published during a shutdown or without a channel. -/
def fire (p : Pending) : State :=
  if s.phase ≠ .serving then s.expire p
  else
    match s.publishChannel with
    | none => s.expire p
    | some c => if c ∈ s.live then (s.expire p).publish p else s.expire p

/-- The confirm of a copy; an error is swallowed. -/
def republish (p : Pending) (ok : Bool) : State :=
  { s with
    republishing := s.republishing.filter fun q => q.delivery.no ≠ p.delivery.no
    republished := if ok then s.republished ++ [p.delivery.no] else s.republished }

/-! ## Reconnecting and shutting down -/

/-- `createChannel` and `createConfirmChannel`; the first may be gone when the second
is there. -/
def openChannels (alive : Bool) : State :=
  { s with
    opened := s.opened + 2
    live := (s.opened + 1) :: if alive then s.opened :: s.live else s.live
    channel := some s.opened
    publishChannel := some (s.opened + 1)
    establishing := .opened s.opened }

def step : Label → Option State
  | .deliver m =>
      (s.consuming.filter fun c => c ∈ s.live).map fun c => s.receive rt c m
  | .answer no r =>
      (s.task no).bind fun t =>
        match t.stage with
        | .running => some (s.answered rt o t.delivery r)
        | .deadLettering _ => none
  | .confirm no ok =>
      (s.task no).bind fun t =>
        match t.stage with
        | .running => none
        | .deadLettering _ => some (s.confirmed t.delivery ok)
  | .timer no => (s.timers.find? fun p => p.delivery.no = no).map s.fire
  | .republish no ok =>
      (s.republishing.find? fun p => p.delivery.no = no).map fun p => s.republish p ok
  | .lose => some { s with live := [], consuming := none }
  | .reconnect =>
      some (if s.establishing ≠ .idle ∨ s.phase ≠ .serving then s
        else { s with establishing := .connecting })
  | .openChannels alive =>
      if s.establishing = .connecting then some (s.openChannels alive) else none
  | .consume =>
      match s.establishing with
      | .opened c =>
          if c ∈ s.live then
            some { s with consuming := some c, inFlight := [], establishing := .idle }
          else none
      | _ => none
  | .giveUp => if s.establishing ≠ .idle then some { s with establishing := .idle } else none
  | .shutdown => some (if s.phase = .serving then { s with phase := .cancelling } else s)
  | .cancel =>
      if s.phase = .cancelling then
        some { s with
          phase := .draining
          consuming := s.consuming.filter fun c => some c ≠ s.channel }
      else none
  | .drained =>
      if s.phase = .draining ∧ s.inFlight = [] ∧ s.timers.isEmpty then
        some { s with phase := .closingChannel }
      else none
  | .timeout =>
      if s.phase = .draining then some { s with timers := [], phase := .closingChannel } else none
  | .closeChannel =>
      if s.phase = .closingChannel then
        some { s.channel.elim s s.kill with channel := none, phase := .closingPublish }
      else none
  | .closePublish =>
      if s.phase = .closingPublish then
        some { s.publishChannel.elim s s.kill with
          publishChannel := none, phase := .closingConnection }
      else none
  | .closeConnection =>
      if s.phase = .closingConnection then
        some { s with live := [], consuming := none, phase := .closed }
      else none

end State

/-! ## What a settlement changes -/

section
variable {s : State}

/-- A settlement is not sent, or names an outstanding delivery, or names none and
costs the channel. -/
theorem safeSettle_cases (s : State) (d : Delivery) (kind : Kind) :
    s.safeSettle d kind = s ∨
      ∃ c, s.channel = some c ∧
        ((∃ e, s.outstanding c d.tag = some e ∧
            s.safeSettle d kind = (s.send ⟨c, d, kind⟩).credit kind e.no) ∨
          s.safeSettle d kind = (s.send ⟨c, d, kind⟩).kill c) := by
  cases hc : s.channel with
  | none =>
      left
      simp only [State.safeSettle, hc]
  | some c =>
      by_cases hlive : c ∈ s.live
      · refine .inr ⟨c, rfl, ?_⟩
        cases he : s.outstanding c d.tag with
        | some e =>
            left
            refine ⟨e, rfl, ?_⟩
            simp only [State.safeSettle, hc, if_pos hlive, he]
        | none =>
            right
            simp only [State.safeSettle, hc, if_pos hlive, he]
      · left
        simp only [State.safeSettle, hc, if_neg hlive]

theorem mem_tasks_finish {no : Nat} {t : Task} : t ∈ (s.finish no).tasks → t ∈ s.tasks :=
  List.mem_of_mem_filter

theorem task_mem {no : Nat} {t : Task} (h : s.task no = some t) : t ∈ s.tasks :=
  List.mem_of_find?_eq_some h

theorem outstanding_mem {c tag : Nat} {e : Delivery} (h : s.outstanding c tag = some e) :
    e ∈ s.deliveries ∧ e.channel = c ∧ e.tag = tag := by
  have hp := List.find?_some h
  simp only [Bool.and_eq_true, decide_eq_true_eq] at hp
  exact ⟨List.mem_of_find?_eq_some h, hp.1.1, hp.1.2⟩

/-- Only a call that runs is answered. -/
theorem step_answer {rt : Runtime} {o : ConsumerOptions} {s' : State} {no : Nat} {r : Outcome}
    (hs : s.step rt o (.answer no r) = some s') :
    ∃ t ∈ s.tasks, s' = s.answered rt o t.delivery r := by
  obtain ⟨t, ht, hs⟩ := Option.bind_eq_some_iff.mp hs
  refine ⟨t, task_mem ht, ?_⟩
  cases hstage : t.stage with
  | running =>
      rw [hstage] at hs
      exact (Option.some_inj.mp hs).symm
  | deadLettering copy =>
      rw [hstage] at hs
      cases hs

/-- Only a dead letter that waits is confirmed. -/
theorem step_confirm {rt : Runtime} {o : ConsumerOptions} {s' : State} {no : Nat} {ok : Bool}
    (hs : s.step rt o (.confirm no ok) = some s') :
    ∃ t ∈ s.tasks, s' = s.confirmed t.delivery ok := by
  obtain ⟨t, ht, hs⟩ := Option.bind_eq_some_iff.mp hs
  refine ⟨t, task_mem ht, ?_⟩
  cases hstage : t.stage with
  | running =>
      rw [hstage] at hs
      cases hs
  | deadLettering copy =>
      rw [hstage] at hs
      exact (Option.some_inj.mp hs).symm

theorem step_openChannels {rt : Runtime} {o : ConsumerOptions} {s' : State} {alive : Bool}
    (hs : s.step rt o (.openChannels alive) = some s') : s' = s.openChannels alive := by
  have hs : (if s.establishing = .connecting then some (s.openChannels alive) else none) =
    some s' := hs
  split at hs
  · exact (Option.some_inj.mp hs).symm
  · cases hs

end

end OpenBms.Messaging
