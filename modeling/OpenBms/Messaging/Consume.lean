/-
# `OpenBms.Messaging.Consume` — a `consume` that fails

`consume` marks the consumer active and then makes its calls, one after the other: two
channels, the topology, the prefetch and the subscription.  Any of them may fail; what
happens between two of them (a shutdown, a reconnection) comes in any order.

| a call fails | what is left |
| :-- | :-- |
| `createChannel`, `createConfirmChannel` | `active` |
| any later one | `active` and both channels |

**Proved here**, over every run.

    the consumer is active from the first `consume` on (`active_of_exec`)
    the channels are held where a later call fails (`channels_held`)
    no failed `consume` leaves the consumer as it was, and
    every later one is rejected (`consume_rejected`)
-/
import OpenBms.Messaging.Consumer

namespace OpenBms.Messaging.Consume

open Runs

/-! ## The fields -/

structure Options extends ConsumerOptions where
  prefetch : Option Nat := none

def DEFAULT_PREFETCH : Nat := 10

def DLX : String := "bms.dlx"

/-- The calls that are awaited. -/
inductive Call where
  | createChannel
  | createConfirmChannel
  | assertExchange (exchange : String)
  | assertQueue (queue : String)
  | bindQueue (queue exchange routingKey : String)
  | prefetch (count : Nat)
  | consume (queue : String)

def assertTopology (options : Options) : List Call :=
  let dlqName := options.queue ++ ".dlq"
  [.assertExchange options.exchange, .assertExchange DLX, .assertQueue options.queue,
    .assertQueue dlqName, .bindQueue options.queue options.exchange options.routingKey,
    .bindQueue dlqName DLX options.routingKey]

/-- The calls after the two channels. -/
def subscribeCalls (options : Options) : List Call :=
  assertTopology options ++
    [.prefetch (options.prefetch.getD DEFAULT_PREFETCH), .consume options.queue]

/-- The calls of `consume`, and of `reestablish`. -/
def setupCalls (options : Options) : List Call :=
  .createChannel :: .createConfirmChannel :: subscribeCalls options

structure ActiveConsume where
  options : Options
  consumeTag : Option Nat

/-- The calls still to be made, and the channel in the local variable. -/
structure Setup where
  left : List Call
  channel : Option Nat := none

/-- `opened` numbers the channels and the subscriptions. -/
structure State where
  opened : Nat := 0
  active : Option ActiveConsume := none
  channel : Option Nat := none
  publishChannel : Option Nat := none
  reconnectRegistered : Bool := false
  phase : Phase := .serving
  consuming : Option Setup := none
  reestablishing : Option Setup := none

inductive ConsumeError where
  | ConsumerClosedError
  | ConsumerAlreadyActiveError
  deriving DecidableEq

inductive Label where
  | consume (options : Options)
  | answer (ok : Bool)
  | reconnect
  | reanswer (ok : Bool)
  | shutdown
  | cancelled
  | drained
  | channelClosed
  | publishClosed
  | connectionClosed

namespace State

variable (s : State)

/-- `consume` up to its first await. -/
def consume (options : Options) : Except ConsumeError State :=
  if s.phase ≠ .serving then .error .ConsumerClosedError
  else if s.active.isSome then .error .ConsumerAlreadyActiveError
  else .ok { s with active := some ⟨options, none⟩, consuming := some ⟨setupCalls options, none⟩ }

/-- What follows a call that succeeds. -/
def succeed (setup : Setup) : Call → State × Setup
  | .createChannel => ({ s with opened := s.opened + 1 }, { setup with channel := some s.opened })
  | .createConfirmChannel =>
      ({ s with
          opened := s.opened + 1
          channel := setup.channel
          publishChannel := some s.opened }, setup)
  | .consume _ =>
      ({ s with
          opened := s.opened + 1
          active := s.active.map fun active => { active with consumeTag := some s.opened } }, setup)
  | .assertExchange _ | .assertQueue _ | .bindQueue _ _ _ | .prefetch _ => (s, setup)

def step : Label → Option State
  | .consume options =>
      match s.consume options with
      | .ok s' => some s'
      | .error _ => some s
  | .answer ok =>
      match s.consuming with
      | none => none
      | some setup =>
          match setup.left with
          | [] => none
          | call :: left =>
              if ok then
                match left with
                | [] =>
                    some { (s.succeed setup call).1 with
                      consuming := none
                      reconnectRegistered := true }
                | next :: rest =>
                    some { (s.succeed setup call).1 with
                      consuming := some { (s.succeed setup call).2 with left := next :: rest } }
              else some { s with consuming := none }
  | .reconnect =>
      match s.active with
      | none => some s
      | some active =>
          if !s.reconnectRegistered || s.reestablishing.isSome || s.phase ≠ .serving then some s
          else some { s with reestablishing := some ⟨setupCalls active.options, none⟩ }
  | .reanswer ok =>
      match s.reestablishing with
      | none => none
      | some setup =>
          match setup.left with
          | [] => some { s with reestablishing := none }
          | call :: left =>
              if ok then
                some { (s.succeed setup call).1 with
                  reestablishing := some { (s.succeed setup call).2 with left := left } }
              else some { s with reestablishing := none }
  | .shutdown => some (if s.phase = .serving then { s with phase := .cancelling } else s)
  | .cancelled => if s.phase = .cancelling then some { s with phase := .draining } else none
  | .drained => if s.phase = .draining then some { s with phase := .closingChannel } else none
  | .channelClosed =>
      if s.phase = .closingChannel then some { s with channel := none, phase := .closingPublish }
      else none
  | .publishClosed =>
      if s.phase = .closingPublish then
        some { s with publishChannel := none, phase := .closingConnection }
      else none
  | .connectionClosed =>
      if s.phase = .closingConnection then some { s with phase := .closed } else none

end State

/-- A consumer that was not used. -/
def fresh : State := {}

/-- As it was: not active, without channels, and to be consumed with again. -/
structure Restored (s : State) : Prop where
  active : s.active = none
  channel : s.channel = none
  publishChannel : s.publishChannel = none
  again : s.phase = .serving → ∀ options, ∃ s', s.consume options = .ok s' ∧
    s'.active = some ⟨options, none⟩

/-! ## The active consume -/

section
variable {s s' : State} {label : Label}

theorem active_succeed (s : State) (setup : Setup) (call : Call) :
    (s.succeed setup call).1.active.isSome = s.active.isSome := by
  cases call with
  | consume queue => exact Option.isSome_map
  | createChannel => rfl
  | createConfirmChannel => rfl
  | assertExchange exchange => rfl
  | assertQueue queue => rfl
  | bindQueue queue exchange routingKey => rfl
  | prefetch count => rfl

theorem consume_cases (s : State) (options : Options) :
    (∃ e, s.consume options = .error e) ∨ s.phase = .serving ∧ s.active = none ∧
      s.consume options = .ok { s with
        active := some ⟨options, none⟩, consuming := some ⟨setupCalls options, none⟩ } := by
  rw [State.consume]
  by_cases hphase : s.phase ≠ .serving
  · rw [if_pos hphase]
    exact .inl ⟨_, rfl⟩
  · rw [if_neg hphase]
    cases hactive : s.active with
    | some active => exact .inl ⟨_, rfl⟩
    | none => exact .inr ⟨not_not.mp hphase, rfl, rfl⟩

theorem active_step (h : s.step label = some s') (hactive : s.active.isSome = true) :
    s'.active.isSome = true := by
  cases label with
  | consume options =>
      rw [State.step] at h
      rcases consume_cases s options with ⟨e, he⟩ | ⟨-, -, hok⟩
      · rw [he] at h
        cases h
        exact hactive
      · rw [hok] at h
        cases h
        rfl
  | answer ok =>
      rw [State.step] at h
      split at h
      · cases h
      · next setup _ =>
        split at h
        · cases h
        · next call left _ =>
          have hkept := (active_succeed s setup call).trans hactive
          split at h
          · split at h
            · cases h
              exact hkept
            · cases h
              exact hkept
          · cases h
            exact hactive
  | reconnect =>
      rw [State.step] at h
      split at h
      · cases h
        exact hactive
      · split at h
        · cases h
          exact hactive
        · cases h
          exact hactive
  | reanswer ok =>
      rw [State.step] at h
      split at h
      · cases h
      · next setup _ =>
        split at h
        · cases h
          exact hactive
        · next call left _ =>
          split at h
          · cases h
            exact (active_succeed s setup call).trans hactive
          · cases h
            exact hactive
  | shutdown =>
      cases h
      split
      · exact hactive
      · exact hactive
  | cancelled =>
      rw [State.step] at h
      split at h
      · cases h
        exact hactive
      · cases h
  | drained =>
      rw [State.step] at h
      split at h
      · cases h
        exact hactive
      · cases h
  | channelClosed =>
      rw [State.step] at h
      split at h
      · cases h
        exact hactive
      · cases h
  | publishClosed =>
      rw [State.step] at h
      split at h
      · cases h
        exact hactive
      · cases h
  | connectionClosed =>
      rw [State.step] at h
      split at h
      · cases h
        exact hactive
      · cases h

theorem active_of_exec {labels : List Label} {t : State}
    (h : exec State.step s labels = some t) (hactive : s.active.isSome = true) :
    t.active.isSome = true := by
  induction labels generalizing s with
  | nil =>
      cases h
      exact hactive
  | cons label labels ih =>
      obtain ⟨s', hstep, hexec⟩ := exec_cons_eq_some.mp h
      exact ih hexec (active_step hstep hactive)

end

/-! ## The channels -/

def Call.creates : Call → Bool
  | .createChannel | .createConfirmChannel => true
  | .assertExchange _ | .assertQueue _ | .bindQueue _ _ _ | .prefetch _ | .consume _ => false

/-- Where the calls of a `consume` have come to, with the channels of the consumer. -/
inductive Placed (channel publishChannel : Option Nat) : Setup → Prop where
  | start (options : Options) : Placed channel publishChannel ⟨setupCalls options, none⟩
  | opened (options : Options) (c : Nat) :
      Placed channel publishChannel ⟨.createConfirmChannel :: subscribeCalls options, some c⟩
  | held {setup : Setup} : (∀ call ∈ setup.left, call.creates = false) → channel.isSome = true →
      publishChannel.isSome = true → Placed channel publishChannel setup

theorem subscribeCalls_creates (options : Options) :
    ∀ call ∈ subscribeCalls options, call.creates = false := by
  intro call hcall
  simp only [subscribeCalls, assertTopology, List.cons_append, List.nil_append, List.mem_cons,
    List.not_mem_nil, or_false] at hcall
  rcases hcall with rfl | rfl | rfl | rfl | rfl | rfl | rfl | rfl <;> rfl

/-- One call of a `consume` that succeeds, and others follow. -/
theorem Placed.succeed {s : State} {setup : Setup} {call next : Call} {rest : List Call}
    (h : Placed s.channel s.publishChannel setup) (hleft : setup.left = call :: next :: rest) :
    Placed (s.succeed setup call).1.channel (s.succeed setup call).1.publishChannel
      { (s.succeed setup call).2 with left := next :: rest } := by
  cases h with
  | start options =>
      obtain ⟨rfl, htail⟩ := List.cons.inj hleft
      rw [← htail]
      exact .opened options s.opened
  | opened options c =>
      obtain ⟨rfl, htail⟩ := List.cons.inj hleft
      rw [← htail]
      exact .held (subscribeCalls_creates options) rfl rfl
  | held hcalls hchannel hpublish =>
      rw [hleft] at hcalls
      have hnot := hcalls call List.mem_cons_self
      have hrest : ∀ c ∈ next :: rest, c.creates = false := fun c hc =>
        hcalls c (List.mem_cons_of_mem _ hc)
      cases call with
      | createChannel => cases hnot
      | createConfirmChannel => cases hnot
      | assertExchange exchange => exact .held hrest hchannel hpublish
      | assertQueue queue => exact .held hrest hchannel hpublish
      | bindQueue queue exchange routingKey => exact .held hrest hchannel hpublish
      | prefetch count => exact .held hrest hchannel hpublish
      | consume queue => exact .held hrest hchannel hpublish

/-- Only one `consume` is ever accepted, and no `reestablish` runs before it has ended. -/
structure Sound (s : State) : Prop where
  idle : s.active.isSome = false →
    s.reconnectRegistered = false ∧ s.reestablishing = none ∧ s.consuming = none
  first : ∀ setup, s.consuming = some setup →
    s.reconnectRegistered = false ∧ s.reestablishing = none
  placed : ∀ setup, s.consuming = some setup → s.phase = .serving →
    Placed s.channel s.publishChannel setup

theorem sound_fresh : Sound fresh :=
  ⟨fun _ => ⟨rfl, rfl, rfl⟩, fun _ h => (nomatch h), fun _ h => (nomatch h)⟩

section
variable {s s' : State} {label : Label}

theorem Sound.active (h : Sound s) {setup : Setup} (hsetup : s.consuming = some setup) :
    s.active.isSome = true := by
  by_contra hnone
  rw [Bool.not_eq_true] at hnone
  rw [(h.idle hnone).2.2] at hsetup
  cases hsetup

theorem sound_of_active (hactive : s.active.isSome = true) (hnone : s.consuming = none) :
    Sound s := by
  refine ⟨fun h => ?_, fun setup h => ?_, fun setup h => ?_⟩
  · rw [hactive] at h
    cases h
  · rw [hnone] at h
    cases h
  · rw [hnone] at h
    cases h

theorem Sound.closing (h : Sound s) (channel publishChannel : Option Nat) {phase : Phase}
    (hphase : phase ≠ .serving) : Sound { s with
      channel := channel, publishChannel := publishChannel, phase := phase } :=
  ⟨h.idle, h.first, fun _ _ hserving => absurd hserving hphase⟩

theorem phase_succeed (s : State) (setup : Setup) (call : Call) :
    (s.succeed setup call).1.phase = s.phase ∧
      (s.succeed setup call).1.reconnectRegistered = s.reconnectRegistered ∧
      (s.succeed setup call).1.reestablishing = s.reestablishing ∧
      (s.succeed setup call).1.consuming = s.consuming := by
  cases call <;> exact ⟨rfl, rfl, rfl, rfl⟩

theorem Sound.answer (h : Sound s) {ok : Bool} (hstep : s.step (.answer ok) = some s') :
    Sound s' := by
  rw [State.step] at hstep
  split at hstep
  · cases hstep
  · next setup hsetup =>
    have hactive := h.active hsetup
    split at hstep
    · cases hstep
    · next call left hleft =>
      have hkept := (active_succeed s setup call).trans hactive
      obtain ⟨hphase, hregistered, hreestablishing, -⟩ := phase_succeed s setup call
      split at hstep
      · split at hstep
        · cases hstep
          exact sound_of_active hkept rfl
        · next next rest =>
          cases hstep
          refine ⟨fun hnone => ?_, fun setup' _ => ?_, fun setup' hsetup' hserving => ?_⟩
          · rw [hkept] at hnone
            cases hnone
          · exact ⟨hregistered.trans (h.first setup hsetup).1,
              hreestablishing.trans (h.first setup hsetup).2⟩
          · cases hsetup'
            exact (h.placed setup hsetup (hphase.symm.trans hserving)).succeed hleft
      · cases hstep
        exact sound_of_active hactive rfl

theorem Sound.step (h : Sound s) (hstep : s.step label = some s') : Sound s' := by
  cases label with
  | consume options =>
      rw [State.step] at hstep
      rcases consume_cases s options with ⟨e, he⟩ | ⟨-, hactive, hok⟩
      · rw [he] at hstep
        cases hstep
        exact h
      · rw [hok] at hstep
        cases hstep
        have hidle := h.idle (by rw [hactive, Option.isSome_none])
        refine ⟨fun hnone => (nomatch hnone), fun _ _ => ⟨hidle.1, hidle.2.1⟩, fun setup hsetup _ => ?_⟩
        cases hsetup
        exact .start options
  | answer ok => exact h.answer hstep
  | reconnect =>
      rw [State.step] at hstep
      split at hstep
      · cases hstep
        exact h
      · next active hactive =>
        split at hstep
        · cases hstep
          exact h
        · next hregistered =>
          cases hstep
          cases hconsuming : s.consuming with
          | none => exact sound_of_active (by rw [hactive, Option.isSome_some]) rfl
          | some setup =>
              rw [(h.first setup hconsuming).1] at hregistered
              exact absurd rfl hregistered
  | reanswer ok =>
      rw [State.step] at hstep
      split at hstep
      · cases hstep
      · next setup hsetup =>
        have hactive : s.active.isSome = true := by
          by_contra hnone
          rw [Bool.not_eq_true] at hnone
          rw [(h.idle hnone).2.1] at hsetup
          cases hsetup
        have hnone : s.consuming = none := by
          cases hconsuming : s.consuming with
          | none => rfl
          | some setup' =>
              rw [(h.first setup' hconsuming).2] at hsetup
              cases hsetup
        split at hstep
        · cases hstep
          exact sound_of_active hactive hnone
        · next call left _ =>
          obtain ⟨-, -, -, hconsuming⟩ := phase_succeed s setup call
          split at hstep
          · cases hstep
            exact sound_of_active ((active_succeed s setup call).trans hactive)
              (hconsuming.trans hnone)
          · cases hstep
            exact sound_of_active hactive hnone
  | shutdown =>
      cases hstep
      split
      · exact h.closing _ _ (by decide)
      · exact h
  | cancelled =>
      rw [State.step] at hstep
      split at hstep
      · cases hstep
        exact h.closing _ _ (by decide)
      · cases hstep
  | drained =>
      rw [State.step] at hstep
      split at hstep
      · cases hstep
        exact h.closing _ _ (by decide)
      · cases hstep
  | channelClosed =>
      rw [State.step] at hstep
      split at hstep
      · cases hstep
        exact h.closing _ _ (by decide)
      · cases hstep
  | publishClosed =>
      rw [State.step] at hstep
      split at hstep
      · cases hstep
        exact h.closing _ _ (by decide)
      · cases hstep
  | connectionClosed =>
      rw [State.step] at hstep
      split at hstep
      · cases hstep
        exact h.closing _ _ (by decide)
      · cases hstep

theorem sound_of_exec {labels : List Label} (h : exec State.step fresh labels = some s) :
    Sound s := by
  have hmeets : ∀ (labels : List Label) (s : State), Meets State.step (fun _ _ => True) s labels := by
    intro labels
    induction labels with
    | nil => exact fun _ => trivial
    | cons label labels ih => exact fun s => ⟨trivial, fun s' _ => ih s'⟩
  exact invariant (fun s label s' hs _ hstep => Sound.step hs hstep) sound_fresh
    (hmeets labels fresh) h

/-! ## A rejected consume -/

/-- What a failed call leaves. -/
theorem answer_false (h : s.step (.answer false) = some s') :
    ∃ setup, s.consuming = some setup ∧ s' = { s with consuming := none } := by
  rw [State.step] at h
  split at h
  · cases h
  · next setup hsetup =>
    split at h
    · cases h
    · cases h
      exact ⟨setup, hsetup, rfl⟩

/-- Where a call after the two channels fails, and nothing is shut down, both are kept. -/
theorem channels_held {labels : List Label} {setup : Setup}
    (h : exec State.step fresh labels = some s) (hsetup : s.consuming = some setup)
    (hserving : s.phase = .serving) (hlater : ∀ call ∈ setup.left, call.creates = false)
    (hfailed : s.step (.answer false) = some s') :
    s'.channel.isSome = true ∧ s'.publishChannel.isSome = true := by
  obtain ⟨-, -, rfl⟩ := answer_false hfailed
  cases (sound_of_exec h).placed setup hsetup hserving with
  | start options => exact nomatch hlater .createChannel List.mem_cons_self
  | opened options c => exact nomatch hlater .createConfirmChannel List.mem_cons_self
  | held _ hchannel hpublish => exact ⟨hchannel, hpublish⟩

/-- A `consume` that is rejected, at whatever call and whatever happened meanwhile, does not leave
the consumer as it was, and every later one is rejected too. -/
theorem consume_rejected {labels : List Label} (h : exec State.step fresh labels = some s)
    (hfailed : s.step (.answer false) = some s') :
    ¬ Restored s' ∧ ∀ later t, exec State.step s' later = some t →
      ∀ options, ∃ e, t.consume options = .error e := by
  obtain ⟨setup, hsetup, rfl⟩ := answer_false hfailed
  have hactive : ({ s with consuming := none } : State).active.isSome = true :=
    (sound_of_exec h).active hsetup
  constructor
  · intro hrestored
    rw [hrestored.active] at hactive
    cases hactive
  · intro later t hexec options
    have hlater := active_of_exec hexec hactive
    rcases consume_cases t options with herror | ⟨-, hnone, -⟩
    · exact herror
    · rw [hnone] at hlater
      cases hlater

end

/-! ## A refused connection -/

def orders : Options := { exchange := "orders", queue := "orders", routingKey := "order.*" }

/-- The consumer while its first call is awaited. -/
def connecting : State :=
  { active := some ⟨orders, none⟩, consuming := some ⟨setupCalls orders, none⟩ }

def refused : State := { active := some ⟨orders, none⟩ }

theorem consume_rejected_refused : ¬ Restored refused ∧
    ∀ later t, exec State.step refused later = some t →
      ∀ options, ∃ e, t.consume options = .error e := by
  have hconnecting : exec State.step fresh [.consume orders] = some connecting := rfl
  have hrefused : connecting.step (.answer false) = some refused := rfl
  exact consume_rejected hconnecting hrefused

/-- The exchange is refused after both channels are open. -/
theorem channels_held_sample :
    ∃ s s', exec State.step fresh [.consume orders, .answer true, .answer true] = some s ∧
      s.step (.answer false) = some s' ∧
      s'.channel.isSome = true ∧ s'.publishChannel.isSome = true := by
  have hexec : exec State.step fresh [.consume orders, .answer true, .answer true] = some _ := rfl
  exact ⟨_, _, hexec, rfl, channels_held hexec rfl rfl (by decide) rfl⟩

theorem not_restored_refused :
    exec State.step fresh [.consume orders, .answer false] = some refused ∧ ¬ Restored refused ∧
      refused.consume orders = .error .ConsumerAlreadyActiveError :=
  ⟨rfl, fun h => (nomatch h.active), rfl⟩

end OpenBms.Messaging.Consume
