/-
# `OpenBms.Messaging.Publisher` — messages that are published on a confirm channel

An `AmqpPublisher` has one channel at a time, the promise of one that is being opened, and
the promises of the exchanges that were asserted on it.  Between two awaits of a call the
channel may be lost, which empties the map of the exchanges, and other calls may open the
next one.  A closed channel throws on every use.

| awaited by a call                        | what follows                                  |
| :--------------------------------------- | :-------------------------------------------- |
| the channel it opens, or another call does | the dead-letter exchange is asserted        |
| the dead-letter exchange                 | the exchange of the message is asserted       |
| the exchange                             | the message is published, or the call is done |
| `waitForConfirms`                        | the call is done                              |

**Proved here.**

    only one channel is open, and the exchanges of the
    map were asserted on it (`Inv`)
    every step keeps this (`step_inv`)
    a call that is done published its message once, on a
    channel with both of its exchanges, and the message
    was confirmed; none is published after `close` (`publish_delivers`)
-/
import OpenBms.Lib.Runs

namespace OpenBms.Messaging.Publish

open Runs

def DLX : String := "bms.dlx"

/-! ## Channels, promises and calls -/

/-- The promise of a channel. -/
inductive Creation where
  | pending
  | opened (channel : Nat)
  | failed
  deriving DecidableEq

inductive Status where
  | pending
  | asserted
  | failed
  deriving DecidableEq

/-- The promise of an exchange that is asserted on a channel. -/
structure Assertion where
  channel : Nat
  exchange : String
  status : Status
  deriving DecidableEq

inductive Kind where
  | publish
  | ensureReady
  deriving DecidableEq

/-- What a call awaits. -/
inductive Pc where
  | creating (creation : Nat)
  | joining (creation : Nat)
  | holding (channel : Nat)
  | assertingDlx (channel assertion : Nat)
  | asserting (channel assertion : Nat)
  | confirming (channel : Nat)
  | resolved
  | rejected
  deriving DecidableEq

structure Call where
  kind : Kind
  exchange : String
  pc : Pc
  deriving DecidableEq

/-- The fields of a publisher; the promises, the channels and the calls by their numbers; and
what was published, with the channel, and confirmed. -/
structure State where
  channel : Option Nat
  channelPromise : Option Nat
  exchangeAssertions : List (String × Nat)
  closed : Bool
  creations : List Creation
  channels : List Bool
  assertions : List Assertion
  calls : List Call
  published : List (Nat × Nat)
  confirmed : List Nat

def State.init : State := ⟨none, none, [], false, [], [], [], [], [], []⟩

namespace State

variable (s : State)

def isOpen (c : Nat) : Prop := s.channels[c]? = some true

instance (c : Nat) : Decidable (s.isOpen c) := inferInstanceAs (Decidable (_ = _))

/-- What `getChannel` awaits. -/
def getChannel : State × Pc :=
  match s.channel with
  | some c => (s, .holding c)
  | none =>
      match s.channelPromise with
      | some k => (s, .joining k)
      | none =>
          ({ s with
              creations := s.creations ++ [.pending]
              channelPromise := some s.creations.length }, .creating s.creations.length)

/-- A call up to its first await; it throws where the publisher is closed, or the payload is
no JSON. -/
def start (kind : Kind) (exchange : String) (serializable : Bool) : State :=
  if s.closed || (kind == .publish && !serializable) then
    { s with calls := s.calls ++ [⟨kind, exchange, .rejected⟩] }
  else
    let (s', pc) := s.getChannel
    { s' with calls := s.calls ++ [⟨kind, exchange, pc⟩] }

def setPc (i : Nat) (pc : Pc) : State :=
  { s with calls := s.calls.modify i fun call => { call with pc := pc } }

/-- The promise of an exchange; `none` where the channel throws. -/
def assertExchange (c : Nat) (exchange : String) : Option (State × Nat) :=
  match s.exchangeAssertions.lookup exchange with
  | some p => some (s, p)
  | none =>
      if s.isOpen c then
        some ({ s with
          assertions := s.assertions ++ [⟨c, exchange, .pending⟩]
          exchangeAssertions := (exchange, s.assertions.length) :: s.exchangeAssertions },
          s.assertions.length)
      else none

/-- A call that has what it awaited: it goes on to its next await. -/
def resume (i : Nat) : Option State := do
  let call ← s.calls[i]?
  match call.pc with
  | .creating k =>
      match s.creations[k]? with
      | some (.opened c) => some ({ s with channel := some c, channelPromise := none }.setPc i (.holding c))
      | some .failed => some ({ s with channelPromise := none }.setPc i .rejected)
      | _ => none
  | .joining k =>
      match s.creations[k]? with
      | some (.opened c) => some (s.setPc i (.holding c))
      | some .failed => some (s.setPc i .rejected)
      | _ => none
  | .holding c =>
      match s.assertExchange c DLX with
      | some (s', p) => some (s'.setPc i (.assertingDlx c p))
      | none => some (s.setPc i .rejected)
  | .assertingDlx c p =>
      match (s.assertions[p]?).map Assertion.status with
      | some .asserted =>
          match s.assertExchange c call.exchange with
          | some (s', q) => some (s'.setPc i (.asserting c q))
          | none => some (s.setPc i .rejected)
      | some .failed => some (s.setPc i .rejected)
      | _ => none
  | .asserting c p =>
      match (s.assertions[p]?).map Assertion.status with
      | some .asserted =>
          match call.kind with
          | .ensureReady => some (s.setPc i .resolved)
          | .publish =>
              if s.isOpen c then
                some ({ s with published := s.published ++ [(i, c)] }.setPc i (.confirming c))
              else some (s.setPc i .rejected)
      | some .failed => some (s.setPc i .rejected)
      | _ => none
  | _ => none

/-- `handleChannelLoss` of a channel. -/
def lose (c : Nat) : State :=
  let s := { s with channels := s.channels.set c false }
  if s.channel = some c then { s with channel := none, exchangeAssertions := [] } else s

/-- `close`; what is left of it closes the channel and the connection. -/
def close : State :=
  if s.closed then s
  else { s with closed := true, channel := none, channelPromise := none, exchangeAssertions := [] }

end State

/-! ## Steps -/

inductive Action where
  | start (kind : Kind) (exchange : String) (serializable : Bool)
  | close
  /-- The broker opens the channel of a creation. -/
  | opened (creation : Nat)
  | failed (creation : Nat)
  | resume (call : Nat)
  /-- The broker answers an assertion. -/
  | asserted (assertion : Nat)
  | refused (assertion : Nat)
  | ack (call : Nat)
  /-- `waitForConfirms` resolves, or rejects. -/
  | confirmed (call : Nat)
  | unconfirmed (call : Nat)
  | lose (channel : Nat)

def step (s : State) : Action → Option State
  | .start kind exchange serializable => some (s.start kind exchange serializable)
  | .close => some s.close
  | .opened k =>
      if s.creations[k]? = some .pending then
        some { s with
          creations := s.creations.set k (.opened s.channels.length)
          channels := s.channels ++ [true] }
      else none
  | .failed k =>
      if s.creations[k]? = some .pending then some { s with creations := s.creations.set k .failed }
      else none
  | .resume i => s.resume i
  | .asserted p =>
      match s.assertions[p]? with
      | some ⟨c, exchange, .pending⟩ =>
          if s.isOpen c then some { s with assertions := s.assertions.set p ⟨c, exchange, .asserted⟩ }
          else none
      | _ => none
  | .refused p =>
      match s.assertions[p]? with
      | some ⟨c, exchange, .pending⟩ =>
          some { s with assertions := s.assertions.set p ⟨c, exchange, .failed⟩ }
      | _ => none
  | .ack i =>
      if s.published.any fun m => m.1 == i then some { s with confirmed := i :: s.confirmed } else none
  | .confirmed i => do
      let call ← s.calls[i]?
      match call.pc with
      | .confirming c =>
          -- it resolves only when every message of the channel has been confirmed
          if s.published.all fun m => m.2 != c || s.confirmed.contains m.1 then
            some (s.setPc i .resolved)
          else none
      | _ => none
  | .unconfirmed i => do
      let call ← s.calls[i]?
      match call.pc with
      | .confirming _ => some (s.setPc i .rejected)
      | _ => none
  | .lose c => if s.isOpen c then some (s.lose c) else none

/-! ## What holds in every state -/

/-- The exchange was asserted on the channel. -/
def State.Asserted (s : State) (c : Nat) (exchange : String) : Prop :=
  ⟨c, exchange, .asserted⟩ ∈ s.assertions

/-- The promise is of the exchange, and of the channel if that is open. -/
def State.Promises (s : State) (c p : Nat) (exchange : String) : Prop :=
  ∃ a, s.assertions[p]? = some a ∧ a.exchange = exchange ∧ (s.isOpen c → a.channel = c)

/-- How often a call published. -/
def State.sent (s : State) (i : Nat) : List (Nat × Nat) := s.published.filter fun m => m.1 == i

/-- What a call has done by its next await. -/
def State.Good (s : State) (i : Nat) (call : Call) : Prop :=
  match call.pc with
  | .creating k => k < s.creations.length ∧ s.sent i = [] ∧ (s.closed = true ∨ s.channelPromise = some k)
  | .joining k => k < s.creations.length ∧ s.sent i = []
  | .holding c => c < s.channels.length ∧ s.sent i = []
  | .assertingDlx c p => c < s.channels.length ∧ s.sent i = [] ∧ s.Promises c p DLX
  | .asserting c p => c < s.channels.length ∧ s.sent i = [] ∧ s.Promises c p call.exchange ∧
      (s.isOpen c → s.Asserted c DLX)
  | .confirming c => s.sent i = [(i, c)]
  | .resolved => call.kind = .publish → ∃ c, s.sent i = [(i, c)] ∧ i ∈ s.confirmed
  | .rejected => True

/-- One channel is open at most, that of the publisher or the one that is about to be; the
exchanges were asserted on it; and no channel is open while one is being opened. -/
structure Net (s : State) : Prop where
  one : ∀ c c', s.isOpen c → s.isOpen c' → c = c'
  map : ∀ e ∈ s.exchangeAssertions, ∃ a, s.assertions[e.2]? = some a ∧ a.exchange = e.1 ∧
    ∀ c, s.isOpen c → a.channel = c
  current : ∀ c, s.isOpen c → s.closed = true ∨ s.channel = some c ∨
    ∃ k, s.channelPromise = some k ∧ s.creations[k]? = some (.opened c)
  promise : ∀ k, s.channelPromise = some k → k < s.creations.length ∧ s.channel = none
  pending : ∀ k : Nat, s.creations[k]? = some .pending → (s.closed = true ∨ s.channelPromise = some k) ∧
    (∀ c, ¬ s.isOpen c) ∧ s.exchangeAssertions = []
  single : ∀ k k' : Nat, s.creations[k]? = some .pending → s.creations[k']? = some .pending → k = k'
  empty : s.closed = false → s.channel = none →
    (∀ k c, s.channelPromise = some k → s.creations[k]? ≠ some (.opened c)) → s.exchangeAssertions = []
  channel : ∀ c, s.channel = some c → c < s.channels.length
  opened : ∀ (k : Nat) c, s.creations[k]? = some (.opened c) → c < s.channels.length

/-- Each call has done what it has to by its await; a channel is opened by one call; and what
was published, was published by a call, on a channel with both of its exchanges. -/
structure Inv (s : State) : Prop where
  net : Net s
  calls : ∀ (i : Nat) call, s.calls[i]? = some call → s.Good i call
  creator : ∀ (i j : Nat) call other k, s.calls[i]? = some call → s.calls[j]? = some other →
    call.pc = .creating k → other.pc = .creating k → i = j
  sent : ∀ m ∈ s.published, ∃ call, s.calls[m.1]? = some call ∧ s.Asserted m.2 DLX ∧
    s.Asserted m.2 call.exchange

/-! ## States that go on -/

/-- What a step leaves of the channels and the promises there were. -/
structure Grows (s s' : State) : Prop where
  creations : s.creations.length ≤ s'.creations.length
  channels : s.channels.length ≤ s'.channels.length
  isOpen : ∀ c, c < s.channels.length → s'.isOpen c → s.isOpen c
  assertions : ∀ (p : Nat) a, s.assertions[p]? = some a → ∃ a', s'.assertions[p]? = some a' ∧
    a'.channel = a.channel ∧ a'.exchange = a.exchange
  asserted : ∀ c e, s.Asserted c e → s'.Asserted c e
  confirmed : ∀ i ∈ s.confirmed, i ∈ s'.confirmed

section
variable {s s' : State}

theorem Grows.promises (g : Grows s s') {c p : Nat} {e : String} (hc : c < s.channels.length)
    (h : s.Promises c p e) : s'.Promises c p e := by
  obtain ⟨a, ha, he, hopen⟩ := h
  obtain ⟨a', ha', hchannel, hexchange⟩ := g.assertions p a ha
  refine ⟨a', ha', hexchange.trans he, fun hc' => ?_⟩
  rw [hchannel]
  exact hopen (g.isOpen c hc hc')

/-- A call has still done what it had done. -/
theorem Grows.good (g : Grows s s') {i : Nat} {call : Call} (hsent : s'.sent i = s.sent i)
    (hcreating : ∀ k, call.pc = .creating k → s.closed = true ∨ s.channelPromise = some k →
      s'.closed = true ∨ s'.channelPromise = some k) (h : s.Good i call) : s'.Good i call := by
  rw [State.Good] at h ⊢
  cases hpc : call.pc with
  | creating k =>
      rw [hpc] at h
      exact ⟨h.1.trans_le g.creations, hsent.trans h.2.1, hcreating k hpc h.2.2⟩
  | joining k =>
      rw [hpc] at h
      exact ⟨h.1.trans_le g.creations, hsent.trans h.2⟩
  | holding c =>
      rw [hpc] at h
      exact ⟨h.1.trans_le g.channels, hsent.trans h.2⟩
  | assertingDlx c p =>
      rw [hpc] at h
      exact ⟨h.1.trans_le g.channels, hsent.trans h.2.1, g.promises h.1 h.2.2⟩
  | asserting c p =>
      rw [hpc] at h
      exact ⟨h.1.trans_le g.channels, hsent.trans h.2.1, g.promises h.1 h.2.2.1,
        fun hc => g.asserted c DLX (h.2.2.2 (g.isOpen c h.1 hc))⟩
  | confirming c =>
      rw [hpc] at h
      exact hsent.trans h
  | resolved =>
      rw [hpc] at h
      intro hkind
      obtain ⟨c, hone, hmem⟩ := h hkind
      exact ⟨c, hsent.trans hone, g.confirmed i hmem⟩
  | rejected => trivial

theorem Inv.next (h : Inv s) (g : Grows s s') (hnet : Net s') (hcalls : s'.calls = s.calls)
    (hpublished : s'.published = s.published)
    (hcreating : ∀ (i : Nat) call k, s.calls[i]? = some call → call.pc = .creating k →
      s.closed = true ∨ s.channelPromise = some k → s'.closed = true ∨ s'.channelPromise = some k) :
    Inv s' where
  net := hnet
  calls i call hcall := by
    rw [hcalls] at hcall
    have hsent : s'.sent i = s.sent i := by
      rw [State.sent, hpublished]
      rfl
    exact g.good hsent (fun k hk => hcreating i call k hcall hk) (h.calls i call hcall)
  creator := by
    rw [hcalls]
    exact h.creator
  sent m hm := by
    rw [hpublished] at hm
    obtain ⟨call, hcall, hdlx, hexchange⟩ := h.sent m hm
    exact ⟨call, hcalls ▸ hcall, g.asserted _ _ hdlx, g.asserted _ _ hexchange⟩

/-- A call goes on to another await. -/
theorem Inv.setPc (h : Inv s) (i : Nat) (pc : Pc) (hpc : ∀ k, pc ≠ .creating k)
    (hgood : ∀ call, s.calls[i]? = some call → s.Good i { call with pc := pc }) : Inv (s.setPc i pc) := by
  have hget : ∀ (j : Nat) call, (s.setPc i pc).calls[j]? = some call → ∃ old, s.calls[j]? = some old ∧
      call.exchange = old.exchange ∧ ((j ≠ i ∧ call = old) ∨ (j = i ∧ call = { old with pc := pc })) := by
    intro j call hj
    rw [State.setPc, List.getElem?_modify, Option.map_eq_map, Option.map_eq_some_iff] at hj
    obtain ⟨old, hold, rfl⟩ := hj
    refine ⟨old, hold, ?_, ?_⟩
    · split
      · rfl
      · rfl
    · split
      · rename_i heq
        exact .inr ⟨heq.symm, rfl⟩
      · rename_i hne
        exact .inl ⟨fun heq => hne heq.symm, rfl⟩
  refine ⟨⟨h.net.one, h.net.map, h.net.current, h.net.promise, h.net.pending, h.net.single,
    h.net.empty, h.net.channel, h.net.opened⟩, fun j call hj => ?_, fun j j' call other k hj hj' hk hk' => ?_,
    fun m hm => ?_⟩
  · obtain ⟨old, hold, -, ⟨-, rfl⟩ | ⟨rfl, rfl⟩⟩ := hget j call hj
    · exact h.calls j call hold
    · exact hgood old hold
  · obtain ⟨old, hold, -, ⟨-, rfl⟩ | ⟨-, rfl⟩⟩ := hget j call hj
    · obtain ⟨old', hold', -, ⟨-, rfl⟩ | ⟨-, rfl⟩⟩ := hget j' other hj'
      · exact h.creator j j' call other k hold hold' hk hk'
      · exact absurd hk' (hpc k)
    · exact absurd hk (hpc k)
  · obtain ⟨call, hcall, hdlx, hexchange⟩ := h.sent m hm
    refine ⟨if i = m.1 then { call with pc := pc } else call, ?_, hdlx, ?_⟩
    · rw [State.setPc, List.getElem?_modify, hcall]
      rfl
    · split
      · exact hexchange
      · exact hexchange

theorem Inv.addCall (h : Inv s) (call : Call) (hgood : s.Good s.calls.length call)
    (hcreator : ∀ (i : Nat) other k, s.calls[i]? = some other → other.pc = .creating k →
      call.pc ≠ .creating k) : Inv { s with calls := s.calls ++ [call] } := by
  have hget : ∀ (j : Nat) other, (s.calls ++ [call])[j]? = some other →
      s.calls[j]? = some other ∨ (j = s.calls.length ∧ other = call) := by
    intro j other hj
    rw [List.getElem?_append] at hj
    split at hj
    · exact .inl hj
    · rename_i hge
      rw [List.getElem?_singleton] at hj
      split at hj
      · rename_i heq
        cases hj
        exact .inr ⟨by omega, rfl⟩
      · cases hj
  refine ⟨⟨h.net.one, h.net.map, h.net.current, h.net.promise, h.net.pending, h.net.single,
    h.net.empty, h.net.channel, h.net.opened⟩, fun j other hj => ?_,
    fun j j' other other' k hj hj' hk hk' => ?_, fun m hm => ?_⟩
  · rcases hget j other hj with hj | ⟨rfl, rfl⟩
    · exact h.calls j other hj
    · exact hgood
  · rcases hget j other hj with hold | ⟨rfl, rfl⟩
    · rcases hget j' other' hj' with hold' | ⟨rfl, rfl⟩
      · exact h.creator j j' other other' k hold hold' hk hk'
      · exact absurd hk' (hcreator j other k hold hk)
    · rcases hget j' other' hj' with hold' | ⟨rfl, rfl⟩
      · exact absurd hk (hcreator j' other' k hold' hk')
      · rfl
  · obtain ⟨other, hother, hsent⟩ := h.sent m hm
    have hlt : m.1 < s.calls.length := (List.getElem?_eq_some_iff.mp hother).1
    exact ⟨other, (List.getElem?_append_left hlt).trans hother, hsent⟩

theorem Inv.sent_new (h : Inv s) : s.sent s.calls.length = [] := by
  refine List.filter_eq_nil_iff.mpr fun m hm heq => ?_
  obtain ⟨call, hcall, -⟩ := h.sent m hm
  have hlt := (List.getElem?_eq_some_iff.mp hcall).1
  rw [beq_iff_eq] at heq
  omega

/-! ## The calls begin -/

theorem Net.none_open (h : Net s) (hclosed : s.closed = false) (hchannel : s.channel = none)
    (hpromise : s.channelPromise = none) (c : Nat) : ¬ s.isOpen c := by
  intro hc
  rcases h.current c hc with hcl | hch | ⟨k, hk, -⟩
  · rw [hclosed] at hcl
    cases hcl
  · rw [hchannel] at hch
    cases hch
  · rw [hpromise] at hk
    cases hk

theorem Net.none_pending (h : Net s) (hclosed : s.closed = false) (hpromise : s.channelPromise = none)
    (k : Nat) : s.creations[k]? ≠ some .pending := by
  intro hk
  rcases (h.pending k hk).1 with hcl | hpr
  · rw [hclosed] at hcl
    cases hcl
  · rw [hpromise] at hpr
    cases hpr

theorem Inv.create (h : Inv s) (hclosed : s.closed = false) (hchannel : s.channel = none)
    (hpromise : s.channelPromise = none) :
    Inv { s with
      creations := s.creations ++ [.pending]
      channelPromise := some s.creations.length } := by
  have hopen := h.net.none_open hclosed hchannel hpromise
  have hpending := h.net.none_pending hclosed hpromise
  have hget : ∀ (k : Nat) v, (s.creations ++ [Creation.pending])[k]? = some v →
      s.creations[k]? = some v ∨ (k = s.creations.length ∧ v = .pending) := by
    intro k v hk
    rw [List.getElem?_append] at hk
    split at hk
    · exact .inl hk
    · rw [List.getElem?_singleton] at hk
      split at hk
      · cases hk
        exact .inr ⟨by omega, rfl⟩
      · cases hk
  have hmap : s.exchangeAssertions = [] := by
    refine h.net.empty hclosed hchannel fun k c hk => ?_
    rw [hpromise] at hk
    cases hk
  have hnew : ∀ k : Nat, (s.creations ++ [Creation.pending])[k]? = some .pending →
      k = s.creations.length := by
    intro k hk
    rcases hget k _ hk with hk | ⟨rfl, -⟩
    · exact absurd hk (hpending k)
    · rfl
  refine h.next ⟨?_, le_refl _, fun _ _ hc => hc, fun p a ha => ⟨a, ha, rfl, rfl⟩,
    fun _ _ ha => ha, fun _ hi => hi⟩ ⟨h.net.one, h.net.map, fun c hc => absurd hc (hopen c),
    fun k hk => ?_, fun k hk => ?_, fun k k' hk hk' => ?_, fun _ _ _ => hmap, h.net.channel,
    fun k c hk => ?_⟩ rfl rfl fun i call k hcall hpc hor => ?_
  · rw [List.length_append]
    exact Nat.le_add_right _ _
  · cases hk
    rw [List.length_append]
    exact ⟨Nat.lt_succ_self _, hchannel⟩
  · exact ⟨.inr (hnew k hk ▸ rfl), hopen, hmap⟩
  · exact (hnew k hk).trans (hnew k' hk').symm
  · rcases hget k _ hk with hk | ⟨-, heq⟩
    · exact h.net.opened k c hk
    · cases heq
  · rcases hor with hcl | hpr
    · rw [hclosed] at hcl
      cases hcl
    · rw [hpromise] at hpr
      cases hpr

theorem inv_start (h : Inv s) (kind : Kind) (exchange : String) (serializable : Bool) :
    Inv (s.start kind exchange serializable) := by
  rw [State.start]
  split
  · exact h.addCall _ trivial fun i other k _ _ hpc => (nomatch hpc)
  · rename_i hgo
    rw [Bool.not_eq_true, Bool.or_eq_false_iff] at hgo
    rw [State.getChannel]
    cases hchannel : s.channel with
    | some c =>
        exact h.addCall _ ⟨h.net.channel c hchannel, h.sent_new⟩ fun i other k _ _ hpc => (nomatch hpc)
    | none =>
        cases hpromise : s.channelPromise with
        | some k =>
            exact h.addCall _ ⟨(h.net.promise k hpromise).1, h.sent_new⟩
              fun i other k _ _ hpc => (nomatch hpc)
        | none =>
            have hcreate := h.create hgo.1 hchannel hpromise
            rw [hchannel] at hcreate
            refine hcreate.addCall ⟨kind, exchange, .creating s.creations.length⟩
              ⟨?_, h.sent_new, .inr rfl⟩ fun i other k hi hpc hnew => ?_
            · rw [List.length_append]
              exact Nat.lt_succ_self _
            · -- no other call opens a channel that is not promised
              have hgood := h.calls i other hi
              rw [State.Good, hpc] at hgood
              rcases hgood.2.2 with hcl | hpr
              · rw [hgo.1] at hcl
                cases hcl
              · rw [hpromise] at hpr
                cases hpr

/-! ## The channels -/

theorem inv_close (h : Inv s) : Inv s.close := by
  rw [State.close]
  split
  · exact h
  · exact h.next ⟨le_refl _, le_refl _, fun _ _ hc => hc, fun p a ha => ⟨a, ha, rfl, rfl⟩,
      fun _ _ ha => ha, fun _ hi => hi⟩ ⟨h.net.one, fun _ he => (nomatch he), fun _ _ => .inl rfl,
      fun _ hk => (nomatch hk), fun k hk => ⟨.inl rfl, (h.net.pending k hk).2.1, rfl⟩, h.net.single,
      fun _ _ _ => rfl, fun _ hc => (nomatch hc), h.net.opened⟩ rfl rfl fun _ _ _ _ _ _ => .inl rfl

theorem isOpen_append (s : State) {c : Nat} (h : (s.channels ++ [true])[c]? = some true) :
    s.isOpen c ∨ c = s.channels.length := by
  rw [List.getElem?_append] at h
  split at h
  · exact .inl h
  · rw [List.getElem?_singleton] at h
    split at h
    · exact .inr (by omega)
    · cases h

theorem getElem?_set_cases {α : Type} {l : List α} {i j : Nat} {v w : α} (h : (l.set i v)[j]? = some w) :
    (j = i ∧ w = v) ∨ (j ≠ i ∧ l[j]? = some w) := by
  rw [List.getElem?_set] at h
  split at h
  · rename_i heq
    split at h
    · cases h
      exact .inl ⟨heq.symm, rfl⟩
    · cases h
  · rename_i hne
    exact .inr ⟨fun heq => hne heq.symm, h⟩

theorem inv_opened (h : Inv s) {k : Nat} (hk : s.creations[k]? = some .pending) :
    Inv { s with
      creations := s.creations.set k (.opened s.channels.length)
      channels := s.channels ++ [true] } := by
  obtain ⟨hpromised, hopen, hmap⟩ := h.net.pending k hk
  have hnew : ∀ c, (s.channels ++ [true])[c]? = some true → c = s.channels.length :=
    fun c hc => (isOpen_append s hc).resolve_left (hopen c)
  have hnone : ∀ k' : Nat, (s.creations.set k (.opened s.channels.length))[k']? ≠ some .pending := by
    intro k' hk'
    rcases getElem?_set_cases hk' with ⟨-, heq⟩ | ⟨hne, hk'⟩
    · cases heq
    · exact hne (h.net.single k' k hk' hk)
  refine h.next ⟨?_, ?_, fun c hlt hc => ?_, fun p a ha => ⟨a, ha, rfl, rfl⟩, fun _ _ ha => ha,
    fun _ hi => hi⟩ ⟨fun c c' hc hc' => ?_, fun e he => ?_, fun c hc => ?_, fun k' hk' => ?_,
    fun k' hk' => absurd hk' (hnone k'), fun k' _ hk' _ => absurd hk' (hnone k'), fun _ _ _ => hmap,
    fun c hc => ?_, fun k' c hk' => ?_⟩ rfl rfl fun _ _ _ _ _ hor => hor
  · rw [List.length_set]
  · rw [List.length_append]
    exact Nat.le_add_right _ _
  · exact (isOpen_append s hc).resolve_right (Nat.ne_of_lt hlt)
  · exact (hnew c hc).trans (hnew c' hc').symm
  · rw [hmap] at he
    cases he
  · rcases hpromised with hcl | hpr
    · exact .inl hcl
    · refine .inr (.inr ⟨k, hpr, ?_⟩)
      rw [hnew c hc]
      exact List.getElem?_set_self (List.getElem?_eq_some_iff.mp hk).1
  · rw [List.length_set]
    exact h.net.promise k' hk'
  · rw [List.length_append]
    exact Nat.lt_succ_of_lt (h.net.channel c hc)
  · rw [List.length_append]
    rcases getElem?_set_cases hk' with ⟨-, heq⟩ | ⟨-, hk'⟩
    · cases heq
      exact Nat.lt_succ_self _
    · exact Nat.lt_succ_of_lt (h.net.opened k' c hk')

theorem inv_failed (h : Inv s) {k : Nat} (hk : s.creations[k]? = some .pending) :
    Inv { s with creations := s.creations.set k .failed } := by
  obtain ⟨-, hopen, hmap⟩ := h.net.pending k hk
  refine h.next ⟨?_, le_refl _, fun _ _ hc => hc, fun p a ha => ⟨a, ha, rfl, rfl⟩, fun _ _ ha => ha,
    fun _ hi => hi⟩ ⟨h.net.one, h.net.map, fun c hc => absurd hc (hopen c), fun k' hk' => ?_,
    fun k' hk' => ?_, fun k' k'' hk' hk'' => ?_, fun _ _ _ => hmap, h.net.channel, fun k' c hk' => ?_⟩
    rfl rfl fun _ _ _ _ _ hor => hor
  · rw [List.length_set]
  · rw [List.length_set]
    exact h.net.promise k' hk'
  · rcases getElem?_set_cases hk' with ⟨-, heq⟩ | ⟨-, hk'⟩
    · cases heq
    · exact h.net.pending k' hk'
  · rcases getElem?_set_cases hk' with ⟨-, heq⟩ | ⟨hne, hk'⟩
    · cases heq
    · exact absurd (h.net.single k' k hk' hk) hne
  · rcases getElem?_set_cases hk' with ⟨-, heq⟩ | ⟨-, hk'⟩
    · cases heq
    · exact h.net.opened k' c hk'

theorem inv_lose (h : Inv s) {c : Nat} (hc : s.isOpen c) : Inv (s.lose c) := by
  have hnone : ∀ c' : Nat, (s.channels.set c false)[c']? ≠ some true := by
    intro c' hc'
    rcases getElem?_set_cases hc' with ⟨-, heq⟩ | ⟨hne, hc'⟩
    · cases heq
    · exact hne (h.net.one c' c hc' hc)
  have hpending : ∀ k : Nat, s.creations[k]? ≠ some .pending :=
    fun k hk => (h.net.pending k hk).2.1 c hc
  have hlen : (s.channels.set c false).length = s.channels.length := List.length_set
  rw [State.lose]
  dsimp only
  split
  · refine h.next ⟨le_refl _, hlen.ge, fun c' _ hc' => absurd hc' (hnone c'),
      fun p a ha => ⟨a, ha, rfl, rfl⟩, fun _ _ ha => ha, fun _ hi => hi⟩
      ⟨fun c' _ hc' => absurd hc' (hnone c'), fun _ he => (nomatch he),
        fun c' hc' => absurd hc' (hnone c'), fun k hk => ⟨(h.net.promise k hk).1, rfl⟩,
        fun k hk => absurd hk (hpending k), h.net.single, fun _ _ _ => rfl, fun _ hc => (nomatch hc),
        fun k c' hk => hlen ▸ h.net.opened k c' hk⟩ rfl rfl fun _ _ _ _ _ hor => hor
  · refine h.next ⟨le_refl _, hlen.ge, fun c' _ hc' => absurd hc' (hnone c'),
      fun p a ha => ⟨a, ha, rfl, rfl⟩, fun _ _ ha => ha, fun _ hi => hi⟩
      ⟨fun c' _ hc' => absurd hc' (hnone c'), fun e he => ?_,
        fun c' hc' => absurd hc' (hnone c'), h.net.promise,
        fun k hk => absurd hk (hpending k), h.net.single, h.net.empty,
        fun c' hc' => hlen ▸ h.net.channel c' hc',
        fun k c' hk => hlen ▸ h.net.opened k c' hk⟩ rfl rfl fun _ _ _ _ _ hor => hor
    obtain ⟨a, ha, hexchange, -⟩ := h.net.map e he
    exact ⟨a, ha, hexchange, fun c' hc' => absurd hc' (hnone c')⟩

/-! ## The exchanges -/

theorem inv_answer (h : Inv s) {p c : Nat} {exchange : String} {status : Status}
    (hp : s.assertions[p]? = some ⟨c, exchange, .pending⟩) :
    Inv { s with assertions := s.assertions.set p ⟨c, exchange, status⟩ } := by
  have hlt := (List.getElem?_eq_some_iff.mp hp).1
  have hkeep : ∀ (q : Nat) a, s.assertions[q]? = some a →
      ∃ a', (s.assertions.set p ⟨c, exchange, status⟩)[q]? = some a' ∧ a'.channel = a.channel ∧
        a'.exchange = a.exchange := by
    intro q a ha
    rcases Decidable.em (p = q) with rfl | hne
    · rw [hp] at ha
      cases ha
      exact ⟨_, List.getElem?_set_self hlt, rfl, rfl⟩
    · exact ⟨a, (List.getElem?_set_ne hne).trans ha, rfl, rfl⟩
  refine h.next ⟨le_refl _, le_refl _, fun _ _ hc => hc, hkeep, fun c' e ha => ?_, fun _ hi => hi⟩
    ⟨h.net.one, fun e he => ?_, h.net.current, h.net.promise, h.net.pending, h.net.single, h.net.empty,
      h.net.channel, h.net.opened⟩ rfl rfl fun _ _ _ _ _ hor => hor
  · obtain ⟨q, hq⟩ := List.mem_iff_getElem?.mp ha
    have hne : p ≠ q := by
      rintro rfl
      rw [hp] at hq
      cases hq
    exact List.mem_of_getElem? ((List.getElem?_set_ne hne).trans hq)
  · obtain ⟨a, ha, hexchange, hopen⟩ := h.net.map e he
    obtain ⟨a', ha', hchannel', hexchange'⟩ := hkeep _ a ha
    exact ⟨a', ha', hexchange'.trans hexchange, fun c' hc' => hchannel'.trans (hopen c' hc')⟩

theorem assertExchange_spec (h : Inv s) {c p : Nat} {exchange : String}
    (hp : s.assertExchange c exchange = some (s', p)) :
    Inv s' ∧ s'.Promises c p exchange ∧ s'.calls = s.calls ∧ s'.channels = s.channels ∧
      s'.published = s.published ∧ ∀ c' e, s.Asserted c' e → s'.Asserted c' e := by
  rw [State.assertExchange] at hp
  split at hp
  · rename_i q hlookup
    cases hp
    obtain ⟨l₁, l₂, hl, -⟩ := List.lookup_eq_some_iff.mp hlookup
    have hmem : (exchange, p) ∈ s.exchangeAssertions :=
      hl ▸ List.mem_append_right l₁ List.mem_cons_self
    obtain ⟨a, ha, hexchange, hopen⟩ := h.net.map _ hmem
    exact ⟨h, ⟨a, ha, hexchange, fun hc => hopen c hc⟩, rfl, rfl, rfl, fun _ _ ha => ha⟩
  · split at hp
    · rename_i hc
      cases hp
      have hlast : (s.assertions ++ [⟨c, exchange, .pending⟩])[s.assertions.length]? =
          some ⟨c, exchange, .pending⟩ := List.getElem?_concat_length
      have hkeep : ∀ (q : Nat) a, s.assertions[q]? = some a →
          (s.assertions ++ [⟨c, exchange, .pending⟩])[q]? = some a :=
        fun q a ha => (List.getElem?_append_left (List.getElem?_eq_some_iff.mp ha).1).trans ha
      refine ⟨h.next ⟨le_refl _, le_refl _, fun _ _ hc => hc, fun q a ha => ⟨a, hkeep q a ha, rfl, rfl⟩,
        fun _ _ ha => List.mem_append_left _ ha, fun _ hi => hi⟩ ⟨h.net.one, fun e he => ?_,
        h.net.current, h.net.promise, fun k hk => absurd hc ((h.net.pending k hk).2.1 c), h.net.single,
        fun hclosed hchannel hnone => ?_, h.net.channel, h.net.opened⟩ rfl rfl fun _ _ _ _ _ hor => hor,
        ⟨_, hlast, rfl, fun _ => rfl⟩, rfl, rfl, rfl, fun _ _ ha => List.mem_append_left _ ha⟩
      · rcases List.mem_cons.mp he with rfl | he
        · exact ⟨_, hlast, rfl, fun c' hc' => h.net.one c c' hc hc'⟩
        · obtain ⟨a, ha, hexchange, hopen⟩ := h.net.map e he
          exact ⟨a, hkeep _ a ha, hexchange, hopen⟩
      · -- the channel is open, so it is the publisher's or is about to be
        rcases h.net.current c hc with hcl | hch | ⟨k, hk, hopened⟩
        · rw [hclosed] at hcl
          cases hcl
        · rw [hchannel] at hch
          cases hch
        · exact absurd hopened (hnone k c hk)
    · cases hp

/-! ## The calls go on -/

theorem inv_confirmed (h : Inv s) {i c : Nat} {call : Call} (hcall : s.calls[i]? = some call)
    (hpc : call.pc = .confirming c)
    (hall : s.published.all (fun m => m.2 != c || s.confirmed.contains m.1) = true) :
    Inv (s.setPc i .resolved) := by
  refine h.setPc i _ (fun k hk => nomatch hk) fun other hother _ => ?_
  rw [hcall] at hother
  cases hother
  have hgood := h.calls i call hcall
  rw [State.Good, hpc] at hgood
  have hmem : (i, c) ∈ s.published := by
    have hsent : (i, c) ∈ s.sent i := hgood ▸ List.mem_singleton_self _
    exact (List.mem_filter.mp hsent).1
  have hconfirmed := List.all_eq_true.mp hall (i, c) hmem
  rw [Bool.or_eq_true, bne_self_eq_false, List.contains_iff_mem] at hconfirmed
  exact ⟨c, hgood, hconfirmed.resolve_left Bool.false_ne_true⟩

theorem Inv.reject (h : Inv s) (i : Nat) : Inv (s.setPc i .rejected) :=
  h.setPc i _ (fun _ hk => nomatch hk) fun _ _ => trivial

theorem Inv.created (h : Inv s) {i k : Nat} {call : Call} (hcall : s.calls[i]? = some call)
    (hpc : call.pc = .creating k) {channel : Option Nat} {pc : Pc} (hpcs : ∀ k, pc ≠ .creating k)
    (hgood : s.Good i { call with pc := pc })
    (hsettled : (channel = s.channel ∧ s.creations[k]? = some .failed) ∨
      ∃ c, channel = some c ∧ s.creations[k]? = some (.opened c)) :
    Inv ({ s with channel := channel, channelPromise := none }.setPc i pc) := by
  have hpromised : s.closed = true ∨ s.channelPromise = some k := by
    have hstate := h.calls i call hcall
    rw [State.Good, hpc] at hstate
    exact hstate.2.2
  have hnot : s.creations[k]? ≠ some .pending := by
    rcases hsettled with ⟨-, heq⟩ | ⟨c, -, heq⟩
    · rw [heq]
      exact fun hfalse => nomatch hfalse
    · rw [heq]
      exact fun hfalse => nomatch hfalse
  have hset : Inv (s.setPc i pc) := by
    refine h.setPc i pc hpcs fun other hother => ?_
    rw [hcall] at hother
    cases hother
    exact hgood
  have hclosed : ∀ k' : Nat, s.creations[k']? = some .pending → s.closed = true := by
    intro k' hk'
    rcases hpromised with hcl | hpr
    · exact hcl
    · rcases (h.net.pending k' hk').1 with hcl | hpr'
      · exact hcl
      · rw [hpr] at hpr'
        cases hpr'
        exact absurd hk' hnot
  have hnet : Net { s.setPc i pc with channel := channel, channelPromise := none } := by
    refine ⟨h.net.one, h.net.map, fun c hc => ?_, fun _ hk => (nomatch hk),
      fun k' hk' => ⟨.inl (hclosed k' hk'), (h.net.pending k' hk').2⟩, h.net.single,
      fun hopen hchannel _ => ?_, fun c hc => ?_, h.net.opened⟩
    · rcases hpromised with hcl | hpr
      · exact .inl hcl
      · rcases h.net.current c hc with hcl | hch | ⟨k', hk', hopened⟩
        · exact .inl hcl
        · rw [(h.net.promise k hpr).2] at hch
          cases hch
        · rw [hpr] at hk'
          cases hk'
          rcases hsettled with ⟨-, heq⟩ | ⟨c', rfl, heq⟩
          · rw [heq] at hopened
            cases hopened
          · rw [heq] at hopened
            cases hopened
            exact .inr (.inl rfl)
    · rcases hsettled with ⟨rfl, heq⟩ | ⟨c, rfl, -⟩
      · refine h.net.empty hopen hchannel fun k' c hk' hopened => ?_
        rcases hpromised with hcl | hpr
        · rw [show s.closed = false from hopen] at hcl
          cases hcl
        · rw [hpr] at hk'
          cases hk'
          rw [heq] at hopened
          cases hopened
      · cases hchannel
    · rcases hsettled with ⟨rfl, -⟩ | ⟨c', rfl, heq⟩
      · exact h.net.channel c hc
      · cases hc
        exact h.net.opened k c heq
  refine hset.next ⟨le_refl _, le_refl _, fun _ _ hc => hc, fun p a ha => ⟨a, ha, rfl, rfl⟩,
    fun _ _ ha => ha, fun _ hi => hi⟩ hnet rfl rfl fun j other k' hother hk' hor => ?_
  -- no other call opens the channel that was promised
  rcases hor with hcl | hpr
  · exact .inl hcl
  · rcases hpromised with hcl | hpr'
    · exact .inl hcl
    · have hkk : k' = k := Option.some_inj.mp (hpr.symm.trans hpr')
      rw [State.setPc, List.getElem?_modify, Option.map_eq_map, Option.map_eq_some_iff] at hother
      obtain ⟨old, hold, heq⟩ := hother
      split at heq
      · rw [← heq] at hk'
        exact absurd hk' (hpcs k')
      · rename_i hne
        rw [← heq, hkk] at hk'
        exact absurd (h.creator i j call old k hcall hold hpc hk') hne

theorem Inv.asserts (h : Inv s) {i c p : Nat} {call : Call} {exchange : String} {pc : Pc}
    (hcall : s.calls[i]? = some call) (hlt : c < s.channels.length) (hsent : s.sent i = [])
    (hassert : s.assertExchange c exchange = some (s', p))
    (hpc : pc = .assertingDlx c p ∧ exchange = DLX ∨
      pc = .asserting c p ∧ exchange = call.exchange ∧ (s.isOpen c → s.Asserted c DLX)) :
    Inv (s'.setPc i pc) := by
  obtain ⟨h', hpromises, hcalls, hchannels, hpublished, hasserted⟩ := assertExchange_spec h hassert
  have hlt' : c < s'.channels.length := hchannels ▸ hlt
  have hsent' : s'.sent i = [] := by
    rw [State.sent, hpublished]
    exact hsent
  refine h'.setPc i _ (fun k hk => ?_) fun other hother => ?_
  · rcases hpc with ⟨rfl, -⟩ | ⟨rfl, -⟩
    · cases hk
    · cases hk
  · rw [hcalls, hcall] at hother
    cases hother
    rcases hpc with ⟨rfl, rfl⟩ | ⟨rfl, rfl, hdlx⟩
    · exact ⟨hlt', hsent', hpromises⟩
    · refine ⟨hlt', hsent', hpromises, fun hc => hasserted c DLX (hdlx ?_)⟩
      rw [State.isOpen, ← hchannels]
      exact hc

theorem asserted_of_promises {c p : Nat} {exchange : String} (h : s.Promises c p exchange)
    (hstatus : (s.assertions[p]?).map Assertion.status = some .asserted) (hc : s.isOpen c) :
    s.Asserted c exchange := by
  obtain ⟨a, ha, rfl, hopen⟩ := h
  rw [ha, Option.map_some, Option.some_inj] at hstatus
  have heq : a = ⟨c, a.exchange, .asserted⟩ := by
    rw [← hopen hc, ← hstatus]
  rw [State.Asserted, ← heq]
  exact List.mem_of_getElem? ha

theorem setPc_setPc (s : State) (i : Nat) (pc pc' : Pc) : (s.setPc i pc).setPc i pc' = s.setPc i pc' := by
  rw [State.setPc, State.setPc, State.setPc]
  dsimp only
  rw [List.modify_modify_eq]
  rfl

theorem Inv.publish (h : Inv s) {i c : Nat} {call : Call} (hcall : s.calls[i]? = some call)
    (hsent : s.sent i = []) (hdlx : s.Asserted c DLX) (hexchange : s.Asserted c call.exchange) :
    Inv ({ s with published := s.published ++ [(i, c)] }.setPc i (.confirming c)) := by
  have hfilter : ∀ j : Nat, ((s.published ++ [(i, c)]).filter fun m => m.1 == j) =
      s.sent j ++ if i = j then [(i, c)] else [] := by
    intro j
    rw [List.filter_append, State.sent, List.filter_singleton]
    congr 1
    rcases Decidable.em (i = j) with heq | hne
    · rw [if_pos heq, show (i == j) = true from beq_iff_eq.mpr heq]
      rfl
    · rw [if_neg hne, show (i == j) = false from beq_eq_false_iff_ne.mpr hne]
      rfl
  -- the call is out of the way while its message is published
  have hout := h.reject i
  have hset : ∀ {other : Call} {j : Nat}, (s.setPc i .rejected).calls[j]? = some other →
      j ≠ i ∨ other.pc = .rejected := by
    intro other j hj
    rw [State.setPc, List.getElem?_modify, Option.map_eq_map, Option.map_eq_some_iff] at hj
    obtain ⟨old, -, heq⟩ := hj
    split at heq
    · exact .inr (heq ▸ rfl)
    · rename_i hne
      exact .inl fun hji => hne hji.symm
  have hpublished : Inv { s.setPc i .rejected with published := s.published ++ [(i, c)] } := by
    refine ⟨⟨h.net.one, h.net.map, h.net.current, h.net.promise, h.net.pending, h.net.single,
      h.net.empty, h.net.channel, h.net.opened⟩, fun j other hj => ?_, hout.creator, fun m hm => ?_⟩
    · rcases hset hj with hne | hrejected
      · have hgrows : Grows (s.setPc i .rejected)
            { s.setPc i .rejected with published := s.published ++ [(i, c)] } :=
          ⟨le_refl _, le_refl _, fun _ _ hc => hc, fun p a ha => ⟨a, ha, rfl, rfl⟩, fun _ _ ha => ha,
            fun _ hi => hi⟩
        refine hgrows.good ?_ (fun _ _ hor => hor) (hout.calls j other hj)
        exact (hfilter j).trans (by rw [if_neg fun hij => hne hij.symm, List.append_nil]; rfl)
      · rw [State.Good, hrejected]
        trivial
    · rcases List.mem_append.mp hm with hm | hm
      · exact hout.sent m hm
      · rw [List.mem_singleton.mp hm]
        refine ⟨{ call with pc := .rejected }, ?_, hdlx, hexchange⟩
        show (s.setPc i .rejected).calls[i]? = _
        rw [State.setPc, List.getElem?_modify, hcall, Option.map_eq_map, Option.map_some, if_pos rfl]
  have hconfirming := hpublished.setPc i (.confirming c) (fun _ hk => nomatch hk)
    fun other _ => (hfilter i).trans (by rw [if_pos rfl, hsent]; rfl)
  have heq : ({ s.setPc i .rejected with published := s.published ++ [(i, c)] } : State).setPc i
      (.confirming c) = ({ s with published := s.published ++ [(i, c)] } : State).setPc i
        (.confirming c) := setPc_setPc { s with published := s.published ++ [(i, c)] } i .rejected _
  exact heq ▸ hconfirming

theorem inv_resume (h : Inv s) {i : Nat} (hs : s.resume i = some s') : Inv s' := by
  rw [State.resume, Option.bind_eq_bind, Option.bind_eq_some_iff] at hs
  obtain ⟨call, hcall, hs⟩ := hs
  have hgood := h.calls i call hcall
  rw [State.Good] at hgood
  have hsame : ∀ {P : Call → Prop}, P call → ∀ other, s.calls[i]? = some other → P other := by
    intro P hP other hother
    rw [hcall] at hother
    cases hother
    exact hP
  cases hpc : call.pc with
  | creating k =>
      rw [hpc] at hs hgood
      dsimp only at hs
      split at hs
      · rename_i c hopened
        cases hs
        exact h.created hcall hpc (fun _ hk => nomatch hk) ⟨h.net.opened k c hopened, hgood.2.1⟩
          (.inr ⟨c, rfl, hopened⟩)
      · rename_i hfailed
        cases hs
        exact h.created hcall hpc (fun _ hk => nomatch hk) trivial (.inl ⟨rfl, hfailed⟩)
      · cases hs
  | joining k =>
      rw [hpc] at hs hgood
      dsimp only at hs
      split at hs
      · rename_i c hopened
        cases hs
        exact h.setPc i _ (fun _ hk => nomatch hk) (hsame ⟨h.net.opened k c hopened, hgood.2⟩)
      · cases hs
        exact h.reject i
      · cases hs
  | holding c =>
      rw [hpc] at hs hgood
      dsimp only at hs
      split at hs
      · rename_i s₁ p hassert
        cases hs
        exact h.asserts hcall hgood.1 hgood.2 hassert (.inl ⟨rfl, rfl⟩)
      · cases hs
        exact h.reject i
  | assertingDlx c p =>
      rw [hpc] at hs hgood
      dsimp only at hs
      split at hs
      · rename_i hstatus
        split at hs
        · rename_i s₁ q hassert
          cases hs
          exact h.asserts hcall hgood.1 hgood.2.1 hassert
            (.inr ⟨rfl, rfl, asserted_of_promises hgood.2.2 hstatus⟩)
        · cases hs
          exact h.reject i
      · cases hs
        exact h.reject i
      · cases hs
  | asserting c p =>
      rw [hpc] at hs hgood
      dsimp only at hs
      split at hs
      · rename_i hstatus
        split at hs
        · rename_i hkind
          cases hs
          refine h.setPc i _ (fun _ hk => nomatch hk) (hsame fun hpublish => ?_)
          rw [show call.kind = .publish from hpublish] at hkind
          cases hkind
        · split at hs
          · rename_i hc
            cases hs
            exact h.publish hcall hgood.2.1 (hgood.2.2.2 hc)
              (asserted_of_promises hgood.2.2.1 hstatus hc)
          · cases hs
            exact h.reject i
      · cases hs
        exact h.reject i
      · cases hs
  | confirming c =>
      rw [hpc] at hs
      cases hs
  | resolved =>
      rw [hpc] at hs
      cases hs
  | rejected =>
      rw [hpc] at hs
      cases hs

theorem step_inv (h : Inv s) {a : Action} (hs : step s a = some s') : Inv s' := by
  cases a with
  | start kind exchange serializable =>
      cases hs
      exact inv_start h kind exchange serializable
  | close =>
      cases hs
      exact inv_close h
  | opened k =>
      rw [step] at hs
      split at hs
      · rename_i hk
        cases hs
        exact inv_opened h hk
      · cases hs
  | failed k =>
      rw [step] at hs
      split at hs
      · rename_i hk
        cases hs
        exact inv_failed h hk
      · cases hs
  | resume i => exact inv_resume h hs
  | asserted p =>
      rw [step] at hs
      split at hs
      · rename_i c exchange hp
        split at hs
        · cases hs
          exact inv_answer h hp
        · cases hs
      · cases hs
  | refused p =>
      rw [step] at hs
      split at hs
      · rename_i c exchange hp
        cases hs
        exact inv_answer h hp
      · cases hs
  | ack i =>
      rw [step] at hs
      split at hs
      · cases hs
        exact h.next ⟨le_refl _, le_refl _, fun _ _ hc => hc, fun p a ha => ⟨a, ha, rfl, rfl⟩,
          fun _ _ ha => ha, fun _ hi => List.mem_cons_of_mem i hi⟩ ⟨h.net.one, h.net.map, h.net.current,
          h.net.promise, h.net.pending, h.net.single, h.net.empty, h.net.channel, h.net.opened⟩ rfl rfl
          fun _ _ _ _ _ hor => hor
      · cases hs
  | confirmed i =>
      rw [step, Option.bind_eq_bind, Option.bind_eq_some_iff] at hs
      obtain ⟨call, hcall, hs⟩ := hs
      split at hs
      · rename_i c hpc
        split at hs
        · rename_i hall
          cases hs
          exact inv_confirmed h hcall hpc hall
        · cases hs
      · cases hs
  | unconfirmed i =>
      rw [step, Option.bind_eq_bind, Option.bind_eq_some_iff] at hs
      obtain ⟨call, -, hs⟩ := hs
      split at hs
      · cases hs
        exact h.reject i
      · cases hs
  | lose c =>
      rw [step] at hs
      split at hs
      · rename_i hc
        cases hs
        exact inv_lose h hc
      · cases hs

theorem inv_init : Inv State.init where
  net := ⟨fun _ _ hc => (nomatch hc), fun _ he => (nomatch he), fun _ hc => (nomatch hc),
    fun _ hk => (nomatch hk), fun _ hk => (nomatch hk), fun _ _ hk => (nomatch hk), fun _ _ _ => rfl,
    fun _ hc => (nomatch hc), fun _ _ hk => (nomatch hk)⟩
  calls := fun _ _ hcall => nomatch hcall
  creator := fun _ _ _ _ _ hcall => nomatch hcall
  sent := fun _ hm => nomatch hm

end

/-! ## Runs -/

theorem closed_assertExchange {s s' : State} {c p : Nat} {exchange : String}
    (h : s.assertExchange c exchange = some (s', p)) : s'.closed = s.closed := by
  rw [State.assertExchange] at h
  split at h
  · cases h
    rfl
  · split at h
    · cases h
      rfl
    · cases h

theorem closed_resume {s s' : State} {i : Nat} (h : s.resume i = some s') : s'.closed = s.closed := by
  rw [State.resume, Option.bind_eq_bind, Option.bind_eq_some_iff] at h
  obtain ⟨call, -, h⟩ := h
  have hassert : ∀ {c p : Nat} {exchange : String} {s₁ : State} {pc : Pc},
      s.assertExchange c exchange = some (s₁, p) → (s₁.setPc i pc).closed = s.closed := by
    intro c p exchange s₁ pc hs₁
    show s₁.closed = s.closed
    exact closed_assertExchange hs₁
  split at h
  · split at h <;> cases h <;> rfl
  · split at h <;> cases h <;> rfl
  · split at h
    · rename_i hs₁
      cases h
      exact hassert hs₁
    · cases h
      rfl
  · split at h
    · split at h
      · rename_i hs₁
        cases h
        exact hassert hs₁
      · cases h
        rfl
    · cases h
      rfl
    · cases h
  · split at h
    · split at h
      · cases h
        rfl
      · split at h <;> cases h <;> rfl
    · cases h
      rfl
    · cases h
  · cases h

theorem closed_step {s s' : State} {a : Action} (h : s.closed = true) (hs : step s a = some s') :
    s'.closed = true := by
  cases a with
  | start kind exchange serializable =>
      cases hs
      rw [State.start, if_pos (by rw [h]; rfl)]
      exact h
  | close =>
      cases hs
      rw [State.close, if_pos h]
      exact h
  | resume i => exact (closed_resume hs).trans h
  | opened k | failed k | ack i | lose c =>
      rw [step] at hs
      split at hs
      · cases hs
        first
          | exact h
          | exact (apply_ite State.closed _ _ _).trans ((ite_self _).trans h)
      · cases hs
  | asserted p =>
      rw [step] at hs
      split at hs
      · split at hs <;> cases hs
        exact h
      · cases hs
  | refused p =>
      rw [step] at hs
      split at hs <;> cases hs
      exact h
  | confirmed i =>
      rw [step, Option.bind_eq_bind, Option.bind_eq_some_iff] at hs
      obtain ⟨call, -, hs⟩ := hs
      split at hs
      · split at hs <;> cases hs
        exact h
      · cases hs
  | unconfirmed i =>
      rw [step, Option.bind_eq_bind, Option.bind_eq_some_iff] at hs
      obtain ⟨call, -, hs⟩ := hs
      split at hs <;> cases hs
      exact h

theorem closed_run {actions : List Action} : ∀ {s s' : State}, exec step s actions = some s' →
    s.closed = true ∨ .close ∈ actions → s'.closed = true := by
  induction actions with
  | nil =>
      intro s s' hs h
      cases hs
      exact h.resolve_right List.not_mem_nil
  | cons a actions ih =>
      intro s s' hs h
      obtain ⟨s₁, hstep, hrest⟩ := exec_cons_eq_some.mp hs
      refine ih hrest ?_
      rcases h with hclosed | hmem
      · exact .inl (closed_step hclosed hstep)
      · rcases List.mem_cons.mp hmem with rfl | hmem
        · left
          cases hstep
          rw [State.close]
          split
          · assumption
          · rfl
        · exact .inr hmem

theorem inv_run {actions : List Action} : ∀ {s s' : State}, Inv s → exec step s actions = some s' → Inv s' := by
  induction actions with
  | nil =>
      intro s s' h hs
      cases hs
      exact h
  | cons a actions ih =>
      intro s s' h hs
      obtain ⟨s₁, hstep, hrest⟩ := exec_cons_eq_some.mp hs
      exact ih (step_inv h hstep) hrest

/-- The call published once, on a channel with both of its exchanges, and the message was
confirmed. -/
structure Delivered (s : State) (i : Nat) (call : Call) : Prop where
  once : ∃ c, s.sent i = [(i, c)] ∧ s.Asserted c DLX ∧ s.Asserted c call.exchange
  confirmed : i ∈ s.confirmed

/-- A publish call that is resolved published its message once, on a channel on which both
exchanges had been asserted, and the message was confirmed; no message is ever published on
another channel; and a call that begins after `close` is rejected, and publishes nothing. -/
theorem publish_delivers {actions : List Action} {s : State}
    (h : exec step State.init actions = some s) :
    (∀ (i : Nat) call, s.calls[i]? = some call → call.kind = .publish → call.pc = .resolved →
      Delivered s i call) ∧
    (∀ m ∈ s.published, ∃ call, s.calls[m.1]? = some call ∧ s.Asserted m.2 DLX ∧
      s.Asserted m.2 call.exchange) ∧
    (.close ∈ actions → ∀ exchange serializable s',
      step s (.start .publish exchange serializable) = some s' →
        s'.calls = s.calls ++ [⟨.publish, exchange, .rejected⟩] ∧ s'.published = s.published) := by
  have hinv : Inv s := inv_run inv_init h
  refine ⟨fun i call hcall hkind hpc => ?_, hinv.sent, fun hclose exchange serializable s' hs => ?_⟩
  · have hgood := hinv.calls i call hcall
    rw [State.Good, hpc] at hgood
    obtain ⟨c, hsent, hconfirmed⟩ := hgood hkind
    have hmem : (i, c) ∈ s.sent i := hsent ▸ List.mem_singleton_self _
    obtain ⟨other, hother, hdlx, hexchange⟩ := hinv.sent (i, c) (List.mem_filter.mp hmem).1
    rw [hcall] at hother
    cases hother
    exact ⟨⟨c, hsent, hdlx, hexchange⟩, hconfirmed⟩
  · have hclosed := closed_run h (.inr hclose)
    cases hs
    rw [State.start, hclosed]
    exact ⟨rfl, rfl⟩

/-- The run of one call: its channel is opened, both exchanges are asserted, and the message
is confirmed. -/
def alone : List Action :=
  [.start .publish "bms.email" true, .opened 0, .resume 0, .resume 0, .asserted 0, .resume 0,
    .asserted 1, .resume 0, .ack 0, .confirmed 0]

theorem publish_delivers_alone : ∃ s, exec step State.init alone = some s ∧
    Delivered s 0 ⟨.publish, "bms.email", .resolved⟩ :=
  ⟨_, rfl, (publish_delivers (show exec step State.init alone = some _ from rfl)).1 0 _ rfl rfl rfl⟩

end OpenBms.Messaging.Publish
