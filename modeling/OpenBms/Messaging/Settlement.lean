/-
# `OpenBms.Messaging.Settlement` — an `ack` belongs to the channel of its delivery

Delivery tags start at one on every channel, and the consumer settles on the channel
it has now.  A handler that ends after a re-establishment therefore sends its tag on
a channel that never delivered its message.

| channel | tag 1 is | the first handler's `ack` |
| :-- | :-- | :-- |
| 0, lost | the first message | |
| 2, re-established | the second message | names tag 1 on channel 2 |

**Proved here.**

    when channels are replaced only while nothing is being handled,
    every settlement is on its delivery's channel (`settlement_own`)
-/
import OpenBms.Messaging.Consumer

namespace OpenBms.Messaging

/-- A channel is replaced only when no delivery is being handled and the old channel
delivers no more. -/
def Quiet (s : State) : Label → Prop
  | .openChannels _ => s.tasks = [] ∧ s.consuming = none
  | _ => True

/-- On `c`, or not at all. -/
def On (s : State) (c : Nat) : Prop := s.channel = some c ∨ s.channel = none

/-- What is being handled, and what will be delivered, is on the consumer's channel. -/
structure OwnInv (s : State) : Prop where
  tasks : ∀ t ∈ s.tasks, On s t.delivery.channel
  consuming : ∀ c, s.consuming = some c → On s c
  establishing : ∀ c, s.establishing = .opened c → On s c
  settlements : ∀ x ∈ s.settlements, x.channel = x.delivery.channel

section
variable {rt : Runtime} {o : ConsumerOptions} {s s' : State} {d : Delivery} {kind : Kind}

/-- The invariant is about four fields. -/
theorem OwnInv.of_eq (h : OwnInv s) (htasks : s'.tasks = s.tasks) (hchannel : s'.channel = s.channel)
    (hconsuming : s'.consuming = s.consuming) (hestablishing : s'.establishing = s.establishing)
    (hsettlements : s'.settlements = s.settlements) : OwnInv s' := by
  have hon : ∀ c, On s c → On s' c := by
    intro c hc
    rw [On, hchannel]
    exact hc
  exact ⟨fun t ht => hon _ (h.tasks t (htasks ▸ ht)),
    fun c hc => hon c (h.consuming c (hconsuming ▸ hc)),
    fun c hc => hon c (h.establishing c (hestablishing ▸ hc)),
    fun x hx => h.settlements x (hsettlements ▸ hx)⟩

theorem OwnInv.kill (h : OwnInv s) (c : Nat) : OwnInv (s.kill c) :=
  ⟨h.tasks, fun x hx => h.consuming x (Option.filter_eq_some_iff.mp hx).1, h.establishing,
    h.settlements⟩

theorem OwnInv.elim_kill (h : OwnInv s) (c : Option Nat) : OwnInv (c.elim s s.kill) := by
  cases c with
  | none => exact h
  | some c => exact h.kill c

theorem OwnInv.send (h : OwnInv s) {x : Settlement} (hx : x.channel = x.delivery.channel) :
    OwnInv (s.send x) := by
  refine ⟨h.tasks, h.consuming, h.establishing, fun y hy => ?_⟩
  rcases List.mem_append.mp hy with hy | hy
  · exact h.settlements y hy
  · rw [List.mem_singleton.mp hy]
    exact hx

theorem OwnInv.safeSettle (h : OwnInv s) (hd : On s d.channel) : OwnInv (s.safeSettle d kind) := by
  rcases safeSettle_cases s d kind with heq | ⟨c, hc, hcase⟩
  · rw [heq]
    exact h
  · have hown : c = d.channel := by
      rcases hd with hd | hd
      · exact Option.some.inj (hc.symm.trans hd)
      · rw [hc] at hd
        cases hd
    have hsent : OwnInv (s.send ⟨c, d, kind⟩) := h.send hown
    rcases hcase with ⟨e, -, heq⟩ | heq
    · rw [heq]
      exact hsent.of_eq rfl rfl rfl rfl rfl
    · rw [heq]
      exact hsent.kill c

theorem OwnInv.finish (h : OwnInv s) (no : Nat) : OwnInv (s.finish no) :=
  ⟨fun t ht => h.tasks t (mem_tasks_finish ht), h.consuming, h.establishing, h.settlements⟩

theorem OwnInv.deadLetter (h : OwnInv s) (hd : On s d.channel) (copy : Message) :
    OwnInv (s.deadLetter d copy) := by
  unfold State.deadLetter
  split
  · exact (h.safeSettle hd).finish d.no
  · split
    · refine ⟨fun t ht => ?_, h.consuming, h.establishing, h.settlements⟩
      rcases List.mem_append.mp ht with ht | ht
      · exact h.tasks t (List.mem_of_mem_filter ht)
      · rw [List.mem_singleton.mp ht]
        exact hd
    · exact h.finish d.no

theorem OwnInv.start (h : OwnInv s) (hd : On s d.channel) : OwnInv (s.start d) := by
  refine ⟨fun t ht => ?_, h.consuming, h.establishing, h.settlements⟩
  rcases List.mem_append.mp ht with ht | ht
  · exact h.tasks t ht
  · rw [List.mem_singleton.mp ht]
    exact hd

theorem OwnInv.receive (h : OwnInv s) {c : Nat} (hc : On s c) (m : Message) :
    OwnInv (s.receive rt c m) := by
  have hrecord : ∀ d, OwnInv (s.record d) := fun _ => h.of_eq rfl rfl rfl rfl rfl
  have hstart : ∀ d : Delivery, d.channel = c → OwnInv ((s.record d).start d) :=
    fun d hd => (hrecord d).start (hd ▸ hc)
  unfold State.receive
  dsimp only
  split
  · exact hrecord _
  · split
    · refine OwnInv.deadLetter (hstart _ rfl) ?_ _
      exact hc
    · exact hstart _ rfl

theorem OwnInv.answered (h : OwnInv s) (hd : On s d.channel) (r : Outcome) :
    OwnInv (s.answered rt o d r) := by
  have hsucceed : OwnInv (s.succeed d.no) := h.of_eq rfl rfl rfl rfl rfl
  cases hsettle : settle rt o d.message r with
  | ack =>
      simp only [State.answered, hsettle]
      split
      · exact (hsucceed.safeSettle hd).finish d.no
      · exact (h.safeSettle hd).finish d.no
  | requeue =>
      simp only [State.answered, hsettle]
      exact (h.safeSettle hd).finish d.no
  | deadLetter copy =>
      simp only [State.answered, hsettle]
      exact h.deadLetter hd copy
  | retry copy =>
      have hdelay : OwnInv ((s.safeSettle d .ack).delay ⟨d, copy⟩) :=
        OwnInv.of_eq (h.safeSettle hd) rfl rfl rfl rfl rfl
      simp only [State.answered, hsettle]
      exact hdelay.finish d.no

theorem OwnInv.confirmed (h : OwnInv s) (hd : On s d.channel) (ok : Bool) :
    OwnInv (s.confirmed d ok) := by
  have hnoted : OwnInv (s.deadLettering d.no) := h.of_eq rfl rfl rfl rfl rfl
  unfold State.confirmed
  split
  · exact (hnoted.safeSettle hd).finish d.no
  · exact h.finish d.no

theorem OwnInv.fire (h : OwnInv s) (p : Pending) : OwnInv (s.fire p) := by
  have hexpire : OwnInv (s.expire p) := h.of_eq rfl rfl rfl rfl rfl
  unfold State.fire
  split
  · exact hexpire
  · split
    · exact hexpire
    · split
      · exact hexpire.of_eq rfl rfl rfl rfl rfl
      · exact hexpire

/-- The old channel is gone with everything that was handled on it. -/
theorem OwnInv.openChannels (h : OwnInv s) (hquiet : s.tasks = [] ∧ s.consuming = none)
    (alive : Bool) : OwnInv (s.openChannels alive) := by
  refine ⟨?_, ?_, ?_, h.settlements⟩
  · intro t ht
    have htasks : t ∈ s.tasks := ht
    rw [hquiet.1] at htasks
    cases htasks
  · intro c hc
    have hconsuming : s.consuming = some c := hc
    rw [hquiet.2] at hconsuming
    cases hconsuming
  · intro c hc
    cases hc
    exact .inl rfl

theorem OwnInv.step (h : OwnInv s) {l : Label} (hquiet : Quiet s l)
    (hs : s.step rt o l = some s') : OwnInv s' := by
  cases l with
  | deliver m =>
      obtain ⟨c, hc, rfl⟩ := Option.map_eq_some_iff.mp hs
      exact h.receive (h.consuming c (Option.filter_eq_some_iff.mp hc).1) m
  | answer no r =>
      obtain ⟨t, ht, rfl⟩ := step_answer hs
      exact h.answered (h.tasks t ht) r
  | confirm no ok =>
      obtain ⟨t, ht, rfl⟩ := step_confirm hs
      exact h.confirmed (h.tasks t ht) ok
  | timer no =>
      obtain ⟨p, -, rfl⟩ := Option.map_eq_some_iff.mp hs
      exact h.fire p
  | republish no ok =>
      obtain ⟨p, -, rfl⟩ := Option.map_eq_some_iff.mp hs
      exact h.of_eq rfl rfl rfl rfl rfl
  | lose =>
      cases hs
      exact ⟨h.tasks, fun c hc => (by cases hc), h.establishing, h.settlements⟩
  | reconnect =>
      cases hs
      split
      · exact h
      · exact ⟨h.tasks, h.consuming, fun c hc => (by cases hc), h.settlements⟩
  | openChannels alive =>
      rw [step_openChannels hs]
      exact h.openChannels hquiet alive
  | consume =>
      rw [State.step] at hs
      split at hs
      · rename_i c hc
        split at hs
        · cases hs
          refine ⟨h.tasks, fun x hx => ?_, fun x hx => (by cases hx), h.settlements⟩
          cases hx
          exact h.establishing c hc
        · cases hs
      · cases hs
  | giveUp =>
      rw [State.step] at hs
      split at hs
      · cases hs
        exact ⟨h.tasks, h.consuming, fun c hc => (by cases hc), h.settlements⟩
      · cases hs
  | shutdown =>
      cases hs
      split
      · exact h.of_eq rfl rfl rfl rfl rfl
      · exact h
  | cancel =>
      rw [State.step] at hs
      split at hs
      · cases hs
        exact ⟨h.tasks, fun c hc => h.consuming c (Option.filter_eq_some_iff.mp hc).1,
          h.establishing, h.settlements⟩
      · cases hs
  | drained =>
      rw [State.step] at hs
      split at hs
      · cases hs
        exact h.of_eq rfl rfl rfl rfl rfl
      · cases hs
  | timeout =>
      rw [State.step] at hs
      split at hs
      · cases hs
        exact h.of_eq rfl rfl rfl rfl rfl
      · cases hs
  | closeChannel =>
      rw [State.step] at hs
      split at hs
      · cases hs
        exact ⟨fun _ _ => .inr rfl, fun _ _ => .inr rfl, fun _ _ => .inr rfl,
          (h.elim_kill s.channel).settlements⟩
      · cases hs
  | closePublish =>
      rw [State.step] at hs
      split at hs
      · cases hs
        exact (h.elim_kill s.publishChannel).of_eq rfl rfl rfl rfl rfl
      · cases hs
  | closeConnection =>
      rw [State.step] at hs
      split at hs
      · cases hs
        exact ⟨h.tasks, fun c hc => (by cases hc), h.establishing, h.settlements⟩
      · cases hs

theorem ownInv_init : OwnInv init := by
  refine ⟨fun t ht => ?_, fun c hc => ?_, fun c hc => ?_, fun x hx => ?_⟩
  · cases ht
  · cases hc
    exact .inl rfl
  · cases hc
  · cases hx

theorem ownInv_of_exec {ls : List Label}
    (hquiet : Runs.Meets (fun s l => s.step rt o l) Quiet init ls)
    (hs : Runs.exec (fun s l => s.step rt o l) init ls = some s) : OwnInv s :=
  Runs.invariant (fun _ _ _ h hq hs => h.step hq hs) ownInv_init hquiet hs

end

/-- In a run that replaces its channel only while nothing is being handled, every
`ack` and `nack` names, on its channel, the delivery it is for. -/
theorem settlement_own (rt : Runtime) (o : ConsumerOptions) (ls : List Label) (s : State)
    (hquiet : Runs.Meets (fun s l => s.step rt o l) Quiet init ls)
    (hs : Runs.exec (fun s l => s.step rt o l) init ls = some s) :
    ∀ x ∈ s.settlements, x.channel = x.delivery.channel :=
  (ownInv_of_exec hquiet hs).settlements

/-! ## One reconnection -/

def plainRuntime : Runtime := ⟨fun _ => none, fun _ => none⟩

def emailOptions : ConsumerOptions := ⟨"bms.email", "send-email.email.send", "email.send", none⟩

def email (content : String) : Message :=
  ⟨content, "email.send", true, some "application/json", fun _ => none⟩

theorem settlement_own_reconnect :
    ∃ s, Runs.exec (fun s l => s.step plainRuntime emailOptions l) init
        [.deliver (email "1"), .answer 0 .ack, .lose, .reconnect, .openChannels true, .consume,
          .deliver (email "2"), .answer 1 .ack] = some s ∧
      s.acked = [0, 1] ∧ ∀ x ∈ s.settlements, x.channel = x.delivery.channel := by
  refine ⟨_, rfl, rfl, settlement_own plainRuntime emailOptions
    [.deliver (email "1"), .answer 0 .ack, .lose, .reconnect, .openChannels true, .consume,
      .deliver (email "2"), .answer 1 .ack] _ ?_ rfl⟩
  exact .cons trivial rfl (.cons trivial rfl (.cons trivial rfl (.cons trivial rfl
    (.cons ⟨rfl, rfl⟩ rfl (.cons trivial rfl (.cons trivial rfl (.cons trivial rfl trivial)))))))

/-- The first handler ends after the re-establishment: its `ack` settles the second
message, which is still being handled. -/
theorem stale_ack :
    ∃ s, Runs.exec (fun s l => s.step plainRuntime emailOptions l) init
        [.deliver (email "1"), .lose, .reconnect, .openChannels true, .consume,
          .deliver (email "2"), .answer 0 .ack] = some s ∧
      s.acked = [1] ∧ s.handled = [0] ∧ s.tasks.map (fun t => t.delivery.no) = [1] ∧
      s.settlements.map (fun x => (x.channel, x.delivery.channel, x.delivery.tag)) = [(2, 0, 1)] :=
  ⟨_, rfl, rfl, rfl, rfl, rfl⟩

end OpenBms.Messaging
