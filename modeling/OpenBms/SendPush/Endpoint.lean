/-
# `OpenBms.SendPush.Endpoint` — a push message behind the endpoint

`POST /internal/push/single` takes the push message from its body, or takes it out of the Redis
key that the body names, and sends it.

| what happens | answer | payload |
| :-- | :-- | :-- |
| the token is not the service's | 401 | stays |
| Redis does not answer | 500 | stays, or is gone |
| the key has no value | 201 | |
| the message is sent, or was before | 201 | is gone |
| the marker of a sending in progress is found | 201 | is gone |
| anything else fails | 400 | is gone |

**Proved here.**

    when a handling that did not run to its end is retried with
    its payload (`receiveMessage_safe_iff`)
    over any deliveries, with those of `message-trigger` (`failures_retried_iff`)
-/
import OpenBms.Lib.Runs
import OpenBms.MessageTrigger.Endpoint

namespace OpenBms.SendPush

open Messaging

/-! ## One message -/

structure ContactDevice where
  id : Int
  type : String
  deriving DecidableEq

/-- A push message of an automation; `next` is where the automation goes on, with the name of the
topic. -/
structure SendPushMessage where
  automationId : Int
  messageId : Int
  messageType : String
  contactId : Int
  contactDevices : List ContactDevice
  next : Option String
  deriving DecidableEq

/-- What `processSingle` awaits, or computes. -/
inductive Call where
  | existsProcessing
  | existsProcessed
  | formattedPayload
  | sendFirebaseMessages
  | processSent
  | publishNext
  | delProcessing
  | setProcessed
  deriving DecidableEq

/-- The devices of the message's type. -/
def SendPushMessage.devices (m : SendPushMessage) : List ContactDevice :=
  m.contactDevices.filter (·.type == m.messageType)

/-- `if (next && next?.pubName)`. -/
def SendPushMessage.forwards (m : SendPushMessage) : Bool := m.next.any (· != "")

/-- The calls of `processSingle`, while none fails. -/
def calls (m : SendPushMessage) (processing processed : Bool) : List Call :=
  let next := if m.forwards then [Call.publishNext] else []
  .existsProcessing :: if processing then [] else
    .existsProcessed :: if processed then [] else
      (if m.devices.isEmpty then [] else [.formattedPayload, .sendFirebaseMessages, .processSent]) ++
        next ++ [.delProcessing, .setProcessed]

/-! ## The endpoint -/

/-- What a handling of a delivered message meets: `keyed`, the message names a key; `processing`
and `processed`, the markers that Redis has. -/
structure Attempt where
  authorized : Bool
  keyed : Bool
  data : SendPushMessage
  getdel : Consumed
  processing : Bool
  processed : Bool
  fails : Call → Bool
  network : Network

/-- Whether a message was sent when `processSingle` returns. -/
def Attempt.processSingle (a : Attempt) (m : SendPushMessage) : Except Unit Bool :=
  if (calls m a.processing a.processed).any a.fails then .error () else .ok (! a.processing)

def Attempt.single (a : Attempt) (m : SendPushMessage) (left : Option SendPushMessage) :
    Handling SendPushMessage :=
  match a.processSingle m with
  | .error _ => ⟨400, false, left⟩
  | .ok completed => ⟨201, completed, left⟩

def Attempt.receiveMessage (a : Attempt) (payload : Option SendPushMessage) :
    Handling SendPushMessage :=
  if ! a.authorized then ⟨401, false, payload⟩
  else if a.keyed then
    match a.getdel with
    | .done =>
        match payload with
        | none => ⟨201, false, none⟩
        | some m => a.single m none
    | getdel => ⟨500, false, getdel.left payload⟩
  else a.single a.data payload

/-- No call fails, and no sending is in progress. -/
def Attempt.sends (a : Attempt) (m : SendPushMessage) : Bool :=
  ! a.processing && (calls m a.processing a.processed).all (! a.fails ·)

/-- What the endpoint meets is such that a failure is retried with its payload. -/
def Attempt.Retried (a : Attempt) (payload : Option SendPushMessage) : Prop :=
  (a.network = .answered → a.authorized = true) ∧ (a.authorized = true →
    if a.keyed then
      match a.getdel, payload with
      | .done, none => a.network ≠ .answered
      | .done, some m => a.sends m = true
      | .lost, payload => payload = none
      | .refused, _ => True
    else a.sends a.data = true ∨ a.network ≠ .answered)

section
variable {rt : Runtime} {o : ConsumerOptions} {delivered : Messaging.Message} {a : Attempt}
  {payload : Option SendPushMessage}

/-- What is answered with 400 or 201 without having been completed is acknowledged. -/
theorem single_safe (m : SendPushMessage) (left : Option SendPushMessage) :
    ((a.single m left).completed = true ∨
      ((a.network = .answered → (a.single m left).status = 429 ∨ 500 ≤ (a.single m left).status) ∧
        (a.single m left).payload = payload)) ↔
      a.sends m = true ∨ (a.network ≠ .answered ∧ left = payload) := by
  have hacked : ∀ status : Nat, status < 429 →
      ((a.network = .answered → status = 429 ∨ 500 ≤ status) ↔ a.network ≠ .answered) := by
    refine fun status hlt => ⟨fun h hanswered => ?_, fun h hanswered => (h hanswered).elim⟩
    have := h hanswered
    omega
  have hany : (calls m a.processing a.processed).any a.fails =
      ! (calls m a.processing a.processed).all (! a.fails ·) := by
    rw [List.not_all_eq_any_not]
    simp only [Bool.not_not]
  unfold Attempt.single Attempt.processSingle Attempt.sends
  rw [hany]
  cases (calls m a.processing a.processed).all (! a.fails ·) with
  | false =>
      rw [Bool.and_false]
      exact or_congr (iff_of_false nofun nofun) (and_congr_left' (hacked 400 (by decide)))
  | true =>
      rw [Bool.and_true]
      exact or_congr Iff.rfl (and_congr_left' (hacked 201 (by decide)))

/-- A failed handling is retried with its payload exactly when what the endpoint meets says so. -/
theorem receiveMessage_safe_iff :
    Safe rt o delivered createHttpBridgeHandler a.network payload (a.receiveMessage payload) ↔
      a.Retried payload := by
  show Safe rt o delivered bridge a.network payload (a.receiveMessage payload) ↔ _
  rw [safe_iff]
  unfold Attempt.receiveMessage Attempt.Retried
  cases a.authorized with
  | false =>
      refine ⟨fun h => ⟨fun hanswered => ?_, nofun⟩, fun h => .inr ⟨fun hanswered => ?_, rfl⟩⟩
      · have hstatus : 401 = 429 ∨ 500 ≤ 401 := (h.resolve_left nofun).1 hanswered
        exact absurd hstatus (by decide)
      · exact nomatch h.1 hanswered
  | true =>
      refine Iff.trans ?_ (and_iff_right fun _ => rfl).symm
      refine Iff.trans ?_ (forall_prop_of_true rfl).symm
      rw [Bool.not_true, if_neg Bool.false_ne_true]
      cases a.keyed with
      | false =>
          rw [if_neg Bool.false_ne_true, if_neg Bool.false_ne_true]
          exact (single_safe a.data payload).trans (or_congr Iff.rfl (and_iff_left rfl))
      | true =>
          rw [if_pos rfl, if_pos rfl]
          cases a.getdel with
          | done =>
              cases payload with
              | none =>
                  refine ⟨fun h hanswered => ?_, fun h => .inr ⟨fun hanswered => (h hanswered).elim, rfl⟩⟩
                  have hstatus : 201 = 429 ∨ 500 ≤ 201 := (h.resolve_left nofun).1 hanswered
                  exact absurd hstatus (by decide)
              | some m => exact (single_safe m none).trans (or_iff_left fun h => nomatch h.2)
          | lost =>
              refine ⟨fun h => ((h.resolve_left nofun).2).symm, fun h => .inr ⟨fun _ => .inr ?_, h.symm⟩⟩
              exact Nat.le_refl _
          | refused => exact iff_of_true (.inr ⟨fun _ => .inr (Nat.le_refl _), rfl⟩) trivial

end

/-! ## Deliveries one after the other -/

/-- The payload after an attempt, of `message-trigger` and of this service. -/
def nextTrigger {α : Type} (payload : Option (MessageTrigger.LeadStateMessage α))
    (a : MessageTrigger.Attempt α) : Option (MessageTrigger.LeadStateMessage α) :=
  (a.process payload).payload

def nextPush (payload : Option SendPushMessage) (a : Attempt) : Option SendPushMessage :=
  (a.receiveMessage payload).payload

/-- Over any deliveries of a message, a handling that does not run to its end is retried with the
payload that it found, exactly when each delivery meets what it has to. -/
theorem failures_retried_iff {α : Type} (rt : Runtime) (o : ConsumerOptions)
    (delivered : Messaging.Message) :
    (∀ payload (attempts : List (MessageTrigger.Attempt α)),
      (∀ before a after, attempts = before ++ a :: after →
        Safe rt o delivered buildHandler a.network (before.foldl nextTrigger payload)
          (a.process (before.foldl nextTrigger payload))) ↔
        Runs.Meets (fun payload a => some (nextTrigger payload a)) (fun payload a => a.Retried payload)
          payload attempts) ∧
      ∀ payload (attempts : List Attempt),
        (∀ before a after, attempts = before ++ a :: after →
          Safe rt o delivered createHttpBridgeHandler a.network (before.foldl nextPush payload)
            (a.receiveMessage (before.foldl nextPush payload))) ↔
          Runs.Meets (fun payload a => some (nextPush payload a)) (fun payload a => a.Retried payload)
            payload attempts := by
  have htrigger : ∀ (payload : Option (MessageTrigger.LeadStateMessage α)) (a : MessageTrigger.Attempt α),
      Safe rt o delivered buildHandler a.network payload (a.process payload) ↔ a.Retried payload :=
    fun _ _ => MessageTrigger.process_safe_iff
  have hpush : ∀ (payload : Option SendPushMessage) (a : Attempt),
      Safe rt o delivered createHttpBridgeHandler a.network payload (a.receiveMessage payload) ↔
        a.Retried payload := fun _ _ => receiveMessage_safe_iff
  exact ⟨Runs.steps_iff htrigger, Runs.steps_iff hpush⟩

/-- The provider refuses a push, and the delivery is acknowledged. -/
theorem refused_push_acked :
    ¬ ∀ (rt : Runtime) (o : ConsumerOptions) (delivered : Messaging.Message)
      (payload : Option SendPushMessage) (a : Attempt),
      Safe rt o delivered createHttpBridgeHandler a.network payload (a.receiveMessage payload) := by
  intro h
  have hsafe := h ⟨fun _ => none, fun _ => none⟩ ⟨"bms.push", "send-push.push.send", "push.send", some 3⟩
    ⟨"", "push.send", true, none, fun _ => none⟩ none
    ⟨true, false, ⟨9, 4, "web-push", 5, [⟨1, "web-push"⟩], some "trigger.process"⟩, .done, false, false,
      fun call => call == .sendFirebaseMessages, .answered⟩ rfl
  exact hsafe.1 rfl

end OpenBms.SendPush
