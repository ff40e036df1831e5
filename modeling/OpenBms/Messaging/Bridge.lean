/-
# `OpenBms.Messaging.Bridge` — deliveries that are handled behind an HTTP endpoint

A handler calls an endpoint of its own service and turns the answer into an outcome of the
delivery.  The endpoint may work on a payload that Redis keeps under a key of the message.

| the call | outcome |
| :-- | :-- |
| is not answered in time | `nack` |
| fails | the error is thrown |
| is answered with 429, or 500 and more | `nack` |
| is answered with anything else | `ack` |

**Proved here.**

    which calls acknowledge a delivery (`settle_bridge_eq_ack_iff`)
    when a handling that did not run to its end
    is neither acknowledged nor without payload (`safe_iff`)
-/
import OpenBms.Messaging.Retry

namespace OpenBms.Messaging

/-! ## The handlers -/

/-- How the call of an endpoint ends. -/
inductive Fetch where
  | response (status : Nat)
  | aborted
  | failed (error : String)
  deriving DecidableEq

/-- What both handlers make of it. -/
def bridge : Fetch → Outcome
  | .response status => if status = 429 ∨ 500 ≤ status then .nack else .ack
  | .aborted => .nack
  | .failed error => .threw (some error)

def createHttpBridgeHandler (res : Fetch) : Outcome := bridge res

/-- The handler of `message-trigger`. -/
def buildHandler (res : Fetch) : Outcome := bridge res

/-- Whether the answer arrives. -/
inductive Network where
  | answered
  | aborted
  | failed (error : String)
  deriving DecidableEq

def Network.fetch : Network → Nat → Fetch
  | .answered, status => .response status
  | .aborted, _ => .aborted
  | .failed error, _ => .failed error

/-! ## Handlings -/

/-- How a handling behind the endpoint ends: the status of its answer, whether it ran to its end,
and the payload that Redis has after it. -/
structure Handling (π : Type) where
  status : Nat
  completed : Bool
  payload : Option π

/-- What a Redis command that is to consume a key came to; `lost` is one whose answer was lost. -/
inductive Consumed where
  | done
  | lost
  | refused
  deriving DecidableEq

/-- What Redis has under the key after the command. -/
def Consumed.left {π : Type} (payload : Option π) : Consumed → Option π
  | .done => none
  | .lost => none
  | .refused => payload

section
variable {π : Type} (rt : Runtime) (o : ConsumerOptions) (m : Message)

/-- A handling that did not run to its end leaves a delivery that is not acknowledged as handled,
and the payload that it found. -/
def Safe (handler : Fetch → Outcome) (network : Network) (payload : Option π) (h : Handling π) : Prop :=
  h.completed = false →
    settle rt o m (handler (network.fetch h.status)) ≠ .ack ∧ h.payload = payload

end

section
variable {π : Type} {rt : Runtime} {o : ConsumerOptions} {m : Message}

theorem retryOrDlq_ne_ack (error : String) : retryOrDlq rt o m error ≠ .ack := by
  unfold retryOrDlq
  dsimp only
  split <;> exact nofun

/-- A delivery is acknowledged when the answer's status says so. -/
theorem settle_bridge_eq_ack_iff {res : Fetch} : settle rt o m (bridge res) = .ack ↔
    ∃ status, res = .response status ∧ status ≠ 429 ∧ status < 500 := by
  cases res with
  | response status =>
      show settle rt o m (if status = 429 ∨ 500 ≤ status then .nack else .ack) = .ack ↔ _
      split
      next hretry =>
        refine ⟨fun h => (retryOrDlq_ne_ack _ h).elim, ?_⟩
        rintro ⟨_, heq, hne, hlt⟩
        cases heq
        exact (hretry.elim hne (Nat.not_le_of_lt hlt)).elim
      next hretry =>
        rw [not_or, Nat.not_le] at hretry
        exact ⟨fun _ => ⟨status, rfl, hretry.1, hretry.2⟩, fun _ => rfl⟩
  | aborted => exact ⟨fun h => (retryOrDlq_ne_ack _ h).elim, fun ⟨_, heq, _⟩ => nomatch heq⟩
  | failed error => exact ⟨fun h => (retryOrDlq_ne_ack _ h).elim, fun ⟨_, heq, _⟩ => nomatch heq⟩

theorem safe_iff {network : Network} {payload : Option π} {h : Handling π} :
    Safe rt o m bridge network payload h ↔ h.completed = true ∨
      ((network = .answered → h.status = 429 ∨ 500 ≤ h.status) ∧ h.payload = payload) := by
  have hack : settle rt o m (bridge (network.fetch h.status)) ≠ .ack ↔
      (network = .answered → h.status = 429 ∨ 500 ≤ h.status) := by
    rw [Ne, settle_bridge_eq_ack_iff]
    cases network with
    | answered =>
        constructor
        · intro hno _
          by_contra hretry
          rw [not_or, Nat.not_le] at hretry
          exact hno ⟨h.status, rfl, hretry.1, hretry.2⟩
        · rintro hretry ⟨_, heq, hne, hlt⟩
          cases heq
          exact (hretry rfl).elim hne (Nat.not_le_of_lt hlt)
    | aborted => exact ⟨fun _ h => (nomatch h), fun _ ⟨_, heq, _⟩ => nomatch heq⟩
    | failed error => exact ⟨fun _ h => (nomatch h), fun _ ⟨_, heq, _⟩ => nomatch heq⟩
  unfold Safe
  rw [hack]
  cases h.completed with
  | true => exact ⟨fun _ => .inl rfl, fun _ h => (nomatch h)⟩
  | false => exact ⟨fun hs => .inr (hs rfl), fun hs _ => hs.resolve_left nofun⟩

end

end OpenBms.Messaging
