/-
# `OpenBms.SendEmail.Handling` — one automation e-mail, from its guards to the next step

`receiveMessage` either skips the e-mail, and then forwards the next step or drops
it, or hands it to the provider, counts it and forwards the next step.  The
controller turns an error into a reply the consumer acknowledges.

| after the send, a failure of | ends in |
| :-- | :-- |
| the key of the send, the contact's counter | `return`, nothing is forwarded |
| a counter of the pool | an error, and nothing is forwarded unless its text holds `Invalid URL` |

**Proved here.**

    an e-mail that was handed over is followed by the next step
    exactly when no awaited counter fails (`progress_iff`)
-/
import OpenBms.SendEmail.Types

namespace OpenBms.SendEmail

/-- `next`: the topic and the message of the step that follows, by the id of its
automation run and its step. -/
structure Next where
  pubName : String
  data : Nat
  deriving DecidableEq

structure SendEmailMessage where
  contact : Contact
  message : Email
  accountId : Int
  sendLimitPerUser : Option String
  automationType : AutomationType
  isRateLimit : Bool
  applyFrequency : Option ApplyFrequency
  sendAt : Js.Val
  next : Option Next

/-- The commands that are awaited, in the order of the source. -/
inductive Command where
  | mget
  | getLead
  | getBadUser
  | getContactSend
  | setLead
  | existsContactSend
  | setContactSend
  | incrContactSend
  | incrHourly
  | incrDaily
  deriving DecidableEq

/-- What is found while a message is handled: Redis before the send, the texts of
the errors of the commands that fail, the day, the time in seconds, and the
provider's error. -/
structure World where
  redis : String → Option String
  failed : Command → Option String
  currentDate : String
  now : Int
  provider : Option String

/-- The reply of a skipped e-mail. -/
inductive Skip where
  | drop
  | forward
  deriving DecidableEq

/-- The accounts whose contacts leave the automation instead. -/
def removeAccounts : List Int :=
  [136, 137, 138, 25, 81, 104, 119, 120, 141, 244, 263, 261, 233, 107, 169, 69]

def removed (m : SendEmailMessage) : Skip :=
  if removeAccounts.contains m.accountId then .drop else .forward

/-- An awaited command that fails throws. -/
def World.run (w : World) (c : Command) : Except String Unit :=
  match w.failed c with
  | some e => throw e
  | none => pure ()

namespace SendEmailMessage

/-- `account?.id || contact.accountId`. -/
def account (m : SendEmailMessage) : Option Int :=
  if m.accountId = 0 then m.contact.accountId else some m.accountId

def emailName (m : SendEmailMessage) : String :=
  slugify (if m.message.name = "" then m.message.title else m.message.name)

def email (m : SendEmailMessage) : String := m.contact.email.getD ""

def skipDedup (m : SendEmailMessage) : Bool :=
  m.automationType == .transactional || m.applyFrequency == some .multiply
    || m.applyFrequency == some .multiplyPeriod

/-- The contact has no usable address, or does not want mail. -/
def invalidContact (m : SendEmailMessage) : Bool :=
  m.email == "" || m.contact.hasEmail == some false || m.contact.isValid == some false
    || m.contact.hasBounced == some true || m.contact.isUnsubscribed == some true
    || m.contact.isBlocked == some true

def stopMicrosoft (m : SendEmailMessage) : Bool :=
  m.automationType != .transactional && m.accountId == 1
    && m.message.ippool != "m02_brmailsrv_com" && m.message.ippool != "microsoft_news_plusdin_com_br"
    && isMicrosoft m.email

/-- `sendAt` is no number, or more than 72 hours away. -/
def invalidSendAt (m : SendEmailMessage) (now : Int) : Bool :=
  m.sendAt.truthy && (m.sendAt.number.isNone || m.sendAt.gt (now + 72 * 60 * 60))

/-- `parseInt(contactCount) >= parseInt(sendLimitPerUser)`. -/
def limitReached (m : SendEmailMessage) (contactCount : Option String) : Bool :=
  match contactCount, m.sendLimitPerUser with
  | some count, some limit =>
      match (Js.Val.str count).parseInt, (Js.Val.str limit).parseInt with
      | some c, some l => count != "" && l ≤ c
      | _, _ => false
  | _, _ => false

def limited (m : SendEmailMessage) : Bool :=
  match m.sendLimitPerUser with
  | some limit => limit != ""
  | none => false

end SendEmailMessage

/-- Everything before the provider: `some` when the e-mail is skipped. -/
def guards (w : World) (m : SendEmailMessage) : Except String (Option Skip) :=
  if m.message.name = "confirmacao-de-email-sorteio-membros-12" then pure (some .drop)
  else if isValidEmail m.contact.email = false then pure (some .drop)
  else if m.invalidContact then pure (some (removed m))
  else if m.stopMicrosoft then pure (some .drop)
  else do
    w.run .mget
    let keys := ["disengaged", "unsubscribed", "blocked"].map fun category =>
      numberText m.account ++ (":" ++ (category ++ (":" ++ m.email)))
    if keys.any fun key => (w.redis key).isSome then return some (removed m)
    if m.skipDedup = false then
      w.run .getLead
      if ((w.redis (sentKey m.account m.email m.emailName)).getD "") ≠ "" then
        return some (removed m)
    if m.automationType = .email then
      w.run .getBadUser
      if ((w.redis ("badusers:" ++ (m.email ++ (":" ++ numberText m.account)))).getD "") ≠ "" then
        return some .drop
      if m.limited ∧ m.isRateLimit then
        w.run .getContactSend
        if m.limitReached (w.redis (contactSendKey m.contact.id w.currentDate)) then
          return some .forward
    if m.invalidSendAt w.now then return some .drop
    return none

/-- The `try` block after the send. -/
def saveSent (w : World) (m : SendEmailMessage) : Except String Unit := do
  w.run .setLead
  if m.limited ∧ m.automationType ≠ .transactional then
    w.run .existsContactSend
    if (w.redis (contactSendKey m.contact.id w.currentDate)).isNone then w.run .setContactSend
    w.run .incrContactSend

/-- `if (!next || !next.pubName) return`, else `sendToNextStep(next.data)`. -/
def SendEmailMessage.forwarded (m : SendEmailMessage) : List Nat :=
  match m.next with
  | some next => if next.pubName = "" then [] else [next.data]
  | none => []

/-- Everything after the provider. -/
def afterSend (w : World) (m : SendEmailMessage) : Except String (List Nat) :=
  match saveSent w m with
  | .error _ => .ok []
  | .ok () => do
      w.run .incrHourly
      w.run .incrDaily
      return m.forwarded

/-- What a delivery of the message leaves: whether the provider took the e-mail, and
the steps forwarded. -/
structure Outcome where
  handed : Bool
  forwarded : List Nat
  deriving DecidableEq

/-- The controller: an error that speaks of an `Invalid URL` forwards the next step;
any other ends in status 400, which the consumer acknowledges. -/
def caught (m : SendEmailMessage) (error : String) : List Nat :=
  if "Invalid URL".toList <:+: error.toList then (m.next.map Next.data).toList else []

def handle (w : World) (m : SendEmailMessage) : Outcome :=
  match guards w m with
  | .error e => ⟨false, caught m e⟩
  | .ok (some .drop) => ⟨false, []⟩
  | .ok (some .forward) => ⟨false, m.forwarded⟩
  | .ok none =>
      match w.provider with
      | some e => ⟨false, caught m e⟩
      | none =>
          match afterSend w m with
          | .error e => ⟨true, caught m e⟩
          | .ok forwarded => ⟨true, forwarded⟩

/-! ## When the next step is forwarded -/

/-- The commands of the `try` block that a message makes. -/
def savingCommands (w : World) (m : SendEmailMessage) : List Command :=
  .setLead :: if m.limited ∧ m.automationType ≠ .transactional then
    if (w.redis (contactSendKey m.contact.id w.currentDate)).isNone then
      [.existsContactSend, .setContactSend, .incrContactSend]
    else [.existsContactSend, .incrContactSend]
  else []

/-- No command of the `try` block fails, and no counter of the pool does, unless with
an error the controller takes for one of the template. -/
def Counted (w : World) (m : SendEmailMessage) : Prop :=
  (∀ c ∈ savingCommands w m, w.failed c = none) ∧
    match w.failed .incrHourly, w.failed .incrDaily with
    | none, none => True
    | some e, _ | none, some e => "Invalid URL".toList <:+: e.toList

section
variable {w : World} {m : SendEmailMessage} {next : Next}

theorem run_ok {c : Command} {u : Unit} : w.run c = .ok u ↔ w.failed c = none := by
  unfold World.run
  cases w.failed c with
  | none => exact iff_of_true rfl rfl
  | some e => exact iff_of_false (fun h => by cases h) (fun h => by cases h)

theorem run_bind_ok {β : Type} {c : Command} {f : Unit → Except String β} {x : β} :
    (w.run c >>= f) = .ok x ↔ w.failed c = none ∧ f () = .ok x := by
  unfold World.run
  cases w.failed c with
  | none => exact (and_iff_right rfl).symm
  | some e => exact iff_of_false (fun h => by cases h) (fun h => by cases h.1)

theorem saveSent_ok : saveSent w m = .ok () ↔ ∀ c ∈ savingCommands w m, w.failed c = none := by
  unfold saveSent savingCommands
  by_cases hlimited : m.limited = true ∧ m.automationType ≠ .transactional
  · by_cases hnone : (w.redis (contactSendKey m.contact.id w.currentDate)).isNone = true
    · simp only [hlimited, hnone, run_bind_ok, run_ok, if_true, and_true, ne_eq, not_false_eq_true,
        List.forall_mem_cons, List.not_mem_nil, false_implies, implies_true]
    · simp only [hlimited, hnone, run_bind_ok, run_ok, if_true, if_false, and_true, ne_eq,
        not_false_eq_true, List.forall_mem_cons, List.not_mem_nil, false_implies, implies_true,
        Bool.false_eq_true]
  · simp only [hlimited, run_bind_ok, if_false, List.forall_mem_cons, List.not_mem_nil,
      false_implies, implies_true, and_true]
    exact and_iff_left rfl

theorem handle_handed (h : (handle w m).handed = true) :
    handle w m = match afterSend w m with
      | .error e => ⟨true, caught m e⟩
      | .ok forwarded => ⟨true, forwarded⟩ := by
  unfold handle at h ⊢
  split at h
  · cases h
  · cases h
  · cases h
  · split at h
    · cases h
    · rfl

theorem forwarded_eq (hnext : m.next = some next) (hpub : next.pubName ≠ "") :
    m.forwarded = [next.data] := by
  simp only [SendEmailMessage.forwarded, hnext, if_neg hpub]

theorem caught_eq_iff (hnext : m.next = some next) {e : String} :
    caught m e = [next.data] ↔ "Invalid URL".toList <:+: e.toList := by
  unfold caught
  split
  · rename_i h
    exact iff_of_true (by rw [hnext]; rfl) h
  · rename_i h
    exact iff_of_false (fun h => by cases h) h

theorem run_error {c : Command} {e : String} (h : w.failed c = some e) : w.run c = .error e := by
  simp only [World.run, h]
  rfl

theorem run_pure {c : Command} (h : w.failed c = none) : w.run c = .ok () := run_ok.mpr h

end

/-- A contact that can be sent to, and a Redis that answers every command. -/
def sampleMessage : SendEmailMessage where
  contact := ⟨7, some 1, some "ana@example.com", some true, some true, none, none, none⟩
  message := ⟨3, "welcome", "Welcome", "pool"⟩
  accountId := 2
  sendLimitPerUser := none
  automationType := .email
  isRateLimit := false
  applyFrequency := none
  sendAt := .undefined
  next := some ⟨"message-trigger", 4⟩

def sampleWorld (failed : Command → Option String) : World :=
  ⟨fun _ => none, failed, "2026-01-01", 0, none⟩

end OpenBms.SendEmail
