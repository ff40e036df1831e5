/-
# `OpenBms.MessageTrigger.Interpreter` — the handling of one step message

A message holds the steps that are left of an automation.  Its first step is
defined (the arm of a split or of a condition, the message of an A/B test replace
its children), the stop flags are read, and the step is processed: whatever the
step is for is requested of other services, and a message with the children is
forwarded.  It goes to the queue itself, to a sender that hands it on, or to a
delayed queue.

| step of type | forwards |
| :-- | :-- |
| `end` | nothing, but the completion |
| `wait` without a timer, arms, `activeCampaign` | nothing |
| any other | one message |

A request can be refused, which throws.  Analytics events are left out: they swallow
their errors.
-/
import OpenBms.Lib.Js
import OpenBms.MessageTrigger.Steps

namespace OpenBms.MessageTrigger

variable {α : Type}

/-! ## Messages and requests -/

/-- What is left of the automation of a contact.  `messageIdEmail1` replaces the first
e-mail of some automations of account 1. -/
structure LeadStateMessage (α : Type) where
  steps : List (Step α)
  activeStepId : String
  activeEmailId : Option Nat
  messageIdEmail1 : Option Int
  accountId : Int
  tagName : String

/-- The topics of the senders. -/
inductive Topic where
  | sendEmail
  | sendPush
  | sendTwilio
  | sendWhatsapp
  deriving DecidableEq

inductive DelayedQueue where
  | queueTimer
  | queueCondition
  deriving DecidableEq

inductive TagType where
  | add
  | remove
  | completed
  deriving DecidableEq

/-- What is read or set in Redis while a message is handled. -/
inductive RedisKey where
  | stopFlags
  | testabStepFinished (step : StepId)
  | testabStep (step : StepId)
  | removeContact (automationId : Int)
  deriving DecidableEq

/-- What is asked of the queues and of other services. -/
inductive Request (α : Type) where
  | messageTrigger (data : LeadStateMessage α)
  | sender (topic : Topic) (messageId : Int) (isTestabMode : Bool) (next : LeadStateMessage α)
  | delayed (queue : DelayedQueue) (minutes : ℚ) (data : LeadStateMessage α)
  | tagProcess (type : TagType) (tagName : String)
  | stepProcess (step : StepId)
  | httpRequest (step : Step α)
  | contactTransfer (settings : Transfer)
  | updateCustomField (id : Int) (value : String)
  | redis (key : RedisKey)

/-- The message a request passes on. -/
def Request.next? : Request α → Option (LeadStateMessage α)
  | .messageTrigger data => some data
  | .sender _ _ _ next => some next
  | .delayed _ _ data => some data
  | _ => none

/-- The request that completes the automation of a contact. -/
def Request.completes : Request α → Bool
  | .tagProcess .completed _ => true
  | _ => false

/-! ## What a handling finds -/

/-- A number of `Math.random()`. -/
structure Draw where
  value : ℚ
  nonneg : 0 ≤ value
  lt_one : value < 1

/-- `Math.floor(Math.random() * n)`. -/
def Draw.floor (d : Draw) (n : Nat) : Nat := ⌊d.value * n⌋₊

theorem Draw.floor_lt (d : Draw) {n : Nat} (hn : 0 < n) : d.floor n < n := by
  have hn' : (0 : ℚ) < n := Nat.cast_pos.mpr hn
  have hlt : d.value * n < n := by
    calc d.value * n < 1 * n := mul_lt_mul_of_pos_right d.lt_one hn'
      _ = n := one_mul _
  exact (Nat.floor_lt (mul_nonneg d.nonneg hn'.le)).mpr hlt

/-- The answers of the services.  `atom` is the verdict on a condition atom, `none`
where its evaluation throws; `or` are the atoms that are joined by it. -/
structure World (α : Type) where
  random : Draw
  contactFound : Bool
  atom : α → Option Bool
  or : α → Bool
  winnerMessageId : Option Int
  stepRedisKeyExists : Bool
  messageFound : Int → Bool
  leadHit : Bool
  removeAutomationHit : Bool
  targetHit : Bool
  hour : Nat
  hoursToNextDay : ℚ
  accepts : Request α → Bool

/-- Requests one group after the other; those of a group are sent together.  A refusal
ends the handling. -/
def perform (w : World α) : List (List (Request α)) → List (Request α) × Bool
  | [] => ([], true)
  | group :: groups =>
      let sent := group.filter w.accepts
      if group.all w.accepts then
        let (others, ok) := perform w groups
        (sent ++ others, ok)
      else (sent, false)

/-! ## Defining a step -/

/-- The arm of a split: the first whose values up to it reach the random number. -/
def selectArm (randomNumber : Nat) : Option Nat → List (Step α) → Option (List (Step α))
  | _, [] => none
  | percentage, arm :: arms =>
      let percentage := percentage.bind fun p => arm.type.value.map (p + ·)
      if percentage.any (randomNumber ≤ ·) then some arm.child
      else selectArm randomNumber percentage arms

/-- The atoms joined from the left, each with whether it is joined by `or`. -/
def evaluateAtoms (atoms : List (Bool × Bool)) : Bool :=
  let rec go (orResult andGroup firstInGroup : Bool) : List (Bool × Bool) → Bool
    | [] => orResult || andGroup
    | (true, value) :: atoms => go (orResult || andGroup) value false atoms
    | (false, value) :: atoms =>
        go orResult (if firstInGroup then value else andGroup && value) false atoms
  if atoms = [] then true else go false true true atoms

/-- The atoms of the true arm. -/
def settingsOf : Option (Step α) → List α
  | some (.mk _ (.conditionalTrue settings) _ _) => settings
  | _ => []

/-- The children a condition goes on with; where something throws, those of the false
arm. -/
def definedConditional (w : World α) (child : List (Step α)) : List (Step α) :=
  let stepTrue := child.find? (·.type.isArm true)
  let stepFalse := child.find? (·.type.isArm false)
  let settings := settingsOf stepTrue
  -- the connector of the first atom is not looked at
  let ops := settings.zipIdx.map fun (atom, index) => decide (0 < index) && w.or atom
  match if w.contactFound then settings.mapM w.atom else none with
  | some values =>
      if evaluateAtoms (ops.zip values) then (stepTrue.map Step.child).getD []
      else (stepFalse.map Step.child).getD []
  | none => (stepFalse.map Step.child).getD []

/-- The e-mail of the message an A/B test picks, with the children of the test below it;
without a message, the children. -/
def newChild (step : Step α) (randomMessage : Option Message) (isTestabMode : Bool) :
    List (Step α) :=
  (randomMessage.map fun message =>
    [.mk step.id (.email message.copy) isTestabMode step.child]).getD step.child

/-- The children an A/B test goes on with. -/
def definedTestAB (w : World α) (step : Step α) (messages : List Message)
    (status : StatusTestAb) : List (List (Request α)) × List (Step α) :=
  if status = .finished then ([], newChild step (messages.find? Message.winnerMessage) false)
  else
    match w.winnerMessageId with
    | some winner => ([[.redis (.testabStepFinished step.id)]],
        newChild step (messages.find? (·.id = winner)) false)
    | none =>
        let started : List (List (Request α)) :=
          if w.stepRedisKeyExists then []
          else [[.redis (.testabStep step.id)], [.stepProcess step.id]]
        ([.redis (.testabStepFinished step.id)] :: [.redis (.testabStep step.id)] :: started,
          newChild step messages[w.random.floor messages.length]? true)

/-- The first step, with the children it goes on with, and what was asked for that. -/
def definedStep (w : World α) (step : Step α) : List (List (Request α)) × Step α :=
  match step.type with
  | .split =>
      ([], step.withChild ((selectArm (w.random.floor 101) (some 0) step.child).getD step.child))
  | .conditional => ([], step.withChild (definedConditional w step.child))
  | .testAB messages status =>
      let (requests, child) := definedTestAB w step messages status
      (requests, step.withChild child)
  | _ => ([], step)

/-! ## Processing a step -/

/-- The children of a step, or the `end` that is added below the last one. -/
def nextSteps (child : List (Step α)) : List (Step α) :=
  if child = [] then [Step.endStep] else child

/-- The message with the children of the step, or with the end. -/
def createNextLeadStateMessage (m : LeadStateMessage α) (step : Step α) : LeadStateMessage α :=
  { m with
    steps := nextSteps step.child
    activeStepId := ((nextSteps step.child).head?.map fun s => s.id.toText).getD "" }

/-- What a handling throws. -/
inductive Error where
  | noStep
  | invalidTimer (timer : Timer)
  | messageNotFound (id : Option Int)
  | contactNotFound
  | automationsMissing
  | refused

/-- `Number(step.settings.timer)`; `none` is `NaN` or an infinity. -/
def Timer.number : Timer → Option ℚ
  | .num q => some q
  | .text s => Js.finite s

/-- The minutes a timer stands for, where it is finite and not negative. -/
def Timer.minutes (timer : Timer) (timerType : TimerType) : Option ℚ :=
  (timer.number.filter (0 ≤ ·)).map fun rawTimer =>
    match timerType with
    | .hours => rawTimer * 60
    | .minutes => rawTimer

/-- The number of the e-mail: `activeEmailId || 1`. -/
def LeadStateMessage.emailId (m : LeadStateMessage α) : Nat :=
  (m.activeEmailId.filter (· ≠ 0)).getD 1

/-- The message an e-mail step sends. -/
def LeadStateMessage.messageId (m : LeadStateMessage α) (settings : Message) : Int :=
  match m.messageIdEmail1 with
  | some messageIdEmail1 =>
      if m.emailId = 1 ∧ messageIdEmail1 ≠ 0 ∧ m.accountId = 1 ∧
        settings.id ∈ ([214153, 214134, 210856] : List Int) then messageIdEmail1 else settings.id
  | none => settings.id

/-- The e-mail of a step, or of the message that was picked for it. -/
def executeStepTypeEmail (w : World α) (m : LeadStateMessage α) (settings : Message)
    (isTestabMode : Bool) (next : LeadStateMessage α) : Except Error (List (List (Request α))) :=
  let id := m.messageId settings
  if w.messageFound id then
    .ok [[.sender .sendEmail id isTestabMode { next with activeEmailId := some (m.emailId + 1) }]]
  else .error (.messageNotFound (some id))

/-- A push, an SMS or a WhatsApp message. -/
def executeNotificationStep (w : World α) (topic : Topic) (settings : Message)
    (next : LeadStateMessage α) : Except Error (List (List (Request α))) :=
  if w.messageFound settings.id then .ok [[.sender topic settings.id false next]]
  else .error (.messageNotFound (some settings.id))

/-- `settings.messages` at a random index. -/
def selectRandomMessage (w : World α) (messages : List Message) : Option Message :=
  messages[w.random.floor messages.length]?

/-- The minutes a step that is bound to hours waits for. -/
def waitFor (w : World α) (initialTime endTime : Nat) : ℚ :=
  if endTime < w.hour then (⌈w.hoursToNextDay⌉ : ℤ) * 60
  else if w.hour < initialTime then ((initialTime - w.hour : Nat) : ℚ) * 60
  else 0

/-- Forward a message to the queue itself. -/
def forward (next : LeadStateMessage α) : List (Request α) := [.messageTrigger next]

/-- The requests a step makes, in their order. -/
def processMessage (w : World α) (m : LeadStateMessage α) (step : Step α) :
    Except Error (List (List (Request α))) :=
  let next := createNextLeadStateMessage m step
  match step.type with
  | .email settings => executeStepTypeEmail w m settings step.isTestabMode next
  | .webPush settings => executeNotificationStep w .sendPush settings next
  | .mobilePush settings => executeNotificationStep w .sendPush settings next
  | .sms settings => executeNotificationStep w .sendTwilio settings next
  | .whatsapp settings => executeNotificationStep w .sendWhatsapp settings next
  | .wait timer timerType =>
      match timer.minutes timerType with
      | some minutes => .ok [[.delayed .queueTimer minutes next]]
      | none => .error (.invalidTimer timer)
  | .addTag settings => .ok [settings.map fun tag => .tagProcess .add tag.name, forward next]
  | .removeTag settings => .ok [settings.map fun tag => .tagProcess .remove tag.name, forward next]
  | .conditionalTime initialTime endTime =>
      if initialTime ≤ w.hour ∧ w.hour ≤ endTime then .ok [forward next]
      else .ok [[.delayed .queueCondition (waitFor w initialTime endTime) next]]
  | .conditional => .ok [forward next]
  | .split => .ok [forward next]
  | .testAB _ _ => .ok [forward next]
  | .randomMessage messages =>
      match selectRandomMessage w messages with
      | some settings => executeStepTypeEmail w m settings step.isTestabMode next
      | none => .error (.messageNotFound none)
  | .randomWebPush messages | .randomMobilePush messages =>
      match selectRandomMessage w messages with
      | some settings => executeNotificationStep w .sendPush settings next
      | none => .error (.messageNotFound none)
  | .removeAutomation (some automations) =>
      .ok (automations.map (fun id => [.redis (.removeContact id)]) ++ [forward next])
  | .removeAutomation none => .error .automationsMissing
  | .contactTransfer settings =>
      if w.contactFound then .ok [[.contactTransfer settings], forward next]
      else .error .contactNotFound
  | .updateCustomField id value => .ok [[.updateCustomField id value], forward next]
  | .httpRequest => .ok [forward next, [.httpRequest step]]
  | .end_ => .ok [[.tagProcess .completed m.tagName]]
  -- no case of the switch
  | .activeCampaign | .splitPath _ | .conditionalTrue _ | .conditionalFalse => .ok []

/-- What a handling comes to: the requests that were taken, and whether it threw. -/
structure Outcome (α : Type) where
  requests : List (Request α)
  result : Except Error Unit

/-- One of the flags that stop the contact. -/
def World.stopped (w : World α) : Bool := w.leadHit || w.removeAutomationHit || w.targetHit

/-- More requests after those that were taken. -/
def Outcome.andThen (w : World α) (sent : List (Request α)) (groups : List (List (Request α))) :
    Outcome α :=
  let (others, ok) := perform w groups
  ⟨sent ++ others, if ok then .ok () else .error .refused⟩

/-- The handling of a message.  The step is defined before the flags are read; a
contact that is stopped has its flags deleted. -/
def receiveMessage (w : World α) (m : LeadStateMessage α) : Outcome α :=
  let (requests, step) : List (List (Request α)) × Option (Step α) :=
    match m.steps with
    | [] => ([], none)
    | step :: _ => ((definedStep w step).1, some (definedStep w step).2)
  let (sent, ok) := perform w (requests ++ [[.redis .stopFlags]])
  if ok then
    if w.stopped then .andThen w sent [[.redis .stopFlags]]
    else
      match step with
      | none => ⟨sent, .error .noStep⟩
      | some step =>
          match processMessage w m step with
          | .error e => ⟨sent, .error e⟩
          | .ok groups => .andThen w sent groups
  else ⟨sent, .error .refused⟩

/-- The messages a handling forwards. -/
def Outcome.forwarded (o : Outcome α) : List (LeadStateMessage α) :=
  o.requests.filterMap Request.next?

/-- How often a handling completes the automation. -/
def Outcome.completions (o : Outcome α) : Nat := o.requests.countP Request.completes

end OpenBms.MessageTrigger
