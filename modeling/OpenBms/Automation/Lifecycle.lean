/-
# `OpenBms.Automation.Lifecycle` — triggers, cancellations and steps of a contact's automations

Two services share the table `contacts_automations` and a Redis.  `tag-process`
starts a run for a trigger message, cancels it when the tag goes, and completes
it; `message-trigger` executes the run's queued steps, and first looks whether a
stop marker is set.  Every database statement and every Redis command is a step of
its own, so the handlers of concurrent messages interleave; an update that a
handler has decided on is pending until it lands.

| party | decides on a row by | and then |
| :-- | :-- | :-- |
| `startAutomation` | `getFirst..`, `getContactAutomations` | cancels it, inserts a new one |
| `cancelRunningAutomation` | `getContactAutomations` | cancels it, sets a marker |
| `completeTargetedAutomations` | `getAllContactAutomations` | completes it, sets a marker |
| `processCompleted` | the message | completes it |

**Proved here.**

    what a step does to the table (`table_step`)
-/
import OpenBms.Automation.Records
import OpenBms.Lib.Runs

namespace OpenBms.Automation

/-! ## Messages and keys -/

inductive Frequency where
  | unique
  | multiply
  | multiplyPeriod (timePeriod : Int)
  deriving DecidableEq

/-- A trigger message and one automation it starts: the pair, what the run's
messages will carry, and the `id` the message itself came with. -/
structure Trigger where
  pair : Pair
  email : String
  automationName : String
  startedAt : Int
  leadMessageId : Option Int := none
  deriving DecidableEq

/-- A queued message of a run, as far as it names the run. -/
structure LeadStateMessage where
  id : Nat
  contactId : Int
  email : String
  automationId : Int
  automationName : String
  startedAt : Int
  deriving DecidableEq

/-- The key `updateContactAutomations` sets. -/
def stopKey (leadMessageId : Option Int) : String :=
  "automation_to_stop:" ++
    match leadMessageId with
    | none => "undefined"
    | some id => toString id

/-- The three keys `receiveMessage` looks up. -/
def leadRedisKey (m : LeadStateMessage) : String :=
  "automation_to_stop:" ++ (m.email ++ (":" ++ (m.automationName ++ (":" ++ toString m.startedAt))))

/-- The key of a `removeAutomation` step, for a contact and an automation. -/
def removeKey (automationId contactId : Int) : String :=
  "automation:" ++ (toString automationId ++ (":remove_contact:" ++ toString contactId))

def removeAutomationKey (m : LeadStateMessage) : String := removeKey m.automationId m.contactId

/-- The key `targetAchieved` sets, for a contact and a run. -/
def targetKey (contactId : Int) (id : Nat) : String :=
  "automation_target_contact:" ++ (toString contactId ++ (":" ++ toString id))

def automationTargetKey (m : LeadStateMessage) : String := targetKey m.contactId m.id

/-- `Date.parse` of a printed date: whole seconds. -/
def parseDate (ms : Int) : Int := ms / 1000 * 1000

/-! ## The state -/

/-- The next statement of `startAutomation`. -/
inductive Stage where
  | first
  | latest
  | duplicate
  | insert
  deriving DecidableEq

/-- A trigger message being handled. -/
structure Handler where
  no : Nat
  trigger : Trigger
  stage : Stage
  deriving DecidableEq

/-- A Redis marker about to be set; `stops` is the run that it makes cancelled. -/
structure Mark where
  key : String
  stops : Option Nat
  deriving DecidableEq

/-- An update decided on, by a handler or by another message. -/
structure Update where
  handler : Option Nat
  accountId : Int
  id : Nat
  status : Status
  mark : Mark

/-- A step message received: whether its run had been cancelled, with record and
marker, whether the cancellation's marker was found, and whether any was. -/
structure Receipt where
  message : LeadStateMessage
  cancelled : Bool
  leadHit : Bool
  stopped : Bool

structure State where
  table : Table
  handlers : List Handler := []
  nextHandler : Nat := 0
  pending : List Update := []
  marks : List Mark := []
  redis : Finset String := ∅
  cancelled : List Nat := []
  published : List LeadStateMessage := []
  completions : List LeadStateMessage := []
  log : List Receipt := []

inductive Event where
  /-- a trigger message arrives -/
  | arrive (t : Trigger)
  /-- a handler's next statement -/
  | advance (no : Nat)
  /-- a handler's statement fails -/
  | crash (no : Nat)
  /-- `cancelRunningAutomation` looks its row up -/
  | untag (pair : Pair) (leadMessageId : Option Int)
  /-- `completeTargetedAutomations` looks its rows up -/
  | target (pair : Pair)
  /-- a pending update is executed -/
  | land (i : Nat)
  /-- a pending update fails -/
  | lose (i : Nat)
  /-- a marker is set -/
  | mark (i : Nat)
  /-- a completion message arrives -/
  | complete (accountId : Int) (m : LeadStateMessage)
  /-- time passes -/
  | wait (d : Nat)
  /-- another automation's `removeAutomation` step -/
  | removeContact (automationId contactId : Int)
  /-- a Redis key expires -/
  | expire (key : String)
  /-- a step message arrives, and is the run's last or not -/
  | receive (m : LeadStateMessage) (last : Bool)

/-! ## The steps -/

namespace State

variable (freq : Int → Frequency) (s : State)

def handler (no : Nat) : Option Handler := s.handlers.find? fun h => h.no = no

/-- The handler ends. -/
def leave (no : Nat) : State := { s with handlers := s.handlers.filter fun h => h.no ≠ no }

def goto (h : Handler) (stage : Stage) : State :=
  { s with handlers := s.handlers.map fun h' => if h'.no = h.no then { h with stage := stage } else h' }

/-- The message a started run sends to its first step. -/
def message (t : Trigger) (row : ContactAutomation) : LeadStateMessage where
  id := row.id
  contactId := t.pair.contactId
  email := t.email
  automationId := t.pair.automationId
  automationName := t.automationName
  startedAt := parseDate row.createdAt

/-- The update that cancels a row. -/
def cancel (handler : Option Nat) (leadMessageId : Option Int) (row : ContactAutomation) : Update where
  handler := handler
  accountId := row.pair.accountId
  id := row.id
  status := .canceled
  mark := ⟨stopKey leadMessageId, some row.id⟩

/-- Under `MULTIPLY_PERIOD`, a trigger too soon after the newest run. -/
def tooSoon (f : Frequency) (startedAt : Int) (row : ContactAutomation) : Bool :=
  match f with
  | .multiplyPeriod timePeriod => decide (startedAt - parseDate row.createdAt < 60000 * timePeriod)
  | _ => false

/-- `startAutomation`, a statement at a time. -/
def advance (h : Handler) : State :=
  match h.stage with
  | .first =>
      match s.table.first h.trigger.pair with
      | some _ => s.leave h.no
      | none => s.goto h .latest
  | .latest =>
      match s.table.newest h.trigger.pair [.running, .completed] with
      | none => s.goto h .insert
      | some row =>
          if tooSoon (freq h.trigger.pair.automationId) h.trigger.startedAt row then
            s.goto h .duplicate
          else if row.status = .running then
            -- `updateCancelAutomationRunning` is not awaited
            let s := s.goto h .insert
            { s with pending := s.pending ++ [cancel (some h.no) h.trigger.leadMessageId row] }
          else s.goto h .insert
  | .duplicate => { s.leave h.no with table := s.table.insert h.trigger.pair .duplicate }
  | .insert =>
      { s.leave h.no with
        table := s.table.insert h.trigger.pair .running
        published := s.published ++ [message h.trigger (s.table.newRow h.trigger.pair .running)] }

/-- The update that completes a row whose target is achieved. -/
def achieve (row : ContactAutomation) : Update where
  handler := none
  accountId := row.pair.accountId
  id := row.id
  status := .completed
  mark := ⟨targetKey row.pair.contactId row.id, none⟩

/-- `receiveMessage`. -/
def receive (m : LeadStateMessage) (last : Bool) : State :=
  let leadHit := decide (leadRedisKey m ∈ s.redis)
  let stopped := leadHit || decide (removeAutomationKey m ∈ s.redis) ||
    decide (automationTargetKey m ∈ s.redis)
  let receipt : Receipt := ⟨m, decide (m.id ∈ s.cancelled), leadHit, stopped⟩
  if stopped then
    { s with
      redis := s.redis \ {leadRedisKey m, removeAutomationKey m, automationTargetKey m}
      log := s.log ++ [receipt] }
  else
    { s with
      completions := if last then s.completions ++ [m] else s.completions
      log := s.log ++ [receipt] }

end State

open State in
/-- One step of the two services, with the automations' frequencies. -/
def step (freq : Int → Frequency) (s : State) : Event → Option State
  | .arrive t =>
      let stage := if freq t.pair.automationId = .unique then .first else .latest
      some { s with handlers := s.handlers ++ [⟨s.nextHandler, t, stage⟩]
                    nextHandler := s.nextHandler + 1 }
  | .advance no => (s.handler no).map (s.advance freq)
  | .crash no => (s.handler no).map fun _ => s.leave no
  | .untag pair leadMessageId =>
      match s.table.newest pair [.running] with
      | none => some s
      | some row => some { s with pending := s.pending ++ [cancel none leadMessageId row] }
  | .target pair =>
      some { s with pending := s.pending ++ (s.table.all pair [.running]).map achieve }
  | .land i =>
      s.pending[i]?.map fun u =>
        { s with table := s.table.setStatus u.accountId u.id u.status
                 pending := s.pending.eraseIdx i
                 marks := s.marks ++ [u.mark] }
  | .lose i => s.pending[i]?.map fun _ => { s with pending := s.pending.eraseIdx i }
  | .mark i =>
      s.marks[i]?.map fun k =>
        { s with redis := insert k.key s.redis
                 marks := s.marks.eraseIdx i
                 cancelled := s.cancelled ++ k.stops.toList }
  | .complete accountId m =>
      if m ∈ s.completions then
        some { s with table := s.table.setStatus accountId m.id .completed }
      else none
  | .wait d => some { s with table := s.table.wait d }
  | .removeContact automationId contactId =>
      some { s with redis := insert (removeKey automationId contactId) s.redis }
  | .expire key => some { s with redis := s.redis.erase key }
  | .receive m last => if m ∈ s.published then some (s.receive m last) else none

def init (now : Int) : State := { table := .empty now }

/-! ## What a step changes -/

section
variable {freq : Int → Frequency} {s s' : State} {e : Event}

theorem handler_eq_some {no : Nat} {h : Handler} (hh : s.handler no = some h) :
    h ∈ s.handlers ∧ h.no = no := by
  have hmem := List.mem_of_find?_eq_some hh
  have hno := List.find?_some hh
  exact ⟨hmem, by simpa using hno⟩

theorem table_advance (h : Handler) :
    (s.advance freq h).table = s.table ∨
      (h.stage = .duplicate ∧ (s.advance freq h).table = s.table.insert h.trigger.pair .duplicate) ∨
      (h.stage = .insert ∧ (s.advance freq h).table = s.table.insert h.trigger.pair .running) := by
  unfold State.advance
  cases hstage : h.stage with
  | first =>
      dsimp only
      split <;> exact .inl rfl
  | latest =>
      dsimp only
      split
      · exact .inl rfl
      · split
        · exact .inl rfl
        · split <;> exact .inl rfl
  | duplicate => exact .inr (.inl ⟨rfl, rfl⟩)
  | insert => exact .inr (.inr ⟨rfl, rfl⟩)

theorem table_step (hs : step freq s e = some s') :
    s'.table.rows = s.table.rows ∨
    (∃ h, e = .advance h.no ∧ s.handler h.no = some h ∧
      (h.stage = .duplicate ∧ s'.table = s.table.insert h.trigger.pair .duplicate ∨
        h.stage = .insert ∧ s'.table = s.table.insert h.trigger.pair .running)) ∨
    (∃ i u, e = .land i ∧ s.pending[i]? = some u ∧
      s'.table = s.table.setStatus u.accountId u.id u.status) ∨
    (∃ a m, e = .complete a m ∧ m ∈ s.completions ∧
      s'.table = s.table.setStatus a m.id .completed) := by
  cases e with
  | advance no =>
      obtain ⟨h, hh, rfl⟩ := Option.map_eq_some_iff.mp hs
      obtain ⟨_, rfl⟩ := handler_eq_some hh
      rcases @table_advance freq s h with heq | hins
      · exact .inl (congrArg Table.rows heq)
      · exact .inr (.inl ⟨h, rfl, hh, hins⟩)
  | land i =>
      obtain ⟨u, hu, rfl⟩ := Option.map_eq_some_iff.mp hs
      exact .inr (.inr (.inl ⟨i, u, rfl, hu, rfl⟩))
  | complete a m =>
      simp only [step] at hs
      split at hs
      · rename_i hm
        cases hs
        exact .inr (.inr (.inr ⟨a, m, rfl, hm, rfl⟩))
      · cases hs
  | untag pair id =>
      simp only [step] at hs
      split at hs <;> cases hs <;> exact .inl rfl
  | receive m last =>
      simp only [step] at hs
      split at hs
      · cases hs
        unfold State.receive
        dsimp only
        split <;> exact .inl rfl
      · cases hs
  | crash no | lose i | mark i =>
      obtain ⟨_, _, rfl⟩ := Option.map_eq_some_iff.mp hs
      exact .inl rfl
  | arrive t | target pair | wait d | removeContact a c | expire k =>
      cases hs
      exact .inl rfl

end

end OpenBms.Automation
