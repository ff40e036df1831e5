/-
# `OpenBms.Events.Triggers` — one message for each registry an event is in

`eventsTrigger` looks an event up in the registry of the automations and in that of the
campaigns, first under its own key and then under the key of all events, and publishes one
message for each.  All messages of an event are one object that is written to in between.

| automations     | campaigns       | what is published                               |
| :-------------- | :-------------- | :---------------------------------------------- |
| own key         | any             | the automation's, then the campaign's if there  |
| key of all      | key of all, none | the automation's, then the campaign's if there |
| key of all      | own key         | the campaign's, then the automation's *flagged* |
| none            | any             | the campaign's if there                         |

**Proved here.**

    an event that names nobody is not published (`triggers_eq_nil_of_not_named`)
    the messages are right exactly outside of row 3 (`triggers_iff`)
    and then those of all events are (`eventsTrigger_perm`)
-/
import Mathlib.Data.List.Basic

namespace OpenBms.Events.Triggers

inductive Key where
  | open
  | click
  | customEvents
deriving DecidableEq

inductive Kind where
  | automation
  | campaign
deriving DecidableEq

def Key.name : Key → String
  | .open => "open"
  | .click => "click"
  | .customEvents => "custom_events"

/-- What is read of a contact id: whether it is truthy and its `Number`, which may be `NaN`. -/
structure ContactId (N : Type) where
  truthy : Bool
  number : Option N
deriving DecidableEq

/-- An event: `contactId` is `none` where the event has no such field, and so is `uuid`;
`messageId` is what `parseEventType` finds in its category. -/
structure Event (N : Type) where
  accountId : Nat
  contactId : Option (ContactId N)
  messageId : Option String
  uuid : Option String
  eventId : String

structure Payload (N : Type) where
  accountId : Nat
  event : Key
  uuid : Option String
  eventId : Option String
  contactId : Option (Option N)
  messageId : Option String
  isTriggerCampaign : Bool
deriving DecidableEq

inductive Message (N : Type) where
  | firstOpen (accountId : Nat) (contactId : Option N)
  | trigger (payload : Payload N)
deriving DecidableEq

def Message.trigger? {N : Type} : Message N → Option (Payload N)
  | .firstOpen _ _ => none
  | .trigger payload => some payload

/-- What the service asks about: the keys of Redis, and the contacts without a recent open. -/
structure Registry (N : Type) where
  exists_ : String → Bool
  inactive : Nat → N → Bool

section
variable {N : Type}

def eventKey (kind : Kind) (accountId : Nat) (key : Key) (id : String) : String :=
  match kind with
  | .automation => "events_trigger:" ++ toString accountId ++ ":" ++ key.name ++ ":" ++ id
  | .campaign => "events_trigger:campaign:" ++ toString accountId ++ ":" ++ key.name ++ ":" ++ id

def Event.reachable (event : Event N) : Bool := event.contactId.any (·.truthy)

/-- The id of the event's own key.  Nothing is stored under a key that was not built. -/
def ownId (key : Key) (event : Event N) : Option String :=
  match key with
  | .customEvents => if event.uuid.isSome then some event.eventId else none
  | _ => if event.reachable then event.messageId.filter (· ≠ "") else none

def hasOwn (registry : Registry N) (kind : Kind) (accountId : Nat) (key : Key) (event : Event N) :
    Bool :=
  (ownId key event).any fun id => registry.exists_ (eventKey kind accountId key id)

def hasAll (registry : Registry N) (kind : Kind) (accountId : Nat) (key : Key) : Bool :=
  registry.exists_ (eventKey kind accountId key "0")

/-- The two publications of a branch: the payload as it is, and then with the flag.  What is
returned with them is the payload as they leave it. -/
def publishBoth (automation campaign : Bool) (payload : Payload N) : Payload N × List (Payload N) :=
  let flagged := if campaign then { payload with isTriggerCampaign := true } else payload
  (flagged, (if automation then [payload] else []) ++ (if campaign then [flagged] else []))

/-- The branches of the payload, in order; each writes to the payload the ones before left. -/
def publishAll (registry : Registry N) (key : Key) (event : Event N) (accountId : Nat) :
    List (Payload N) :=
  let getAllEvents := !hasOwn registry .automation accountId key event
  let getAllEventsCampaign := !hasOwn registry .campaign accountId key event
  let hasTrigger := if getAllEvents then hasAll registry .automation accountId key else true
  let hasTriggerCampaign :=
    if getAllEventsCampaign then hasAll registry .campaign accountId key else true
  if hasTrigger || hasTriggerCampaign then
    let payload : Payload N := ⟨accountId, key, none, none, none, none, false⟩
    let custom :=
      if key = .customEvents ∧ event.uuid.any (· ≠ "") then
        publishBoth hasTrigger hasTriggerCampaign
          { payload with uuid := event.uuid, eventId := some event.eventId }
      else (payload, [])
    let own :=
      if key ≠ .customEvents ∧ event.reachable ∧ (!getAllEvents || !getAllEventsCampaign) ∧
          event.messageId.any (· ≠ "") then
        publishBoth (hasTrigger && !getAllEvents) (hasTriggerCampaign && !getAllEventsCampaign)
          { custom.1 with
            contactId := event.contactId.map (·.number), messageId := event.messageId }
      else (custom.1, [])
    let all :=
      if key ≠ .customEvents ∧ (getAllEvents || getAllEventsCampaign) ∧ event.contactId.isSome then
        publishBoth (hasTrigger && getAllEvents) (hasTriggerCampaign && getAllEventsCampaign)
          { own.1 with
            contactId := event.contactId.map (·.number), messageId := some "0" }
      else (own.1, [])
    custom.2 ++ own.2 ++ all.2
  else []

/-- An open whose contact id is not a number is left out. -/
def invalid (key : Key) (event : Event N) : Bool :=
  key = .open && event.contactId.any fun contactId => contactId.truthy && contactId.number.isNone

def firstOpen (registry : Registry N) (key : Key) (event : Event N) (accountId : Nat) :
    List (Message N) :=
  match key, event.contactId with
  | .open, some ⟨true, some contactId⟩ =>
      if registry.exists_ ("events_trigger:" ++ toString accountId ++ ":first_open_30_days:0") &&
          registry.inactive accountId contactId then
        [.firstOpen accountId (some contactId)]
      else []
  | _, _ => []

/-- What is published for one event of the loop. -/
def eventTrigger (registry : Registry N) (key : Key) (accountId : Nat) (event : Event N) :
    List (Message N) :=
  let accountId := if key = .customEvents then event.accountId else accountId
  if invalid key event then []
  else firstOpen registry key event accountId ++
    (publishAll registry key event accountId).map .trigger

def eventsTrigger (registry : Registry N) (key : Key) (events : List (Event N)) (accountId : Nat) :
    List (Message N) :=
  events.flatMap (eventTrigger registry key accountId)

/-! ## What should be published -/

/-- The event names someone to write to. -/
def Named (key : Key) (event : Event N) : Prop :=
  match key with
  | .customEvents => event.uuid.any (· ≠ "")
  | .click => event.contactId.isSome
  | .open => event.contactId.isSome ∧ ¬ invalid .open event

instance (key : Key) (event : Event N) : Decidable (Named key event) := by
  cases key <;> unfold Named <;> infer_instance

/-- The message of a kind, where the event was found under `messageId`. -/
def message (kind : Kind) (accountId : Nat) (key : Key) (event : Event N) (messageId : String) :
    Payload N :=
  match key with
  | .customEvents =>
      ⟨accountId, key, event.uuid, some event.eventId, none, none, kind = .campaign⟩
  | _ =>
      ⟨accountId, key, none, none, event.contactId.map (·.number), some messageId, kind = .campaign⟩

/-- One message where the kind's registry has the event, its own key before that of all. -/
def expectedOf (registry : Registry N) (kind : Kind) (accountId : Nat) (key : Key)
    (event : Event N) : List (Payload N) :=
  if hasOwn registry kind accountId key event then
    [message kind accountId key event ((ownId key event).getD "0")]
  else if hasAll registry kind accountId key then [message kind accountId key event "0"]
  else []

def expected (registry : Registry N) (key : Key) (accountId : Nat) (event : Event N) :
    List (Payload N) :=
  let accountId := if key = .customEvents then event.accountId else accountId
  if Named key event then
    expectedOf registry .automation accountId key event ++
      expectedOf registry .campaign accountId key event
  else []

/-- The messages of an event are one for each kind that has it, without the other's flag. -/
def FansOut (registry : Registry N) (key : Key) (accountId : Nat) (event : Event N) : Prop :=
  ((eventTrigger registry key accountId event).filterMap Message.trigger?).Perm
    (expected registry key accountId event)

instance [DecidableEq N] (registry : Registry N) (key : Key) (accountId : Nat) (event : Event N) :
    Decidable (FansOut registry key accountId event) :=
  inferInstanceAs (Decidable (List.Perm _ _))

/-- The campaigns have the event under its own key, the automations only under that of all. -/
structure Overtaken (registry : Registry N) (key : Key) (accountId : Nat) (event : Event N) :
    Prop where
  named : Named key event
  message : key ≠ .customEvents
  campaign : hasOwn registry .campaign accountId key event = true
  own : hasOwn registry .automation accountId key event = false
  all : hasAll registry .automation accountId key = true

/-! ## The messages of one event -/

section Proofs
variable {registry : Registry N} {key : Key} {accountId : Nat} {event : Event N}

theorem ownId_spec (hkey : key ≠ .customEvents) {id : String} (h : ownId key event = some id) :
    event.reachable = true ∧ event.messageId = some id ∧ id ≠ "" := by
  have hif : (if event.reachable then event.messageId.filter (· ≠ "") else none) = some id :=
    match key, hkey, h with
    | .open, _, h => h
    | .click, _, h => h
    | .customEvents, hkey, _ => absurd rfl hkey
  by_cases hreachable : event.reachable
  · rw [if_pos hreachable, Option.filter_eq_some_iff] at hif
    exact ⟨hreachable, hif.1, of_decide_eq_true hif.2⟩
  · rw [if_neg hreachable] at hif
    exact nomatch hif

theorem hasOwn_spec {kind : Kind} (h : hasOwn registry kind accountId key event = true) :
    ∃ id, ownId key event = some id := by
  obtain ⟨id, hid, -⟩ := (Option.any_eq_true _ _).mp h
  exact ⟨id, hid⟩

/-- The messages of an open or a click: the automation's message of row 3 has the flag of the
campaign's that went before it. -/
theorem publishAll_eq (hkey : key ≠ .customEvents) (hnamed : event.contactId.isSome = true) :
    publishAll registry key event accountId =
      (if hasOwn registry .automation accountId key event then
        [message .automation accountId key event ((ownId key event).getD "0")] else []) ++
      (if hasOwn registry .campaign accountId key event then
        [message .campaign accountId key event ((ownId key event).getD "0")] else []) ++
      ((if !hasOwn registry .automation accountId key event &&
          hasAll registry .automation accountId key then
        [{ message .automation accountId key event "0" with
            isTriggerCampaign := hasOwn registry .campaign accountId key event }] else []) ++
      (if !hasOwn registry .campaign accountId key event &&
          hasAll registry .campaign accountId key then
        [message .campaign accountId key event "0"] else [])) := by
  have hmessage : ∀ kind messageId, message kind accountId key event messageId =
      ⟨accountId, key, none, none, event.contactId.map (·.number), some messageId,
        kind = .campaign⟩ := fun kind messageId =>
    match key, hkey with
    | .open, _ => rfl
    | .click, _ => rfl
    | .customEvents, hkey => absurd rfl hkey
  have hown : (hasOwn registry .automation accountId key event ||
      hasOwn registry .campaign accountId key event) = true →
      ∃ id, ownId key event = some id ∧ event.reachable = true ∧ event.messageId = some id ∧
        id ≠ "" := by
    intro h
    obtain ⟨id, hid⟩ : ∃ id, ownId key event = some id := by
      rcases Bool.or_eq_true_iff.mp h with h | h <;> exact hasOwn_spec h
    exact ⟨id, hid, ownId_spec hkey hid⟩
  simp only [publishAll, publishBoth, hmessage]
  generalize hasOwn registry .automation accountId key event = a at hown ⊢
  generalize hasOwn registry .campaign accountId key event = c at hown ⊢
  generalize hasAll registry .automation accountId key = a'
  generalize hasAll registry .campaign accountId key = c'
  by_cases hany : (a || c) = true
  · obtain ⟨id, hid, hreachable, hid', hne⟩ := hown hany
    cases a <;> cases c <;> cases a' <;> cases c' <;>
      simp [hkey, hreachable, hid, hid', hne, hnamed]
  · obtain ⟨rfl, rfl⟩ : a = false ∧ c = false := by
      simpa using hany
    cases a' <;> cases c' <;> simp [hkey, hnamed]

theorem publishAll_customEvents (huuid : event.uuid.any (· ≠ "") = true) :
    publishAll registry .customEvents event accountId =
      expectedOf registry .automation accountId .customEvents event ++
        expectedOf registry .campaign accountId .customEvents event := by
  obtain ⟨uuid, hsome, hne⟩ := (Option.any_eq_true _ _).mp huuid
  replace hne : uuid ≠ "" := of_decide_eq_true hne
  simp only [publishAll, publishBoth, expectedOf, message, hsome]
  generalize hasOwn registry .automation accountId .customEvents event = a
  generalize hasOwn registry .campaign accountId .customEvents event = c
  generalize hasAll registry .automation accountId .customEvents = a'
  generalize hasAll registry .campaign accountId .customEvents = c'
  cases a <;> cases c <;> cases a' <;> cases c' <;> simp [hne]

theorem triggers_eq (hinvalid : invalid key event = false) :
    (eventTrigger registry key accountId event).filterMap Message.trigger? =
      publishAll registry key event (if key = .customEvents then event.accountId else accountId) := by
  have hfirst : ∀ accountId,
      (firstOpen registry key event accountId).filterMap Message.trigger? = [] := by
    intro accountId
    unfold firstOpen
    split
    · split <;> rfl
    · rfl
  rw [eventTrigger, hinvalid, if_neg Bool.false_ne_true, List.filterMap_append, hfirst,
    List.nil_append, List.filterMap_map]
  exact List.filterMap_some

theorem triggers_eq_nil_of_not_named (h : ¬ Named key event) :
    (eventTrigger registry key accountId event).filterMap Message.trigger? = [] := by
  by_cases hinvalid : invalid key event
  · rw [eventTrigger, if_pos hinvalid, List.filterMap_nil]
  · rw [triggers_eq (Bool.eq_false_iff.mpr hinvalid)]
    match key, h with
    | .customEvents, h =>
        have huuid := Bool.eq_false_iff.mpr h
        simp only [ne_eq, decide_not] at huuid
        simp [publishAll, huuid]
    | .click, h =>
        have hcontact : event.contactId = none := Option.not_isSome_iff_eq_none.mp h
        simp [publishAll, Event.reachable, hcontact]
    | .open, h =>
        have hcontact : event.contactId = none :=
          Option.not_isSome_iff_eq_none.mp fun hsome => h ⟨hsome, hinvalid⟩
        simp [publishAll, Event.reachable, hcontact]

theorem Named.not_invalid (h : Named key event) : invalid key event = false :=
  match key, h with
  | .customEvents, _ => rfl
  | .click, _ => rfl
  | .open, h => Bool.eq_false_iff.mpr h.2

theorem Named.contactId_isSome (h : Named key event) (hkey : key ≠ .customEvents) :
    event.contactId.isSome = true :=
  match key, h, hkey with
  | .customEvents, _, hkey => absurd rfl hkey
  | .click, h, _ => h
  | .open, h, _ => h.1

theorem message_isTriggerCampaign (kind : Kind) (messageId : String) :
    (message kind accountId key event messageId).isTriggerCampaign = decide (kind = .campaign) := by
  cases key <;> rfl

theorem not_perm_of_overtaken (h : Overtaken registry key accountId event) :
    ¬ (publishAll registry key event accountId).Perm
      (expectedOf registry .automation accountId key event ++
        expectedOf registry .campaign accountId key event) := by
  rw [publishAll_eq h.message (h.named.contactId_isSome h.message)]
  simp only [expectedOf]
  intro hperm
  have hmem : message .automation accountId key event "0" ∈ _ := hperm.symm.subset
    (by simp [h.own, h.all])
  simp only [h.campaign, h.own, h.all, Bool.false_eq_true, if_false, if_true, Bool.not_false,
    Bool.not_true, Bool.and_true, Bool.false_and, List.nil_append, List.append_nil,
    List.mem_append, List.mem_singleton] at hmem
  have hflag : (message .automation accountId key event "0").isTriggerCampaign = false :=
    message_isTriggerCampaign .automation "0"
  rcases hmem with hmem | hmem
  · rw [hmem, message_isTriggerCampaign] at hflag
    exact absurd (hflag : true = false) Bool.noConfusion
  · rw [hmem] at hflag
    exact absurd (hflag : true = false) Bool.noConfusion

theorem publishAll_eq_expectedOf (hnamed : Named key event) (hkey : key ≠ .customEvents)
    (h : ¬ Overtaken registry key accountId event) :
    publishAll registry key event accountId =
      expectedOf registry .automation accountId key event ++
        expectedOf registry .campaign accountId key event := by
  rw [publishAll_eq hkey (hnamed.contactId_isSome hkey)]
  simp only [expectedOf]
  cases hown : hasOwn registry .automation accountId key event with
  | true => cases hasOwn registry .campaign accountId key event <;> simp
  | false =>
      cases hall : hasAll registry .automation accountId key with
      | false => cases hasOwn registry .campaign accountId key event <;> simp
      | true =>
          have hcampaign : hasOwn registry .campaign accountId key event = false :=
            Bool.eq_false_iff.mpr fun hcampaign => h ⟨hnamed, hkey, hcampaign, hown, hall⟩
          have hsame : ({ message .automation accountId key event "0" with
              isTriggerCampaign := false } : Payload N) =
              message .automation accountId key event "0" := by
            cases key <;> rfl
          simp [hcampaign, hsame]

/-- The messages of all events are those of each. -/
theorem eventsTrigger_perm {events : List (Event N)}
    (h : ∀ event ∈ events, FansOut registry key accountId event) :
    ((eventsTrigger registry key events accountId).filterMap Message.trigger?).Perm
      (events.flatMap (expected registry key accountId)) := by
  induction events with
  | nil => exact .nil
  | cons event events ih =>
      rw [eventsTrigger, List.flatMap_cons, List.filterMap_append, List.flatMap_cons]
      exact (h event List.mem_cons_self).append
        (ih fun e he => h e (List.mem_cons_of_mem event he))

/-- The messages of an event are one for each kind that has it, each with its own kind's flag,
unless the campaigns have it under its own key and the automations only under that of all. -/
theorem triggers_iff : FansOut registry key accountId event ↔
    ¬ Overtaken registry key (if key = .customEvents then event.accountId else accountId) event := by
  unfold FansOut expected
  by_cases hnamed : Named key event
  · rw [triggers_eq (hnamed.not_invalid), if_pos hnamed]
    generalize (if key = .customEvents then event.accountId else accountId) = accountId
    by_cases hkey : key = .customEvents
    · subst hkey
      rw [publishAll_customEvents hnamed]
      exact iff_of_true (.refl _) fun h => h.message rfl
    · exact ⟨fun hperm h => not_perm_of_overtaken h hperm,
        fun h => .of_eq (publishAll_eq_expectedOf hnamed hkey h)⟩
  · rw [triggers_eq_nil_of_not_named hnamed, if_neg hnamed]
    exact iff_of_true .nil fun h => hnamed h.named

end Proofs

end

/-- An open of message 7 is registered for campaigns, and all opens are for automations: the
automation's message has the campaign's flag. -/
theorem automation_flagged : ∃ (registry : Registry Nat) (event : Event Nat),
    ¬ FansOut registry .open 1 event :=
  ⟨⟨(["events_trigger:campaign:1:open:7", "events_trigger:1:open:0"].contains ·), fun _ _ => false⟩,
    ⟨1, some ⟨true, some 5⟩, some "7", none, ""⟩, by decide⟩

end OpenBms.Events.Triggers
