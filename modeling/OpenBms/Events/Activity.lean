/-
# `OpenBms.Events.Activity` — when a contact last did something

`updateContact` of the SendGrid and SparkPost processors (the same text) writes the times of a
batch of deliveries, opens or clicks of one account.  All contacts of the batch get the time of
its first event, whatever they had before.

    [contact 5 at 10, contact 6 at 20]     both are written 10

A click is an open as well: it writes `lastOpen` and `lastClick`.

**Proved here.**

    a contact whose time is right has the latest of its times (`Latest`)
    it is right after every batch of a run exactly when the first
    event of each is the latest of every contact it writes (`latest_iff`)
-/
import OpenBms.Lib.Runs

namespace OpenBms.Events.Activity

open Runs

inductive EventsType where
  | delivered
  | open
  | click
deriving DecidableEq

inductive Field where
  | lastSent
  | lastOpen
  | lastClick

/-- `contactId` is the `Number` of the event's contact id, `none` where there is none. -/
structure Event where
  contactId : Option Int
  timestamp : Int
deriving DecidableEq

structure Batch (Z : Type) where
  type : EventsType
  accountId : Nat
  timeZone : Z
  events : List Event

structure Contact (D : Type) where
  lastSent : Option Int
  lastSentDate : Option D
  lastOpen : Option Int
  lastOpenDate : Option D
  lastClick : Option Int
  lastClickDate : Option D
  isActive : Bool

def Contact.blank {D : Type} : Contact D := ⟨none, none, none, none, none, none, false⟩

def Contact.time {D : Type} (contact : Contact D) : Field → Option Int
  | .lastSent => contact.lastSent
  | .lastOpen => contact.lastOpen
  | .lastClick => contact.lastClick

/-- The contacts of each account, by their ids. -/
abbrev Contacts (D : Type) := Nat → Int → Option (Contact D)

section
variable {Z D : Type} (convertTimestampToTimezone : Int → Z → D)

/-- The columns that a batch of a type sets. -/
def change (type : EventsType) (averageTimestamp : Int) (timeZone : Z) (contact : Contact D) :
    Contact D :=
  let date := convertTimestampToTimezone averageTimestamp timeZone
  match type with
  | .delivered =>
      { contact with lastSent := some averageTimestamp, lastSentDate := some date }
  | .open =>
      { contact with
        lastOpen := some averageTimestamp
        lastOpenDate := some date
        isActive := true }
  | .click =>
      { contact with
        lastOpen := some averageTimestamp
        lastOpenDate := some date
        lastClick := some averageTimestamp
        lastClickDate := some date
        isActive := true }

def ids (events : List Event) : List Int := events.filterMap (·.contactId)

/-- There is no first event to read in an empty batch. -/
def updateContact (batch : Batch Z) (contacts : Contacts D) : Option (Contacts D) :=
  match batch.events with
  | [] => none
  | first :: _ => some fun accountId id =>
      if accountId = batch.accountId ∧ (ids batch.events).contains id then
        (contacts accountId id).map
          (change convertTimestampToTimezone batch.type (first.timestamp * 1000) batch.timeZone)
      else contacts accountId id

/-- `processed` are the events of the batches so far, with their accounts and types. -/
structure State (D : Type) where
  contacts : Contacts D
  processed : List (Nat × EventsType × Event)

def State.init (rows : Nat → Int → Bool) : State D :=
  ⟨fun accountId id => if rows accountId id then some .blank else none, []⟩

def process (s : State D) (batch : Batch Z) : State D :=
  match updateContact convertTimestampToTimezone batch s.contacts with
  | some contacts =>
      ⟨contacts, s.processed ++ batch.events.map fun event => (batch.accountId, batch.type, event)⟩
  | none => s

/-! ## What the times should be -/

/-- The events a time is about. -/
def EventsType.counts : EventsType → Field → Bool
  | .delivered, .lastSent => true
  | .open, .lastOpen => true
  | .click, .lastOpen => true
  | .click, .lastClick => true
  | _, _ => false

/-- The times of a contact's own events that a field is about. -/
def times (processed : List (Nat × EventsType × Event)) (accountId : Nat) (id : Int)
    (field : Field) : List Int :=
  processed.filterMap fun (accountId', type, event) =>
    if accountId' = accountId ∧ type.counts field ∧ event.contactId = some id then
      some (event.timestamp * 1000)
    else none

def IsLatest (times : List Int) : Option Int → Prop
  | none => times = []
  | some t => t ∈ times ∧ ∀ t' ∈ times, t' ≤ t

/-- Every contact has the latest times of its own events. -/
def Latest (s : State D) : Prop :=
  ∀ accountId id contact, s.contacts accountId id = some contact →
    ∀ field, IsLatest (times s.processed accountId id field) (contact.time field)

/-- The times of a contact in a batch. -/
def ownTimes (events : List Event) (id : Int) : List Int :=
  (events.filter (·.contactId = some id)).map (·.timestamp * 1000)

/-- The first event of the batch is the latest of every contact of the batch, for every time
that the batch writes. -/
def FirstLatest (s : State D) (batch : Batch Z) : Prop :=
  ∀ first ∈ batch.events.head?, ∀ id ∈ ids batch.events,
    (s.contacts batch.accountId id).isSome → ∀ field, batch.type.counts field →
      IsLatest (times s.processed batch.accountId id field ++ ownTimes batch.events id)
        (some (first.timestamp * 1000))

/-! ## One batch -/

section Proofs
variable {convertTimestampToTimezone}

theorem times_append (processed : List (Nat × EventsType × Event)) (batch : Batch Z)
    (accountId : Nat) (id : Int) (field : Field) :
    times (processed ++ batch.events.map fun event => (batch.accountId, batch.type, event))
      accountId id field =
      times processed accountId id field ++
        if accountId = batch.accountId ∧ batch.type.counts field then ownTimes batch.events id
        else [] := by
  rw [times, List.filterMap_append, List.filterMap_map]
  refine congrArg (_ ++ ·) ?_
  split
  case isTrue h =>
    rw [ownTimes, ← List.filterMap_eq_map, List.filterMap_filter]
    refine List.filterMap_congr fun event _ => ?_
    simp [h.1, h.2]
  case isFalse h =>
    refine List.filterMap_eq_nil_iff.mpr fun event _ => if_neg fun hall => h ⟨hall.1.symm, hall.2.1⟩

theorem ownTimes_eq_nil {events : List Event} {id : Int} (h : id ∉ ids events) :
    ownTimes events id = [] := by
  rw [ownTimes, List.filter_eq_nil_iff.mpr, List.map_nil]
  intro event hevent hid
  exact h (List.mem_filterMap.mpr ⟨event, hevent, of_decide_eq_true hid⟩)

/-- A batch writes the times it is about, and no others. -/
theorem time_change (type : EventsType) (t : Int) (timeZone : Z) (contact : Contact D)
    (field : Field) :
    (change convertTimestampToTimezone type t timeZone contact).time field =
      if type.counts field then some t else contact.time field := by
  cases type <;> cases field <;> rfl

theorem process_eq {s : State D} {batch : Batch Z} {first : Event} {rest : List Event}
    (h : batch.events = first :: rest) :
    process convertTimestampToTimezone s batch =
      ⟨fun accountId id =>
        if accountId = batch.accountId ∧ (ids batch.events).contains id then
          (s.contacts accountId id).map
            (change convertTimestampToTimezone batch.type (first.timestamp * 1000) batch.timeZone)
        else s.contacts accountId id,
        s.processed ++ batch.events.map fun event => (batch.accountId, batch.type, event)⟩ := by
  simp only [process, updateContact, h]

theorem latest_process {s : State D} (hs : Latest s) (batch : Batch Z) :
    Latest (process convertTimestampToTimezone s batch) ↔ FirstLatest s batch := by
  cases hevents : batch.events with
  | nil =>
      have hsame : process convertTimestampToTimezone s batch = s := by
        rw [process, updateContact, hevents]
      rw [hsame]
      refine iff_of_true hs ?_
      intro first hfirst
      rw [hevents] at hfirst
      exact nomatch hfirst
  | cons first rest =>
      rw [process_eq hevents]
      constructor
      · intro h first' hfirst id hid hsome field hcounts
        rw [hevents, List.head?_cons, Option.mem_some_iff] at hfirst
        subst hfirst
        obtain ⟨contact, hcontact⟩ := Option.isSome_iff_exists.mp hsome
        have hlatest := h batch.accountId id
          (change convertTimestampToTimezone batch.type (first.timestamp * 1000) batch.timeZone contact)
          (by simp only [hcontact, Option.map_some, List.contains_iff_mem.mpr hid, and_self, if_true])
          field
        rw [time_change, if_pos hcounts, times_append, if_pos ⟨rfl, hcounts⟩] at hlatest
        exact hlatest
      · intro h accountId id contact hcontact field
        dsimp only at hcontact ⊢
        rw [times_append]
        by_cases hwritten : accountId = batch.accountId ∧ (ids batch.events).contains id = true
        · obtain ⟨rfl, hid⟩ := hwritten
          rw [if_pos ⟨rfl, hid⟩] at hcontact
          obtain ⟨contact', hcontact', rfl⟩ := Option.map_eq_some_iff.mp hcontact
          rw [time_change]
          by_cases hcounts : batch.type.counts field = true
          · rw [if_pos hcounts, if_pos ⟨rfl, hcounts⟩]
            exact h first (by rw [hevents]; rfl) id (List.contains_iff_mem.mp hid)
              (Option.isSome_iff_exists.mpr ⟨contact', hcontact'⟩) field hcounts
          · rw [if_neg hcounts, if_neg fun hboth => hcounts hboth.2, List.append_nil]
            exact hs _ id contact' hcontact' field
        · rw [if_neg hwritten] at hcontact
          have hown : (if accountId = batch.accountId ∧ batch.type.counts field = true then
              ownTimes batch.events id else []) = [] := by
            split
            case isTrue hboth =>
              exact ownTimes_eq_nil fun hid =>
                hwritten ⟨hboth.1, List.contains_iff_mem.mpr hid⟩
            case isFalse => rfl
          rw [hown, List.append_nil]
          exact hs accountId id contact hcontact field

theorem latest_init (rows : Nat → Int → Bool) : Latest (State.init rows : State D) := by
  intro accountId id contact hcontact field
  obtain ⟨-, rfl⟩ : rows accountId id = true ∧ Contact.blank = contact := by
    simpa [State.init] using hcontact
  cases field <;> rfl

/-- After every batch of a run every contact has the latest times of its own events, exactly
when in every batch the first event is the latest of each contact that it writes. -/
theorem latest_iff (convertTimestampToTimezone : Int → Z → D) (rows : Nat → Int → Bool)
    (batches : List (Batch Z)) :
    (∀ before after, batches = before ++ after →
      Latest (before.foldl (process convertTimestampToTimezone) (State.init rows))) ↔
    Meets (fun s batch => some (process convertTimestampToTimezone s batch)) FirstLatest
      (State.init rows) batches :=
  always_iff (I := Latest) (fun _ batch hs => latest_process hs batch) (latest_init rows) batches

end Proofs

end

/-- Two opens in one batch: contact 6 has the time of contact 5. -/
theorem other_time : ¬ ∀ (rows : Nat → Int → Bool) (batches : List (Batch Unit))
    (before after : List (Batch Unit)), batches = before ++ after →
      Latest (before.foldl (process fun t _ => t) (State.init rows)) := by
  intro h
  have hlatest := h (fun _ _ => true) [⟨.open, 1, (), [⟨some 5, 10⟩, ⟨some 6, 20⟩]⟩] _ []
    (List.append_nil _).symm 1 6 _ rfl .lastOpen
  exact absurd hlatest.1 (by decide)

end OpenBms.Events.Activity
