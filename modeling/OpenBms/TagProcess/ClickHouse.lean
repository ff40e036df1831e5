/-
# `OpenBms.TagProcess.ClickHouse` — `app.processSegmentToClickHouse`

Who entered or left a segment arrives in messages of at most 50 000 contacts.
The handler splits a message again, in batches of 10 000, and publishes one
analytics event for each contact of a batch.  For the base-size segment it first
asks the database, once for the whole message, why each contact moved:

    const contactsUuid = reasons ? reasons : await findContactsUUID(contacts, ..)

so there every batch publishes, and counts, the whole message.

**Proved here.**

    a message's events, batch by batch (`handled_events`)
    a contact's events in a message, with reasons (`countP_base`)
    and without (`countP_plain`)
    what a message adds to the counters (`total_handled`)
    when a run has one event for each contact (`clickHouse_once_iff`)
    10 001 contacts are told twice (`clickHouse_twice`)
-/
import OpenBms.TagProcess.SegmentRun
import OpenBms.Segment.Types

namespace OpenBms.TagProcess

open Js OpenBms.Segment

/-! ## The database -/

/-- A row of `contacts`; dates are moments. -/
structure ContactRow where
  id : Int
  accountId : Int
  uuid : String
  email : Option String := none
  isUnsubscribed : Bool := false
  isValid : Bool := true
  hasBounced : Bool := false
  lastOpenDate : Option Int := none
  lastClickDate : Option Int := none

structure ContactTagRow where
  contactId : Int
  tagId : Int
  accountId : Int
  deriving DecidableEq

/-- A row of `leads`; `createdAtDate` is a day. -/
structure LeadRow where
  contactId : Int
  accountId : Int
  createdAtDate : Int
  deriving DecidableEq

structure Suppression where
  email : String
  unsubscribedAt : Int
  deriving DecidableEq

/-- The account, as far as it is read: `accountConfigs` is its `time_zone`. -/
structure Account where
  id : Int
  accountConfigs : Option Val
  deriving DecidableEq

/-- The `steps` of a segment: a JSON text, or a value already parsed. -/
inductive StoredSteps where
  | text (steps : List (List Step))
  | parsed (steps : List (List Step))
  deriving DecidableEq

/-- What the services outside the repository make of texts: `toLowerCase`,
`CURRENT_DATE AT TIME ZONE '..'`, `interval '.. day'` and the day three days ago in
a time zone; `none` where they refuse the text. -/
structure Engine where
  toLowerCase : String → String
  currentDate : String → Option Int
  interval : Val → Option Int
  last3Days : String → Option Int

structure ClickHouseDb where
  engine : Engine
  account : Option Account
  steps : Option StoredSteps
  contacts : List ContactRow
  contactsTags : List ContactTagRow := []
  leads : List LeadRow := []
  suppressions : List Suppression := []
  key : (contacts.map fun c => (c.id, c.accountId)).Nodup

/-! ## The reasons -/

structure OutReason where
  unsub : Bool
  invalid : Bool
  isSuppression : Bool
  bounced : Bool
  opened : Bool
  click : Bool
  inTag : Bool
  deriving DecidableEq

structure InReason where
  bought : Bool
  reengaged : Bool
  deriving DecidableEq

inductive Reason where
  | out (r : OutReason)
  | into (r : InReason)
  deriving DecidableEq

/-- A row the loop publishes: `reason` in the rows of the reason queries, `email`
in those of `findContactsUUID`. -/
structure Row where
  id : Int
  uuid : String
  email : Option String := none
  reason : Option Reason := none

structure SegmentToClickHouse where
  type : SegmentEvent
  tagId : Int
  tagName : String
  accountId : Int
  contacts : List Int

structure Filters where
  opened : Val := .num 30
  click : Val := .num 30
  tags : List Int := [0]
  deriving DecidableEq

/-- One card of `steps`. -/
def Filters.read (filters : Filters) (card : Step) : Filters :=
  match card.body with
  | .interation d =>
      if d.event = .str "last_open_date" ∧ d.time.truthy = true then
        { filters with opened := d.time }
      else if d.event = .str "last_click_date" ∧ d.time.truthy = true then
        { filters with click := d.time }
      else filters
  | .tag d => { filters with tags := d.tagId }
  | _ => filters

def filtersOf (steps : List (List Step)) : Filters :=
  steps.foldl (fun filters cards => cards.foldl Filters.read filters) {}

/-- `x > cutoff`, false on a null. -/
def after (x : Option Int) (cutoff : Int) : Bool :=
  match x with
  | none => false
  | some t => decide (cutoff < t)

/-- What the query of who left compares with. -/
structure Window where
  tags : List Int
  clickCut : Int
  openCut : Int
  deriving DecidableEq

def leftJoin {α : Type} (rows : List α) : List (Option α) :=
  match rows with
  | [] => [none]
  | rows => rows.map some

section
variable (db : ClickHouseDb)

/-- `inner join contacts b on b.id = a.contact_id and b.account_id = ..`. -/
def ClickHouseDb.known (accountId i : Int) : List ContactRow :=
  db.contacts.filter fun b => decide (b.id = i ∧ b.accountId = accountId)

/-- The suppressions a contact is joined with. -/
def ClickHouseDb.suppressed (w : Window) (b : ContactRow) : List Suppression :=
  db.suppressions.filter fun s => decide (b.email = some s.email ∧ w.openCut < s.unsubscribedAt)

def ClickHouseDb.outReason (accountId : Int) (w : Window) (b : ContactRow)
    (s : Option Suppression) : OutReason where
  unsub := b.isUnsubscribed
  invalid := !b.isValid
  isSuppression := s.isSome
  bounced := b.hasBounced
  opened := !after b.lastOpenDate w.openCut
  click := !after b.lastClickDate w.clickCut
  inTag := db.contactsTags.any fun t =>
    t.contactId = b.id && t.accountId = accountId && t.tagId ∈ w.tags

/-- The rows of `processSegmentOutLogic` for one contact of the table. -/
def ClickHouseDb.outRows (accountId : Int) (w : Window) (i : Int) : List Row :=
  (db.known accountId i).flatMap fun b =>
    (leftJoin (db.suppressed w b)).map fun s =>
      { id := b.id, uuid := b.uuid, reason := some (.out (db.outReason accountId w b s)) }

/-- The rows of `processSegmentInLogic` for one contact of the table. -/
def ClickHouseDb.inRows (accountId day i : Int) : List Row :=
  (db.known accountId i).map fun b =>
    let bought := db.leads.any fun l =>
      l.contactId = b.id && l.accountId = accountId && day ≤ l.createdAtDate
    { id := b.id
      uuid := b.uuid
      reason := some (.into { bought := bought, reengaged := !bought }) }

/-- The time zone of the account's configuration, `'America/Sao_Paulo'` by default. -/
def Account.timeZone (account : Account) : Option String :=
  account.accountConfigs.map fun tz =>
    if tz.truthy then tz.text else "America/Sao_Paulo"

/-- `none` where `JSON.parse` throws or the database refuses: an empty `IN ()`, a
text that is no interval. -/
def ClickHouseDb.window (timeZone : String) : Option Window :=
  match db.steps with
  | some (.text steps) =>
      let filters := filtersOf steps
      if filters.tags = [] then none
      else
        match db.engine.currentDate timeZone, db.engine.interval filters.click,
          db.engine.interval filters.opened with
        | some today, some click, some opened =>
            some ⟨filters.tags, today - click, today - opened⟩
        | _, _, _ => none
  | _ => none

/-- The reasons query of a message for one contact of its table, if it can be made. -/
def ClickHouseDb.reasonsOf (type : SegmentEvent) (accountId : Int) : Option (Int → List Row) :=
  (db.account.bind Account.timeZone).bind fun timeZone =>
    match type with
    | .segmentIn => (db.engine.last3Days timeZone).map (db.inRows accountId)
    | .segmentOut => (db.window timeZone).map (db.outRows accountId)

def ClickHouseDb.findContactsUUID (contacts : List Int) (accountId : Int) : List Row :=
  (db.contacts.filter fun b => decide (b.accountId = accountId ∧ b.id ∈ contacts)).map fun b =>
    { id := b.id, uuid := b.uuid, email := b.email }

/-! ## The counters -/

structure ReasonData where
  unsubQtd : Nat := 0
  bounceQtd : Nat := 0
  openQtd : Nat := 0
  clickQtd : Nat := 0
  inTagQtd : Nat := 0
  engagementQtd : Nat := 0
  invalidQtd : Nat := 0
  deriving DecidableEq

structure ReasonInData where
  bought : Nat := 0
  reengaged : Nat := 0
  deriving DecidableEq

/-- What one contact that left adds. -/
def OutReason.data (r : OutReason) : ReasonData :=
  if r.bounced then { bounceQtd := 1 }
  else if r.unsub then { unsubQtd := 1 }
  else if r.invalid then { invalidQtd := 1 }
  else if r.inTag then { inTagQtd := 1 }
  else if r.opened || r.click then
    { engagementQtd := 1
      openQtd := if r.opened && !r.click then 1 else 0
      clickQtd := if r.click && !r.opened then 1 else 0 }
  else {}

/-- What one contact that entered adds. -/
def InReason.data (r : InReason) : ReasonInData :=
  if r.bought then { bought := 1 } else { reengaged := 1 }

def ReasonData.add (d e : ReasonData) : ReasonData where
  unsubQtd := d.unsubQtd + e.unsubQtd
  bounceQtd := d.bounceQtd + e.bounceQtd
  openQtd := d.openQtd + e.openQtd
  clickQtd := d.clickQtd + e.clickQtd
  inTagQtd := d.inTagQtd + e.inTagQtd
  engagementQtd := d.engagementQtd + e.engagementQtd
  invalidQtd := d.invalidQtd + e.invalidQtd

def ReasonInData.add (d e : ReasonInData) : ReasonInData where
  bought := d.bought + e.bought
  reengaged := d.reengaged + e.reengaged

/-- An entry of `segmentInfo`, what this handler reads and writes of it. -/
structure ReasonInfo where
  outInfo : Option ReasonData := none
  inInfo : Option ReasonInData := none
  deriving DecidableEq

/-! ## The handler -/

/-- An event for the analytics queue; `reason` is its `properties.contact`, whose
other fields the event repeats. -/
structure AnalyticsEvent where
  event : SegmentEvent
  accountId : Int
  contactId : Int
  uuid : String
  email : Option String
  segmentId : Int
  segmentName : String
  reason : Option Reason

structure LoopState where
  events : List AnalyticsEvent := []
  reasonData : ReasonData := {}
  reasonInData : ReasonInData := {}

def eventOf (account : Account) (data : SegmentToClickHouse) (contact : Row) : AnalyticsEvent where
  event := data.type
  accountId := account.id
  contactId := contact.id
  uuid := contact.uuid
  email := contact.email
  segmentId := data.tagId
  segmentName := data.tagName
  reason := contact.reason

/-- The body of `contactsUuid.map`. -/
def publishRow (account : Account) (data : SegmentToClickHouse) (s : LoopState) (contact : Row) :
    LoopState :=
  let s :=
    match contact.reason with
    | none => s
    | some (.into r) => { s with reasonInData := s.reasonInData.add r.data }
    | some (.out r) => { s with reasonData := s.reasonData.add r.data }
  { s with events := s.events ++ [eventOf account data contact] }

/-- One batch: all the reasons if there are any, else the batch's contacts. -/
def publishBatch (account : Account) (data : SegmentToClickHouse) (reasons : Option (List Row))
    (s : LoopState) (contacts : List Int) : LoopState :=
  let contactsUuid := reasons.getD (db.findContactsUUID contacts data.accountId)
  contactsUuid.foldl (publishRow account data) s

/-- `segmentInfo` with the counters of a message added to its last entry, or to a
first one. -/
def addReasons (type : SegmentEvent) (s : LoopState) (infos : List ReasonInfo) : List ReasonInfo :=
  let lastEntry := infos.getLastD {}
  let lastEntry :=
    match type with
    | .segmentOut => { lastEntry with outInfo := some ((lastEntry.outInfo.getD {}).add s.reasonData) }
    | .segmentIn => { lastEntry with inInfo := some ((lastEntry.inInfo.getD {}).add s.reasonInData) }
  infos.dropLast ++ [lastEntry]

structure Handled where
  events : List AnalyticsEvent := []
  segmentInfo : Option (List ReasonInfo)
  outcome : Except Js.Error Unit

def splitSize : Nat := 10000

def baseSize (data : SegmentToClickHouse) : Bool :=
  db.engine.toLowerCase data.tagName = "00 - base size"

/-- The handler on the tag's `segmentInfo`. -/
def processSegmentToClickHouse (infos : Option (List ReasonInfo)) (data : SegmentToClickHouse) :
    Handled :=
  let contactsSplit := Chunk.chunk splitSize data.contacts
  if baseSize db data then
    match db.reasonsOf data.type data.accountId, db.account with
    | some rows, some account =>
        let reasons := contactsSplit.flatten.flatMap rows
        let s := contactsSplit.foldl (publishBatch db account data (some reasons)) {}
        match db.steps, infos with
        | some _, some l =>
            { events := s.events, segmentInfo := some (addReasons data.type s l), outcome := .ok () }
        | _, _ => { events := s.events, segmentInfo := infos, outcome := .error .typeError }
    | _, _ => { segmentInfo := infos, outcome := .error .typeError }
  else
    match db.account with
    | some account =>
        let s := contactsSplit.foldl (publishBatch db account data none) {}
        { events := s.events, segmentInfo := infos, outcome := .ok () }
    | none =>
        -- `account.id` is read for each contact found
        if contactsSplit.all fun b => (db.findContactsUUID b data.accountId).isEmpty then
          { segmentInfo := infos, outcome := .ok () }
        else { segmentInfo := infos, outcome := .error .typeError }

/-- Messages handled one after the other. -/
def handleAll : Option (List ReasonInfo) → List SegmentToClickHouse →
    List AnalyticsEvent × Option (List ReasonInfo)
  | infos, [] => ([], infos)
  | infos, data :: rest =>
      let h := processSegmentToClickHouse db infos data
      let r := handleAll h.segmentInfo rest
      (h.events ++ r.1, r.2)

end

/-! ## The events of a message -/

section
variable {db : ClickHouseDb} {account : Account} {data : SegmentToClickHouse}

theorem publishRows_events (rows : List Row) : ∀ s : LoopState,
    (rows.foldl (publishRow account data) s).events = s.events ++ rows.map (eventOf account data) := by
  induction rows with
  | nil =>
      intro s
      exact (List.append_nil _).symm
  | cons row rows ih =>
      intro s
      have hrow : (publishRow account data s row).events = s.events ++ [eventOf account data row] := by
        unfold publishRow
        split <;> rfl
      rw [List.foldl_cons, ih, hrow, List.append_assoc]
      rfl

theorem publishBatches_events (reasons : Option (List Row)) (split : List (List Int)) :
    ∀ s : LoopState, (split.foldl (publishBatch db account data reasons) s).events
      = s.events ++ split.flatMap fun b =>
          (reasons.getD (db.findContactsUUID b data.accountId)).map (eventOf account data) := by
  induction split with
  | nil =>
      intro s
      exact (List.append_nil _).symm
  | cons b split ih =>
      intro s
      rw [List.foldl_cons, ih, publishBatch, publishRows_events, List.append_assoc]
      rfl

/-- The rows a batch of a message publishes. -/
def batchRows (db : ClickHouseDb) (data : SegmentToClickHouse) (b : List Int) : List Row :=
  if baseSize db data then
    match db.reasonsOf data.type data.accountId with
    | some rows => data.contacts.flatMap rows
    | none => []
  else db.findContactsUUID b data.accountId

/-- The events of a message. -/
def published (db : ClickHouseDb) (data : SegmentToClickHouse) : List AnalyticsEvent :=
  match db.account with
  | none => []
  | some account =>
      (Chunk.chunk splitSize data.contacts).flatMap fun b =>
        (batchRows db data b).map (eventOf account data)

theorem flatten_split (data : SegmentToClickHouse) :
    (Chunk.chunk splitSize data.contacts).flatten = data.contacts :=
  Chunk.flatten_chunk (by decide) _

/-- A message's events, batch by batch, whatever the tag holds. -/
theorem handled_events (infos : Option (List ReasonInfo)) :
    (processSegmentToClickHouse db infos data).events = published db data := by
  unfold processSegmentToClickHouse published batchRows
  dsimp only
  rw [flatten_split]
  cases hacc : db.account with
  | none =>
      split
      · cases db.reasonsOf data.type data.accountId <;> rfl
      · dsimp only
        split <;> rfl
  | some account =>
      by_cases hbase : baseSize db data = true
      · simp only [hbase, if_true]
        cases hr : db.reasonsOf data.type data.accountId with
        | none => simp
        | some rows =>
            dsimp only
            split <;> exact publishBatches_events _ _ _
      · simp only [hbase, Bool.false_eq_true, if_false]
        exact publishBatches_events _ _ _

/-! ### Counting a contact's events -/

/-- An event of a kind about a contact. -/
def tells (type : SegmentEvent) (c : Int) (e : AnalyticsEvent) : Bool :=
  e.event = type && e.contactId = c

theorem countP_map_eventOf (type : SegmentEvent) (c : Int) (rows : List Row) :
    (rows.map (eventOf account data)).countP (tells type c)
      = if data.type = type then rows.countP fun r => r.id = c else 0 := by
  rw [List.countP_map]
  split
  · rename_i h
    simp [Function.comp_def, tells, eventOf, h]
  · rename_i h
    simp [Function.comp_def, tells, eventOf, h]

theorem countP_flatMap {α : Type} (f : α → List AnalyticsEvent) (p : AnalyticsEvent → Bool)
    (l : List α) : (l.flatMap f).countP p = (l.map fun a => (f a).countP p).sum :=
  List.countP_flatMap

/-- Rows made contact by contact, each about its own. -/
theorem countP_rows {rows : Int → List Row} (h : ∀ i, ∀ r ∈ rows i, r.id = i) (c : Int)
    (ids : List Int) :
    (ids.flatMap rows).countP (fun r => r.id = c) = ids.count c * (rows c).length := by
  induction ids with
  | nil => simp
  | cons i ids ih =>
      rw [List.flatMap_cons, List.countP_append, ih, List.count_cons, Nat.add_mul, Nat.add_comm]
      congr 1
      by_cases hi : i = c
      · subst hi
        simp only [beq_self_eq_true, if_true, Nat.one_mul]
        exact List.countP_eq_length.mpr fun r hr => by simpa using h i r hr
      · simp only [beq_iff_eq, hi, if_false, Nat.zero_mul]
        exact List.countP_eq_zero.mpr fun r hr => by simpa [h i r hr] using hi

theorem known_id {accountId i : Int} {b : ContactRow} (h : b ∈ db.known accountId i) :
    b ∈ db.contacts ∧ b.id = i ∧ b.accountId = accountId := by
  simpa [ClickHouseDb.known] using h

/-- A contact's rows are about it. -/
theorem rows_id {type : SegmentEvent} {accountId : Int} {rows : Int → List Row}
    (h : db.reasonsOf type accountId = some rows) (i : Int) : ∀ r ∈ rows i, r.id = i := by
  intro r hr
  unfold ClickHouseDb.reasonsOf at h
  obtain ⟨timeZone, _, h⟩ := Option.bind_eq_some_iff.mp h
  cases type with
  | segmentIn =>
      obtain ⟨day, _, rfl⟩ := Option.map_eq_some_iff.mp h
      obtain ⟨b, hb, rfl⟩ := List.mem_map.mp hr
      exact (known_id hb).2.1
  | segmentOut =>
      obtain ⟨w, _, rfl⟩ := Option.map_eq_some_iff.mp h
      obtain ⟨b, hb, hr⟩ := List.mem_flatMap.mp hr
      obtain ⟨s, _, rfl⟩ := List.mem_map.mp hr
      exact (known_id hb).2.1

theorem countP_base (hbase : baseSize db data = true) {rows : Int → List Row}
    (hrows : db.reasonsOf data.type data.accountId = some rows) (c : Int) :
    (published db data).countP (tells data.type c)
      = (Chunk.chunk splitSize data.contacts).length
        * (data.contacts.count c * (rows c).length) := by
  have hacc : ∃ account, db.account = some account := by
    cases h : db.account with
    | none => simp [ClickHouseDb.reasonsOf, h] at hrows
    | some account => exact ⟨account, rfl⟩
  obtain ⟨account, hacc⟩ := hacc
  simp only [published, hacc, countP_flatMap, countP_map_eventOf, if_true, batchRows, hbase, hrows,
    countP_rows (rows_id hrows), List.map_const', List.sum_replicate, smul_eq_mul]

theorem countP_plain (hbase : baseSize db data = false) (hacc : db.account = some account)
    (c : Int) :
    (published db data).countP (tells data.type c)
      = (Chunk.chunk splitSize data.contacts).countP (fun b => c ∈ b)
        * (db.known data.accountId c).length := by
  have hbatch : ∀ b, (db.findContactsUUID b data.accountId).countP (fun r => r.id = c)
      = if c ∈ b then (db.known data.accountId c).length else 0 := by
    intro b
    simp only [ClickHouseDb.findContactsUUID, List.countP_map, List.countP_filter,
      ClickHouseDb.known, ← List.countP_eq_length_filter, Function.comp_def]
    split
    · rename_i hc
      exact List.countP_congr fun r _ => by simp; grind
    · rename_i hc
      exact List.countP_eq_zero.mpr fun r _ => by simp; grind
  simp only [published, hacc, countP_flatMap, countP_map_eventOf, if_true, batchRows, hbase,
    Bool.false_eq_true, if_false, hbatch]
  generalize Chunk.chunk splitSize data.contacts = split
  induction split with
  | nil => simp
  | cons b split ih =>
      rw [List.map_cons, List.sum_cons, ih, List.countP_cons, Nat.add_mul, Nat.add_comm]
      congr 1
      by_cases hc : c ∈ b <;> simp [hc]

theorem countP_other {type : SegmentEvent} (h : data.type ≠ type) (c : Int) :
    (published db data).countP (tells type c) = 0 := by
  unfold published
  split
  · rfl
  · simp only [countP_flatMap, countP_map_eventOf, h, if_false, List.map_const', List.sum_replicate,
      smul_zero]

end

/-! ## The counters of a message -/

/-- The contacts that counters count: one of five reasons each, the first that
applies; `openQtd` and `clickQtd` only split `engagementQtd`. -/
def ReasonData.total (d : ReasonData) : Nat :=
  d.unsubQtd + d.bounceQtd + d.inTagQtd + d.engagementQtd + d.invalidQtd

def OutReason.given (r : OutReason) : Bool :=
  r.bounced || r.unsub || r.invalid || r.inTag || r.opened || r.click

/-- A row the counters count. -/
def Row.given (row : Row) : Bool :=
  match row.reason with
  | some (.out r) => r.given
  | _ => false

@[simp]
theorem ReasonData.total_add (d e : ReasonData) : (d.add e).total = d.total + e.total := by
  simp only [ReasonData.total, ReasonData.add]
  omega

theorem OutReason.total_data (r : OutReason) : r.data.total = if r.given then 1 else 0 := by
  obtain ⟨unsub, invalid, _, bounced, opened, click, inTag⟩ := r
  cases bounced <;> cases unsub <;> cases invalid <;> cases inTag <;> cases opened <;>
    cases click <;> rfl

/-- The contacts counted as having left, in a tag's `segmentInfo`. -/
def leftTotal (infos : Option (List ReasonInfo)) : Nat :=
  (((infos.getD []).getLastD {}).outInfo.getD {}).total

section
variable {db : ClickHouseDb} {account : Account} {data : SegmentToClickHouse}

theorem publishRows_total (rows : List Row) : ∀ s : LoopState,
    (rows.foldl (publishRow account data) s).reasonData.total
      = s.reasonData.total + rows.countP Row.given := by
  induction rows with
  | nil =>
      intro s
      rfl
  | cons row rows ih =>
      intro s
      have hrow : (publishRow account data s row).reasonData.total
          = s.reasonData.total + if row.given then 1 else 0 := by
        obtain ⟨_, _, _, reason⟩ := row
        rcases reason with _ | r | r
        · rfl
        · exact (ReasonData.total_add _ _).trans (congrArg _ (OutReason.total_data r))
        · rfl
      rw [List.foldl_cons, ih, hrow, List.countP_cons]
      omega

theorem publishBatches_total (rows : List Row) (split : List (List Int)) : ∀ s : LoopState,
    (split.foldl (publishBatch db account data (some rows)) s).reasonData.total
      = s.reasonData.total + split.length * rows.countP Row.given := by
  induction split with
  | nil =>
      intro s
      simp
  | cons b split ih =>
      intro s
      have hb : (publishBatch db account data (some rows) s b).reasonData.total
          = s.reasonData.total + rows.countP Row.given := publishRows_total rows s
      rw [List.foldl_cons, ih, hb, List.length_cons, Nat.add_mul]
      omega

/-- What a message adds to the contacts counted as having left. -/
def added (db : ClickHouseDb) (data : SegmentToClickHouse) : Nat :=
  if baseSize db data = true ∧ data.type = .segmentOut then
    ((db.reasonsOf data.type data.accountId).map fun rows =>
      (Chunk.chunk splitSize data.contacts).length
        * (data.contacts.flatMap rows).countP Row.given).getD 0
  else 0

theorem leftTotal_addReasons_out (s : LoopState) (l : List ReasonInfo) :
    leftTotal (some (addReasons .segmentOut s l)) = leftTotal (some l) + s.reasonData.total := by
  simp [leftTotal, addReasons]

theorem leftTotal_addReasons_in (s : LoopState) (l : List ReasonInfo) :
    leftTotal (some (addReasons .segmentIn s l)) = leftTotal (some l) := by
  simp [leftTotal, addReasons]

/-- The query of who left has read the account and the tag. -/
theorem reasonsOf_out {accountId : Int} {rows : Int → List Row}
    (h : db.reasonsOf .segmentOut accountId = some rows) :
    ∃ account steps w, db.account = some account ∧ db.steps = some steps ∧
      rows = db.outRows accountId w ∧
      ∃ timeZone, account.timeZone = some timeZone ∧ db.window timeZone = some w := by
  unfold ClickHouseDb.reasonsOf at h
  obtain ⟨timeZone, hzone, h⟩ := Option.bind_eq_some_iff.mp h
  obtain ⟨account, hacc, hzone⟩ := Option.bind_eq_some_iff.mp hzone
  obtain ⟨w, hw, rfl⟩ := Option.map_eq_some_iff.mp h
  cases hsteps : db.steps with
  | none => simp [ClickHouseDb.window, hsteps] at hw
  | some steps => exact ⟨account, steps, w, hacc, rfl, rfl, timeZone, hzone, hw⟩

theorem total_handled (l : List ReasonInfo) :
    ∃ l', (processSegmentToClickHouse db (some l) data).segmentInfo = some l' ∧
      leftTotal (some l') = leftTotal (some l) + added db data := by
  unfold processSegmentToClickHouse added
  dsimp only
  rw [flatten_split]
  by_cases hbase : baseSize db data = true
  · simp only [hbase, if_true, true_and]
    cases hr : db.reasonsOf data.type data.accountId with
    | none => exact ⟨l, rfl, by simp⟩
    | some rows =>
        cases hacc : db.account with
        | none => simp [ClickHouseDb.reasonsOf, hacc] at hr
        | some account =>
            cases ht : data.type with
            | segmentIn =>
                dsimp only
                cases hsteps : db.steps with
                | none => exact ⟨l, rfl, by simp⟩
                | some steps => exact ⟨_, rfl, by rw [leftTotal_addReasons_in]; simp⟩
            | segmentOut =>
                rw [ht] at hr
                obtain ⟨_, steps, _, _, hsteps, _⟩ := reasonsOf_out hr
                simp only [hsteps]
                refine ⟨_, rfl, ?_⟩
                rw [leftTotal_addReasons_out, publishBatches_total]
                simp [ReasonData.total]
  · simp only [hbase, Bool.false_eq_true, if_false, false_and]
    cases db.account with
    | some account => exact ⟨l, rfl, rfl⟩
    | none =>
        dsimp only
        split <;> exact ⟨l, rfl, rfl⟩

theorem handled_none :
    (processSegmentToClickHouse db none data).segmentInfo = none := by
  unfold processSegmentToClickHouse
  dsimp only
  split
  · split
    · split
      · rename_i h
        cases h
      · rfl
    · rfl
  · split
    · rfl
    · split <;> rfl

end

/-! ## The messages of a run -/

/-- What a segment run publishes: its tag, and who entered and left. -/
structure SegmentMoves where
  tagId : Int
  tagName : String
  accountId : Int
  insertIds : List Int
  deleteIds : List Int

def SegmentMoves.ids (run : SegmentMoves) : SegmentEvent → List Int
  | .segmentIn => run.insertIds
  | .segmentOut => run.deleteIds

def SegmentMoves.message (run : SegmentMoves) (type : SegmentEvent) (contacts : List Int) :
    SegmentToClickHouse :=
  ⟨type, run.tagId, run.tagName, run.accountId, contacts⟩

def SegmentMoves.sent (run : SegmentMoves) (type : SegmentEvent) : List SegmentToClickHouse :=
  (Chunk.chunk chunkSize (run.ids type)).map (run.message type)

def SegmentMoves.messages (run : SegmentMoves) : List SegmentToClickHouse :=
  run.sent .segmentIn ++ run.sent .segmentOut

section
variable {db : ClickHouseDb} {run : SegmentMoves}

theorem handleAll_events (msgs : List SegmentToClickHouse) :
    ∀ infos, (handleAll db infos msgs).1 = msgs.flatMap (published db) := by
  induction msgs with
  | nil =>
      intro infos
      rfl
  | cons data msgs ih =>
      intro infos
      simp only [handleAll, handled_events, ih, List.flatMap_cons]

theorem handleAll_total (msgs : List SegmentToClickHouse) :
    ∀ l, leftTotal (handleAll db (some l) msgs).2
      = leftTotal (some l) + (msgs.map (added db)).sum := by
  induction msgs with
  | nil =>
      intro l
      rfl
  | cons data msgs ih =>
      intro l
      obtain ⟨l', hl', htotal⟩ := @total_handled db data l
      simp only [handleAll, hl', ih, htotal, List.map_cons, List.sum_cons]
      omega

theorem handleAll_none (msgs : List SegmentToClickHouse) :
    (handleAll db none msgs).2 = none := by
  induction msgs with
  | nil => rfl
  | cons data msgs ih => simp only [handleAll, handled_none, ih]

theorem countP_run {msgs : List SegmentToClickHouse} (h : msgs.Perm run.messages)
    (type : SegmentEvent) (c : Int) :
    (msgs.flatMap (published db)).countP (tells type c)
      = ((Chunk.chunk chunkSize (run.ids type)).map fun m =>
          (published db (run.message type m)).countP (tells type c)).sum := by
  have hsent : ∀ t, ((run.sent t).map fun data => (published db data).countP (tells type c)).sum
      = if t = type then ((Chunk.chunk chunkSize (run.ids type)).map fun m =>
          (published db (run.message type m)).countP (tells type c)).sum else 0 := by
    intro t
    split
    · rename_i ht
      subst ht
      rw [SegmentMoves.sent, List.map_map]
      rfl
    · rename_i ht
      rw [SegmentMoves.sent, List.map_map]
      refine List.sum_eq_zero fun n hn => ?_
      obtain ⟨m, _, rfl⟩ := List.mem_map.mp hn
      exact @countP_other db (run.message t m) type ht c
  rw [(h.flatMap_right _).countP_eq, countP_flatMap, SegmentMoves.messages, List.map_append,
    List.sum_append, hsent, hsent]
  cases type <;> simp

theorem added_run {msgs : List SegmentToClickHouse} (h : msgs.Perm run.messages) :
    (msgs.map (added db)).sum
      = ((Chunk.chunk chunkSize run.deleteIds).map fun m =>
          added db (run.message .segmentOut m)).sum := by
  have hin : ((run.sent .segmentIn).map (added db)).sum = 0 := by
    refine List.sum_eq_zero fun n hn => ?_
    obtain ⟨data, hdata, rfl⟩ := List.mem_map.mp hn
    obtain ⟨m, _, rfl⟩ := List.mem_map.mp hdata
    exact if_neg fun h => by cases h.2
  rw [(h.map _).sum_eq, SegmentMoves.messages, List.map_append, List.sum_append, hin, Nat.zero_add,
    SegmentMoves.sent, List.map_map]
  rfl

theorem mem_published {data : SegmentToClickHouse} {e : AnalyticsEvent}
    (he : e ∈ published db data) : e.event = data.type ∧ e.contactId ∈ data.contacts ∧
      (baseSize db data = true → ∃ rows, db.reasonsOf data.type data.accountId = some rows ∧
        ∃ r ∈ rows e.contactId, e.reason = r.reason) := by
  unfold published at he
  split at he
  · cases he
  · rename_i account _
    obtain ⟨b, hb, he⟩ := List.mem_flatMap.mp he
    obtain ⟨row, hrow, rfl⟩ := List.mem_map.mp he
    have hin : ∀ i ∈ b, i ∈ data.contacts := fun i hi => by
      have hmem := List.mem_flatten.mpr ⟨b, hb, hi⟩
      rwa [flatten_split] at hmem
    unfold batchRows at hrow
    split at hrow
    · rename_i hbase
      split at hrow
      · rename_i rows hrows
        obtain ⟨i, hi, hrow⟩ := List.mem_flatMap.mp hrow
        obtain rfl : row.id = i := rows_id hrows i row hrow
        exact ⟨rfl, hi, fun _ => ⟨rows, hrows, row, hrow, rfl⟩⟩
      · cases hrow
    · rename_i hbase
      obtain ⟨c, hc, rfl⟩ := List.mem_map.mp hrow
      have hc := (List.mem_filter.mp hc).2
      simp only [decide_eq_true_eq] at hc
      exact ⟨rfl, hin _ hc.2, fun h => absurd h hbase⟩

end

/-! ## One event for each contact -/

def SegmentMoves.isBase (db : ClickHouseDb) (run : SegmentMoves) : Bool :=
  db.engine.toLowerCase run.tagName = "00 - base size"

/-- In whatever order its messages are handled, a run has one event for each contact
that entered and one for each that left, and no other; with reasons, an event
carries its contact's, and the counters grow by the contacts that left. -/
structure ExactlyOnce (db : ClickHouseDb) (run : SegmentMoves) (infos : Option (List ReasonInfo)) :
    Prop where
  once : ∀ msgs, msgs.Perm run.messages → ∀ type, ∀ c ∈ run.ids type,
    (handleAll db infos msgs).1.countP (tells type c) = 1
  only : ∀ msgs, msgs.Perm run.messages → ∀ e ∈ (handleAll db infos msgs).1,
    e.contactId ∈ run.ids e.event
  own : ∀ msgs, msgs.Perm run.messages → run.isBase db = true →
    ∀ e ∈ (handleAll db infos msgs).1, ∃ rows, db.reasonsOf e.event run.accountId = some rows ∧
      ∃ r ∈ rows e.contactId, e.reason = r.reason
  counted : ∀ msgs, msgs.Perm run.messages → run.isBase db = true →
    leftTotal (handleAll db infos msgs).2 = leftTotal infos + run.deleteIds.dedup.length

/-- A contact the account has. -/
def ClickHouseDb.Known (db : ClickHouseDb) (accountId i : Int) : Prop :=
  ∃ b ∈ db.contacts, b.id = i ∧ b.accountId = accountId

/-- The window the query of who left compares with, when it can be made. -/
def ClickHouseDb.Compares (db : ClickHouseDb) (w : Window) : Prop :=
  ∃ account timeZone, db.account = some account ∧ account.timeZone = some timeZone ∧
    db.window timeZone = some w

/-- The reasons query of a kind can be made. -/
def ClickHouseDb.Readable (db : ClickHouseDb) : SegmentEvent → Prop
  | .segmentIn => ∃ account timeZone day, db.account = some account ∧
      account.timeZone = some timeZone ∧ db.engine.last3Days timeZone = some day
  | .segmentOut => ∃ w, db.Compares w

/-- The batches of 10 000 of all the messages of a kind. -/
def SegmentMoves.batches (run : SegmentMoves) (type : SegmentEvent) : List (List Int) :=
  (Chunk.chunk chunkSize (run.ids type)).flatMap (Chunk.chunk splitSize)

/-- Without reasons: the account is there, and every contact is known and in one batch. -/
structure PlainOnce (db : ClickHouseDb) (run : SegmentMoves) (type : SegmentEvent) : Prop where
  account : db.account.isSome = true
  known : ∀ c ∈ run.ids type, db.Known run.accountId c
  batch : ∀ c ∈ run.ids type, (run.batches type).countP (fun b => c ∈ b) = 1

/-- With reasons: the query can be made, there is one batch, no contact is repeated,
each is known, and each that left is suppressed at most once and has a reason. -/
structure BaseOnce (db : ClickHouseDb) (run : SegmentMoves) (infos : Option (List ReasonInfo))
    (type : SegmentEvent) : Prop where
  readable : db.Readable type
  fits : (run.ids type).length ≤ splitSize
  nodup : (run.ids type).Nodup
  known : ∀ c ∈ run.ids type, db.Known run.accountId c
  info : type = .segmentOut → infos.isSome = true
  left : type = .segmentOut → ∀ w, db.Compares w → ∀ b ∈ db.contacts, b.id ∈ run.deleteIds →
    b.accountId = run.accountId →
      (db.suppressed w b).length ≤ 1 ∧ (db.outReason run.accountId w b none).given = true

section
variable {db : ClickHouseDb} {run : SegmentMoves} {infos : Option (List ReasonInfo)}

theorem length_known_le (accountId i : Int) : (db.known accountId i).length ≤ 1 := by
  have hcount := List.nodup_iff_count_le_one.mp db.key (i, accountId)
  rw [List.count, List.countP_map] at hcount
  rw [ClickHouseDb.known, ← List.countP_eq_length_filter]
  refine (List.countP_mono_left fun b _ hb => ?_).trans hcount
  simpa [Prod.ext_iff] using hb

theorem length_known_iff {accountId i : Int} :
    (db.known accountId i).length = 1 ↔ db.Known accountId i := by
  constructor
  · intro h
    obtain ⟨b, hb⟩ := List.length_eq_one_iff.mp h
    have hmem : b ∈ db.known accountId i := by simp [hb]
    exact ⟨b, known_id hmem⟩
  · rintro ⟨b, hb, hid, hacc⟩
    have hmem : b ∈ db.known accountId i := by simp [ClickHouseDb.known, hb, hid, hacc]
    exact Nat.le_antisymm (length_known_le accountId i) (List.length_pos_of_mem hmem)

theorem length_leftJoin {α : Type} (rows : List α) : (leftJoin rows).length = max 1 rows.length := by
  cases rows with
  | nil => rfl
  | cons a rows => simp [leftJoin]

theorem length_outRows_iff {accountId i : Int} {w : Window} :
    (db.outRows accountId w i).length = 1 ↔ db.Known accountId i ∧
      ∀ b ∈ db.contacts, b.id = i → b.accountId = accountId → (db.suppressed w b).length ≤ 1 := by
  have hlen : (db.outRows accountId w i).length
      = ((db.known accountId i).map fun b => max 1 (db.suppressed w b).length).sum := by
    simp [ClickHouseDb.outRows, List.length_flatMap, length_leftJoin]
  have hmem : ∀ b, b ∈ db.known accountId i ↔
      b ∈ db.contacts ∧ b.id = i ∧ b.accountId = accountId := by
    intro b
    simp [ClickHouseDb.known]
  rw [hlen, ← length_known_iff]
  have hle := @length_known_le db accountId i
  cases hk : db.known accountId i with
  | nil => simp
  | cons b r =>
      rw [hk] at hle hmem
      obtain rfl : r = [] := List.eq_nil_of_length_eq_zero (by simp at hle; exact hle ▸ rfl)
      simp only [List.map_cons, List.map_nil, List.sum_cons, List.sum_nil, List.length_singleton,
        true_and]
      constructor
      · intro h b' hb' hid hacc
        have hb := (hmem b').mpr ⟨hb', hid, hacc⟩
        simp only [List.mem_singleton] at hb
        subst hb
        omega
      · intro h
        obtain ⟨hb, hid, hacc⟩ := (hmem b).mp List.mem_cons_self
        have hone := h b hb hid hacc
        omega

theorem readable_iff {type : SegmentEvent} {accountId : Int} :
    db.Readable type ↔ ∃ rows, db.reasonsOf type accountId = some rows := by
  cases type with
  | segmentIn =>
      simp only [ClickHouseDb.Readable, ClickHouseDb.reasonsOf, Option.bind_eq_some_iff,
        Option.map_eq_some_iff]
      constructor
      · rintro ⟨account, timeZone, day, hacc, hzone, hday⟩
        exact ⟨_, timeZone, ⟨account, hacc, hzone⟩, day, hday, rfl⟩
      · rintro ⟨_, timeZone, ⟨account, hacc, hzone⟩, day, hday, _⟩
        exact ⟨account, timeZone, day, hacc, hzone, hday⟩
  | segmentOut =>
      simp only [ClickHouseDb.Readable, ClickHouseDb.Compares, ClickHouseDb.reasonsOf,
        Option.bind_eq_some_iff, Option.map_eq_some_iff]
      constructor
      · rintro ⟨w, account, timeZone, hacc, hzone, hw⟩
        exact ⟨_, timeZone, ⟨account, hacc, hzone⟩, w, hw, rfl⟩
      · rintro ⟨_, timeZone, ⟨account, hacc, hzone⟩, w, hw, _⟩
        exact ⟨w, account, timeZone, hacc, hzone, hw⟩

theorem once_base_iff {msgs : List SegmentToClickHouse} (hperm : msgs.Perm run.messages)
    (hbase : run.isBase db = true) {type : SegmentEvent} {rows : Int → List Row}
    (hrows : db.reasonsOf type run.accountId = some rows) :
    (∀ c ∈ run.ids type, (handleAll db infos msgs).1.countP (tells type c) = 1) ↔
      (run.ids type).length ≤ splitSize ∧ (run.ids type).Nodup ∧
        ∀ c ∈ run.ids type, (rows c).length = 1 := by
  have hcount : ∀ c, (handleAll db infos msgs).1.countP (tells type c)
      = ((Chunk.chunk chunkSize (run.ids type)).map fun m =>
          (Chunk.chunk splitSize m).length * (m.count c * (rows c).length)).sum := by
    intro c
    rw [handleAll_events, countP_run hperm]
    congr 1
    refine List.map_congr_left fun m _ => ?_
    exact @countP_base db (run.message type m) hbase rows hrows c
  simp only [hcount]
  exact Chunk.sum_slices_eq_one_iff (by decide) (by decide) (fun c => (rows c).length) _

theorem once_plain_iff {msgs : List SegmentToClickHouse} (hperm : msgs.Perm run.messages)
    (hbase : run.isBase db = false) {account : Account} (hacc : db.account = some account)
    (type : SegmentEvent) (c : Int) :
    (handleAll db infos msgs).1.countP (tells type c) = 1 ↔
      (run.batches type).countP (fun b => c ∈ b) = 1 ∧ db.Known run.accountId c := by
  have hcount : (handleAll db infos msgs).1.countP (tells type c)
      = (run.batches type).countP (fun b => c ∈ b) * (db.known run.accountId c).length := by
    rw [handleAll_events, countP_run hperm, SegmentMoves.batches, List.countP_flatMap,
      ← List.sum_map_mul_right]
    congr 1
    refine List.map_congr_left fun m _ => ?_
    exact @countP_plain db account (run.message type m) hbase hacc c
  rw [hcount, ← length_known_iff]
  exact mul_eq_one

theorem countP_untold {msgs : List SegmentToClickHouse} (hperm : msgs.Perm run.messages)
    {type : SegmentEvent}
    (h : db.account = none ∨ run.isBase db = true ∧ db.reasonsOf type run.accountId = none)
    (c : Int) : (handleAll db infos msgs).1.countP (tells type c) = 0 := by
  rw [handleAll_events, countP_run hperm]
  refine List.sum_eq_zero fun n hn => ?_
  obtain ⟨m, _, rfl⟩ := List.mem_map.mp hn
  refine List.countP_eq_zero.mpr fun e he htells => ?_
  rcases h with h | ⟨hbase, h⟩
  · simp [published, h] at he
  · obtain ⟨_, _, hrows⟩ := mem_published he
    obtain ⟨rows, hrows, _⟩ := hrows hbase
    exact absurd (h.symm.trans hrows) (by simp)

theorem message_of_mem_messages {data : SegmentToClickHouse} (h : data ∈ run.messages) :
    ∃ type m, data = run.message type m := by
  rcases List.mem_append.mp h with h | h <;> obtain ⟨m, _, rfl⟩ := List.mem_map.mp h <;>
    exact ⟨_, m, rfl⟩

theorem contacts_of_mem_messages {data : SegmentToClickHouse} (h : data ∈ run.messages) :
    ∀ c ∈ data.contacts, c ∈ run.ids data.type := by
  have hsent : ∀ type, data ∈ run.sent type → ∀ c ∈ data.contacts, c ∈ run.ids data.type := by
    intro type h c hc
    obtain ⟨m, hm, rfl⟩ := List.mem_map.mp h
    have hmem := List.mem_flatten.mpr ⟨m, hm, hc⟩
    rwa [Chunk.flatten_chunk (by decide)] at hmem
  rcases List.mem_append.mp h with h | h
  · exact hsent _ h
  · exact hsent _ h

theorem given_outRows {accountId i : Int} {w : Window} {row : Row}
    (h : row ∈ db.outRows accountId w i) : ∃ b ∈ db.known accountId i,
      row.given = (db.outReason accountId w b none).given := by
  obtain ⟨b, hb, hrow⟩ := List.mem_flatMap.mp h
  obtain ⟨s, _, rfl⟩ := List.mem_map.mp hrow
  exact ⟨b, hb, rfl⟩

theorem added_run_fits {msgs : List SegmentToClickHouse} (hperm : msgs.Perm run.messages)
    (hbase : run.isBase db = true) {rows : Int → List Row}
    (hrows : db.reasonsOf .segmentOut run.accountId = some rows)
    (hfits : run.deleteIds.length ≤ splitSize) :
    (msgs.map (added db)).sum = (run.deleteIds.flatMap rows).countP Row.given := by
  rw [added_run hperm]
  by_cases hne : run.deleteIds = []
  · simp [hne, Chunk.chunk_nil]
  · have hadded : added db (run.message .segmentOut run.deleteIds)
        = (Chunk.chunk splitSize run.deleteIds).length
          * (run.deleteIds.flatMap rows).countP Row.given := by
      have hcond : baseSize db (run.message .segmentOut run.deleteIds) = true ∧
          (run.message .segmentOut run.deleteIds).type = .segmentOut := ⟨hbase, rfl⟩
      have hsome : db.reasonsOf (run.message .segmentOut run.deleteIds).type
          (run.message .segmentOut run.deleteIds).accountId = some rows := hrows
      rw [added, if_pos hcond, hsome]
      rfl
    rw [Chunk.chunk_eq_self (by decide) hne (hfits.trans (by decide))]
    simp [hadded, Chunk.chunk_eq_self (show 0 < splitSize by decide) hne hfits]

theorem countP_given_iff {rows : Int → List Row} {ids : List Int}
    (h : ∀ c ∈ ids, (rows c).length = 1) :
    (ids.flatMap rows).countP Row.given = ids.length ↔
      ∀ c ∈ ids, ∀ row ∈ rows c, row.given = true := by
  have hlen : (ids.flatMap rows).length = ids.length := by
    rw [List.length_flatMap, List.map_congr_left h]
    simp
  rw [← hlen, List.countP_eq_length]
  constructor
  · intro hall c hc row hrow
    exact hall row (List.mem_flatMap.mpr ⟨c, hc, hrow⟩)
  · intro hall row hrow
    obtain ⟨c, hc, hrow⟩ := List.mem_flatMap.mp hrow
    exact hall c hc row hrow

theorem baseOnce_of_exactlyOnce (h : ExactlyOnce db run infos) (hbase : run.isBase db = true)
    {type : SegmentEvent} (hne : run.ids type ≠ []) : BaseOnce db run infos type := by
  have honce := h.once run.messages (List.Perm.refl _) type
  obtain ⟨c, hc⟩ := List.exists_mem_of_ne_nil _ hne
  cases hrows : db.reasonsOf type run.accountId with
  | none =>
      have hzero := @countP_untold db run infos _ (List.Perm.refl _) type (.inr ⟨hbase, hrows⟩) c
      rw [honce c hc] at hzero
      cases hzero
  | some rows =>
      obtain ⟨hfits, hnodup, hrow⟩ :=
        (once_base_iff (List.Perm.refl _) hbase hrows).mp honce
      cases type with
      | segmentIn =>
          refine ⟨(readable_iff).mpr ⟨rows, hrows⟩, hfits, hnodup, fun c hc => ?_,
            fun h => (by cases h), fun h => (by cases h)⟩
          obtain ⟨row, hmem⟩ := List.exists_mem_of_length_pos (by rw [hrow c hc]; exact Nat.one_pos)
          unfold ClickHouseDb.reasonsOf at hrows
          obtain ⟨timeZone, _, hrows⟩ := Option.bind_eq_some_iff.mp hrows
          obtain ⟨day, _, rfl⟩ := Option.map_eq_some_iff.mp hrows
          obtain ⟨b, hb, _⟩ := List.mem_map.mp hmem
          exact ⟨b, known_id hb⟩
      | segmentOut =>
          obtain ⟨account, _, w, hacc, _, rfl, timeZone, hzone, hw⟩ := reasonsOf_out hrows
          have hrow' := fun c hc => (length_outRows_iff).mp (hrow c hc)
          have hcounted := h.counted run.messages (List.Perm.refl _) hbase
          have hdedup : run.deleteIds.dedup = run.deleteIds := hnodup.dedup
          rw [hdedup] at hcounted
          have hinfo : infos.isSome = true := by
            cases infos with
            | some l => rfl
            | none =>
                rw [handleAll_none] at hcounted
                have hpos : 0 < run.deleteIds.length := List.length_pos_of_mem hc
                omega
          obtain ⟨l, rfl⟩ := Option.isSome_iff_exists.mp hinfo
          rw [handleAll_total, added_run_fits (List.Perm.refl _) hbase hrows hfits] at hcounted
          have hgiven := (countP_given_iff hrow).mp (Nat.add_left_cancel hcounted)
          refine ⟨⟨w, account, timeZone, hacc, hzone, hw⟩, hfits, hnodup,
            fun c hc => (hrow' c hc).1, fun _ => hinfo, fun _ w' hw' b hb hid hbacc => ?_⟩
          obtain ⟨account', timeZone', hacc', hzone', hw'⟩ := hw'
          obtain rfl : account = account' := Option.some.inj (hacc.symm.trans hacc')
          obtain rfl : timeZone = timeZone' := Option.some.inj (hzone.symm.trans hzone')
          obtain rfl : w = w' := Option.some.inj (hw.symm.trans hw')
          refine ⟨(hrow' b.id hid).2 b hb rfl hbacc, ?_⟩
          obtain ⟨row, hmem⟩ := List.exists_mem_of_length_pos
            (show 0 < (db.outRows run.accountId w b.id).length by rw [hrow b.id hid]; decide)
          obtain ⟨b', hb', hgiven'⟩ := given_outRows hmem
          have hbmem : b ∈ db.known run.accountId b.id := by simp [ClickHouseDb.known, hb, hbacc]
          have hb'eq : b' = b := by
            have hle := @length_known_le db run.accountId b.id
            obtain ⟨x, hx⟩ := List.length_eq_one_iff.mp
              (Nat.le_antisymm hle (List.length_pos_of_mem hbmem))
            rw [hx] at hb' hbmem
            rw [List.mem_singleton.mp hb', List.mem_singleton.mp hbmem]
          rw [← hb'eq, ← hgiven']
          exact hgiven b.id hid row hmem

theorem plainOnce_of_exactlyOnce (h : ExactlyOnce db run infos) (hbase : run.isBase db = false)
    {type : SegmentEvent} (hne : run.ids type ≠ []) : PlainOnce db run type := by
  have honce := h.once run.messages (List.Perm.refl _) type
  obtain ⟨c, hc⟩ := List.exists_mem_of_ne_nil _ hne
  cases hacc : db.account with
  | none =>
      have hzero := @countP_untold db run infos _ (List.Perm.refl _) type (.inl hacc) c
      rw [honce c hc] at hzero
      cases hzero
  | some account =>
      have hiff := fun c hc =>
        (once_plain_iff (List.Perm.refl _) hbase hacc type c).mp (honce c hc)
      exact ⟨by rw [hacc]; rfl, fun c hc => (hiff c hc).2, fun c hc => (hiff c hc).1⟩

theorem BaseOnce.length_rows {type : SegmentEvent} (h : BaseOnce db run infos type)
    {rows : Int → List Row} (hrows : db.reasonsOf type run.accountId = some rows) :
    ∀ c ∈ run.ids type, (rows c).length = 1 := by
  intro c hc
  cases type with
  | segmentIn =>
      unfold ClickHouseDb.reasonsOf at hrows
      obtain ⟨timeZone, _, hrows⟩ := Option.bind_eq_some_iff.mp hrows
      obtain ⟨day, _, rfl⟩ := Option.map_eq_some_iff.mp hrows
      rw [ClickHouseDb.inRows, List.length_map]
      exact (length_known_iff).mpr (h.known c hc)
  | segmentOut =>
      obtain ⟨account, _, w, hacc, _, rfl, timeZone, hzone, hw⟩ := reasonsOf_out hrows
      refine (length_outRows_iff).mpr ⟨h.known c hc, fun b hb hid hbacc => ?_⟩
      exact (h.left rfl w ⟨account, timeZone, hacc, hzone, hw⟩ b hb (hid ▸ hc) hbacc).1

/-- A run has one event for each contact exactly when each kind with a contact can
be told once: with reasons that means at most 10 000 contacts. -/
theorem clickHouse_once_iff (db : ClickHouseDb) (run : SegmentMoves)
    (infos : Option (List ReasonInfo)) :
    ExactlyOnce db run infos ↔ ∀ type, run.ids type ≠ [] →
      (run.isBase db = true → BaseOnce db run infos type) ∧
      (run.isBase db = false → PlainOnce db run type) := by
  constructor
  · intro h type hne
    exact ⟨fun hbase => baseOnce_of_exactlyOnce h hbase hne,
      fun hbase => plainOnce_of_exactlyOnce h hbase hne⟩
  intro h
  refine ⟨fun msgs hperm type => ?_, fun msgs hperm e he => ?_, fun msgs hperm hbase e he => ?_,
    fun msgs hperm hbase => ?_⟩
  · by_cases hne : run.ids type = []
    · rw [hne]
      exact fun c hc => absurd hc List.not_mem_nil
    cases hbase : run.isBase db with
    | true =>
        have hb := (h type hne).1 hbase
        obtain ⟨rows, hrows⟩ := readable_iff.mp hb.readable
        exact (once_base_iff hperm hbase hrows).mpr ⟨hb.fits, hb.nodup, hb.length_rows hrows⟩
    | false =>
        have hp := (h type hne).2 hbase
        obtain ⟨account, hacc⟩ := Option.isSome_iff_exists.mp hp.account
        exact fun c hc =>
          (once_plain_iff hperm hbase hacc type c).mpr ⟨hp.batch c hc, hp.known c hc⟩
  · rw [handleAll_events] at he
    obtain ⟨data, hdata, he⟩ := List.mem_flatMap.mp he
    obtain ⟨hevent, hcontact, _⟩ := mem_published he
    rw [hevent]
    exact contacts_of_mem_messages (hperm.mem_iff.mp hdata) _ hcontact
  · rw [handleAll_events] at he
    obtain ⟨data, hdata, he⟩ := List.mem_flatMap.mp he
    obtain ⟨hevent, _, hreason⟩ := mem_published he
    obtain ⟨type, m, rfl⟩ := message_of_mem_messages (hperm.mem_iff.mp hdata)
    rw [hevent]
    exact hreason hbase
  · by_cases hne : run.deleteIds = []
    · have hzero : (msgs.map (added db)).sum = 0 := by
        rw [added_run hperm, hne]
        rfl
      cases infos with
      | none => rw [handleAll_none, hne]; rfl
      | some l => rw [handleAll_total, hzero, hne]; rfl
    have hb := (h .segmentOut hne).1 hbase
    obtain ⟨l, rfl⟩ := Option.isSome_iff_exists.mp (hb.info rfl)
    obtain ⟨rows, hrows⟩ := (@readable_iff db .segmentOut run.accountId).mp hb.readable
    have hdedup : run.deleteIds.dedup = run.deleteIds := hb.nodup.dedup
    rw [handleAll_total, added_run_fits hperm hbase hrows hb.fits, hdedup]
    congr 1
    refine (countP_given_iff (hb.length_rows hrows)).mpr fun c hc row hrow => ?_
    obtain ⟨account, _, w, hacc, _, rfl, timeZone, hzone, hw⟩ := reasonsOf_out hrows
    obtain ⟨b, hbmem, hgiven⟩ := given_outRows hrow
    obtain ⟨hb', hid, hbacc⟩ := known_id hbmem
    rw [hgiven]
    exact (hb.left rfl w ⟨account, timeZone, hacc, hzone, hw⟩ b hb' (hid ▸ hc) hbacc).2

end

/-! ## A message of two batches -/

/-- The contacts 0, …, n - 1 of account 1, all bounced. -/
def crowd (n : Nat) : List ContactRow :=
  (List.range n).map fun i : Nat => { id := i, accountId := 1, uuid := "", hasBounced := true }

theorem nodup_crowd (n : Nat) : ((crowd n).map fun c => (c.id, c.accountId)).Nodup := by
  rw [crowd, List.map_map]
  refine List.nodup_range.map fun i j h => ?_
  simpa using h

def crowdDb (n : Nat) : ClickHouseDb where
  engine := ⟨String.toLower, fun _ => some 0, fun _ => some 30, fun _ => some 0⟩
  account := some ⟨1, some .undefined⟩
  steps := some (.text [])
  contacts := crowd n
  key := nodup_crowd n

/-- They all leave the base-size segment. -/
def crowdLeaves (n : Nat) : SegmentMoves :=
  ⟨3, "00 - Base Size", 1, [], (List.range n).map Int.ofNat⟩

theorem length_crowdLeaves (n : Nat) : (crowdLeaves n).deleteIds.length = n := by
  simp [crowdLeaves]

theorem nodup_crowdLeaves (n : Nat) : (crowdLeaves n).deleteIds.Nodup :=
  List.nodup_range.map fun _ _ h => Int.ofNat.inj h

theorem mem_crowdLeaves {n i : Nat} (h : i < n) : (i : Int) ∈ (crowdLeaves n).deleteIds :=
  List.mem_map.mpr ⟨i, List.mem_range.mpr h, rfl⟩

theorem length_rows_crowd {n i : Nat} (hi : i < n) {w : Window} :
    ((crowdDb n).outRows 1 w i).length = 1 := by
  refine (length_outRows_iff).mpr ⟨⟨_, List.mem_map.mpr ⟨i, List.mem_range.mpr hi, rfl⟩, rfl, rfl⟩, ?_⟩
  intro b _ _ _
  exact Nat.zero_le 1

theorem reasonsOf_crowd (n : Nat) : (crowdDb n).reasonsOf .segmentOut 1
    = some ((crowdDb n).outRows 1 ⟨[0], 0 - 30, 0 - 30⟩) := rfl

theorem isBase_crowd (n : Nat) : (crowdLeaves n).isBase (crowdDb n) = true := by
  have hname : "00 - Base Size".toLower = "00 - base size" := by decide +kernel
  exact decide_eq_true hname

/-- A crowd of two batches in one message has two events for each contact. -/
theorem countP_crowd {n i : Nat} (hi : i < n) (hlong : splitSize < n) (hn : n ≤ 2 * splitSize) :
    (handleAll (crowdDb n) (some []) (crowdLeaves n).messages).1.countP (tells .segmentOut i)
      = 2 := by
  have hlen := length_crowdLeaves n
  have hne : (crowdLeaves n).deleteIds ≠ [] := List.ne_nil_of_length_pos (by omega)
  have hbatches : (Chunk.chunk splitSize (crowdLeaves n).deleteIds).length = 2 := by
    have hrest : ((crowdLeaves n).deleteIds.drop splitSize).length = n - splitSize := by
      rw [List.length_drop, hlen]
    rw [Chunk.chunk_cons (by decide) hne, Chunk.chunk_eq_self (by decide)
      (List.ne_nil_of_length_pos (by omega)) (by omega)]
    rfl
  have hsplit : (Chunk.chunk chunkSize ((crowdLeaves n).ids .segmentOut))
      = [(crowdLeaves n).deleteIds] := by
    refine Chunk.chunk_eq_self (by decide) hne ?_
    have hsizes : 2 * splitSize ≤ chunkSize := by decide
    have hids : ((crowdLeaves n).ids .segmentOut).length = n := hlen
    omega
  have hcount : (crowdLeaves n).deleteIds.count (i : Int) = 1 :=
    List.count_eq_one_of_mem (nodup_crowdLeaves n) (mem_crowdLeaves hi)
  rw [handleAll_events, countP_run (List.Perm.refl _), hsplit, List.map_singleton,
    List.sum_singleton]
  have hbase : baseSize (crowdDb n)
      ((crowdLeaves n).message .segmentOut (crowdLeaves n).deleteIds) = true := isBase_crowd n
  refine (countP_base hbase (reasonsOf_crowd n) i).trans ?_
  rw [length_rows_crowd hi]
  exact congrArg₂ (fun a b => a * (b * 1)) hbatches hcount

/-- 10 001 contacts fit into one message and not into one batch: contact 7 has two
events, so the run does not have one for each. -/
theorem clickHouse_twice :
    (handleAll (crowdDb 10001) (some []) (crowdLeaves 10001).messages).1.countP
        (tells .segmentOut 7) = 2 ∧
      ¬ ExactlyOnce (crowdDb 10001) (crowdLeaves 10001) (some []) := by
  have htwo := countP_crowd (n := 10001) (i := 7) (by omega) (by decide) (by decide)
  refine ⟨htwo, fun h => ?_⟩
  have hone := h.once _ (List.Perm.refl _) .segmentOut _ (mem_crowdLeaves (i := 7) (by omega))
  rw [htwo] at hone
  cases hone

end OpenBms.TagProcess
