/-
# `OpenBms.Campaigns.Tracker` — the status of a campaign as its events arrive

A tracked event adds to the counters of the campaign in Redis, and the event of a
last page completes the campaign; a recurring campaign is then scheduled again.

| event | merged into the row, unless it is completed |
| :-- | :-- |
| `CAMPAIGN_PROCESSING_STARTED` | the status `SENDING` or `SENDING_TEST_AB` |
| a page that is the last one, outside the test | `COMPLETED`, the contacts sent |
| any other page | nothing |

**Proved here.**

    the contacts are cleared at each event that completes (`run_cleared_pages`)
    a campaign is completed and cleared only after all its
    pages exactly when the completing ones come last (`completed_iff`)
-/
import OpenBms.Lib.Calendar

namespace OpenBms.Campaigns

open Calendar

inductive CampaignsType where
  | simple
  | testAB
  | split
  | recurring
  deriving DecidableEq

inductive Status where
  | draft
  | scheduled
  | sending
  | paused
  | stopped
  | completed
  | sendingTestAb
  deriving DecidableEq

inductive Frequency where
  | daily
  | weekly
  | monthly
  deriving DecidableEq

structure RecurrenceSettings where
  date : Date
  interval : Nat
  frequency : Frequency
  weekDays : List Nat
  untilDate : Option Date
  untilSend : Option Nat
  firstSentDate : Option Date
  lastSentDate : Option Date
  deriving DecidableEq

/-- A row of `campaigns`. -/
structure Campaign where
  id : Int
  type : CampaignsType
  status : Status
  scheduleTo : Option Date
  scheduleToCloudTaskId : Option Nat
  sentContacts : Nat
  sentPercentage : Nat
  recurrenceSettings : RecurrenceSettings
  recurrenceCount : Nat

/-- The account's time zone: an instant as the clock there shows it, and back. -/
structure Zone where
  toLocal : Date → Date
  toUtc : Date → Date

/-! ## The next date -/

/-- The loop of `nextOccurrence`, on the number of days after the last date, whose day
of the week is `w`; weeks start on Sunday. -/
def search (z : Zone) (ref : Date) (weekDays : List Nat) (interval : Nat) (now : Date) :
    Nat → Nat → Option Nat
  | 0, _ => none
  | fuel + 1, o =>
      let day := (ref.weekday + o) % 7
      if weekDays.contains day ∧ now.le (z.toUtc (Date.addDays o ref)) = true then
        if (ref.weekday + o) / 7 % interval = 0 then some o
        else search z ref weekDays interval now fuel (((ref.weekday + o) / 7 + 1) * 7 - ref.weekday)
      else
        match weekDays.find? (day < ·) with
        | some d => search z ref weekDays interval now fuel (o + (d - day))
        | none =>
            match weekDays.head? with
            | some d => search z ref weekDays interval now fuel (o + (7 - day + d))
            | none => none

/-- `nextOccurrence`; `fuel` bounds the turns of its loop. -/
def nextOccurrence (z : Zone) (fuel : Nat) (currentScheduleTo : Date) (weekDays : List Nat)
    (interval : Nat) (now : Date) : Option Date :=
  let ref := z.toLocal currentScheduleTo
  -- seconds and milliseconds are set to 0
  let ref := { ref with time := ref.time / 60000 * 60000 }
  (search z ref (weekDays.insertionSort (· ≤ ·)) interval now fuel 1).map fun o =>
    z.toUtc (Date.addDays o ref)

/-- The date after a date, in server time for days and months. -/
def newEventDate (z : Zone) (fuel : Nat) (s : RecurrenceSettings) (scheduleTo now : Date) :
    Option Date :=
  match s.frequency with
  | .daily => some (Date.addDays s.interval scheduleTo)
  | .weekly => nextOccurrence z fuel scheduleTo s.weekDays s.interval now
  | .monthly => some (Date.addMonths s.interval scheduleTo)

/-- A pending job of the queue of campaign triggers. -/
structure Job where
  name : Nat
  date : Date
  deriving DecidableEq

/-- `weekDays.sort()` sorts the days of the settings in place. -/
def RecurrenceSettings.sorted (s : RecurrenceSettings) : RecurrenceSettings :=
  if s.frequency = .weekly then { s with weekDays := s.weekDays.insertionSort (· ≤ ·) } else s

/-- `setRecurringCampaign`: the row, and the job that was added. A row without a date
throws where the next date is computed, and a loop that finds no day does not return. -/
def setRecurringCampaign (z : Zone) (fuel jobId : Nat) (now : Date) (campaign : Campaign) :
    Option (Campaign × Option Job) :=
  let recurrenceSettings := campaign.recurrenceSettings
  let count := campaign.recurrenceCount + 1
  -- `new Date(null)` is the epoch
  let lastSentDate := campaign.scheduleTo.getD Date.epoch
  let settings := { recurrenceSettings with lastSentDate := some lastSentDate }
  let settings :=
    if count = 1 then { settings with firstSentDate := some settings.date } else settings
  let campaign := { campaign with recurrenceCount := count, recurrenceSettings := settings }
  if recurrenceSettings.untilSend = some count then some (campaign, none)
  else
    (campaign.scheduleTo.bind fun scheduleTo =>
      newEventDate z fuel recurrenceSettings scheduleTo now).map fun next =>
        let campaign := { campaign with recurrenceSettings := settings.sorted }
        if recurrenceSettings.untilDate.all fun untilDate => next.le untilDate then
          ({ campaign with
              scheduleTo := some next
              status := .scheduled
              scheduleToCloudTaskId := some jobId }, some ⟨jobId, next⟩)
        else
          -- the settings read here are the ones from before this completion
          ({ campaign with
              scheduleTo := recurrenceSettings.lastSentDate
              status := .completed }, none)

/-! ## Events -/

/-- The events of campaigns that change anything. -/
inductive EventTracker where
  | started (testabMode : Bool)
  | page (number totalPages contactsLength : Nat) (testabMode : Bool)
  deriving DecidableEq

/-- The event of a last page, outside the test of an A/B campaign. -/
def EventTracker.completes : EventTracker → Bool
  | .page number totalPages _ testabMode => number == totalPages && !testabMode
  | .started _ => false

/-- The row, the counters of the campaign in Redis, how often its contacts were
cleared, and the jobs that were added. -/
structure State where
  row : Campaign
  sentContacts : Nat
  sentPercentage : Nat
  cleared : Nat
  jobs : List Job
  nextJob : Nat

/-- The fields merged into the row: the status, and with `COMPLETED` the contacts. -/
structure CampaignDto where
  status : Status
  sent : Option (Nat × Nat)
  deriving DecidableEq

def Campaign.merge (c : Campaign) (dto : CampaignDto) : Campaign :=
  match dto.sent with
  | some (contacts, percentage) =>
      { c with status := dto.status, sentContacts := contacts, sentPercentage := percentage }
  | none => { c with status := dto.status }

/-- `parseFloat(((page / totalPages) * 100).toFixed(1))` in tenths of a percent. -/
def sentPercentage (page totalPages : Nat) : Nat :=
  (page * 2000 + totalPages) / (2 * totalPages)

/-- The row of a completed campaign: its contacts are cleared, and a recurring one is
set up for its next run. If that throws, the row is not written. -/
def State.complete (z : Zone) (fuel : Nat) (now : Date) (s : State) (campaign : Campaign) : State :=
  let s := { s with cleared := s.cleared + 1 }
  if campaign.type = .recurring then
    match setRecurringCampaign z fuel s.nextJob now campaign with
    | some (row, some job) => { s with row := row, jobs := s.jobs ++ [job], nextJob := s.nextJob + 1 }
    | some (row, none) => { s with row := row }
    | none => s
  else { s with row := campaign }

/-- `MsgopsService.updateStatus`. -/
def State.updateStatus (z : Zone) (fuel : Nat) (now : Date) (s : State) (dto : CampaignDto) :
    State :=
  let campaign := if s.row.status = .completed then s.row else s.row.merge dto
  if campaign.status = .completed then s.complete z fuel now campaign
  else { s with row := campaign }

/-- The counters in Redis after the event of a page. -/
def State.count (s : State) (number totalPages contactsLength : Nat) : State :=
  { s with
    sentContacts := s.sentContacts + contactsLength
    sentPercentage := Campaigns.sentPercentage number totalPages }

/-- `AppService.updateStatus`. -/
def State.track (z : Zone) (fuel : Nat) (now : Date) (s : State) : EventTracker → State
  | .started testabMode =>
      s.updateStatus z fuel now ⟨if testabMode then .sendingTestAb else .sending, none⟩
  | .page number totalPages contactsLength testabMode =>
      let s := s.count number totalPages contactsLength
      if number = totalPages ∧ testabMode = false then
        s.updateStatus z fuel now ⟨.completed, some (s.sentContacts, s.sentPercentage)⟩
      else s

/-- An event with the time it is handled at. -/
abbrev Delivery := Date × EventTracker

def State.handle (z : Zone) (fuel : Nat) (s : State) (d : Delivery) : State :=
  s.track z fuel d.1 d.2

/-- Events are handled one after the other. -/
def State.run (z : Zone) (fuel : Nat) (s : State) (ds : List Delivery) : State :=
  ds.foldl (State.handle z fuel) s

/-! ## What an event does -/

section
variable {z : Zone} {fuel : Nat} {now : Date} {s : State} {e : EventTracker} {d : Delivery}
  {ds : List Delivery}

/-- What the event of a page puts into the counters. -/
def EventTracker.count (s : State) : EventTracker → State
  | .page number totalPages contactsLength _ => s.count number totalPages contactsLength
  | .started _ => s

theorem setRecurring_fields {jobId : Nat} {c c' : Campaign} {job : Option Job}
    (h : setRecurringCampaign z fuel jobId now c = some (c', job)) :
    c'.type = c.type ∧ c'.recurrenceCount = c.recurrenceCount + 1 ∧
      c'.sentContacts = c.sentContacts := by
  dsimp only [setRecurringCampaign] at h
  split at h
  · cases h
    exact ⟨rfl, rfl, rfl⟩
  · obtain ⟨next, _, h⟩ := Option.map_eq_some_iff.mp h
    split at h <;> cases h <;> exact ⟨rfl, rfl, rfl⟩

theorem track_page {number totalPages contactsLength : Nat} {testabMode : Bool}
    (he : EventTracker.completes (.page number totalPages contactsLength testabMode) = false) :
    s.track z fuel now (.page number totalPages contactsLength testabMode) =
      s.count number totalPages contactsLength := by
  refine if_neg ?_
  rintro ⟨rfl, rfl⟩
  simp only [EventTracker.completes, beq_self_eq_true, Bool.not_false, Bool.and_self,
    Bool.true_eq_false] at he

/-- The row a completing event starts from. -/
def State.completing (s : State) : Campaign :=
  if s.row.status = .completed then s.row
  else s.row.merge ⟨.completed, some (s.sentContacts, s.sentPercentage)⟩

theorem completing_status (s : State) : s.completing.status = .completed := by
  unfold State.completing
  split
  · assumption
  · rfl

/-- The event of a last page completes the campaign. -/
theorem track_completes (he : e.completes = true) :
    s.track z fuel now e = (e.count s).complete z fuel now (e.count s).completing := by
  cases e with
  | started testabMode => cases he
  | page number totalPages contactsLength testabMode =>
      simp only [EventTracker.completes, Bool.and_eq_true, beq_iff_eq, Bool.not_eq_true'] at he
      show (if number = totalPages ∧ testabMode = false then _ else _) = _
      rw [if_pos he]
      exact if_pos (completing_status _)

theorem complete_cleared (s : State) (campaign : Campaign) :
    (s.complete z fuel now campaign).cleared = s.cleared + 1 := by
  unfold State.complete
  dsimp only
  split
  · split <;> rfl
  · rfl

/-! ## Completion -/

theorem run_cleared_pages (hpages : ∀ d ∈ ds, ∃ n t c b, d.2 = .page n t c b) :
    (s.run z fuel ds).cleared = s.cleared + ds.countP fun d => d.2.completes := by
  induction ds generalizing s with
  | nil => rfl
  | cons d ds ih =>
      have hstep : (s.handle z fuel d).cleared = s.cleared + if d.2.completes then 1 else 0 := by
        obtain ⟨n, t, c, b, hd⟩ := hpages d (List.mem_cons_self ..)
        cases hc : d.2.completes with
        | true =>
            show (s.track z fuel d.1 d.2).cleared = _
            rw [track_completes hc, complete_cleared, hd]
            rfl
        | false =>
            show (s.track z fuel d.1 d.2).cleared = _
            rw [hd] at hc ⊢
            rw [track_page hc]
            rfl
      show ((s.handle z fuel d).run z fuel ds).cleared = _
      rw [ih fun d hd => hpages d (List.mem_cons_of_mem _ hd), hstep, List.countP_cons]
      omega

theorem run_nil (s : State) : s.run z fuel [] = s := rfl

theorem run_cons (s : State) (d : Delivery) (ds : List Delivery) :
    s.run z fuel (d :: ds) = (s.handle z fuel d).run z fuel ds := rfl

theorem run_row (hpages : ∀ d ∈ ds, ∃ n t c b, d.2 = .page n t c b)
    (hnone : ∀ d ∈ ds, d.2.completes = false) : (s.run z fuel ds).row = s.row := by
  induction ds generalizing s with
  | nil => rfl
  | cons d ds ih =>
      obtain ⟨n, t, c, b, hd⟩ := hpages d (List.mem_cons_self ..)
      have hcount : s.handle z fuel d = s.count n t c := by
        show s.track z fuel d.1 d.2 = _
        rw [hd]
        exact track_page (hd ▸ hnone d (List.mem_cons_self ..))
      rw [run_cons, ih (fun d hd => hpages d (List.mem_cons_of_mem _ hd))
        (fun d hd => hnone d (List.mem_cons_of_mem _ hd)), hcount]
      rfl

/-- The campaign was marked `COMPLETED`, or its contacts were cleared, since `s`. -/
def Completed (s s' : State) : Prop := s'.row.status = .completed ∨ s.cleared < s'.cleared

theorem completed_run_iff (hpages : ∀ d ∈ ds, ∃ n t c b, d.2 = .page n t c b)
    (hs : s.row.status ≠ .completed) :
    Completed s (s.run z fuel ds) ↔ ∃ d ∈ ds, d.2.completes = true := by
  have hcleared : (s.run z fuel ds).cleared = s.cleared + ds.countP fun d => d.2.completes :=
    run_cleared_pages hpages
  constructor
  · intro hcompleted
    by_contra hnone
    push Not at hnone
    have hno : ∀ d ∈ ds, d.2.completes = false := fun d hd => Bool.eq_false_iff.mpr (hnone d hd)
    have hzero : ds.countP (fun d => d.2.completes) = 0 := List.countP_eq_zero.mpr hnone
    rcases hcompleted with hstatus | hlt
    · rw [run_row hpages hno] at hstatus
      exact hs hstatus
    · omega
  · intro hd
    have hpos := List.countP_pos_iff.mpr hd
    exact .inr (by omega)

end

/-- The arrivals of the events of a campaign's pages, as deliveries. -/
def arrived {n : Nat} (pages : Fin n → EventTracker) (arrivals : List (Date × Fin n)) :
    List Delivery :=
  arrivals.map fun a => (a.1, pages a.2)

/-- A campaign is completed and cleared only after the events of all its pages exactly
when each event that completes arrives after all the others. -/
theorem completed_iff {n : Nat} (z : Zone) (fuel : Nat) (pages : Fin n → EventTracker)
    (hpages : ∀ i, ∃ number totalPages contacts testabMode,
      pages i = .page number totalPages contacts testabMode)
    (s : State) (hs : s.row.status ≠ .completed) (arrivals : List (Date × Fin n)) :
    (∀ k, Completed s (s.run z fuel (arrived pages (arrivals.take k))) →
        ∀ i, i ∈ (arrivals.take k).map Prod.snd) ↔
      ∀ k a, arrivals[k]? = some a → (pages a.2).completes = true →
        ∀ i, i ∈ (arrivals.take (k + 1)).map Prod.snd := by
  have hcompleted : ∀ k, Completed s (s.run z fuel (arrived pages (arrivals.take k))) ↔
      ∃ a ∈ arrivals.take k, (pages a.2).completes = true := by
    intro k
    rw [completed_run_iff _ hs]
    · simp only [arrived, List.mem_map, exists_exists_and_eq_and]
    · intro d hd
      obtain ⟨a, _, rfl⟩ := List.mem_map.mp hd
      exact hpages a.2
  simp only [hcompleted]
  constructor
  · intro h k a ha hc
    have hmem : a ∈ arrivals.take (k + 1) := by
      rw [List.take_add_one, ha]
      exact List.mem_append_right _ (List.mem_singleton_self a)
    exact h (k + 1) ⟨a, hmem, hc⟩
  · rintro h k ⟨a, hmem, hc⟩ i
    obtain ⟨j, hj, hget⟩ := List.mem_iff_getElem.mp hmem
    have hjk : j < k := lt_of_lt_of_le hj (List.length_take_le ..)
    have hsome : arrivals[j]? = some a := by
      rw [List.getElem_take] at hget
      rw [← hget]
      exact List.getElem?_eq_getElem _
    have htake : arrivals.take (j + 1) ⊆ arrivals.take k :=
      (List.take_sublist_take_left (by omega)).subset
    obtain ⟨b, hb, rfl⟩ := List.mem_map.mp (h j a hsome hc i)
    exact List.mem_map.mpr ⟨b, htake hb, rfl⟩

/-- A date, and the row of a simple campaign that is being sent. -/
def sampleDate : Date := ⟨2026, 1, 5, 1, 36000000⟩

def sampleSettings : RecurrenceSettings :=
  ⟨sampleDate, 1, .daily, [], none, none, none, none⟩

def sampleState (type : CampaignsType) : State where
  row := ⟨1, type, .sending, some sampleDate, none, 0, 0, sampleSettings, 0⟩
  sentContacts := 0
  sentPercentage := 0
  cleared := 0
  jobs := []
  nextJob := 0

def sampleZone : Zone := ⟨id, id⟩

def samplePages (i : Fin 2) : EventTracker := .page (i + 1) 2 10 false

def sampleArrivals : List (Date × Fin 2) := [(sampleDate, 0), (sampleDate, 1)]

theorem completed_sample :
    (∀ k, Completed (sampleState .simple) ((sampleState .simple).run sampleZone 0
        (arrived samplePages (sampleArrivals.take k))) →
        ∀ i, i ∈ (sampleArrivals.take k).map Prod.snd) ↔
      ∀ k a, sampleArrivals[k]? = some a → (samplePages a.2).completes = true →
        ∀ i, i ∈ (sampleArrivals.take (k + 1)).map Prod.snd :=
  completed_iff sampleZone 0 samplePages (fun _ => ⟨_, _, _, _, rfl⟩) (sampleState .simple)
    (by decide) sampleArrivals

/-- The second page of two arrives first: the campaign is completed and cleared. -/
theorem completed_early :
    ((sampleState .simple).run sampleZone 0 (arrived samplePages [(sampleDate, 1)])).row.status =
        .completed ∧
      ((sampleState .simple).run sampleZone 0 (arrived samplePages [(sampleDate, 1)])).cleared = 1 ∧
      (0 : Fin 2) ∉ [((sampleDate, 1) : Date × Fin 2)].map Prod.snd := by decide

end OpenBms.Campaigns
