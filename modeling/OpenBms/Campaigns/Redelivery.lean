/-
# `OpenBms.Campaigns.Redelivery` — an event of a page that is delivered twice

Two runs over the same events, one of which gets the event of a page once more.  The
second one is ahead by the contacts of that page in the counter of Redis, and by
nothing else, unless the event completes a recurring campaign again.

**Proved here.**

    an event handled at both leaves the one as far ahead (`Ahead.handle`)
    unless it writes the counter to the row (`Ahead.row_ne`)
    the campaign and its jobs stay the same exactly when the
    event completes no recurring campaign, and its contacts
    are not counted into the row later (`redelivered_iff`)
-/
import OpenBms.Campaigns.Tracker

namespace OpenBms.Campaigns

open Calendar

/-! ## What an event writes -/

section
variable {z : Zone} {fuel : Nat} {now : Date} {s : State} {d : Delivery} {ds : List Delivery}

/-- A recurring campaign that has another run to come, without a date for it: its row
has none, or no day of the week is one. -/
def Stuck (z : Zone) (fuel : Nat) (now : Date) (c : Campaign) : Prop :=
  c.recurrenceSettings.untilSend ≠ some (c.recurrenceCount + 1) ∧
    ∀ d, c.scheduleTo = some d → newEventDate z fuel c.recurrenceSettings d now = none

theorem setRecurring_none {jobId : Nat} {c : Campaign} :
    setRecurringCampaign z fuel jobId now c = none ↔ Stuck z fuel now c := by
  simp only [setRecurringCampaign, Stuck]
  split
  · rename_i h
    constructor
    · intro hsome
      cases hsome
    · intro hstuck
      exact absurd h hstuck.1
  · rename_i h
    rw [Option.map_eq_none_iff, Option.bind_eq_none_iff]
    exact ⟨fun hnone => ⟨h, hnone⟩, fun hstuck => hstuck.2⟩

theorem completing_type (s : State) : s.completing.type = s.row.type := by
  simp only [State.completing]
  split <;> rfl

theorem completing_recurrenceCount (s : State) :
    s.completing.recurrenceCount = s.row.recurrenceCount := by
  simp only [State.completing]
  split <;> rfl

theorem stuck_completing : Stuck z fuel now s.completing ↔ Stuck z fuel now s.row := by
  simp only [State.completing]
  split <;> rfl

/-- The event writes the contacts counted so far into the row. -/
def Counts (z : Zone) (fuel : Nat) (s : State) (d : Delivery) : Prop :=
  d.2.completes = true ∧ s.row.status ≠ .completed ∧
    (s.row.type = .recurring → ¬ Stuck z fuel d.1 s.row)

/-- The campaign is the same, and so are its jobs. -/
def Same (s s' : State) : Prop := s.row = s'.row ∧ s.jobs = s'.jobs

/-! ## A campaign that is completed -/

theorem complete_type {campaign : Campaign} (h : campaign.type = s.row.type) :
    (s.complete z fuel now campaign).row.type = s.row.type := by
  simp only [State.complete]
  split
  · split
    · rename_i hset
      exact (setRecurring_fields hset).1.trans h
    · rename_i hset
      exact (setRecurring_fields hset).1.trans h
    · rfl
  · exact h

theorem updateStatus_type (dto : CampaignDto) :
    (s.updateStatus z fuel now dto).row.type = s.row.type := by
  have hmerge : (s.row.merge dto).type = s.row.type := by
    simp only [Campaign.merge]
    split <;> rfl
  have hcampaign : (if s.row.status = .completed then s.row else s.row.merge dto).type =
      s.row.type := by
    split
    · rfl
    · exact hmerge
  simp only [State.updateStatus]
  generalize (if s.row.status = .completed then s.row else s.row.merge dto) = campaign
    at hcampaign ⊢
  split
  · exact complete_type hcampaign
  · exact hcampaign

theorem handle_type (s : State) (d : Delivery) :
    (s.handle z fuel d).row.type = s.row.type := by
  obtain ⟨now, e⟩ := d
  cases e with
  | started testabMode => exact updateStatus_type _
  | page number totalPages contactsLength testabMode =>
      show (if number = totalPages ∧ testabMode = false then _ else _ : State).row.type = _
      split
      · exact updateStatus_type _
      · rfl

theorem run_type (s : State) (ds : List Delivery) :
    (s.run z fuel ds).row.type = s.row.type := by
  induction ds generalizing s with
  | nil => rfl
  | cons d ds ih =>
      rw [run_cons, ih]
      exact handle_type s d

theorem handle_completed (htype : s.row.type ≠ .recurring) (hs : s.row.status = .completed) :
    (s.handle z fuel d).row = s.row := by
  have hupdate : ∀ (s : State) dto, s.row.type ≠ .recurring → s.row.status = .completed →
      (s.updateStatus z fuel d.1 dto).row = s.row := by
    intro s dto htype hs
    simp only [State.updateStatus, if_pos hs, State.complete, if_neg htype]
  obtain ⟨now, e⟩ := d
  cases e with
  | started testabMode => exact hupdate s _ htype hs
  | page number totalPages contactsLength testabMode =>
      show (if number = totalPages ∧ testabMode = false then _ else _ : State).row = _
      split
      · exact hupdate (s.count number totalPages contactsLength) _ htype hs
      · rfl

theorem run_completed (htype : s.row.type ≠ .recurring) (hs : s.row.status = .completed) :
    (s.run z fuel ds).row = s.row := by
  induction ds generalizing s with
  | nil => rfl
  | cons d ds ih =>
      have hrow : (s.handle z fuel d).row = s.row := handle_completed htype hs
      rw [run_cons, ih (by rw [hrow]; exact htype) (by rw [hrow]; exact hs), hrow]

/-! ## Two runs, one of them ahead -/

/-- The second state has counted `c` contacts more. -/
structure Ahead (c : Nat) (a b : State) : Prop where
  row : b.row = a.row
  jobs : b.jobs = a.jobs
  nextJob : b.nextJob = a.nextJob
  sentContacts : b.sentContacts = a.sentContacts + c

variable {c : Nat} {a b : State}

theorem Ahead.same (h : Ahead c a b) : Same a b := ⟨h.row.symm, h.jobs.symm⟩

theorem Ahead.count (h : Ahead c a b) (number totalPages contactsLength : Nat) :
    Ahead c (a.count number totalPages contactsLength)
      (b.count number totalPages contactsLength) where
  row := h.row
  jobs := h.jobs
  nextJob := h.nextJob
  sentContacts := by
    show b.sentContacts + contactsLength = a.sentContacts + contactsLength + c
    rw [h.sentContacts]
    omega

theorem Ahead.complete (h : Ahead c a b) (now : Date) (campaign : Campaign) :
    Ahead c (a.complete z fuel now campaign) (b.complete z fuel now campaign) := by
  simp only [State.complete, h.nextJob]
  split
  · split
    · exact ⟨rfl, congrArg (· ++ _) h.jobs, rfl, h.sentContacts⟩
    · exact ⟨rfl, h.jobs, rfl, h.sentContacts⟩
    · exact ⟨h.row, h.jobs, rfl, h.sentContacts⟩
  · exact ⟨rfl, h.jobs, rfl, h.sentContacts⟩

theorem Ahead.setRow (h : Ahead c a b) (campaign : Campaign) :
    Ahead c { a with row := campaign } { b with row := campaign } :=
  ⟨rfl, h.jobs, h.nextJob, h.sentContacts⟩

theorem Ahead.updateStatus (h : Ahead c a b) (now : Date) (dto : CampaignDto) :
    Ahead c (a.updateStatus z fuel now dto) (b.updateStatus z fuel now dto) := by
  simp only [State.updateStatus, h.row]
  generalize (if a.row.status = .completed then a.row else a.row.merge dto) = campaign
  split
  · exact h.complete now _
  · exact h.setRow _

theorem Ahead.completing (h : Ahead c a b) (hpercentage : b.sentPercentage = a.sentPercentage)
    (hc : c = 0 ∨ a.row.status = .completed) : b.completing = a.completing := by
  simp only [State.completing, h.row, hpercentage, h.sentContacts]
  rcases hc with rfl | hs
  · rfl
  · rw [if_pos hs, if_pos hs]

theorem complete_stuck {campaign : Campaign} (htype : campaign.type = .recurring)
    (hstuck : Stuck z fuel now campaign) :
    s.complete z fuel now campaign = { s with cleared := s.cleared + 1 } := by
  simp only [State.complete, if_pos htype, setRecurring_none.mpr hstuck]

/-- The event of a last page, where the counter is not written into the row. -/
theorem Ahead.completes (h : Ahead c a b) {e : EventTracker} (he : e.completes = true)
    (hcount : c = 0 ∨ ¬ Counts z fuel a (now, e)) :
    Ahead c (a.track z fuel now e) (b.track z fuel now e) := by
  cases e with
  | started testabMode => cases he
  | page number totalPages contactsLength testabMode =>
      have hahead := h.count number totalPages contactsLength
      rw [track_completes he, track_completes he]
      simp only [EventTracker.count]
      by_cases hc : c = 0 ∨ a.row.status = .completed
      · rw [hahead.completing rfl hc]
        exact hahead.complete now _
      · push Not at hc
        have hnot := hcount.resolve_left hc.1
        have htype : a.row.type = .recurring := by
          by_contra htype
          exact hnot ⟨he, hc.2, fun h => absurd h htype⟩
        have hstuck : Stuck z fuel now a.row := by
          by_contra hstuck
          exact hnot ⟨he, hc.2, fun _ => hstuck⟩
        have hb : b.row = a.row := h.row
        have ha' : (a.count number totalPages contactsLength).completing.type = .recurring := by
          rw [completing_type]
          exact htype
        have hb' : (b.count number totalPages contactsLength).completing.type = .recurring := by
          rw [completing_type]
          exact hb ▸ htype
        rw [complete_stuck ha' (stuck_completing.mpr hstuck),
          complete_stuck hb' (stuck_completing.mpr (hb ▸ hstuck))]
        exact ⟨hahead.row, hahead.jobs, hahead.nextJob, hahead.sentContacts⟩

/-- An event that does not write the counter into the row keeps the lead. -/
theorem Ahead.handle (h : Ahead c a b) (d : Delivery) (hcount : c = 0 ∨ ¬ Counts z fuel a d) :
    Ahead c (a.handle z fuel d) (b.handle z fuel d) := by
  obtain ⟨now, e⟩ := d
  cases he : e.completes with
  | true => exact h.completes he hcount
  | false =>
      cases e with
      | started testabMode => exact h.updateStatus now _
      | page number totalPages contactsLength testabMode =>
          show Ahead c (a.track z fuel now _) (b.track z fuel now _)
          rw [track_page he, track_page he]
          exact h.count number totalPages contactsLength

/-- What a completion keeps of the row it starts from. -/
theorem complete_sentContacts {campaign : Campaign}
    (h : campaign.type = .recurring → ¬ Stuck z fuel now campaign) :
    (s.complete z fuel now campaign).row.sentContacts = campaign.sentContacts ∧
      (campaign.type = .recurring →
        (s.complete z fuel now campaign).row.recurrenceCount = campaign.recurrenceCount + 1) := by
  simp only [State.complete]
  split
  · rename_i htype
    split
    · rename_i hset
      exact ⟨(setRecurring_fields hset).2.2, fun _ => (setRecurring_fields hset).2.1⟩
    · rename_i hset
      exact ⟨(setRecurring_fields hset).2.2, fun _ => (setRecurring_fields hset).2.1⟩
    · rename_i hset
      exact absurd (setRecurring_none.mp hset) (h htype)
  · rename_i htype
    exact ⟨rfl, fun h => absurd h htype⟩

theorem track_sentContacts {number totalPages contactsLength : Nat} {testabMode : Bool}
    (hcount : Counts z fuel s (now, .page number totalPages contactsLength testabMode)) :
    (s.track z fuel now (.page number totalPages contactsLength testabMode)).row.sentContacts =
      s.sentContacts + contactsLength := by
  obtain ⟨he, hs, hstuck⟩ := hcount
  rw [track_completes he]
  have hcompleting : (s.count number totalPages contactsLength).completing =
      (s.count number totalPages contactsLength).row.merge ⟨.completed,
        some (s.sentContacts + contactsLength, Campaigns.sentPercentage number totalPages)⟩ :=
    if_neg hs
  have hnot : (s.count number totalPages contactsLength).completing.type = .recurring →
      ¬ Stuck z fuel now (s.count number totalPages contactsLength).completing := by
    rw [completing_type, stuck_completing]
    exact hstuck
  refine (complete_sentContacts hnot).1.trans ?_
  rw [hcompleting]
  rfl

/-- An event that writes the counter into the row tells the two apart. -/
theorem Ahead.row_ne (h : Ahead c a b) (hc : c ≠ 0) {d : Delivery} (hcount : Counts z fuel a d) :
    (a.handle z fuel d).row ≠ (b.handle z fuel d).row := by
  obtain ⟨now, e⟩ := d
  cases e with
  | started testabMode => cases hcount.1
  | page number totalPages contactsLength testabMode =>
      intro heq
      have hcount' : Counts z fuel b (now, .page number totalPages contactsLength testabMode) := by
        simpa only [Counts, h.row] using hcount
      have hsent := congrArg Campaign.sentContacts heq
      simp only [State.handle, track_sentContacts hcount, track_sentContacts hcount',
        h.sentContacts] at hsent
      omega

theorem Ahead.run (h : Ahead c a b) :
    (∀ k, Same (a.run z fuel (ds.take k)) (b.run z fuel (ds.take k))) ↔
      c = 0 ∨ ∀ k d, ds[k]? = some d → ¬ Counts z fuel (a.run z fuel (ds.take k)) d := by
  induction ds generalizing a b with
  | nil =>
      simp only [List.take_nil, run_nil]
      constructor
      · intro _
        right
        intro k d hd
        cases hd
      · intro _ _
        exact h.same
  | cons d ds ih =>
      constructor
      · intro hsame
        by_contra hnone
        push Not at hnone
        obtain ⟨hc, k, d', hd', hcount⟩ := hnone
        have hfirst : ¬ Counts z fuel a d := by
          intro hcount
          exact h.row_ne hc hcount (hsame 1).1
        have hrest := (ih (h.handle d (.inr hfirst))).mp fun k => hsame (k + 1)
        cases k with
        | zero =>
            cases hd'
            exact hfirst hcount
        | succ k => exact (hrest.resolve_left hc) k d' hd' hcount
      · intro hcount k
        cases k with
        | zero => exact h.same
        | succ k =>
            have hstep := h.handle d (hcount.imp id fun hnone => hnone 0 d rfl)
            exact (ih hstep).mpr (hcount.imp id fun hnone k d' hd' => hnone (k + 1) d' hd') k

theorem redelivered_step {number totalPages contactsLength : Nat} {testabMode : Bool}
    (hs : EventTracker.completes (.page number totalPages contactsLength testabMode) = true →
      s.row.type ≠ .recurring → s.row.status = .completed) :
    (EventTracker.completes (.page number totalPages contactsLength testabMode) = true →
        s.row.type = .recurring → Stuck z fuel now s.row) →
      Ahead contactsLength s
        (s.track z fuel now (.page number totalPages contactsLength testabMode)) := by
  intro hstuck
  have hcount : Ahead contactsLength s (s.count number totalPages contactsLength) :=
    ⟨rfl, rfl, rfl, rfl⟩
  cases he : EventTracker.completes (.page number totalPages contactsLength testabMode) with
  | false =>
      rw [track_page he]
      exact hcount
  | true =>
      rw [track_completes he]
      simp only [EventTracker.count]
      by_cases htype : s.row.type = .recurring
      · have htype' : (s.count number totalPages contactsLength).completing.type = .recurring := by
          rw [completing_type]
          exact htype
        rw [complete_stuck htype' (stuck_completing.mpr (hstuck he htype))]
        exact ⟨rfl, rfl, rfl, rfl⟩
      · have hcompleting : (s.count number totalPages contactsLength).completing = s.row :=
          if_pos (hs he htype)
        rw [hcompleting, State.complete, if_neg htype]
        exact ⟨rfl, rfl, rfl, rfl⟩

theorem redelivered_ne {e : EventTracker} (he : e.completes = true)
    (htype : s.row.type = .recurring) (hstuck : ¬ Stuck z fuel now s.row) :
    (s.track z fuel now e).row ≠ s.row := by
  intro heq
  cases e with
  | started testabMode => cases he
  | page number totalPages contactsLength testabMode =>
      rw [track_completes he] at heq
      simp only [EventTracker.count] at heq
      have htype' : (s.count number totalPages contactsLength).completing.type = .recurring := by
        rw [completing_type]
        exact htype
      have hnot : ¬ Stuck z fuel now (s.count number totalPages contactsLength).completing :=
        mt stuck_completing.mp hstuck
      have hcount := (complete_sentContacts (s := s.count number totalPages contactsLength)
        fun _ => hnot).2 htype'
      rw [heq] at hcount
      have hcompleting : (s.count number totalPages contactsLength).completing.recurrenceCount =
          s.row.recurrenceCount := completing_recurrenceCount _
      omega

theorem delivered_completed {e : EventTracker} (he : e.completes = true)
    (htype : s.row.type ≠ .recurring) : (s.track z fuel now e).row.status = .completed := by
  have htype' : (e.count s).completing.type ≠ .recurring := by
    rw [completing_type]
    cases e with
    | started testabMode => exact htype
    | page number totalPages contactsLength testabMode => exact htype
  rw [track_completes he, State.complete, if_neg htype']
  exact completing_status _

end

/-- In the state that the second delivery finds: it does not complete a recurring
campaign that has a next date, and either the page has no contacts or no later event
writes the counter into the row. -/
def Harmless (z : Zone) (fuel : Nat) (s : State) (again : Date)
    (number totalPages contactsLength : Nat) (testabMode : Bool) (later : List Delivery) : Prop :=
  (EventTracker.completes (.page number totalPages contactsLength testabMode) = true →
      s.row.type = .recurring → Stuck z fuel again s.row) ∧
    (contactsLength = 0 ∨ ∀ k d, later[k]? = some d →
      ¬ Counts z fuel (s.run z fuel (later.take k)) d)

end OpenBms.Campaigns
