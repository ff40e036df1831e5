/-
# `OpenBms.Campaigns.Stop` — `stopCampaign` among the pages and the events of a campaign

A stop reads the row, sets the marker `stop_campaign_<id>` in Redis and writes the row
it has read.  The tracker reads the row and writes it back; the packer looks at the
marker and, for a page, at the row.

| step | reads | and then |
| :-- | :-- | :-- |
| `stopCampaign` | the row, which is being sent | sets the marker, writes `STOPPED` |
| the tracker's `updateStatus` | the row | writes the status of its event |
| `createContactsSend` | the marker | starts the run |
| `processPage` | the marker, then the row | packages the page |

**Proved here.**

    the steps of an event, one after the other, are its handling (`receive_work_write`)
    what each step of a calm run keeps (`Inv.step`)
    a stop is final in a calm run (`stopped_final`)
-/
import OpenBms.Lib.Runs
import OpenBms.Campaigns.Tracker

namespace OpenBms.Campaigns.Stop

open Calendar

/-! ## The parties -/

/-- What somebody is about to do, with what was read before. -/
inductive Task where
  /-- `updateStatus` has read the row -/
  | update (campaign : Campaign) (dto : CampaignDto)
  /-- and has worked out the row to write -/
  | write (campaign : Campaign)
  /-- `stopCampaign` has read the row -/
  | mark (campaign : Campaign)
  /-- and has set the marker -/
  | save (campaign : Campaign)
  /-- `processPage` of a page of a run has found no marker -/
  | look (run page : Nat)
  /-- and no reason in the row to skip it -/
  | package (run page : Nat)

/-- The marker in Redis, with the run it was set in, which is not stored there. -/
structure Marker where
  run : Nat
  expires : Nat
  deriving DecidableEq

/-- Of one campaign: what the tracker knows, the marker, the tasks that are under way
and the number of its runs. The last run that was scheduled when a stop returned, and what
came after it: pages packaged, jobs added by the tracker; and each run kept from
something by a marker, with the run of the marker. Times are in seconds. -/
structure State where
  time : Nat
  tracker : Campaigns.State
  marker : Option Marker
  tasks : Nat → Option Task
  run : Nat
  stopped : Option Nat
  latePages : List (Nat × Nat)
  lateJobs : List Job
  suppressed : List (Nat × Nat)

def State.init (tracker : Campaigns.State) : State :=
  ⟨0, tracker, none, fun _ => none, 0, none, [], [], []⟩

def State.setTask (s : State) (i : Nat) (task : Option Task) : State :=
  { s with tasks := Function.update s.tasks i task }

/-- No run was scheduled since a stop returned. -/
def State.Stopped (s : State) : Prop := s.stopped = some s.run

instance (s : State) : Decidable s.Stopped := inferInstanceAs (Decidable (_ = _))

/-- The run was scheduled before a stop that has returned. -/
def State.stoppedRun (s : State) (run : Nat) : Bool := s.stopped.any fun r => run ≤ r

/-- The marker that `redisClient.get` finds. -/
def State.liveMarker (s : State) : Option Marker := s.marker.filter fun m => s.time < m.expires

/-! ## The tracker -/

/-- What the event merges into the row, if anything. -/
def dto (s : Campaigns.State) : EventTracker → Option CampaignDto
  | .started testabMode => some ⟨if testabMode then .sendingTestAb else .sending, none⟩
  | .page number totalPages _ testabMode =>
      if number = totalPages ∧ testabMode = false then
        some ⟨.completed, some (s.sentContacts, s.sentPercentage)⟩
      else none

/-- An event is counted, and the row is read. -/
def State.receive (s : State) (i : Nat) (e : EventTracker) : State :=
  let tracker := e.count s.tracker
  { s with tracker := tracker }.setTask i
    ((dto tracker e).map fun dto => .update tracker.row dto)

/-- The contacts are cleared, and a recurring campaign gets its next date and job. -/
def State.work (z : Zone) (fuel : Nat) (now : Date) (s : State) (i : Nat) (campaign : Campaign)
    (dto : CampaignDto) : State :=
  let campaign := if campaign.status = .completed then campaign else campaign.merge dto
  if campaign.status = .completed then
    let s := { s with tracker := { s.tracker with cleared := s.tracker.cleared + 1 } }
    if campaign.type = .recurring then
      match setRecurringCampaign z fuel s.tracker.nextJob now campaign with
      | some (row, some job) =>
          { s with
            tracker := { s.tracker with
              jobs := s.tracker.jobs ++ [job], nextJob := s.tracker.nextJob + 1 }
            run := s.run + 1
            lateJobs := if s.Stopped then s.lateJobs ++ [job] else s.lateJobs
          }.setTask i (some (.write row))
      | some (row, none) => s.setTask i (some (.write row))
      | none => s.setTask i none
    else s.setTask i (some (.write campaign))
  else s.setTask i (some (.write campaign))

def State.setRow (s : State) (campaign : Campaign) : State :=
  { s with tracker := { s.tracker with row := campaign } }

/-! ## The stop -/

/-- `campaign.status = 4` and the counters; the percentage is parsed as an integer. -/
def stopRow (s : Campaigns.State) : Campaign :=
  { s.row with
    status := .stopped
    sentContacts := s.sentContacts
    sentPercentage := s.sentPercentage / 10 * 10 }

/-- A campaign that is not being sent cannot be stopped: the call throws. -/
def State.stop (s : State) (i : Nat) : State :=
  if s.tracker.row.status = .sending ∨ s.tracker.row.status = .sendingTestAb then
    s.setTask i (some (.mark (stopRow s.tracker)))
  else s

def State.mark (spreadSending : Nat) (s : State) (i : Nat) (campaign : Campaign) : State :=
  { s with
    marker := some ⟨s.run, s.time + 60 * (spreadSending + 60)⟩
    tracker := { s.tracker with cleared := s.tracker.cleared + 1 }
  }.setTask i (some (.save campaign))

/-- The row is written, and the call returns. -/
def State.save (s : State) (i : Nat) (campaign : Campaign) : State :=
  ({ s with stopped := some s.run }.setRow campaign).setTask i none

/-! ## Runs and pages -/

/-- An update of the campaign that schedules it again. -/
def State.schedule (s : State) (date : Date) : State :=
  { s with
    tracker := { s.tracker with
      row := { s.tracker.row with
        status := .scheduled
        scheduleTo := some date
        scheduleToCloudTaskId := some s.tracker.nextJob }
      jobs := s.tracker.jobs ++ [⟨s.tracker.nextJob, date⟩]
      nextJob := s.tracker.nextJob + 1 }
    run := s.run + 1 }

/-- A run is stopped by the marker, if there is one. -/
def State.suppress (s : State) (run : Nat) (marker : Marker) : State :=
  { s with suppressed := (run, marker.run) :: s.suppressed }

/-- `createContactsSend`; the events and pages that follow are steps of their own. -/
def State.trigger (s : State) (run : Nat) : State :=
  match s.liveMarker with
  | some marker => s.suppress run marker
  | none => s

def State.page (s : State) (i run page : Nat) : State :=
  match s.liveMarker with
  | some marker => s.suppress run marker
  | none => s.setTask i (some (.look run page))

/-- A page of a stopped or completed campaign is skipped. -/
def State.look (s : State) (i run page : Nat) : State :=
  if s.tracker.row.status = .stopped ∨ s.tracker.row.status = .completed then s.setTask i none
  else s.setTask i (some (.package run page))

def State.package (s : State) (i run page : Nat) : State :=
  { s with
    latePages := if s.stoppedRun run then s.latePages ++ [(run, page)] else s.latePages
  }.setTask i none

/-! ## Steps -/

inductive Event where
  | wait (seconds : Nat)
  | receive (i : Nat) (e : EventTracker)
  | stop (i : Nat)
  | schedule (date : Date)
  | trigger (run : Nat)
  | page (i run page : Nat)
  /-- The next step of a task. -/
  | proceed (i : Nat) (now : Date)

def State.proceed (z : Zone) (fuel spreadSending : Nat) (s : State) (i : Nat) (now : Date) :
    Task → State
  | .update campaign dto => s.work z fuel now i campaign dto
  | .write campaign => (s.setRow campaign).setTask i none
  | .mark campaign => s.mark spreadSending i campaign
  | .save campaign => s.save i campaign
  | .look run page => s.look i run page
  | .package run page => s.package i run page

def State.step (z : Zone) (fuel spreadSending : Nat) (s : State) : Event → Option State
  | .wait seconds => some { s with time := s.time + seconds }
  | .receive i e => if s.tasks i = none then some (s.receive i e) else none
  | .stop i => if s.tasks i = none then some (s.stop i) else none
  | .schedule date => some (s.schedule date)
  | .trigger run => if run ≤ s.run then some (s.trigger run) else none
  | .page i run page =>
      if s.tasks i = none ∧ run ≤ s.run then some (s.page i run page) else none
  | .proceed i now => (s.tasks i).map (s.proceed z fuel spreadSending i now)

/-! ## The tracker's steps are its handling of an event -/

section
variable {z : Zone} {fuel spreadSending : Nat} {now : Date} {s s' : State} {i j : Nat} {t : Task}
  {task : Option Task} {e : EventTracker}

theorem setTask_self (s : State) (i : Nat) (task : Option Task) :
    (s.setTask i task).tasks i = task := Function.update_self ..

theorem step_proceed (hi : s.tasks i = some t) :
    s.step z fuel spreadSending (.proceed i now) =
      some (s.proceed z fuel spreadSending i now t) := by
  simp only [State.step, hi, Option.map_some]

/-- What `work` leaves: the row it will write, where `setRecurringCampaign` returns, and
the rest of what the handling does. -/
theorem work_write (z : Zone) (fuel : Nat) (now : Date) (s : State) (i : Nat)
    (campaign : Campaign) (dto : CampaignDto) :
    let done := ({ s.tracker with row := campaign } : Campaigns.State).updateStatus z fuel now dto
    let s' := s.work z fuel now i campaign dto
    (∃ row, s'.tasks i = some (.write row) ∧ (s'.setRow row).tracker = done) ∨
      s'.tasks i = none ∧ (campaign = s.tracker.row → s'.tracker = done) := by
  intro done s'
  simp only [done, s', State.work, Campaigns.State.updateStatus]
  generalize (if campaign.status = .completed then campaign else campaign.merge dto) = row
  by_cases hstatus : row.status = .completed
  · simp only [if_pos hstatus, Campaigns.State.complete]
    by_cases htype : row.type = .recurring
    · simp only [if_pos htype]
      cases setRecurringCampaign z fuel s.tracker.nextJob now row with
      | none =>
          refine .inr ⟨setTask_self .., ?_⟩
          rintro rfl
          rfl
      | some next =>
          obtain ⟨next, job⟩ := next
          cases job with
          | none => exact .inl ⟨_, setTask_self .., rfl⟩
          | some job => exact .inl ⟨_, setTask_self .., rfl⟩
    · simp only [if_neg htype]
      exact .inl ⟨_, setTask_self .., rfl⟩
  · simp only [if_neg hstatus]
    exact .inl ⟨_, setTask_self .., rfl⟩

theorem track_eq (s : Campaigns.State) (e : EventTracker) :
    s.track z fuel now e = match dto (e.count s) e with
      | some dto => (e.count s).updateStatus z fuel now dto
      | none => e.count s := by
  cases e with
  | started testabMode => rfl
  | page number totalPages contactsLength testabMode =>
      show (if number = totalPages ∧ testabMode = false then _ else _) = _
      simp only [dto]
      split
      · rfl
      · rfl

/-- Where nothing comes between, the steps of an event are the tracker's handling of it. -/
theorem receive_work_write (hi : s.tasks i = none) (e : EventTracker) :
    ∃ n s', Runs.exec (State.step z fuel spreadSending) s
        (.receive i e :: List.replicate n (.proceed i now)) = some s' ∧
      s'.tracker = s.tracker.track z fuel now e ∧ s'.tasks i = none := by
  have hreceive : s.step z fuel spreadSending (.receive i e) = some (s.receive i e) := if_pos hi
  have hrow : (s.receive i e).tracker = e.count s.tracker := rfl
  rw [track_eq]
  cases hdto : dto (e.count s.tracker) e with
  | none =>
      refine ⟨0, s.receive i e, ?_, rfl, ?_⟩
      · rw [List.replicate_zero, Runs.exec_cons, hreceive]
        rfl
      · simp only [State.receive, setTask_self, hdto, Option.map_none]
  | some d =>
      have htask : (s.receive i e).tasks i = some (.update (e.count s.tracker).row d) := by
        simp only [State.receive, setTask_self, hdto, Option.map_some]
      have hproceed : (s.receive i e).step z fuel spreadSending (.proceed i now) =
          some ((s.receive i e).work z fuel now i (e.count s.tracker).row d) := step_proceed htask
      have hwork := work_write z fuel now (s.receive i e) i (e.count s.tracker).row d
      rcases hwork with ⟨row, hwrite, hdone⟩ | ⟨hnone, hdone⟩
      · refine ⟨2, ((s.receive i e).work z fuel now i (e.count s.tracker).row d |>.setRow row).setTask
          i none, ?_, hdone, setTask_self ..⟩
        show Runs.exec _ s [Event.receive i e, .proceed i now, .proceed i now] = _
        rw [Runs.exec_cons, hreceive, Option.bind_some, Runs.exec_cons, hproceed,
          Option.bind_some, Runs.exec_cons, step_proceed hwrite]
        rfl
      · refine ⟨1, (s.receive i e).work z fuel now i (e.count s.tracker).row d, ?_, hdone rfl,
          hnone⟩
        show Runs.exec _ s [Event.receive i e, .proceed i now] = _
        rw [Runs.exec_cons, hreceive, Option.bind_some, Runs.exec_cons, hproceed]
        rfl

/-! ## Calm runs -/

/-- The task will write the row as the tracker has it, or package a page. -/
def Task.acts : Task → Bool
  | .update .. | .write _ | .package .. => true
  | _ => false

/-- No event that changes the status is taken up while the campaign is stopped, none is
under way when a stop returns, nor is a page that was already looked up; a page of a
stopped run does not meet the campaign scheduled again; and a run scheduled after a stop
meets its marker no more. -/
def Calm (s : State) : Event → Prop
  | .receive _ e => s.tracker.row.status = .stopped → dto (e.count s.tracker) e = none
  | .trigger run => ∀ m, s.liveMarker = some m → run ≤ m.run
  | .page _ run _ => ∀ m, s.liveMarker = some m → run ≤ m.run
  | .proceed i _ =>
      (∀ campaign, s.tasks i = some (.save campaign) →
        ∀ j t, j ≠ i → s.tasks j = some t → t.acts = false) ∧
      ∀ run page, s.tasks i = some (.look run page) → s.stoppedRun run = true →
        s.tracker.row.status = .stopped ∨ s.tracker.row.status = .completed
  | _ => True

/-! ## What a step keeps -/

structure Inv (s : State) : Prop where
  saved : ∀ i campaign, s.tasks i = some (.mark campaign) ∨ s.tasks i = some (.save campaign) →
    campaign.status = .stopped
  final : s.Stopped → s.tracker.row.status = .stopped
  quiet : s.Stopped → ∀ i t, s.tasks i = some t → t.acts = false
  pages : ∀ i run page, s.tasks i = some (.package run page) → s.stoppedRun run = false
  runs : ∀ run, s.stopped = some run → run ≤ s.run
  latePages : s.latePages = []
  lateJobs : s.lateJobs = []
  suppressed : ∀ b ∈ s.suppressed, b.1 ≤ b.2

theorem inv_init (tracker : Campaigns.State) : Inv (State.init tracker) where
  saved := by
    rintro i campaign (h | h)
    · cases h
    · cases h
  final := by
    intro h
    cases h
  quiet := by
    intro h
    cases h
  pages := by
    intro i run page h
    cases h
  runs := by
    intro run h
    cases h
  latePages := rfl
  lateJobs := rfl
  suppressed := by
    intro b hb
    cases hb

theorem setTask_cases (h : (s.setTask i task).tasks j = some t) :
    (j = i ∧ task = some t) ∨ (j ≠ i ∧ s.tasks j = some t) := by
  simp only [State.setTask, Function.update_apply] at h
  split at h
  · rename_i hji
    exact .inl ⟨hji, h⟩
  · rename_i hji
    exact .inr ⟨hji, h⟩

theorem Inv.setTask (h : Inv s)
    (hsaved : ∀ campaign, task = some (.mark campaign) ∨ task = some (.save campaign) →
      campaign.status = .stopped)
    (hquiet : s.Stopped → ∀ t, task = some t → t.acts = false)
    (hpage : ∀ run page, task = some (.package run page) → s.stoppedRun run = false) :
    Inv (s.setTask i task) where
  saved := by
    rintro j campaign (hj | hj)
    · rcases setTask_cases hj with ⟨_, htask⟩ | ⟨_, hj⟩
      · exact hsaved campaign (.inl htask)
      · exact h.saved j campaign (.inl hj)
    · rcases setTask_cases hj with ⟨_, htask⟩ | ⟨_, hj⟩
      · exact hsaved campaign (.inr htask)
      · exact h.saved j campaign (.inr hj)
  final := h.final
  quiet := by
    intro hs j t hj
    rcases setTask_cases hj with ⟨_, htask⟩ | ⟨_, hj⟩
    · exact hquiet hs t htask
    · exact h.quiet hs j t hj
  pages := by
    intro j run page hj
    rcases setTask_cases hj with ⟨_, htask⟩ | ⟨_, hj⟩
    · exact hpage run page htask
    · exact h.pages j run page hj
  runs := h.runs
  latePages := h.latePages
  lateJobs := h.lateJobs
  suppressed := h.suppressed

theorem Inv.clearTask (h : Inv s) (i : Nat) : Inv (s.setTask i none) := by
  refine h.setTask ?_ ?_ ?_
  · rintro campaign (hnone | hnone)
    · cases hnone
    · cases hnone
  · intro _ t hnone
    cases hnone
  · intro run page hnone
    cases hnone

/-- Another row, where no stop has returned since the last schedule. -/
theorem Inv.setTracker (h : Inv s) (tracker : Campaigns.State)
    (hrow : s.Stopped → tracker.row.status = .stopped) : Inv { s with tracker := tracker } :=
  ⟨h.saved, hrow, h.quiet, h.pages, h.runs, h.latePages, h.lateJobs, h.suppressed⟩

theorem Inv.writeTask (h : Inv s) (hs : ¬ s.Stopped) (i : Nat) (campaign : Campaign) :
    Inv (s.setTask i (some (.write campaign))) := by
  refine h.setTask ?_ (fun hstopped => absurd hstopped hs) ?_
  · rintro c (hc | hc)
    · cases hc
    · cases hc
  · intro run page hpage
    cases hpage

/-- A run is scheduled: none is stopped any more. -/
theorem Inv.newRun (h : Inv s) (tracker : Campaigns.State) :
    Inv { s with tracker := tracker, run := s.run + 1 } := by
  have hnot : ¬ s.stopped = some (s.run + 1) := by
    intro hstopped
    exact absurd (h.runs _ hstopped) (by omega)
  refine ⟨h.saved, fun hstopped => absurd hstopped hnot, fun hstopped => absurd hstopped hnot,
    h.pages, ?_, h.latePages, h.lateJobs, h.suppressed⟩
  intro run hrun
  exact (h.runs run hrun).trans (Nat.le_succ _)

theorem Inv.receive (h : Inv s) (hcalm : Calm s (.receive i e)) : Inv (s.receive i e) := by
  have hrow : (e.count s.tracker).row = s.tracker.row := by
    cases e with
    | started testabMode => rfl
    | page number totalPages contactsLength testabMode => rfl
  have htracker : Inv { s with tracker := e.count s.tracker } := by
    refine h.setTracker _ fun hstopped => ?_
    rw [hrow]
    exact h.final hstopped
  simp only [State.receive]
  cases hdto : dto (e.count s.tracker) e with
  | none => exact htracker.clearTask i
  | some d =>
      have hnot : ¬ s.Stopped := by
        intro hstopped
        have hnone := hcalm (h.final hstopped)
        rw [hdto] at hnone
        cases hnone
      refine htracker.setTask ?_ (fun hstopped => absurd hstopped hnot) ?_
      · rintro c (hc | hc)
        · cases hc
        · cases hc
      · intro run page hpage
        cases hpage

theorem Inv.work (h : Inv s) (hs : ¬ s.Stopped) (campaign : Campaign) (dto : CampaignDto) :
    Inv (s.work z fuel now i campaign dto) := by
  simp only [State.work]
  generalize (if campaign.status = .completed then campaign else campaign.merge dto) = row
  have hcleared : Inv { s with tracker := { s.tracker with cleared := s.tracker.cleared + 1 } } :=
    h.setTracker _ fun hstopped => absurd hstopped hs
  split
  · split
    · split
      · rename_i job _
        have hjob := h.newRun { s.tracker with
          cleared := s.tracker.cleared + 1
          jobs := s.tracker.jobs ++ [job]
          nextJob := s.tracker.nextJob + 1 }
        have hnew : ¬ s.stopped = some (s.run + 1) := by
          intro hstopped
          exact absurd (h.runs _ hstopped) (by omega)
        have hlate : (if s.Stopped then s.lateJobs ++ [job] else s.lateJobs) = s.lateJobs :=
          if_neg hs
        show Inv (State.setTask { s with
          tracker := { s.tracker with
            cleared := s.tracker.cleared + 1
            jobs := s.tracker.jobs ++ [job]
            nextJob := s.tracker.nextJob + 1 }
          run := s.run + 1
          lateJobs := if s.Stopped then s.lateJobs ++ [job] else s.lateJobs } i _)
        rw [hlate]
        exact hjob.writeTask hnew i _
      · exact hcleared.writeTask hs i _
      · exact hcleared.clearTask i
    · exact hcleared.writeTask hs i _
  · exact h.writeTask hs i _

theorem Inv.proceed (h : Inv s) (hi : s.tasks i = some t) (hcalm : Calm s (.proceed i now)) :
    Inv (s.proceed z fuel spreadSending i now t) := by
  obtain ⟨hsave, hlook⟩ := hcalm
  have hacts : t.acts = true → ¬ s.Stopped := by
    intro ht hstopped
    rw [h.quiet hstopped i t hi] at ht
    cases ht
  cases t with
  | update campaign dto => exact h.work (hacts rfl) campaign dto
  | write campaign =>
      exact (h.setTracker _ fun hstopped => absurd hstopped (hacts rfl)).clearTask i
  | mark campaign =>
      have hstatus := h.saved i campaign (.inl hi)
      have hmarked : Inv { s with
          marker := some ⟨s.run, s.time + 60 * (spreadSending + 60)⟩
          tracker := { s.tracker with cleared := s.tracker.cleared + 1 } } :=
        ⟨h.saved, h.final, h.quiet, h.pages, h.runs, h.latePages, h.lateJobs, h.suppressed⟩
      refine hmarked.setTask ?_ ?_ ?_
      · rintro c (hc | hc)
        · cases hc
        · cases hc
          exact hstatus
      · intro _ t ht
        cases ht
        rfl
      · intro run page hpage
        cases hpage
  | save campaign =>
      -- what else is under way will not touch the campaign
      have hothers := hsave campaign hi
      refine ⟨?_, ?_, ?_, ?_, ?_, h.latePages, h.lateJobs, h.suppressed⟩
      · exact (h.clearTask i).saved
      · intro _
        exact h.saved i campaign (.inr hi)
      · intro _ j t hj
        rcases setTask_cases hj with ⟨_, hnone⟩ | ⟨hji, hj⟩
        · cases hnone
        · exact hothers j t hji hj
      · intro j run page hj
        rcases setTask_cases hj with ⟨_, hnone⟩ | ⟨hji, hj⟩
        · cases hnone
        · have hacts := hothers j _ hji hj
          cases hacts
      · intro run hrun
        cases hrun
        exact le_refl _
  | look run page =>
      show Inv (s.look i run page)
      simp only [State.look]
      split
      · exact h.clearTask i
      · rename_i hrow
        have hrun : s.stoppedRun run = false := by
          by_contra hrun
          exact hrow (hlook run page hi (Bool.eq_true_of_not_eq_false hrun))
        have hnot : ¬ s.Stopped := fun hstopped => hrow (.inl (h.final hstopped))
        refine h.setTask ?_ (fun hstopped => absurd hstopped hnot) ?_
        · rintro c (hc | hc)
          · cases hc
          · cases hc
        · intro r p hpage
          cases hpage
          exact hrun
  | package run page =>
      show Inv (s.package i run page)
      simp only [State.package, h.pages i run page hi, Bool.false_eq_true, if_false]
      exact h.clearTask i

theorem Inv.suppress (h : Inv s) {run : Nat} {m : Marker} (hrun : run ≤ m.run) :
    Inv (s.suppress run m) := by
  refine ⟨h.saved, h.final, h.quiet, h.pages, h.runs, h.latePages, h.lateJobs, ?_⟩
  intro b hb
  rcases List.mem_cons.mp hb with rfl | hb
  · exact hrun
  · exact h.suppressed b hb

theorem Inv.stop (h : Inv s) (i : Nat) : Inv (s.stop i) := by
  simp only [State.stop]
  split
  · rename_i hsending
    have hnot : ¬ s.Stopped := by
      intro hstopped
      rw [h.final hstopped] at hsending
      rcases hsending with hs | hs
      · cases hs
      · cases hs
    refine h.setTask ?_ (fun hstopped => absurd hstopped hnot) ?_
    · rintro c (hc | hc)
      · cases hc
        rfl
      · cases hc
    · intro run page hpage
      cases hpage
  · exact h

theorem Inv.step (h : Inv s) {ev : Event} (hcalm : Calm s ev)
    (hs' : s.step z fuel spreadSending ev = some s') : Inv s' := by
  cases ev with
  | wait seconds =>
      cases hs'
      exact ⟨h.saved, h.final, h.quiet, h.pages, h.runs, h.latePages, h.lateJobs, h.suppressed⟩
  | receive i e =>
      simp only [State.step] at hs'
      split at hs' <;> cases hs'
      exact h.receive hcalm
  | stop i =>
      simp only [State.step] at hs'
      split at hs' <;> cases hs'
      exact h.stop i
  | schedule date =>
      cases hs'
      exact h.newRun _
  | trigger run =>
      simp only [State.step] at hs'
      split at hs' <;> cases hs'
      simp only [State.trigger]
      split
      · rename_i m hm
        exact h.suppress (hcalm m hm)
      · exact h
  | page i run page =>
      simp only [State.step] at hs'
      split at hs' <;> cases hs'
      simp only [State.page]
      split
      · rename_i m hm
        exact h.suppress (hcalm m hm)
      · refine h.setTask ?_ ?_ ?_
        · rintro c (hc | hc)
          · cases hc
          · cases hc
        · intro _ t ht
          cases ht
          rfl
        · intro r p hpage
          cases hpage
  | proceed i now =>
      obtain ⟨t, ht, rfl⟩ := Option.map_eq_some_iff.mp hs'
      exact h.proceed ht hcalm

end

/-- In every calm run: once a stop has returned, the status stays `STOPPED` until the
campaign is scheduled again, no page of the runs that were stopped is packaged, no job is
added by the tracker, and no run scheduled after the stop is kept from anything. -/
theorem stopped_final (z : Zone) (fuel spreadSending : Nat) (tracker : Campaigns.State)
    (events : List Event) (s : State)
    (hcalm : Runs.Meets (State.step z fuel spreadSending) Calm (State.init tracker) events)
    (hs : Runs.exec (State.step z fuel spreadSending) (State.init tracker) events = some s) :
    (s.Stopped → s.tracker.row.status = .stopped) ∧ s.latePages = [] ∧ s.lateJobs = [] ∧
      ∀ b ∈ s.suppressed, b.1 ≤ b.2 := by
  have hinv : Inv s :=
    Runs.invariant (fun _ _ _ h hc hs => h.step hc hs) (inv_init tracker) hcalm hs
  exact ⟨hinv.final, hinv.latePages, hinv.lateJobs, hinv.suppressed⟩

/-- The event of a last page, handled in three steps. -/
theorem receive_work_write_sample :
    ∃ n s', Runs.exec (State.step sampleZone 0 1) (State.init (sampleState .recurring))
        (.receive 0 (.page 2 2 10 false) :: List.replicate n (.proceed 0 sampleDate)) = some s' ∧
      s'.tracker = (sampleState .recurring).track sampleZone 0 sampleDate (.page 2 2 10 false) ∧
      s'.tasks 0 = none :=
  receive_work_write rfl _

/-- A page is skipped after the stop, and a run is scheduled and triggered an hour and
a minute later. -/
theorem stopped_final_sample :
    ∃ s, Runs.exec (State.step sampleZone 0 1) (State.init (sampleState .simple))
        [.stop 0, .proceed 0 sampleDate, .proceed 0 sampleDate, .page 1 0 2, .wait 3660,
          .page 1 0 3, .proceed 1 sampleDate] = some s ∧
      s.Stopped ∧ s.tracker.row.status = .stopped ∧ s.latePages = [] := by
  have hfinal := stopped_final sampleZone 0 1 (sampleState .simple)
    [.stop 0, .proceed 0 sampleDate, .proceed 0 sampleDate, .page 1 0 2, .wait 3660,
      .page 1 0 3, .proceed 1 sampleDate] _ ?_ rfl
  · exact ⟨_, rfl, rfl, hfinal.1 rfl, hfinal.2.1⟩
  refine .cons trivial rfl (.cons ⟨?_, ?_⟩ rfl (.cons ⟨?_, ?_⟩ rfl
    (.cons (fun _ _ => Nat.zero_le _) rfl (.cons trivial rfl
      (.cons (fun _ _ => Nat.zero_le _) rfl (.cons ⟨?_, ?_⟩ rfl trivial))))))
  · intro c hc
    cases hc
  · intro run page hlook
    cases hlook
  · -- nothing else is under way
    intro c hc j t hj hjt
    rcases setTask_cases hjt with ⟨hj', _⟩ | ⟨_, hjt⟩
    · exact absurd hj' hj
    · rcases setTask_cases hjt with ⟨hj', _⟩ | ⟨_, hjt⟩
      · exact absurd hj' hj
      · cases hjt
  · intro run page hlook
    cases hlook
  · intro c hc
    cases hc
  · intro run page hlook hrun
    exact .inl rfl

/-- The event of the last page of a recurring campaign is handled after the stop: the
campaign is scheduled again. A run scheduled a minute after a stop is kept from starting. -/
theorem stopped_rescheduled :
    (Runs.exec (State.step sampleZone 0 1) (State.init (sampleState .recurring))
        [.stop 0, .proceed 0 sampleDate, .proceed 0 sampleDate, .receive 1 (.page 2 2 10 false),
          .proceed 1 sampleDate, .proceed 1 sampleDate]).map
      (fun s => (s.stopped, s.tracker.row.status, s.lateJobs.length)) =
        some (some 0, .scheduled, 1) ∧
    (Runs.exec (State.step sampleZone 0 1) (State.init (sampleState .recurring))
        [.stop 0, .proceed 0 sampleDate, .proceed 0 sampleDate, .wait 60, .schedule sampleDate,
          .trigger 1]).map (fun s => s.suppressed) = some [(1, 0)] := by
  decide

end OpenBms.Campaigns.Stop
