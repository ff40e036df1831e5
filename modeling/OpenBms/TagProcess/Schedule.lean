/-
# `OpenBms.TagProcess.Schedule` — the pending recalculations of the segments

A segment is recalculated by a job, and its row has the name of the next one.  The API adds
its jobs to the queue of the scheduler, a recalculation adds the next one to the queue of
`tag-process`; the API looks for a job in its own queues only.

| | queue | name | attempts |
| :-- | :-- | :-- | :-- |
| created, changed or run by the API | `bms-scheduler-segment` | saved, but not by a run | 5 |
| after a recalculation | `segment-process` | saved | 3 |

**Proved here.**

    a segment that is not scheduled has no jobs (`Inv.vacant`)
    the API removes the job of a segment that its queues have,
    and finds no other (`Inv.removeJob`, `Inv.removeJob_other`)
    a job is added where there is none, and its name is saved (`Vacant.createJob`)
    what an allowed request keeps (`updateSegment_inv` and the others)
-/
import OpenBms.TagProcess.SegmentRun

namespace OpenBms.TagProcess.Schedule

/-! ## Rows and jobs -/

inductive Queue where
  | scheduler
  | segmentProcess
  deriving DecidableEq

/-- A job that is waiting for its date or for its next attempt. -/
structure Job where
  name : Nat
  queue : Queue
  segmentId : Nat
  attempts : Nat

/-- The columns of a row of `tags` that the jobs depend on. -/
structure Row where
  accountId : Nat
  type : String
  status : Option String
  scheduleCloudTaskId : Option Nat

/-- The segments by their ids, and the pending jobs; names of jobs are not used twice. -/
structure State where
  segments : Nat → Option Row
  jobs : List Job
  nextJob : Nat

def State.init : State := ⟨fun _ => none, [], 0⟩

/-- A request: what it leaves out is `none`, what it sets to null is `some none`. -/
structure SegmentDto where
  accountId : Option Nat
  type : Option String
  status : Option (Option String)
  scheduleCloudTaskId : Option (Option Nat)

def Row.merge (row : Row) (dto : SegmentDto) : Row where
  accountId := dto.accountId.getD row.accountId
  type := dto.type.getD row.type
  status := dto.status.getD row.status
  scheduleCloudTaskId := dto.scheduleCloudTaskId.getD row.scheduleCloudTaskId

/-- The columns of a row that is inserted, before those of the request. -/
def Row.default (accountId : Nat) : Row := ⟨accountId, "tag", some "active", none⟩

/-- The steps of a request that can fail; `check` is also the conflict with a run, or with a
tag in use. -/
inductive Step where
  | check
  | load
  | save
  | realtimeUpdate
  | deleteJob
  | createJob
  | update
  | deleteRow

/-- Which steps of a request succeed. -/
abbrev Steps := Step → Bool

/-! ## Jobs -/

namespace State

variable (s : State)

def setRow (id : Nat) (row : Row) : State :=
  { s with segments := Function.update s.segments id (some row) }

def deleteRow (id : Nat) : State := { s with segments := Function.update s.segments id none }

def createJob (queue : Queue) (segmentId attempts : Nat) : State :=
  { s with
    jobs := s.jobs ++ [⟨s.nextJob, queue, segmentId, attempts⟩]
    nextJob := s.nextJob + 1 }

/-- The job with the name, if the queue has it, is removed. -/
def removeJob (queue : Queue) (name : Option Nat) : State :=
  { s with jobs := s.jobs.filter fun job => ! (job.queue = queue && some job.name = name) }

/-- `findOneOrFail` in the account. -/
def find (accountId id : Nat) : Option Row := (s.segments id).filter (·.accountId = accountId)

/-! ## Requests -/

/-- The row that `create` saves: a request may have the id of a row. -/
def created (accountId id : Nat) (dto : SegmentDto) : Row :=
  { ((s.segments id).getD (Row.default accountId)).merge dto with accountId := accountId }

/-- Also `createCopy`, with the columns of the row that it copies. -/
def createSegment (ok : Steps) (accountId id : Nat) (dto : SegmentDto) : State :=
  if ok .save = false then s
  else
    let row := s.created accountId id dto
    let s' := s.setRow id row
    if ok .realtimeUpdate = false ∨ ok .createJob = false then s'
    else if ok .update = false then s'.createJob .scheduler id 5
    else
      (s'.createJob .scheduler id 5).setRow id { row with scheduleCloudTaskId := some s.nextJob }

/-- A job that cannot be deleted is left, and so is one that the queues of the API lack.  A
segment is paused by the status of the request. -/
def updateSegment (ok : Steps) (accountId id : Nat) (dto : SegmentDto) : State :=
  match s.find accountId id with
  | none => s
  | some row =>
      if ok .check = false ∨ ok .load = false ∨ ok .realtimeUpdate = false then s
      else
        let s' := if ok .deleteJob then s.removeJob .scheduler row.scheduleCloudTaskId else s
        if ok .createJob = false then s'
        else if ok .update = false then s'.createJob .scheduler id 5
        else
          (s'.createJob .scheduler id 5).setRow id
            { row.merge dto with scheduleCloudTaskId := some s.nextJob }

/-- Of a tag, and without the columns of a segment. -/
def update (ok : Steps) (accountId id : Nat) (newAccountId : Option Nat) (type : Option String) :
    State :=
  match s.find accountId id with
  | none => s
  | some row =>
      if ok .load = false ∨ ok .update = false then s
      else s.setRow id (row.merge ⟨newAccountId, type, none, none⟩)

/-- The job is promoted, which leaves it pending; when the queues of the API lack it, a job is
added for now. -/
def runSegment (ok : Steps) (accountId id : Nat) : State :=
  match s.find accountId id with
  | none => s
  | some row =>
      if ok .check = false ∨ ok .load = false then s
      else if s.jobs.any fun job => job.queue = .scheduler && some job.name = row.scheduleCloudTaskId
      then s
      else if ok .createJob = false then s
      else s.createJob .scheduler id 5

def delete (ok : Steps) (accountId id : Nat) : State :=
  match s.find accountId id with
  | none => s
  | some row =>
      if ok .check = false ∨ ok .load = false then s
      else if row.type = "segment" ∧ row.scheduleCloudTaskId ≠ none then
        if ok .realtimeUpdate = false ∨ ok .deleteJob = false then s
        else
          let s' := s.removeJob .scheduler row.scheduleCloudTaskId
          if ok .deleteRow = false then s' else s'.deleteRow id
      else if ok .deleteRow = false then s
      else s.deleteRow id

/-! ## Recalculations -/

/-- The text of a status. -/
def text : SegmentStatus → String
  | .REACTIVATING => "reactivating"
  | .INACTIVE => "inactive"
  | .ACTIVE => "active"

/-- The row as a run loads it. -/
def loaded (old : Bool) (row : Row) : Segment where
  baseSize := row.type = "segment-base-size"
  status :=
    if row.status = some (text .REACTIVATING) then .REACTIVATING
    else if row.status = some (text .INACTIVE) then .INACTIVE
    else .ACTIVE
  old := old
  scheduleCloudTaskId := row.scheduleCloudTaskId

def updateTag (id : Nat) (changes : TagUpdate) : State :=
  match s.segments id with
  | none => s
  | some row =>
      s.setRow id
        { row with
          status := (changes.status.map text).or row.status
          scheduleCloudTaskId := changes.scheduleCloudTaskId }

/-- What an effect of a run does to the rows and the jobs. -/
def effect (id : Nat) (s : State) : Effect → State
  | .publishSegmentData _ _ => s
  | .scheduleSegmentRecalculation => s.createJob .segmentProcess id 3
  | .cancelSegmentJob name => s.removeJob .segmentProcess name
  | .updateTag changes => s.updateTag id changes

/-- A run of the segment in this state. -/
def env (id : Nat) (isCampaign old : Bool) (env : Env) : Env :=
  { env with
    isCampaign := isCampaign
    segment := (s.segments id).map (loaded old)
    job := s.nextJob }

def processSegment (id : Nat) (e : Env) : State :=
  (appProcessSegment e).effects.foldl (effect id) s

/-- The job ends. -/
def finish (name : Nat) : State := { s with jobs := s.jobs.filter (·.name ≠ name) }

/-- The job waits for its next attempt. -/
def retry (name : Nat) : State :=
  { s with jobs := s.jobs.map fun job =>
      if job.name = name then { job with attempts := job.attempts - 1 } else job }

/-- A job runs; it is tried again after a run that throws, or whose reply is lost. -/
def process (name : Nat) (e : Env) (old lost : Bool) : State :=
  match s.jobs.find? (·.name = name) with
  | none => s
  | some job =>
      let e := s.env job.segmentId false old e
      let s' := s.processSegment job.segmentId e
      if (appProcessSegment e).outcome.isOk && ! lost then s'.finish name
      else if 1 < job.attempts then s'.retry name
      else s'.finish name

end State

inductive Op where
  | createSegment (accountId id : Nat) (dto : SegmentDto) (ok : Steps)
  | updateSegment (accountId id : Nat) (dto : SegmentDto) (ok : Steps)
  | update (accountId id : Nat) (newAccountId : Option Nat) (type : Option String) (ok : Steps)
  | runSegment (accountId id : Nat) (ok : Steps)
  | delete (accountId id : Nat) (ok : Steps)
  | process (name : Nat) (env : Env) (old lost : Bool)
  | processCampaign (id : Nat) (env : Env) (old : Bool)

def State.step (s : State) : Op → State
  | .createSegment accountId id dto ok => s.createSegment ok accountId id dto
  | .updateSegment accountId id dto ok => s.updateSegment ok accountId id dto
  | .update accountId id newAccountId type ok => s.update ok accountId id newAccountId type
  | .runSegment accountId id ok => s.runSegment ok accountId id
  | .delete accountId id ok => s.delete ok accountId id
  | .process name env old lost => s.process name env old lost
  | .processCampaign id env old => s.processSegment id (s.env id true old env)

/-! ## One job each -/

/-- The jobs of a segment. -/
def State.pending (s : State) (id : Nat) : List Job := s.jobs.filter (·.segmentId = id)

/-- A segment that is not paused and has the name of a job. -/
def Row.Scheduled (row : Row) : Prop :=
  row.status ≠ some (State.text .INACTIVE) ∧ row.scheduleCloudTaskId ≠ none

/-- A scheduled segment has one job, the one that its row names; one that is not scheduled
or deleted has none. -/
structure OneJob (s : State) (id : Nat) : Prop where
  scheduled : ∀ row, s.segments id = some row → row.Scheduled →
    ∃ job, s.pending id = [job] ∧ row.scheduleCloudTaskId = some job.name
  idle : (∀ row, s.segments id = some row → ¬ row.Scheduled) → s.pending id = []

/-- Names of jobs are not used twice; no row names the job of another segment, and one that is
not scheduled names none. -/
structure Named (s : State) : Prop where
  fresh : ∀ job ∈ s.jobs, job.name < s.nextJob
  nodup : (s.jobs.map (·.name)).Nodup
  rows : ∀ id row name, s.segments id = some row → row.scheduleCloudTaskId = some name →
    name < s.nextJob ∧ ∀ job ∈ s.jobs, job.name = name → job.segmentId = id
  idle : ∀ id row, s.segments id = some row → ¬ row.Scheduled → row.scheduleCloudTaskId = none

structure Inv (s : State) : Prop where
  named : Named s
  one : ∀ id, OneJob s id

/-- The segment has no job, and the others have theirs. -/
structure Vacant (s : State) (id : Nat) : Prop where
  named : Named s
  others : ∀ i, i ≠ id → OneJob s i
  empty : s.pending id = []

section
variable {s s' : State} {id : Nat} {row : Row}

/-! ### Rows -/

theorem OneJob.congr (h : OneJob s id) (hsegments : s'.segments id = s.segments id)
    (hpending : s'.pending id = s.pending id) : OneJob s' id := by
  constructor
  · rw [hsegments, hpending]
    exact h.scheduled
  · rw [hsegments, hpending]
    exact h.idle

theorem segments_setRow_self : (s.setRow id row).segments id = some row := Function.update_self ..

theorem segments_setRow_ne {i : Nat} (h : i ≠ id) : (s.setRow id row).segments i = s.segments i :=
  Function.update_of_ne h ..

theorem setRow_self (h : s.segments id = some row) : s.setRow id row = s := by
  unfold State.setRow
  rw [← h, Function.update_eq_self]

/-- The last of two rows counts. -/
theorem createJob_setRow {queue : Queue} {attempts : Nat} {row' : Row} :
    ((s.setRow id row).createJob queue id attempts).setRow id row' =
      (s.createJob queue id attempts).setRow id row' := by
  unfold State.setRow State.createJob
  simp only [Function.update_idem]

theorem Inv.vacant (h : Inv s) (hidle : ∀ row, s.segments id = some row → ¬ row.Scheduled) :
    Vacant s id :=
  ⟨h.named, fun i _ => h.one i, (h.one id).idle hidle⟩

theorem Inv.pending_eq (h : Inv s) {job : Job} (hjob : job ∈ s.jobs) :
    ∃ row, s.segments job.segmentId = some row ∧ row.Scheduled ∧
      row.scheduleCloudTaskId = some job.name ∧ s.pending job.segmentId = [job] := by
  have hmem : job ∈ s.pending job.segmentId := List.mem_filter.mpr ⟨hjob, by simp⟩
  by_cases hidle : ∀ row, s.segments job.segmentId = some row → ¬ row.Scheduled
  · rw [(h.one _).idle hidle] at hmem
    cases hmem
  · push Not at hidle
    obtain ⟨row, hrow, hscheduled⟩ := hidle
    obtain ⟨only, hpending, hname⟩ := (h.one _).scheduled row hrow hscheduled
    rw [hpending] at hmem
    obtain rfl := List.mem_singleton.mp hmem
    exact ⟨row, hrow, hscheduled, hname, hpending⟩

theorem Named.setRow (h : Named s) (hname : ∀ name, row.scheduleCloudTaskId = some name →
    name < s.nextJob ∧ ∀ job ∈ s.jobs, job.name = name → job.segmentId = id)
    (hidle : ¬ row.Scheduled → row.scheduleCloudTaskId = none) : Named (s.setRow id row) where
  fresh := h.fresh
  nodup := h.nodup
  rows i row' name hrow hrow' := by
    by_cases hi : i = id
    · subst hi
      rw [segments_setRow_self] at hrow
      obtain rfl := Option.some.inj hrow
      exact hname name hrow'
    · rw [segments_setRow_ne hi] at hrow
      exact h.rows i row' name hrow hrow'
  idle i row' hrow hrow' := by
    by_cases hi : i = id
    · subst hi
      rw [segments_setRow_self] at hrow
      obtain rfl := Option.some.inj hrow
      exact hidle hrow'
    · rw [segments_setRow_ne hi] at hrow
      exact h.idle i row' hrow hrow'

theorem Vacant.setRow (h : Vacant s id) (hnone : row.scheduleCloudTaskId = none) :
    Inv (s.setRow id row) where
  named := by
    refine h.named.setRow (fun name hname => ?_) fun _ => hnone
    rw [hnone] at hname
    cases hname
  one i := by
    by_cases hi : i = id
    · subst hi
      refine ⟨fun row' hrow hscheduled => ?_, fun _ => h.empty⟩
      rw [segments_setRow_self] at hrow
      obtain rfl := Option.some.inj hrow
      exact absurd hnone hscheduled.2
    · exact (h.others i hi).congr (segments_setRow_ne hi) rfl

theorem Inv.setRow (h : Inv s) {old : Row} (hold : s.segments id = some old)
    (hname : row.scheduleCloudTaskId = old.scheduleCloudTaskId)
    (hscheduled : old.Scheduled ↔ row.Scheduled) : Inv (s.setRow id row) where
  named := by
    refine h.named.setRow (fun name hrow => h.named.rows id old name hold (hname ▸ hrow)) ?_
    intro hidle
    rw [hname]
    exact h.named.idle id old hold fun h => hidle (hscheduled.mp h)
  one i := by
    by_cases hi : i = id
    · subst hi
      refine ⟨fun row' hrow hrow' => ?_, fun hidle => ?_⟩
      · rw [segments_setRow_self] at hrow
        obtain rfl := Option.some.inj hrow
        rw [hname]
        exact (h.one i).scheduled old hold (hscheduled.mpr hrow')
      · refine (h.one i).idle fun old' hold' hscheduled' => ?_
        rw [hold] at hold'
        obtain rfl := Option.some.inj hold'
        exact hidle row segments_setRow_self (hscheduled.mp hscheduled')
    · exact (h.one i).congr (segments_setRow_ne hi) rfl

theorem Vacant.deleteRow (h : Vacant s id) : Inv (s.deleteRow id) where
  named := by
    have hrows (i : Nat) (row : Row) (hrow : (s.deleteRow id).segments i = some row) :
        s.segments i = some row := by
      by_cases hi : i = id
      · subst hi
        rw [show (s.deleteRow i).segments i = none from Function.update_self ..] at hrow
        cases hrow
      · rwa [show (s.deleteRow id).segments i = s.segments i from Function.update_of_ne hi ..] at hrow
    exact ⟨h.named.fresh, h.named.nodup,
      fun i row name hrow => h.named.rows i row name (hrows i row hrow),
      fun i row hrow => h.named.idle i row (hrows i row hrow)⟩
  one i := by
    by_cases hi : i = id
    · subst hi
      refine ⟨fun row hrow _ => ?_, fun _ => h.empty⟩
      rw [show (s.deleteRow i).segments i = none from Function.update_self ..] at hrow
      cases hrow
    · exact (h.others i hi).congr (Function.update_of_ne hi ..) rfl

/-! ### Jobs -/

theorem pending_createJob {queue : Queue} {segmentId attempts i : Nat} :
    (s.createJob queue segmentId attempts).pending i = s.pending i ++
      if segmentId = i then [⟨s.nextJob, queue, segmentId, attempts⟩] else [] := by
  unfold State.pending State.createJob
  rw [List.filter_append]
  by_cases hi : segmentId = i
  · rw [if_pos hi, List.filter_cons_of_pos (by simpa using hi), List.filter_nil]
  · rw [if_neg hi, List.filter_cons_of_neg (by simpa using hi), List.filter_nil]

theorem Named.createJob (h : Named s) {queue : Queue} {segmentId attempts : Nat} :
    Named (s.createJob queue segmentId attempts) where
  fresh job hjob := by
    rcases List.mem_append.mp hjob with hold | hnew
    · exact Nat.lt_succ_of_lt (h.fresh job hold)
    · obtain rfl := List.mem_singleton.mp hnew
      exact Nat.lt_succ_self _
  nodup := by
    unfold State.createJob
    rw [List.map_append]
    refine List.Nodup.append h.nodup (List.nodup_singleton _) fun name hold hnew => ?_
    obtain ⟨job, hjob, rfl⟩ := List.mem_map.mp hold
    exact absurd (List.mem_singleton.mp hnew) (Nat.ne_of_lt (h.fresh job hjob))
  rows i row name hrow hname := by
    obtain ⟨hlt, hjobs⟩ := h.rows i row name hrow hname
    refine ⟨Nat.lt_succ_of_lt hlt, fun job hjob hjobname => ?_⟩
    rcases List.mem_append.mp hjob with hold | hnew
    · exact hjobs job hold hjobname
    · obtain rfl := List.mem_singleton.mp hnew
      exact absurd hjobname.symm (Nat.ne_of_lt hlt)
  idle := h.idle

/-- A job is added where there is none, and its name is saved. -/
theorem Vacant.createJob (h : Vacant s id) (row : Row) {queue : Queue} {attempts : Nat}
    (hstatus : row.status ≠ some (State.text .INACTIVE)) :
    Inv ((s.createJob queue id attempts).setRow id
      { row with scheduleCloudTaskId := some s.nextJob }) where
  named := by
    refine h.named.createJob.setRow (fun name hname => ?_)
      fun hidle => absurd ⟨hstatus, fun h => by cases h⟩ hidle
    obtain rfl := Option.some.inj hname
    refine ⟨Nat.lt_succ_self _, fun job hjob hjobname => ?_⟩
    rcases List.mem_append.mp hjob with hold | hnew
    · exact absurd hjobname (Nat.ne_of_lt (h.named.fresh job hold))
    · exact (List.mem_singleton.mp hnew) ▸ rfl
  one i := by
    by_cases hi : i = id
    · subst hi
      have hpending : (s.createJob queue i attempts).pending i =
          [⟨s.nextJob, queue, i, attempts⟩] := by
        rw [pending_createJob, h.empty, if_pos rfl, List.nil_append]
      refine ⟨fun row' hrow _ => ⟨_, hpending, ?_⟩, fun hidle => ?_⟩
      · rw [segments_setRow_self] at hrow
        exact (Option.some.inj hrow) ▸ rfl
      · exact absurd ⟨hstatus, fun h => by cases h⟩ (hidle _ segments_setRow_self)
    · refine (h.others i hi).congr (segments_setRow_ne hi) ?_
      exact pending_createJob.trans (by rw [if_neg (Ne.symm hi), List.append_nil])

theorem Named.filter (h : Named s) (p : Job → Bool) : Named { s with jobs := s.jobs.filter p } where
  fresh job hjob := h.fresh job (List.mem_of_mem_filter hjob)
  nodup := h.nodup.sublist (List.filter_sublist.map _)
  rows i row name hrow hname := by
    obtain ⟨hlt, hjobs⟩ := h.rows i row name hrow hname
    exact ⟨hlt, fun job hjob => hjobs job (List.mem_of_mem_filter hjob)⟩
  idle := h.idle

theorem pending_filter {p : Job → Bool} {i : Nat} :
    State.pending { s with jobs := s.jobs.filter p } i = (s.pending i).filter p := by
  unfold State.pending
  rw [List.filter_filter, List.filter_filter]
  exact List.filter_congr fun job _ => Bool.and_comm ..

theorem Inv.removed (h : Inv s) {p : Job → Bool}
    (hother : ∀ job ∈ s.jobs, job.segmentId ≠ id → p job = true)
    (hown : ∀ job ∈ s.pending id, p job = false) :
    Vacant { s with jobs := s.jobs.filter p } id where
  named := h.named.filter p
  others i hi := by
    refine (h.one i).congr rfl (pending_filter.trans (List.filter_eq_self.mpr fun job hjob => ?_))
    obtain ⟨hmem, hid⟩ := List.mem_filter.mp hjob
    have hid : job.segmentId = i := by simpa using hid
    exact hother job hmem (hid ▸ hi)
  empty := by
    rw [pending_filter, List.filter_eq_nil_iff]
    exact fun job hjob => by rw [hown job hjob]; exact Bool.false_ne_true

/-- A removal that finds nothing. -/
theorem removeJob_none {queue : Queue} {name : Option Nat}
    (h : ∀ job ∈ s.jobs, ¬ (job.queue = queue ∧ some job.name = name)) :
    s.removeJob queue name = s := by
  unfold State.removeJob
  rw [List.filter_eq_self.mpr fun job hjob => by simpa [imp_iff_not_or] using h job hjob]

theorem Inv.removeJob (h : Inv s) (hrow : s.segments id = some row)
    (hqueue : ∀ job ∈ s.pending id, job.queue = .scheduler) :
    Vacant (s.removeJob .scheduler row.scheduleCloudTaskId) id := by
  refine h.removed (fun job hjob hne => ?_) fun job hjob => ?_
  · -- the row names no job of another segment
    by_contra hremoved
    have hname : row.scheduleCloudTaskId = some job.name := by
      simp only [Bool.not_eq_true, Bool.not_eq_false', Bool.and_eq_true,
        decide_eq_true_eq] at hremoved
      exact hremoved.2.symm
    exact hne ((h.named.rows id row job.name hrow hname).2 job hjob rfl)
  · obtain ⟨hmem, hid⟩ := List.mem_filter.mp hjob
    have hid : job.segmentId = id := by simpa using hid
    obtain ⟨row', hrow', -, hname, -⟩ := h.pending_eq hmem
    rw [hid, hrow] at hrow'
    obtain rfl := Option.some.inj hrow'
    simp only [hqueue job hjob, hname, decide_true, Bool.and_self, Bool.not_true]

theorem Inv.removeJob_other (h : Inv s) (hrow : s.segments id = some row)
    (hqueue : ∀ job ∈ s.pending id, job.queue ≠ .scheduler) :
    s.removeJob .scheduler row.scheduleCloudTaskId = s := by
  refine removeJob_none fun job hjob hfound => ?_
  have hid := (h.named.rows id row job.name hrow hfound.2.symm).2 job hjob rfl
  exact hqueue job (List.mem_filter.mpr ⟨hjob, by simpa using hid⟩) hfound.1

end

/-! ## What an operation must do -/

/-- A step of a run fails; the transaction of `msgops` is one of them. -/
def Fails (env : Env) : Prop :=
  env.acquired = false ∨ (∃ call, env.g call = true) ∨ (∃ e, env.generated = .error e) ∨
    ∃ query, (processSegment env.f query env.store).result = .error ()

/-- The run takes the segment for one of no account, or one that no campaign uses. -/
def Deactivates (env : Env) (segment : Segment) : Prop :=
  plan env segment = .ok .stop ∨ plan env segment = .ok .deactivate

/-- What an operation needs, that each scheduled segment goes on to have one job. -/
def Guarded (s : State) : Op → Prop
  | .createSegment accountId id dto ok => ok .save = true →
      if ok .realtimeUpdate = false ∨ ok .createJob = false then
        dto.scheduleCloudTaskId = none ∧ ∀ old, s.segments id = some old →
          (old.Scheduled ↔ (s.created accountId id dto).Scheduled)
      else
        ok .update = true ∧ (s.created accountId id dto).status ≠ some (State.text .INACTIVE) ∧
          ∀ old, s.segments id = some old → ¬ old.Scheduled
  | .updateSegment accountId id dto ok => ∀ row, s.find accountId id = some row →
      ok .check = true → ok .load = true → ok .realtimeUpdate = true →
        if ok .createJob = true then
          ok .update = true ∧ (row.merge dto).status ≠ some (State.text .INACTIVE) ∧
            ∀ job ∈ s.pending id, job.queue = .scheduler ∧ ok .deleteJob = true
        else ok .deleteJob = true → ∀ job ∈ s.pending id, job.queue ≠ .scheduler
  | .update .. => True
  | .runSegment accountId id ok => ∀ row, s.find accountId id = some row →
      ok .check = true → ok .load = true → ok .createJob = true →
        ∃ job ∈ s.pending id, job.queue = .scheduler
  | .delete accountId id ok => ∀ row, s.find accountId id = some row →
      ok .check = true → ok .load = true →
        if row.type = "segment" ∧ row.scheduleCloudTaskId ≠ none then
          ok .realtimeUpdate = true → ok .deleteJob = true →
            if ok .deleteRow = true then ∀ job ∈ s.pending id, job.queue = .scheduler
            else ∀ job ∈ s.pending id, job.queue ≠ .scheduler
        else ok .deleteRow = true → s.pending id = []
  | .process name env _ lost => ∀ job ∈ s.jobs, job.name = name →
      if 1 < job.attempts then
        lost = false ∧ env.g .releaseLock = false ∧ env.g .cancelSegmentJob = false
      else ¬ Fails env
  | .processCampaign id env old => ∀ row, s.segments id = some row → row.Scheduled →
      ¬ Deactivates (s.env id true old env) (State.loaded old row)

section
variable {s : State} {ok : Steps} {accountId id : Nat}

theorem find_spec {row : Row} (h : s.find accountId id = some row) : s.segments id = some row :=
  (Option.filter_eq_some_iff.mp h).1

theorem createSegment_inv (h : Inv s) {dto : SegmentDto}
    (hguarded : Guarded s (.createSegment accountId id dto ok)) :
    Inv (s.createSegment ok accountId id dto) := by
  unfold State.createSegment
  cases hsave : ok .save with
  | false => exact h
  | true =>
      have hguarded := hguarded hsave
      simp only [Bool.true_eq_false, if_false]
      by_cases hjob : ok .realtimeUpdate = false ∨ ok .createJob = false
      · rw [if_pos hjob] at hguarded ⊢
        obtain ⟨hname, hscheduled⟩ := hguarded
        cases hold : s.segments id with
        | none =>
            refine (h.vacant fun row hrow => ?_).setRow ?_
            · rw [hold] at hrow
              cases hrow
            · unfold State.created Row.merge
              rw [hold, hname]
              rfl
        | some old =>
            refine h.setRow hold ?_ (hscheduled old hold)
            unfold State.created Row.merge
            rw [hold, hname]
            rfl
      · rw [if_neg hjob] at hguarded ⊢
        obtain ⟨hupdate, hstatus, hidle⟩ := hguarded
        rw [if_neg (by simp [hupdate])]
        rw [createJob_setRow]
        exact (h.vacant hidle).createJob _ hstatus

theorem updateSegment_inv (h : Inv s) {dto : SegmentDto}
    (hguarded : Guarded s (.updateSegment accountId id dto ok)) :
    Inv (s.updateSegment ok accountId id dto) := by
  unfold State.updateSegment
  cases hfind : s.find accountId id with
  | none => exact h
  | some row =>
      have hrow := find_spec hfind
      dsimp only
      by_cases hsteps : ok .check = false ∨ ok .load = false ∨ ok .realtimeUpdate = false
      · rw [if_pos hsteps]
        exact h
      · rw [if_neg hsteps]
        simp only [not_or, Bool.not_eq_false] at hsteps
        have hguarded := hguarded row hfind hsteps.1 hsteps.2.1 hsteps.2.2
        cases hjob : ok .createJob with
        | false =>
            rw [hjob] at hguarded
            simp only [Bool.false_eq_true, if_false] at hguarded
            rw [if_pos rfl]
            by_cases hdelete : ok .deleteJob = true
            · rw [if_pos hdelete, h.removeJob_other hrow (hguarded hdelete)]
              exact h
            · rw [if_neg hdelete]
              exact h
        | true =>
            rw [hjob, if_pos rfl] at hguarded
            obtain ⟨hupdate, hstatus, hpending⟩ := hguarded
            rw [if_neg (by simp), if_neg (by simp [hupdate])]
            by_cases hdelete : ok .deleteJob = true
            · rw [if_pos hdelete]
              exact (h.removeJob hrow fun job hjob => (hpending job hjob).1).createJob _ hstatus
            · -- then there is no job to delete
              rw [if_neg hdelete]
              have hempty : s.pending id = [] :=
                List.eq_nil_iff_forall_not_mem.mpr fun job hjob => hdelete (hpending job hjob).2
              exact Vacant.createJob ⟨h.named, fun i _ => h.one i, hempty⟩ _ hstatus

theorem update_inv (h : Inv s) {newAccountId : Option Nat} {type : Option String} :
    Inv (s.update ok accountId id newAccountId type) := by
  unfold State.update
  cases hfind : s.find accountId id with
  | none => exact h
  | some row =>
      dsimp only
      by_cases hsteps : ok .load = false ∨ ok .update = false
      · rw [if_pos hsteps]
        exact h
      · rw [if_neg hsteps]
        exact h.setRow (find_spec hfind) rfl Iff.rfl

theorem runSegment_inv (h : Inv s) (hguarded : Guarded s (.runSegment accountId id ok)) :
    Inv (s.runSegment ok accountId id) := by
  unfold State.runSegment
  cases hfind : s.find accountId id with
  | none => exact h
  | some row =>
      dsimp only
      by_cases hsteps : ok .check = false ∨ ok .load = false
      · rw [if_pos hsteps]
        exact h
      · rw [if_neg hsteps]
        simp only [not_or, Bool.not_eq_false] at hsteps
        cases hjob : ok .createJob with
        | false =>
            rw [if_pos rfl, ite_self]
            exact h
        | true =>
            obtain ⟨job, hpending, hqueue⟩ := hguarded row hfind hsteps.1 hsteps.2 hjob
            obtain ⟨hmem, hid⟩ := List.mem_filter.mp hpending
            have hid : job.segmentId = id := by simpa using hid
            obtain ⟨row', hrow', -, hname, -⟩ := h.pending_eq hmem
            rw [hid, find_spec hfind] at hrow'
            obtain rfl := Option.some.inj hrow'
            rw [if_pos (List.any_eq_true.mpr ⟨job, hmem, by simp [hqueue, hname]⟩)]
            exact h

theorem delete_inv (h : Inv s) (hguarded : Guarded s (.delete accountId id ok)) :
    Inv (s.delete ok accountId id) := by
  unfold State.delete
  cases hfind : s.find accountId id with
  | none => exact h
  | some row =>
      have hrow := find_spec hfind
      dsimp only
      by_cases hsteps : ok .check = false ∨ ok .load = false
      · rw [if_pos hsteps]
        exact h
      · rw [if_neg hsteps]
        simp only [not_or, Bool.not_eq_false] at hsteps
        have hguarded := hguarded row hfind hsteps.1 hsteps.2
        by_cases hsegment : row.type = "segment" ∧ row.scheduleCloudTaskId ≠ none
        · rw [if_pos hsegment] at hguarded ⊢
          by_cases hjob : ok .realtimeUpdate = false ∨ ok .deleteJob = false
          · rw [if_pos hjob]
            exact h
          · rw [if_neg hjob]
            simp only [not_or, Bool.not_eq_false] at hjob
            have hguarded := hguarded hjob.1 hjob.2
            cases hdelete : ok .deleteRow with
            | false =>
                rw [hdelete] at hguarded
                simp only [Bool.false_eq_true, if_false] at hguarded
                rw [if_pos rfl, h.removeJob_other hrow hguarded]
                exact h
            | true =>
                rw [hdelete, if_pos rfl] at hguarded
                rw [if_neg (by simp)]
                exact (h.removeJob hrow hguarded).deleteRow
        · rw [if_neg hsegment] at hguarded ⊢
          cases hdelete : ok .deleteRow with
          | false =>
              rw [if_pos rfl]
              exact h
          | true =>
              rw [if_neg (by simp)]
              exact Vacant.deleteRow ⟨h.named, fun i _ => h.one i, hguarded hdelete⟩

end

end OpenBms.TagProcess.Schedule
