/-
# `OpenBms.TagProcess.Recalculation` — one pending recalculation for each segment

A run of `app.processSegment` adds the next job and saves its name last; in between, it may
throw, and then it cancels the job it has added.  A run that throws is tried again by its own
job, while that has attempts left.

| the run | the row | jobs |
| :-- | :-- | :-- |
| recalculates | active, with the next name | the next one |
| recalculates for a campaign | active | — |
| deactivates | inactive, without a name | — |
| throws | as it was | the next one, if it cannot be cancelled |

**Proved here.**

    what a run leaves (`ran`)
    what an allowed operation keeps (`step_inv`)
    a scheduled segment has the job that its row names and no
    other, and the others have none, in every allowed run (`one_job_each`)
    a change after the first recalculation doubles the jobs (`doubled`)
-/
import OpenBms.Lib.Runs
import OpenBms.TagProcess.Schedule

namespace OpenBms.TagProcess.Schedule

/-! ## What a run does -/

/-- What a computation leaves when it returns, and when it throws. -/
def Ends (P Q : AppState → Prop) : Except AppState AppState → Prop
  | .ok a => P a
  | .error a => Q a

section
variable {P Q R : AppState → Prop} {e : Env}

theorem Ends.bind {x : Except AppState AppState} {k : AppState → Except AppState AppState}
    (hx : Ends P R x) (hk : ∀ a, P a → Ends Q R (k a)) : Ends Q R (x.bind k) := by
  cases x with
  | error a => exact hx
  | ok a => exact hk a hx

theorem Ends.map {x : Except AppState AppState} {k : AppState → AppState} (hx : Ends P R x)
    (hk : ∀ a, P a → Q (k a)) : Ends Q R (x.map k) := by
  cases x with
  | error a => exact hx
  | ok a => exact hk a hx

theorem ends_act {call : AppCall} {effect : Effect} {a : AppState} (hthrows : e.g call = true → R a)
    (hok : P { a with effects := a.effects ++ [effect] }) : Ends P R (act e call effect a) := by
  unfold act
  cases hcall : e.g call with
  | true => exact hthrows hcall
  | false => exact hok

end

/-- The effects so far lead to the state, and the run has the name of a job for the row. -/
def Leaves (s : State) (id : Nat) (s' : State) (name : Option Nat) (a : AppState) : Prop :=
  a.effects.foldl (State.effect id) s = s' ∧ a.scheduleCloudTaskId = name

/-- With the next job, if the run adds it. -/
def State.next (s : State) (id : Nat) (e : Env) : State :=
  if e.isCampaign then s else s.createJob .segmentProcess id 3

def nextName (e : Env) (name : Option Nat) : Option Nat :=
  if e.isCampaign then name else some e.job

/-- A run has thrown, before or after it added the next job. -/
def Thrown (s : State) (id : Nat) (name : Option Nat) (e : Env) (a : AppState) : Prop :=
  Fails e ∧ (Leaves s id s name a ∨
    e.isCampaign = false ∧ Leaves s id (s.createJob .segmentProcess id 3) (some e.job) a)

section
variable {s : State} {id : Nat} {name : Option Nat} {e : Env} {a : AppState}

theorem fails_of_call {call : AppCall} (h : e.g call = true) : Fails e := .inr (.inl ⟨call, h⟩)

theorem Leaves.thrown (h : Leaves s id s name a) (hfails : Fails e) : Thrown s id name e a :=
  ⟨hfails, .inl h⟩

theorem Leaves.thrown_next (h : Leaves s id (s.next id e) (nextName e name) a) (hfails : Fails e) :
    Thrown s id name e a := by
  unfold State.next nextName at h
  cases hcampaign : e.isCampaign with
  | true =>
      rw [hcampaign] at h
      exact h.thrown hfails
  | false =>
      rw [hcampaign] at h
      exact ⟨hfails, .inr ⟨hcampaign, h⟩⟩

theorem foldl_effect {s' : State} {effect : Effect} (h : Leaves s id s' name a) :
    (a.effects ++ [effect]).foldl (State.effect id) s = s'.effect id effect := by
  rw [List.foldl_append, h.1]
  rfl

theorem ends_publishChunks {s' : State} {name' : Option Nat}
    (hthrown : ∀ a, Leaves s id s' name' a → Fails e → Thrown s id name e a) {type : SegmentEvent}
    {chunks : List (List Int)} : ∀ {i : Nat} {a : AppState}, Leaves s id s' name' a →
      Ends (Leaves s id s' name') (Thrown s id name e) (publishChunks e type i chunks a) := by
  induction chunks with
  | nil => exact fun h => h
  | cons contacts chunks ih =>
      intro i a h
      have hpublished : Leaves s id s' name' { a with effects := a.effects ++
          [.publishSegmentData type contacts] } := ⟨foldl_effect h, h.2⟩
      exact (ends_act (fun hcall => hthrown a h (fails_of_call hcall)) hpublished).bind
        fun a h => ih h

theorem ends_schedule (h : Leaves s id s name a) :
    Ends (Leaves s id (s.next id e) (nextName e name)) (Thrown s id name e) (schedule e a) := by
  unfold schedule State.next nextName
  cases hcampaign : e.isCampaign with
  | true => exact h
  | false =>
      refine (ends_act (P := fun a => a.effects.foldl (State.effect id) s =
        s.createJob .segmentProcess id 3) (fun hcall => h.thrown (fails_of_call hcall))
          (foldl_effect h)).map fun a hcreated => ?_
      exact ⟨hcreated, rfl⟩

theorem ends_report (store : Store) (ids : Ids) (h : Leaves s id s name a) :
    Ends (fun a => ∃ changes, changes.status = some .ACTIVE ∧
        changes.scheduleCloudTaskId = nextName e name ∧
        a.effects.foldl (State.effect id) s = (s.next id e).updateTag id changes)
      (Thrown s id name e) (report e store ids a) := by
  have hthrown (a : AppState) (h : Leaves s id (s.next id e) (nextName e name) a)
      (hfails : Fails e) : Thrown s id name e a := h.thrown_next hfails
  unfold report
  cases hcount : e.g .getNumberContactsByTag with
  | true => exact h.thrown (fails_of_call hcount)
  | false =>
      refine (ends_schedule h).bind fun a h => ?_
      refine (ends_publishChunks (a := pushInfo store ids a) hthrown h).bind fun a h => ?_
      refine (ends_publishChunks hthrown h).bind fun a h => ?_
      exact ends_act (fun hcall => hthrown a h (fails_of_call hcall))
        ⟨activeUpdate store a, rfl, h.2, foldl_effect h⟩

theorem ends_transact {P : AppState → Prop} (query : Option Payload)
    (next : Store → Ids → AppState → Except AppState AppState) (h : Leaves s id s name a)
    (hnext : ∀ store ids a, Leaves s id s name a → Ends P (Thrown s id name e) (next store ids a)) :
    Ends P (Thrown s id name e) (transact e query a next) := by
  unfold transact
  dsimp only
  have h : Leaves s id s name { a with run := some (processSegment e.f query e.store) } := h
  cases hresult : (processSegment e.f query e.store).result with
  | error _ => exact h.thrown (.inr (.inr (.inr ⟨query, hresult⟩)))
  | ok ids => exact hnext _ ids _ h

theorem plan_fails {segment : Segment} (h : plan e segment = .error ()) : Fails e := by
  have hgenerated : generatePlan e = .error () → Fails e := by
    unfold generatePlan
    cases hgenerated : e.generated with
    | error error => exact fun _ => .inr (.inr (.inl ⟨error, hgenerated⟩))
    | ok _ => exact fun h => by cases h
  unfold plan at h
  split at h
  · rename_i hcall
    exact fails_of_call hcall
  · split at h
    · cases h
    · split at h
      · split at h
        · rename_i hcall
          exact fails_of_call hcall
        · split at h
          · cases h
          · exact hgenerated h
      · exact hgenerated h

end

/-- What a run leaves, and whether it returns. -/
inductive Ran (s : State) (id : Nat) (row : Row) (segment : Segment) (e : Env) :
    State → Bool → Prop where
  | kept (nextJob : Nat) (hnext : s.nextJob ≤ nextJob) (hfails : Fails e) :
      Ran s id row segment e { s with nextJob := nextJob } false
  | uncancelled (hfails : Fails e) (hcampaign : e.isCampaign = false)
      (hcancel : e.g .cancelSegmentJob = true) :
      Ran s id row segment e (s.createJob .segmentProcess id 3) false
  | deactivated (returned : Bool) (hreturned : returned = false → e.g .releaseLock = true)
      (hplan : Deactivates e segment) :
      Ran s id row segment e
        (s.setRow id { row with status := some (State.text .INACTIVE), scheduleCloudTaskId := none })
        returned
  | recalculated (returned : Bool) (hreturned : returned = false → e.g .releaseLock = true) :
      Ran s id row segment e
        ((s.next id e).setRow id
          { row with
            status := some (State.text .ACTIVE)
            scheduleCloudTaskId := nextName e row.scheduleCloudTaskId })
        returned

section
variable {s : State} {id : Nat} {row : Row} {e : Env}

theorem updateTag_eq {s' : State} (hrow : s'.segments id = some row) (changes : TagUpdate) :
    s'.updateTag id changes = s'.setRow id
      { row with
        status := (changes.status.map State.text).or row.status
        scheduleCloudTaskId := changes.scheduleCloudTaskId } := by
  unfold State.updateTag
  rw [hrow]

theorem next_segments : (s.next id e).segments = s.segments := by
  unfold State.next
  split
  · rfl
  · rfl

theorem tryRun_cases (hrow : s.segments id = some row) {segment : Segment}
    (hname : segment.scheduleCloudTaskId = row.scheduleCloudTaskId) :
    match tryRun e segment with
    | .ok (a, _) =>
        Deactivates e segment ∧ a.effects.foldl (State.effect id) s = s.setRow id
          { row with status := some (State.text .INACTIVE), scheduleCloudTaskId := none } ∨
        a.effects.foldl (State.effect id) s = (s.next id e).setRow id
          { row with
            status := some (State.text .ACTIVE)
            scheduleCloudTaskId := nextName e row.scheduleCloudTaskId }
    | .error a => Thrown s id row.scheduleCloudTaskId e a := by
  -- before anything is done
  have hstart : Leaves s id s row.scheduleCloudTaskId
      { scheduleCloudTaskId := segment.scheduleCloudTaskId, segmentInfo := segment.segmentInfo } :=
    ⟨rfl, hname⟩
  have hinactive (a : AppState) (h : Leaves s id s row.scheduleCloudTaskId a) :
      Ends (fun a => a.effects.foldl (State.effect id) s = s.setRow id
          { row with status := some (State.text .INACTIVE), scheduleCloudTaskId := none })
        (Thrown s id row.scheduleCloudTaskId e) (act e .updateTag (.updateTag inactiveUpdate) a) :=
    ends_act (fun hcall => h.thrown (fails_of_call hcall))
      ((foldl_effect h).trans (updateTag_eq hrow inactiveUpdate))
  unfold tryRun
  cases hplan : plan e segment with
  | error _ => exact hstart.thrown (plan_fails hplan)
  | ok pl =>
      cases pl with
      | stop =>
          have hends := hinactive _ hstart
          dsimp only
          revert hends
          cases act e .updateTag (.updateTag inactiveUpdate)
            { scheduleCloudTaskId := segment.scheduleCloudTaskId
              segmentInfo := segment.segmentInfo } with
          | error a => exact fun h => h
          | ok a => exact fun h => .inl ⟨.inl hplan, h⟩
      | deactivate =>
          have hends := ends_transact none (fun _ _ => act e .updateTag (.updateTag inactiveUpdate))
            hstart fun _ _ a h => hinactive a h
          dsimp only
          revert hends
          cases transact e none
            { scheduleCloudTaskId := segment.scheduleCloudTaskId, segmentInfo := segment.segmentInfo }
            fun _ _ => act e .updateTag (.updateTag inactiveUpdate) with
          | error a => exact fun h => h
          | ok a => exact fun h => .inl ⟨.inr hplan, h⟩
      | recalculate p =>
          have hends := ends_transact (some p) (report e) hstart fun store ids a h =>
            ends_report store ids h
          dsimp only
          revert hends
          cases transact e (some p)
            { scheduleCloudTaskId := segment.scheduleCloudTaskId, segmentInfo := segment.segmentInfo }
            (report e) with
          | error a => exact fun h => h
          | ok a =>
              rintro ⟨changes, hstatus, hchanged, hfold⟩
              refine .inr (hfold.trans ((updateTag_eq (next_segments ▸ hrow) changes).trans ?_))
              rw [hstatus, hchanged]
              rfl

/-- The name that the row has is saved again. -/
theorem updateTag_same {s' : State} (hrow : s'.segments id = some row) {changes : TagUpdate}
    (hstatus : changes.status = none)
    (hname : changes.scheduleCloudTaskId = row.scheduleCloudTaskId) :
    s'.updateTag id changes = s' := by
  rw [updateTag_eq hrow, hstatus, hname]
  exact setRow_self hrow

theorem removeJob_createJob (hnamed : Named s) {queue : Queue} {attempts : Nat} :
    (s.createJob queue id attempts).removeJob queue (some s.nextJob) =
      { s with nextJob := s.nextJob + 1 } := by
  have hkept : s.jobs.filter (fun job => ! (job.queue = queue && some job.name = some s.nextJob)) =
      s.jobs := by
    refine List.filter_eq_self.mpr fun job hjob => ?_
    simp [Nat.ne_of_lt (hnamed.fresh job hjob)]
  unfold State.removeJob State.createJob
  rw [List.filter_append, hkept, List.filter_cons_of_neg (by simp), List.filter_nil, List.append_nil]

theorem cancelJob_cases (hnamed : Named s) (hrow : s.segments id = some row)
    (hjob : e.job = s.nextJob) {segment : Segment}
    (hname : segment.scheduleCloudTaskId = row.scheduleCloudTaskId) {a : AppState}
    (h : Thrown s id row.scheduleCloudTaskId e a) :
    ∃ s', Leaves s id s' row.scheduleCloudTaskId (cancelJob e segment a) ∧
      s'.segments id = some row ∧ Ran s id row segment e s' false := by
  obtain ⟨hfails, h⟩ := h
  unfold cancelJob
  rcases h with h | ⟨hcampaign, h⟩
  · rw [if_pos (hname.trans h.2.symm)]
    exact ⟨s, h, hrow, .kept s.nextJob le_rfl hfails⟩
  · have hne : segment.scheduleCloudTaskId ≠ a.scheduleCloudTaskId := by
      rw [hname, h.2, hjob]
      exact fun heq => Nat.lt_irrefl _ (hnamed.rows id row s.nextJob hrow heq).1
    rw [if_neg hne]
    cases hcancel : e.g .cancelSegmentJob with
    | true => exact ⟨_, ⟨h.1, hname⟩, hrow, .uncancelled hfails hcampaign hcancel⟩
    | false =>
        refine ⟨{ s with nextJob := s.nextJob + 1 }, ⟨?_, hname⟩, hrow,
          .kept (s.nextJob + 1) (Nat.le_succ _) hfails⟩
        rw [← removeJob_createJob hnamed, ← hjob, ← h.2]
        exact foldl_effect h

theorem catchError_cases (hnamed : Named s) (hrow : s.segments id = some row)
    (hjob : e.job = s.nextJob) {segment : Segment}
    (hname : segment.scheduleCloudTaskId = row.scheduleCloudTaskId) {a : AppState}
    (h : Thrown s id row.scheduleCloudTaskId e a) :
    Ran s id row segment e
      ((final (catchError e segment a)).effects.foldl (State.effect id) s) false := by
  unfold catchError
  dsimp only
  have h : Thrown s id row.scheduleCloudTaskId e
      { a with segmentInfo := a.segmentInfo ++ [{ status := false, count := 0 }] } := h
  obtain ⟨s', hleaves, hrow', hran⟩ := cancelJob_cases hnamed hrow hjob hname h
  generalize cancelJob e segment
    { a with segmentInfo := a.segmentInfo ++ [{ status := false, count := 0 }] } = a' at *
  have hfold : (final (act e .updateFailed (.updateTag (failedUpdate a')) a')).effects.foldl
      (State.effect id) s = s' :=
    final_act (P := fun a => a.effects.foldl (State.effect id) s = s') hleaves.1
      ((foldl_effect hleaves).trans (updateTag_same hrow' rfl hleaves.2))
  rw [hfold]
  exact hran

theorem ran (hnamed : Named s) (hrow : s.segments id = some row) (isCampaign old : Bool)
    (env : Env) :
    Ran s id row (State.loaded old row) (s.env id isCampaign old env)
      (s.processSegment id (s.env id isCampaign old env))
      (appProcessSegment (s.env id isCampaign old env)).outcome.isOk := by
  have hsegment : (s.env id isCampaign old env).segment = some (State.loaded old row) := by
    unfold State.env
    rw [hrow]
    rfl
  have hkept (hfails : Fails (s.env id isCampaign old env)) :
      Ran s id row (State.loaded old row) (s.env id isCampaign old env) s false :=
    .kept s.nextJob le_rfl hfails
  unfold State.processSegment
  have hname : (State.loaded old row).scheduleCloudTaskId = row.scheduleCloudTaskId := rfl
  generalize he : s.env id isCampaign old env = e at *
  have hjob : e.job = s.nextJob := he ▸ rfl
  unfold appProcessSegment
  cases hacquired : e.acquired with
  | false => exact hkept (.inl hacquired)
  | true =>
      rw [if_pos rfl]
      dsimp only
      unfold runSegment
      cases htag : e.g .getTagById with
      | true =>
          rw [if_pos rfl]
          cases e.g .releaseLock with
          | true => exact hkept (fails_of_call htag)
          | false => exact hkept (fails_of_call htag)
      | false =>
          simp only [Bool.false_eq_true, if_false, hsegment]
          have htry := tryRun_cases (e := e) hrow hname
          revert htry
          cases tryRun e (State.loaded old row) with
          | error a =>
              intro h
              have hran := catchError_cases hnamed hrow hjob hname h
              cases e.g .releaseLock with
              | true => exact hran
              | false => exact hran
          | ok result =>
              obtain ⟨a, reply⟩ := result
              rintro (⟨hplan, hfold⟩ | hfold)
              · dsimp only
                rw [hfold]
                exact .deactivated _ (by cases e.g .releaseLock <;> simp [Except.isOk, Except.toBool]) hplan
              · dsimp only
                rw [hfold]
                exact .recalculated _ (by cases e.g .releaseLock <;> simp [Except.isOk, Except.toBool])

end

/-! ## Runs -/

section
variable {s : State} {id : Nat} {row : Row}

theorem active_ne_inactive : some (State.text .ACTIVE) ≠ some (State.text .INACTIVE) := by decide

/-- Names that are skipped. -/
theorem Inv.skip (h : Inv s) {nextJob : Nat} (hnext : s.nextJob ≤ nextJob) :
    Inv { s with nextJob := nextJob } where
  named := by
    refine ⟨fun job hjob => (h.named.fresh job hjob).trans_le hnext, h.named.nodup, ?_, h.named.idle⟩
    intro i row name hrow hname
    obtain ⟨hlt, hjobs⟩ := h.named.rows i row name hrow hname
    exact ⟨hlt.trans_le hnext, hjobs⟩
  one i := (h.one i).congr rfl rfl

theorem Inv.finish (h : Inv s) {job : Job} (hjob : job ∈ s.jobs) :
    Vacant (s.finish job.name) job.segmentId := by
  obtain ⟨row, hrow, -, hname, hpending⟩ := h.pending_eq hjob
  refine h.removed (fun other hother hne => ?_) fun other hother => ?_
  · refine decide_eq_true fun heq => hne ?_
    exact (h.named.rows job.segmentId row job.name hrow hname).2 other hother heq
  · rw [hpending] at hother
    rw [List.mem_singleton.mp hother]
    exact decide_eq_false fun hne => hne rfl

theorem finish_createJob {queue : Queue} {attempts name : Nat} (hname : name < s.nextJob) :
    (s.createJob queue id attempts).finish name = (s.finish name).createJob queue id attempts := by
  unfold State.finish State.createJob
  rw [List.filter_append, List.filter_cons_of_pos (by simpa using Nat.ne_of_gt hname), List.filter_nil]

/-- The job of a segment waits for its next attempt. -/
theorem Inv.retry (h : Inv s) (name : Nat) : Inv (s.retry name) := by
  have hnames : ∀ job : Job, (if job.name = name then { job with attempts := job.attempts - 1 }
      else job).name = job.name ∧ (if job.name = name then { job with attempts := job.attempts - 1 }
      else job).segmentId = job.segmentId := by
    intro job
    split
    · exact ⟨rfl, rfl⟩
    · exact ⟨rfl, rfl⟩
  have hpending (i : Nat) : (s.retry name).pending i = (s.pending i).map fun job =>
      if job.name = name then { job with attempts := job.attempts - 1 } else job := by
    unfold State.pending State.retry
    rw [List.filter_map]
    refine congrArg _ (List.filter_congr fun job _ => ?_)
    simp only [Function.comp_apply, (hnames job).2]
  refine ⟨⟨fun job hjob => ?_, ?_, fun i row name' hrow hname => ?_, h.named.idle⟩, fun i => ?_⟩
  · obtain ⟨old, hold, rfl⟩ := List.mem_map.mp hjob
    rw [(hnames old).1]
    exact h.named.fresh old hold
  · have hmap : (s.retry name).jobs.map (·.name) = s.jobs.map (·.name) := by
      unfold State.retry
      rw [List.map_map]
      exact List.map_congr_left fun job _ => (hnames job).1
    rw [hmap]
    exact h.named.nodup
  · obtain ⟨hlt, hjobs⟩ := h.named.rows i row name' hrow hname
    refine ⟨hlt, fun job hjob hjobname => ?_⟩
    obtain ⟨old, hold, rfl⟩ := List.mem_map.mp hjob
    rw [(hnames old).2]
    exact hjobs old hold ((hnames old).1 ▸ hjobname)
  · refine ⟨fun row hrow hscheduled => ?_, fun hidle => ?_⟩
    · obtain ⟨job, hjob, hname⟩ := (h.one i).scheduled row hrow hscheduled
      refine ⟨_, (hpending i).trans (congrArg _ hjob), hname.trans ?_⟩
      rw [(hnames job).1]
    · rw [hpending, (h.one i).idle hidle]
      rfl

/-- The job of a segment runs. -/
theorem process_inv (h : Inv s) {name : Nat} {env : Env} {old lost : Bool}
    (hguarded : Guarded s (.process name env old lost)) : Inv (s.process name env old lost) := by
  unfold State.process
  cases hfind : s.jobs.find? (·.name = name) with
  | none => exact h
  | some job =>
      have hjob := List.mem_of_find?_eq_some hfind
      obtain rfl : job.name = name := by simpa using List.find?_some hfind
      have hguarded := hguarded job hjob rfl
      obtain ⟨row, hrow, hscheduled, hname, -⟩ := h.pending_eq hjob
      have hvacant := h.finish hjob
      have hran := ran h.named hrow false old env
      have hcampaign : (s.env job.segmentId false old env).isCampaign = false := rfl
      have hnextJob : (s.env job.segmentId false old env).job = s.nextJob := rfl
      have hlock : (s.env job.segmentId false old env).g = env.g := rfl
      have hfails : Fails (s.env job.segmentId false old env) ↔ Fails env := Iff.rfl
      dsimp only
      generalize s.env job.segmentId false old env = e at *
      generalize s.processSegment job.segmentId e = s' at *
      generalize (appProcessSegment e).outcome.isOk = returned at *
      -- a run that got to its end is not run again
      have hends (hreturned : returned = false → e.g .releaseLock = true) :
          (returned && ! lost) = true ∨ ¬ 1 < job.attempts := by
        by_cases hattempts : 1 < job.attempts
        · rw [if_pos hattempts] at hguarded
          obtain ⟨rfl, hrelease, -⟩ := hguarded
          cases returned with
          | true => exact .inl rfl
          | false =>
              rw [hlock, hrelease] at hreturned
              cases hreturned rfl
        · exact .inr hattempts
      cases hran with
      | kept nextJob hnext hfailed =>
          by_cases hattempts : 1 < job.attempts
          · rw [if_neg (by simp), if_pos hattempts]
            exact (h.skip hnext).retry job.name
          · rw [if_neg hattempts] at hguarded
            exact absurd (hfails.mp hfailed) hguarded
      | uncancelled hfailed _ hcancel =>
          by_cases hattempts : 1 < job.attempts
          · rw [if_pos hattempts] at hguarded
            rw [hlock, hguarded.2.2] at hcancel
            cases hcancel
          · rw [if_neg hattempts] at hguarded
            exact absurd (hfails.mp hfailed) hguarded
      | deactivated _ hreturned _ =>
          have hinv : Inv ((s.setRow job.segmentId
              { row with
                status := some (State.text .INACTIVE)
                scheduleCloudTaskId := none }).finish job.name) := hvacant.setRow rfl
          rcases hends hreturned with hdone | hattempts
          · rw [if_pos hdone]
            exact hinv
          · rw [if_neg hattempts, ite_self]
            exact hinv
      | recalculated _ hreturned =>
          have hinv : Inv (((s.next job.segmentId e).setRow job.segmentId
              { row with
                status := some (State.text .ACTIVE)
                scheduleCloudTaskId := nextName e row.scheduleCloudTaskId }).finish job.name) := by
            unfold State.next nextName
            rw [hcampaign, hnextJob]
            show Inv (((s.createJob .segmentProcess job.segmentId 3).finish job.name).setRow _ _)
            rw [finish_createJob (h.named.fresh job hjob)]
            exact hvacant.createJob { row with status := some (State.text .ACTIVE) }
              active_ne_inactive
          rcases hends hreturned with hdone | hattempts
          · rw [if_pos hdone]
            exact hinv
          · rw [if_neg hattempts, ite_self]
            exact hinv

theorem processSegment_none (hrow : s.segments id = none) (isCampaign old : Bool) (env : Env) :
    s.processSegment id (s.env id isCampaign old env) = s := by
  have hsegment : (s.env id isCampaign old env).segment = none := by
    unfold State.env
    rw [hrow]
    rfl
  unfold State.processSegment appProcessSegment runSegment
  generalize s.env id isCampaign old env = e at *
  rw [hsegment]
  cases e.acquired with
  | false => rfl
  | true =>
      cases e.g .getTagById with
      | true => rfl
      | false => rfl

theorem processCampaign_inv (h : Inv s) {env : Env} {old : Bool}
    (hguarded : Guarded s (.processCampaign id env old)) :
    Inv (s.processSegment id (s.env id true old env)) := by
  cases hrow : s.segments id with
  | none =>
      rw [processSegment_none hrow]
      exact h
  | some row =>
      have hran := ran h.named hrow true old env
      have hplan := hguarded row hrow
      have hcampaign : (s.env id true old env).isCampaign = true := rfl
      generalize s.env id true old env = e at *
      generalize s.processSegment id e = s' at *
      generalize (appProcessSegment e).outcome.isOk = returned at *
      cases hran with
      | kept nextJob hnext _ => exact h.skip hnext
      | uncancelled _ hnot _ =>
          rw [hcampaign] at hnot
          cases hnot
      | deactivated _ _ hdeactivates =>
          refine (h.vacant fun row' hrow' hscheduled => ?_).setRow rfl
          rw [hrow] at hrow'
          obtain rfl := Option.some.inj hrow'
          exact hplan hscheduled hdeactivates
      | recalculated _ _ =>
          unfold State.next nextName
          rw [hcampaign]
          refine h.setRow hrow rfl ⟨fun hscheduled => ⟨active_ne_inactive, hscheduled.2⟩, fun hactive => ?_⟩
          by_contra hidle
          exact hactive.2 (h.named.idle id row hrow hidle)

/-- What an allowed operation keeps. -/
theorem step_inv (h : Inv s) {op : Op} (hguarded : Guarded s op) : Inv (s.step op) := by
  cases op with
  | createSegment accountId id dto ok => exact createSegment_inv h hguarded
  | updateSegment accountId id dto ok => exact updateSegment_inv h hguarded
  | update accountId id newAccountId type ok => exact update_inv h
  | runSegment accountId id ok => exact runSegment_inv h hguarded
  | delete accountId id ok => exact delete_inv h hguarded
  | process name env old lost => exact process_inv h hguarded
  | processCampaign id env old => exact processCampaign_inv h hguarded

theorem inv_init : Inv State.init where
  named := by
    refine ⟨fun job hjob => ?_, List.nodup_nil, fun id row name hrow => ?_, fun id row hrow => ?_⟩
    · cases hjob
    · cases hrow
    · cases hrow
  one id := ⟨fun row hrow => (by cases hrow), fun _ => rfl⟩

/-- In every state of an allowed run, a scheduled segment has the job that its row names and no
other, and a segment that is not scheduled or not there has none. -/
theorem one_job_each (s : State) (h : Inv s) (ops : List Op)
    (hguarded : Runs.Meets (fun s op => some (State.step s op)) Guarded s ops) (before after : List Op)
    (heq : ops = before ++ after) (id : Nat) : OneJob (before.foldl State.step s) id :=
  ((Runs.always_steps (I := Inv) (K := fun _ _ => True)
    (fun _ _ h hguarded => ⟨step_inv h hguarded, trivial⟩) h hguarded).1 before after heq).one id

end

theorem quietRun_nodup : ([1, 2] : List Int).Nodup := by decide

/-- A run in which nothing fails. -/
def quietRun : Env where
  f := fun _ => false
  g := fun _ => false
  segment := none
  generated := .ok { selected := [2, 3] }
  store := ⟨[1, 2], quietRun_nodup, []⟩

/-- A segment is created, recalculated, and recalculated again after a failure. -/
theorem one_job_each_three : OneJob ([
    .createSegment 1 7 ⟨none, some "segment", none, none⟩ fun _ => true,
    .process 0 quietRun false false,
    .process 1 { quietRun with g := fun call => call = .updateTag } false false,
    .process 1 quietRun false false].foldl State.step State.init) 7 := by
  refine one_job_each State.init inv_init _ ?_ _ [] (List.append_nil _).symm 7
  refine .cons (fun _ => ?_) rfl ?_
  · rw [if_neg (by decide)]
    exact ⟨rfl, by decide, fun old hold => by cases hold⟩
  -- each of the runs has an attempt left
  have hattempts {s : State} {name : Nat} {env : Env} {old : Bool}
      (hjobs : ∀ job ∈ s.jobs, 1 < job.attempts)
      (hfinally : env.g .releaseLock = false ∧ env.g .cancelSegmentJob = false) :
      Guarded s (.process name env old false) := by
    intro job hjob _
    rw [if_pos (hjobs job hjob)]
    exact ⟨rfl, hfinally⟩
  refine .cons (hattempts (by decide) (by decide)) rfl ?_
  refine .cons (hattempts (by decide) (by decide)) rfl ?_
  exact .cons (hattempts (by decide) (by decide)) rfl trivial

/-- After the first recalculation, the API finds no job to delete, and adds a second one. -/
theorem doubled : ¬ ∀ ops : List Op, ∀ id, OneJob (ops.foldl State.step State.init) id := by
  intro h
  have hone := h [
    .createSegment 1 7 ⟨none, some "segment", none, none⟩ fun _ => true,
    .process 0 quietRun false false,
    .updateSegment 1 7 ⟨none, some "segment", none, none⟩ fun _ => true] 7
  obtain ⟨job, hpending, -⟩ := hone.scheduled ⟨1, "segment", some "active", some 2⟩ rfl ⟨by decide, by decide⟩
  cases hpending

end OpenBms.TagProcess.Schedule
