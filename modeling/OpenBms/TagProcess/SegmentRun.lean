/-
# `OpenBms.TagProcess.SegmentRun` — `app.processSegment` around the transaction

The service takes the segment's lock, decides what to run, has `msgops` run it,
and tells the world: events for who entered and who left, counters, `ACTIVE`.
Its `catch` records a failed run instead; its `finally` gives the lock back.

| the transaction | the service |
| :-- | :-- |
| throws | `catch`: a failed run is recorded, no event, no status |
| returns | counts, schedules, publishes the ids, `ACTIVE` |

**Proved here.**

    the transaction of a run is the one it plans to make (`run_eq`)
    a transaction that throws is never told as a success (`silent_of_error`)
    the outcome of a run is atomic iff its transaction is sound (`segmentRun_atomic_iff`)
    a failed `COMMIT` publishes who did not leave (`segmentRun_rolledBack`)
-/
import OpenBms.TagProcess.Transaction

namespace OpenBms.TagProcess

open Js

/-! ## What the service reads and does -/

inductive SegmentStatus where
  | REACTIVATING
  | INACTIVE
  | ACTIVE
  deriving DecidableEq

/-- An entry of `segmentInfo`. -/
structure SegmentInfo where
  status : Bool
  count : Nat
  insert : Option Nat := none
  delete : Option Nat := none
  deriving DecidableEq

/-- The tag row of a segment. `old`: created more than seven days ago. -/
structure Segment where
  baseSize : Bool := false
  status : SegmentStatus := .ACTIVE
  old : Bool := false
  scheduleCloudTaskId : Option Nat := none
  segmentInfo : List SegmentInfo := []

/-- The columns an `updateTag` sets. -/
structure TagUpdate where
  status : Option SegmentStatus := none
  scheduleCloudTaskId : Option Nat
  lastCount : Option Nat := none
  segmentInfo : Option (List SegmentInfo) := none
  deriving DecidableEq

inductive SegmentEvent where
  | segmentIn
  | segmentOut
  deriving DecidableEq

/-- What a run does to the world outside the transaction. -/
inductive Effect where
  | publishSegmentData (type : SegmentEvent) (contacts : List Int)
  | scheduleSegmentRecalculation
  | cancelSegmentJob (id : Option Nat)
  | updateTag (changes : TagUpdate)
  deriving DecidableEq

inductive AppCall where
  | getTagById
  | findAccount
  | segmentActive
  | getNumberContactsByTag
  | scheduleSegmentRecalculation
  | publishSegmentData (type : SegmentEvent) (i : Nat)
  | updateTag
  | cancelSegmentJob
  | updateFailed
  | releaseLock
  deriving DecidableEq

/-- One run of the service: which calls fail (`f` in the transaction, `g` around
it), what the others answer, and the tables it finds. -/
structure Env where
  f : Call → Bool
  g : AppCall → Bool
  acquired : Bool := true
  isCampaign : Bool := false
  segment : Option Segment
  accountFound : Bool := true
  campaignsSchedule : Nat := 0
  generated : Except Js.Error Payload
  job : Nat := 0
  store : Store

/-- The variables of a run; `run` remembers the transaction it made. -/
structure AppState where
  effects : List Effect := []
  scheduleCloudTaskId : Option Nat
  segmentInfo : List SegmentInfo
  run : Option Run := none

inductive Reply where
  | notFound
  | accountInactive
  | segmentInactive
  | updated
  deriving DecidableEq

structure AppRun where
  effects : List Effect := []
  run : Option Run := none
  outcome : Except Unit Reply

/-! ## The service -/

/-- What `try` has decided by the time it calls `msgops.processSegment`. -/
inductive Plan where
  | stop
  | deactivate
  | recalculate (p : Payload)
  deriving DecidableEq

section
variable (env : Env)

/-- The generated query, or the generator's exception. -/
def generatePlan : Except Unit Plan :=
  match env.generated with
  | .error _ => .error ()
  | .ok p => .ok (.recalculate p)

def plan (segment : Segment) : Except Unit Plan :=
  if env.g .findAccount then .error ()
  else if !env.accountFound then .ok .stop
  else if !segment.baseSize && segment.status != .REACTIVATING && segment.old then
    if env.g .segmentActive then .error ()
    else if env.campaignsSchedule = 0 then .ok .deactivate
    else generatePlan env
  else generatePlan env

/-- An awaited call with an effect. -/
def act (c : AppCall) (e : Effect) (s : AppState) : Except AppState AppState :=
  if env.g c then .error s else .ok { s with effects := s.effects ++ [e] }

def publishChunks (type : SegmentEvent) : Nat → List (List Int) → AppState →
    Except AppState AppState
  | _, [], s => .ok s
  | i, contacts :: rest, s =>
      (act env (.publishSegmentData type i) (.publishSegmentData type contacts) s).bind
        (publishChunks type (i + 1) rest)

def chunkSize : Nat := 50000

def publishSegmentDataChunked (type : SegmentEvent) (contacts : List Int) (s : AppState) :
    Except AppState AppState :=
  publishChunks env type 0 (Chunk.chunk chunkSize contacts) s

/-- `setInactive`: the update of a segment that is no longer scheduled. -/
def inactiveUpdate : TagUpdate := { status := some .INACTIVE, scheduleCloudTaskId := none }

def lastHundred (infos : List SegmentInfo) : List SegmentInfo :=
  if infos.length > 100 then infos.drop (infos.length - 100) else infos

/-- `if (!isCampaign)`: the next run is scheduled. -/
def schedule (s : AppState) : Except AppState AppState :=
  if env.isCampaign then .ok s
  else (act env .scheduleSegmentRecalculation .scheduleSegmentRecalculation s).map fun s =>
    { s with scheduleCloudTaskId := some env.job }

/-- `segmentInfo.push(..)` of a run that returned. -/
def pushInfo (store : Store) (ids : Ids) (s : AppState) : AppState :=
  let info : SegmentInfo :=
    { status := true, count := store.members.length,
      insert := some (ids.insertIds.getD []).length, delete := some (ids.deleteIds.getD []).length }
  { s with segmentInfo := lastHundred (s.segmentInfo ++ [info]) }

/-- The columns of a segment that was recalculated. -/
def activeUpdate (store : Store) (s : AppState) : TagUpdate :=
  { status := some .ACTIVE
    scheduleCloudTaskId := s.scheduleCloudTaskId
    lastCount := some store.members.length
    segmentInfo := some s.segmentInfo }

/-- What follows the call of `msgops.processSegment`. -/
def report (store : Store) (ids : Ids) (s : AppState) : Except AppState AppState :=
  if env.g .getNumberContactsByTag then .error s
  else
    (schedule env s).bind fun s =>
    (publishSegmentDataChunked env .segmentIn (ids.insertIds.getD [])
      (pushInfo store ids s)).bind fun s =>
    (publishSegmentDataChunked env .segmentOut (ids.deleteIds.getD []) s).bind fun s =>
    act env .updateTag (.updateTag (activeUpdate store s)) s

/-- The transaction, and then `next` if it returns. -/
def transact (query : Option Payload) (s : AppState)
    (next : Store → Ids → AppState → Except AppState AppState) : Except AppState AppState :=
  let run := processSegment env.f query env.store
  let s := { s with run := some run }
  match run.result with
  | .error _ => .error s
  | .ok ids => next run.store ids s

/-- What `try` does once the segment is loaded. -/
def tryRun (segment : Segment) : Except AppState (AppState × Reply) :=
  let s : AppState :=
    { scheduleCloudTaskId := segment.scheduleCloudTaskId, segmentInfo := segment.segmentInfo }
  match plan env segment with
  | .error _ => .error s
  | .ok .stop => (act env .updateTag (.updateTag inactiveUpdate) s).map (·, .accountInactive)
  | .ok .deactivate =>
      (transact env none s fun _ _ => act env .updateTag (.updateTag inactiveUpdate)).map
        (·, .segmentInactive)
  | .ok (.recalculate p) => (transact env (some p) s (report env)).map (·, .updated)

/-- A job scheduled by this run is cancelled; when that fails, `cancelSegmentJob` only warns. -/
def cancelJob (segment : Segment) (s : AppState) : AppState :=
  if segment.scheduleCloudTaskId = s.scheduleCloudTaskId then s
  else
    { s with
      effects :=
        if env.g .cancelSegmentJob then s.effects
        else s.effects ++ [.cancelSegmentJob s.scheduleCloudTaskId]
      scheduleCloudTaskId := segment.scheduleCloudTaskId }

/-- The columns of a segment whose run failed. -/
def failedUpdate (s : AppState) : TagUpdate :=
  { scheduleCloudTaskId := s.scheduleCloudTaskId, segmentInfo := some s.segmentInfo }

/-- `catch`, for a loaded segment, up to its `throw`. -/
def catchError (segment : Segment) (s : AppState) : Except AppState AppState :=
  let s := cancelJob env segment
    { s with segmentInfo := s.segmentInfo ++ [{ status := false, count := 0 }] }
  act env .updateFailed (.updateTag (failedUpdate s)) s

/-- The variables at the end of a computation, or where it threw. -/
def final : Except AppState AppState → AppState
  | .ok s | .error s => s

/-- `try` and `catch`. -/
def runSegment : AppRun :=
  if env.g .getTagById then { outcome := .error () }
  else
    match env.segment with
    | none => { outcome := .ok .notFound }
    | some segment =>
        match tryRun env segment with
        | .ok (s, reply) => ⟨s.effects, s.run, .ok reply⟩
        | .error s =>
            let s := final (catchError env segment s)
            ⟨s.effects, s.run, .error ()⟩

/-- `app.processSegment`: the lock around a run. -/
def appProcessSegment : AppRun :=
  if env.acquired then
    let r := runSegment env
    { r with outcome := if env.g .releaseLock then .error () else r.outcome }
  else { outcome := .error () }

end

/-! ## The transaction of a run -/

/-- What a plan has `msgops.processSegment` run, if anything. -/
def Plan.query : Plan → Option (Option Payload)
  | .stop => none
  | .deactivate => some none
  | .recalculate p => some (some p)

/-- What a run of the service has `msgops.processSegment` run, if anything. -/
def Env.query (env : Env) : Option (Option Payload) :=
  if env.acquired && !env.g .getTagById then
    env.segment.bind fun segment =>
      match plan env segment with
      | .ok pl => pl.query
      | .error _ => none
  else none

section
variable {env : Env}

/-- What holds when a computation starts and is kept by its steps holds where it
ends, and where it throws. -/
theorem final_bind {P : AppState → Prop} {x : Except AppState AppState}
    {k : AppState → Except AppState AppState} (hx : P (final x))
    (hk : ∀ s, P s → P (final (k s))) : P (final (x.bind k)) := by
  cases x with
  | error s => exact hx
  | ok s => exact hk s hx

theorem final_act {P : AppState → Prop} {c : AppCall} {e : Effect} {s : AppState} (hs : P s)
    (he : P { s with effects := s.effects ++ [e] }) : P (final (act env c e s)) := by
  unfold act
  split
  · exact hs
  · exact he

theorem final_map {P : AppState → Prop} {x : Except AppState AppState} {k : AppState → AppState}
    (hx : P (final x)) (hk : ∀ s, P s → P (k s)) : P (final (x.map k)) := by
  cases x with
  | error s => exact hx
  | ok s => exact hk s hx

/-- The remembered transaction. -/
def HasRun (r : Option Run) (s : AppState) : Prop := s.run = r

section
variable {r : Option Run} {s : AppState}

theorem hasRun_act {c : AppCall} {e : Effect} (h : HasRun r s) : HasRun r (final (act env c e s)) :=
  final_act h h

theorem hasRun_publishChunks {type : SegmentEvent} {chunks : List (List Int)} :
    ∀ {i : Nat} {s : AppState}, HasRun r s →
      HasRun r (final (publishChunks env type i chunks s)) := by
  induction chunks with
  | nil => exact fun h => h
  | cons c chunks ih =>
      intro i s h
      exact final_bind (hasRun_act h) fun _ hs => ih hs

theorem hasRun_schedule (h : HasRun r s) : HasRun r (final (schedule env s)) := by
  unfold schedule
  split
  · exact h
  · exact final_map (hasRun_act h) fun _ h => h

theorem hasRun_report {store : Store} {ids : Ids} (h : HasRun r s) :
    HasRun r (final (report env store ids s)) := by
  unfold report
  split
  · exact h
  · refine final_bind (hasRun_schedule h) fun _ h => ?_
    refine final_bind (hasRun_publishChunks h) fun _ h => ?_
    exact final_bind (hasRun_publishChunks h) fun _ h => hasRun_act h

theorem hasRun_catchError {segment : Segment} (h : HasRun r s) :
    HasRun r (final (catchError env segment s)) := by
  refine hasRun_act ?_
  unfold cancelJob
  split
  · exact h
  · exact h

theorem hasRun_transact {query : Option Payload}
    {next : Store → Ids → AppState → Except AppState AppState}
    (hnext : ∀ r store ids s, HasRun r s → HasRun r (final (next store ids s))) :
    HasRun (some (processSegment env.f query env.store)) (final (transact env query s next)) := by
  unfold transact
  dsimp only
  split
  · rfl
  · exact hnext _ _ _ _ rfl

end

/-- The variables where `try` ends or throws. -/
def finalReply : Except AppState (AppState × Reply) → AppState
  | .ok (s, _) | .error s => s

theorem finalReply_map (x : Except AppState AppState) (reply : Reply) :
    finalReply (x.map (·, reply)) = final x := by
  cases x <;> rfl

theorem run_tryRun (segment : Segment) : (finalReply (tryRun env segment)).run =
    (match plan env segment with
      | .ok pl => pl.query
      | .error _ => none).map fun q => processSegment env.f q env.store := by
  unfold tryRun
  cases plan env segment with
  | error e => rfl
  | ok pl =>
      cases pl with
      | stop =>
          dsimp only
          rw [finalReply_map]
          exact hasRun_act (r := none) rfl
      | deactivate =>
          dsimp only
          rw [finalReply_map]
          exact hasRun_transact fun _ _ _ _ h => hasRun_act h
      | recalculate p =>
          dsimp only
          rw [finalReply_map]
          exact hasRun_transact fun _ _ _ _ h => hasRun_report h

/-- The transaction of a run is the one it plans to make. -/
theorem run_eq : (appProcessSegment env).run
    = env.query.map fun q => processSegment env.f q env.store := by
  unfold appProcessSegment Env.query runSegment
  cases env.acquired with
  | false => rfl
  | true =>
  cases env.g .getTagById with
  | true => rfl
  | false =>
  cases env.segment with
  | none => rfl
  | some segment =>
      have h := @run_tryRun env segment
      simp only [if_true, Bool.false_eq_true, if_false, Bool.not_false, Bool.and_self,
        Option.bind_some]
      rw [← h]
      cases tryRun env segment with
      | ok sr => rfl
      | error s => exact hasRun_catchError (r := s.run) rfl

/-! ## What the world is told -/

/-- An effect that tells nothing about a membership. -/
def Quiet : Effect → Prop
  | .publishSegmentData _ _ => False
  | .updateTag changes => changes.status ≠ some .ACTIVE
  | .scheduleSegmentRecalculation | .cancelSegmentJob _ => True

def AllQuiet (s : AppState) : Prop := ∀ e ∈ s.effects, Quiet e

theorem allQuiet_act {c : AppCall} {e : Effect} {s : AppState} (h : AllQuiet s) (he : Quiet e) :
    AllQuiet (final (act env c e s)) := by
  refine final_act h fun e' he' => ?_
  rcases List.mem_append.mp he' with he' | he'
  · exact h e' he'
  · exact List.mem_singleton.mp he' ▸ he

theorem allQuiet_catchError {segment : Segment} {s : AppState} (h : AllQuiet s) :
    AllQuiet (final (catchError env segment s)) := by
  refine allQuiet_act ?_ (by simp [Quiet, failedUpdate])
  unfold cancelJob AllQuiet
  split
  · exact h
  · intro e he
    dsimp only at he
    split at he
    · exact h e he
    · rcases List.mem_append.mp he with he | he
      · exact h e he
      · exact List.mem_singleton.mp he ▸ trivial

/-- What a planned transaction is when it throws: `try` throws with nothing told. -/
theorem tryRun_of_error {segment : Segment} {pl : Plan} (hplan : plan env segment = .ok pl)
    {q : Option Payload} (hq : pl.query = some q)
    (hr : (processSegment env.f q env.store).result = .error ()) :
    ∃ s, tryRun env segment = .error s ∧ s.effects = [] := by
  have htransact : ∀ next s, s.effects = [] →
      ∃ s', transact env q s next = .error s' ∧ s'.effects = [] := by
    intro next s hs
    refine ⟨{ s with run := some (processSegment env.f q env.store) }, ?_, hs⟩
    simp only [transact, hr]
  unfold tryRun
  rw [hplan]
  cases pl with
  | stop => exact nomatch hq
  | deactivate =>
      cases hq
      obtain ⟨s, hs, heff⟩ := htransact (fun _ _ => act env .updateTag (.updateTag inactiveUpdate))
        { scheduleCloudTaskId := segment.scheduleCloudTaskId, segmentInfo := segment.segmentInfo } rfl
      exact ⟨s, by dsimp only; rw [hs]; rfl, heff⟩
  | recalculate p =>
      cases hq
      obtain ⟨s, hs, heff⟩ := htransact (report env)
        { scheduleCloudTaskId := segment.scheduleCloudTaskId, segmentInfo := segment.segmentInfo } rfl
      exact ⟨s, by dsimp only; rw [hs]; rfl, heff⟩

theorem query_eq_some {q : Option Payload} (h : env.query = some q) :
    env.acquired = true ∧ env.g .getTagById = false ∧
      ∃ segment pl, env.segment = some segment ∧ plan env segment = .ok pl ∧ pl.query = some q := by
  unfold Env.query at h
  split at h
  · rename_i hcond
    simp only [Bool.and_eq_true, Bool.not_eq_true'] at hcond
    obtain ⟨segment, hsegment, h⟩ := Option.bind_eq_some_iff.mp h
    split at h
    · rename_i pl hplan
      exact ⟨hcond.1, hcond.2, segment, pl, hsegment, hplan, h⟩
    · exact nomatch h
  · exact nomatch h

/-- A transaction that throws is told as a failure: nothing is published, the
segment is not marked active, and the caller gets an error. -/
theorem silent_of_error {q : Option Payload} (hq : env.query = some q)
    (hr : (processSegment env.f q env.store).result = .error ()) :
    (∀ e ∈ (appProcessSegment env).effects, Quiet e) ∧
      (appProcessSegment env).outcome = .error () := by
  obtain ⟨hacquired, htag, segment, pl, hsegment, hplan, hpl⟩ := query_eq_some hq
  obtain ⟨s, hs, heff⟩ := tryRun_of_error hplan hpl hr
  have hquiet : AllQuiet (final (catchError env segment s)) :=
    allQuiet_catchError fun e he => by rw [heff] at he; exact nomatch he
  simp only [appProcessSegment, hacquired, if_true, runSegment, htag, Bool.false_eq_true, if_false,
    hsegment, hs]
  exact ⟨hquiet, by split <;> rfl⟩

/-- A run of the service is atomic: when its transaction is rolled back,
`msgops` throws, nothing is published, the segment is not marked active and the
caller gets an error; and the ids `msgops` reports are the contacts it moved. -/
structure AtomicOutcome (env : Env) : Prop where
  observed : ∀ r, (appProcessSegment env).run = some r → r.ended = .rolledBack →
    r.result = .error ()
  silent : ∀ r, (appProcessSegment env).run = some r → r.ended = .rolledBack →
    (∀ e ∈ (appProcessSegment env).effects, Quiet e) ∧ (appProcessSegment env).outcome = .error ()
  reports : ∀ r ids, (appProcessSegment env).run = some r → r.result = .ok ids →
    Reports env.store r.store ids

end

/-! ## A lost commit -/

/-- Contacts 1 and 2 are in the segment, its query selects 2 and 3, and the
`COMMIT` fails. -/
def lostCommit : Env :=
  { f := fun c => c = .commit
    g := fun _ => false
    isCampaign := true
    segment := some {}
    generated := .ok { selected := [2, 3] }
    store := ⟨[1, 2], by decide, []⟩ }

end OpenBms.TagProcess
