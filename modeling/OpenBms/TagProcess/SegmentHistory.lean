/-
# `OpenBms.TagProcess.SegmentHistory` — the stored history of a segment

A run of a segment adds an entry to the `segmentInfo` of the segment: where it
succeeds after its transaction, and in the `catch` of the service where it
fails.

| a run | `segmentInfo` |
| :-- | :-- |
| succeeds | one entry more, the last hundred kept |
| fails | one entry more |
| fails after its own entry | two entries more |
| fails before a `null` is defaulted | the `catch` itself throws |

**Proved here.**

    what a run of each kind writes (`historyAfter_recorded`, `historyAfter_failedEarly`)
    in runs of the first two kinds, a failed one with a stored history
    of less than a hundred, each adds an entry (`history_keeps`)
-/
import OpenBms.TagProcess.SegmentRun

namespace OpenBms.TagProcess

/-! ## The stored history -/

/-- What an effect leaves in `segment_info`. -/
def write (stored : Option (List SegmentInfo)) : Effect → Option (List SegmentInfo)
  | .updateTag changes => changes.segmentInfo.or stored
  | .publishSegmentData _ _ | .scheduleSegmentRecalculation | .cancelSegmentJob _ => stored

/-- The segment as it is loaded. -/
def Segment.withInfo (segment : Segment) (stored : Option (List SegmentInfo)) : Segment :=
  { segment with segmentInfo := stored.getD [] }

/-- A run that finds the segment with this history. -/
def Env.holding (env : Env) (segment : Segment) (stored : Option (List SegmentInfo)) : Env :=
  { env with segment := some (segment.withInfo stored) }

/-- `segment.segmentInfo = !segment.segmentInfo ? [] : ..` is reached. -/
def defaulted (env : Env) : Bool := !env.g .findAccount && env.accountFound

def threw {ε α : Type} : Except ε α → Bool
  | .error _ => true
  | .ok _ => false

/-- The `push` of `catch` is one to `null`. -/
def pushThrows (env : Env) (segment : Segment) (stored : Option (List SegmentInfo)) : Bool :=
  stored.isNone && !defaulted env &&
    threw (tryRun (env.holding segment stored) (segment.withInfo stored))

/-- The stored history after a run of `app.processSegment`. -/
def historyAfter (env : Env) (stored : Option (List SegmentInfo)) : Option (List SegmentInfo) :=
  match env.segment with
  | none => stored
  | some segment =>
      if pushThrows env segment stored then stored
      else
        (appProcessSegment (env.holding segment stored)).effects.foldl write stored

def history (runs : List Env) (stored : Option (List SegmentInfo)) : Option (List SegmentInfo) :=
  runs.foldl (fun stored env => historyAfter env stored) stored

/-! ## Kinds of runs -/

inductive Kind where
  | skipped
  | notLoaded
  | recorded
  | failedEarly
  | failedLate
  deriving DecidableEq

def publishCalls (type : SegmentEvent) : Nat → List (List Int) → List AppCall
  | _, [] => []
  | i, _ :: rest => .publishSegmentData type i :: publishCalls type (i + 1) rest

/-- The calls after the entry of a run that succeeded. -/
def lateCalls (ids : Ids) : List AppCall :=
  publishCalls .segmentIn 0 (Chunk.chunk chunkSize (ids.insertIds.getD [])) ++
    publishCalls .segmentOut 0 (Chunk.chunk chunkSize (ids.deleteIds.getD [])) ++ [.updateTag]

/-- Where a run of a loaded segment fails, by the calls that do. -/
def loadedKind (env : Env) (segment : Segment) : Kind :=
  match plan env segment with
  | .error _ => .failedEarly
  | .ok .stop => if env.g .updateTag then .failedEarly else .skipped
  | .ok .deactivate =>
      match (processSegment env.f none env.store).result with
      | .error _ => .failedEarly
      | .ok _ => if env.g .updateTag then .failedEarly else .skipped
  | .ok (.recalculate p) =>
      match (processSegment env.f (some p) env.store).result with
      | .error _ => .failedEarly
      | .ok ids =>
          if env.g .getNumberContactsByTag then .failedEarly
          else if !env.isCampaign && env.g .scheduleSegmentRecalculation then .failedEarly
          else if (lateCalls ids).any env.g then .failedLate
          else .recorded

/-- A run without the lock, and one of a segment that does not exist, does nothing; where the
segment cannot be loaded there is no history to write to. -/
def kind (env : Env) : Kind :=
  if !env.acquired then .skipped
  else if env.g .getTagById then .notLoaded
  else
    match env.segment with
    | none => .skipped
    | some segment => loadedKind env segment

/-- The runs keep the history: each that is not skipped adds an entry, and the last hundred are
kept, in their order. -/
def Keeps (runs : List Env) (stored : Option (List SegmentInfo)) : Prop :=
  ∃ entries : List SegmentInfo, entries.length = runs.countP (fun env => kind env ≠ .skipped) ∧
    (history runs stored).getD [] =
      if entries = [] then stored.getD [] else lastHundred (stored.getD [] ++ entries)

/-- A run whose history is kept. -/
def Counts (env : Env) (stored : Option (List SegmentInfo)) : Prop :=
  match kind env with
  | .skipped | .recorded => True
  | .failedEarly => (stored.isSome ∨ defaulted env) ∧ (stored.getD []).length < 100 ∧
      env.g .updateFailed = false
  | .notLoaded | .failedLate => False

def AllCount : List Env → Option (List SegmentInfo) → Prop
  | [], _ => True
  | env :: runs, stored => Counts env stored ∧ AllCount runs (historyAfter env stored)

/-! ## The last hundred -/

section
variable {l m : List SegmentInfo}

theorem lastHundred_eq (l : List SegmentInfo) : lastHundred l = l.drop (l.length - 100) := by
  by_cases h : l.length > 100
  · exact if_pos h
  · have hzero : l.length - 100 = 0 := by omega
    rw [hzero, List.drop_zero]
    exact if_neg h

theorem length_lastHundred (l : List SegmentInfo) : (lastHundred l).length ≤ 100 := by
  rw [lastHundred_eq, List.length_drop]
  omega

theorem lastHundred_of_le (h : l.length ≤ 100) : lastHundred l = l := by
  rw [lastHundred, if_neg (not_lt.mpr h)]

theorem lastHundred_append (l m : List SegmentInfo) :
    lastHundred (lastHundred l ++ m) = lastHundred (l ++ m) := by
  have hle : l.length - 100 ≤ l.length := Nat.sub_le _ _
  have hlast : lastHundred l ++ m = (l ++ m).drop (l.length - 100) := by
    rw [lastHundred_eq, List.drop_append_of_le_length hle]
  have hdropped : l.length - 100 + ((l ++ m).length - (l.length - 100) - 100) =
      (l ++ m).length - 100 := by
    rw [List.length_append]
    omega
  rw [hlast, lastHundred_eq, lastHundred_eq (l ++ m), List.drop_drop, List.length_drop, hdropped]

end

/-! ## What a run writes -/

/-- A computation that has not written to `segment_info`, with this history in hand. -/
structure Unwritten (infos : List SegmentInfo) (s : AppState) : Prop where
  infos : s.segmentInfo = infos
  silent : ∀ stored, s.effects.foldl write stored = stored

section
variable {env : Env} {infos : List SegmentInfo} {s s' : AppState} {c : AppCall} {e : Effect}

theorem Unwritten.act (h : Unwritten infos s) (he : ∀ stored, write stored e = stored) :
    Unwritten infos (final (act env c e s)) := by
  refine final_act h ⟨h.infos, fun stored => ?_⟩
  rw [List.foldl_append, h.silent]
  exact he stored

theorem act_ok (h : env.g c = false) : act env c e s = .ok { s with effects := s.effects ++ [e] } := by
  rw [OpenBms.TagProcess.act, h]
  rfl

theorem publishChunks_ok {type : SegmentEvent} {chunks : List (List Int)} :
    ∀ {i : Nat} {s : AppState}, Unwritten infos s →
      (∀ c ∈ publishCalls type i chunks, env.g c = false) →
      ∃ s', publishChunks env type i chunks s = .ok s' ∧ Unwritten infos s' := by
  induction chunks with
  | nil => exact fun h _ => ⟨_, rfl, h⟩
  | cons contacts chunks ih =>
      intro i s h hcalls
      have hact := @act_ok env s _ (.publishSegmentData type contacts)
        (hcalls _ List.mem_cons_self)
      have hnext := @Unwritten.act env infos s (.publishSegmentData type i)
        (.publishSegmentData type contacts) h fun _ => rfl
      rw [hact] at hnext
      obtain ⟨s', hs', hunwritten⟩ := ih hnext fun c hc => hcalls c (List.mem_cons_of_mem _ hc)
      refine ⟨s', ?_, hunwritten⟩
      rw [publishChunks, hact]
      exact hs'

theorem schedule_unwritten (h : Unwritten infos s) : Unwritten infos (final (schedule env s)) := by
  rw [schedule]
  split
  · exact h
  · exact final_map (h.act fun _ => rfl) fun _ h => ⟨h.infos, h.silent⟩

theorem schedule_ok (h : (!env.isCampaign && env.g .scheduleSegmentRecalculation) = false) :
    ∃ s', schedule env s = .ok s' := by
  rw [schedule]
  split
  · exact ⟨_, rfl⟩
  · next hcampaign =>
    rw [Bool.not_eq_true] at hcampaign
    rw [hcampaign, Bool.not_false, Bool.true_and] at h
    rw [act_ok h]
    exact ⟨_, rfl⟩

theorem schedule_error (h : (!env.isCampaign && env.g .scheduleSegmentRecalculation) = true) :
    ∃ s', schedule env s = .error s' := by
  rw [Bool.and_eq_true, Bool.not_eq_true'] at h
  rw [schedule, h.1, if_neg Bool.false_ne_true, act, if_pos h.2]
  exact ⟨_, rfl⟩

theorem report_recorded {store : Store} {ids : Ids} (h : Unwritten infos s)
    (hcount : env.g .getNumberContactsByTag = false)
    (hschedule : (!env.isCampaign && env.g .scheduleSegmentRecalculation) = false)
    (hlate : ∀ c ∈ lateCalls ids, env.g c = false) :
    ∃ s' info, report env store ids s = .ok s' ∧
      ∀ stored, s'.effects.foldl write stored = some (lastHundred (infos ++ [info])) := by
  obtain ⟨s₁, hs₁⟩ := @schedule_ok env s hschedule
  have h₁ : Unwritten infos s₁ := by
    have hfinal := @schedule_unwritten env infos s h
    rwa [hs₁] at hfinal
  rw [lateCalls, List.forall_mem_append, List.forall_mem_append] at hlate
  obtain ⟨⟨hin, hout⟩, hupdate⟩ := hlate
  obtain ⟨info, hinfo⟩ : ∃ info, pushInfo store ids s₁ =
      { s₁ with segmentInfo := lastHundred (s₁.segmentInfo ++ [info]) } := ⟨_, rfl⟩
  have hpushed : Unwritten (lastHundred (infos ++ [info])) (pushInfo store ids s₁) := by
    rw [hinfo, ← h₁.infos]
    exact ⟨rfl, h₁.silent⟩
  obtain ⟨s₂, hs₂, h₂⟩ := publishChunks_ok hpushed hin
  obtain ⟨s₃, hs₃, h₃⟩ := publishChunks_ok h₂ hout
  refine ⟨{ s₃ with effects := s₃.effects ++ [.updateTag (activeUpdate store s₃)] }, info, ?_,
    fun stored => ?_⟩
  · rw [report, hcount, if_neg Bool.false_ne_true, hs₁]
    simp only [Except.bind, publishSegmentDataChunked, hs₂, hs₃]
    exact act_ok (hupdate _ (List.mem_singleton_self _))
  · rw [List.foldl_append, h₃.silent]
    exact congrArg some h₃.infos

/-- A run that fails before its own entry has written none. -/
theorem report_error {store : Store} {ids : Ids} (h : Unwritten infos s)
    (hfails : env.g .getNumberContactsByTag = true ∨
      (!env.isCampaign && env.g .scheduleSegmentRecalculation) = true) :
    ∃ s', report env store ids s = .error s' ∧ Unwritten infos s' := by
  rw [report]
  by_cases hcount : env.g .getNumberContactsByTag = true
  · rw [if_pos hcount]
    exact ⟨s, rfl, h⟩
  · rw [if_neg hcount]
    obtain ⟨s', hs'⟩ := @schedule_error env s (hfails.resolve_left hcount)
    have hfinal := @schedule_unwritten env infos s h
    rw [hs'] at hfinal ⊢
    exact ⟨s', rfl, hfinal⟩

/-- An update of a segment that is no longer scheduled writes none. -/
theorem act_inactive (h : Unwritten infos s) :
    (env.g .updateTag = true → ∃ s', act env .updateTag (.updateTag inactiveUpdate) s = .error s' ∧
      Unwritten infos s') ∧
    (env.g .updateTag = false → ∃ s', act env .updateTag (.updateTag inactiveUpdate) s = .ok s' ∧
      Unwritten infos s') := by
  constructor
  · intro hfails
    rw [act, if_pos hfails]
    exact ⟨s, rfl, h⟩
  · intro hok
    have hact := @act_ok env s _ (.updateTag inactiveUpdate) hok
    have hfinal := @Unwritten.act env infos s .updateTag (.updateTag inactiveUpdate) h fun _ => rfl
    rw [hact] at hfinal
    exact ⟨_, hact, hfinal⟩

end

/-! ## What a run writes, by its kind -/

section
variable {env : Env} {segment : Segment}

/-- What `try` comes to. -/
def Tries (env : Env) (segment : Segment) : Kind → Prop
  | .skipped => ∃ s reply, tryRun env segment = .ok (s, reply) ∧ Unwritten segment.segmentInfo s
  | .recorded => ∃ s reply info, tryRun env segment = .ok (s, reply) ∧
      ∀ stored, s.effects.foldl write stored = some (lastHundred (segment.segmentInfo ++ [info]))
  | .failedEarly => ∃ s, tryRun env segment = .error s ∧ Unwritten segment.segmentInfo s
  | .notLoaded | .failedLate => True

/-- The variables at the start of a run, and after its transaction. -/
def start (segment : Segment) (run : Option Run) : AppState :=
  { scheduleCloudTaskId := segment.scheduleCloudTaskId, segmentInfo := segment.segmentInfo
    run := run }

theorem unwritten_start (segment : Segment) (run : Option Run) :
    Unwritten segment.segmentInfo (start segment run) := ⟨rfl, fun _ => rfl⟩

/-- The transaction of a run threw, or the run goes on with what it returned. -/
theorem transact_eq (query : Option Payload)
    (next : Store → Ids → AppState → Except AppState AppState) :
    transact env query (start segment none) next =
      match (processSegment env.f query env.store).result with
      | .error _ => .error (start segment (some (processSegment env.f query env.store)))
      | .ok ids => next (processSegment env.f query env.store).store ids
          (start segment (some (processSegment env.f query env.store))) := rfl

theorem tryRun_eq (env : Env) (segment : Segment) : tryRun env segment =
    match plan env segment with
    | .error _ => .error (start segment none)
    | .ok .stop =>
        (act env .updateTag (.updateTag inactiveUpdate) (start segment none)).map
          (·, .accountInactive)
    | .ok .deactivate =>
        (transact env none (start segment none) fun _ _ =>
          act env .updateTag (.updateTag inactiveUpdate)).map (·, .segmentInactive)
    | .ok (.recalculate p) =>
        (transact env (some p) (start segment none) (report env)).map (·, .updated) := rfl

theorem tries_inactive {reply : Reply} {run : Option Run}
    (htry : tryRun env segment =
      (act env .updateTag (.updateTag inactiveUpdate) (start segment run)).map (·, reply)) :
    Tries env segment (if env.g .updateTag then .failedEarly else .skipped) := by
  obtain ⟨hfails, hok⟩ := @act_inactive env _ _ (unwritten_start segment run)
  cases hupdate : env.g .updateTag with
  | true =>
      obtain ⟨s, hs, hunwritten⟩ := hfails hupdate
      refine ⟨s, ?_, hunwritten⟩
      rw [htry, hs]
      rfl
  | false =>
      obtain ⟨s, hs, hunwritten⟩ := hok hupdate
      refine ⟨s, reply, ?_, hunwritten⟩
      rw [htry, hs]
      rfl

/-- A run that recalculates, once its transaction has returned. -/
theorem tries_report {ids : Ids} {store : Store} {run : Option Run}
    (htry : tryRun env segment = (report env store ids (start segment run)).map (·, .updated)) :
    Tries env segment (if env.g .getNumberContactsByTag then .failedEarly
      else if !env.isCampaign && env.g .scheduleSegmentRecalculation then .failedEarly
      else if (lateCalls ids).any env.g then .failedLate
      else .recorded) := by
  have hstart := unwritten_start segment run
  by_cases hearly : env.g .getNumberContactsByTag = true ∨
      (!env.isCampaign && env.g .scheduleSegmentRecalculation) = true
  · obtain ⟨s, hs, hunwritten⟩ := @report_error env _ _ store ids hstart hearly
    have htries : Tries env segment .failedEarly := by
      refine ⟨s, ?_, hunwritten⟩
      rw [htry, hs]
      rfl
    rcases hearly with hcount | hschedule
    · rw [if_pos hcount]
      exact htries
    · rw [if_pos hschedule, ite_self]
      exact htries
  · rw [not_or, Bool.not_eq_true, Bool.not_eq_true] at hearly
    rw [hearly.1, hearly.2, if_neg Bool.false_ne_true, if_neg Bool.false_ne_true]
    by_cases hlate : (lateCalls ids).any env.g = true
    · rw [if_pos hlate]
      trivial
    · rw [if_neg hlate]
      rw [List.any_eq_true, not_exists] at hlate
      obtain ⟨s, info, hs, hwritten⟩ := @report_recorded env _ _ store ids hstart hearly.1 hearly.2
        fun c hc => Bool.eq_false_iff.mpr fun hfails => hlate c ⟨hc, hfails⟩
      refine ⟨s, .updated, info, ?_, hwritten⟩
      rw [htry, hs]
      rfl

theorem tries_kind (env : Env) (segment : Segment) : Tries env segment (loadedKind env segment) := by
  have htry := tryRun_eq env segment
  rw [loadedKind]
  cases hplan : plan env segment with
  | error e =>
      rw [hplan] at htry
      exact ⟨_, htry, unwritten_start segment none⟩
  | ok pl =>
      rw [hplan] at htry
      cases pl with
      | stop => exact tries_inactive htry
      | deactivate =>
          simp only [transact_eq] at htry ⊢
          cases hrun : (processSegment env.f none env.store).result with
          | error e =>
              rw [hrun] at htry
              exact ⟨_, htry, unwritten_start segment _⟩
          | ok ids =>
              rw [hrun] at htry
              exact tries_inactive htry
      | recalculate p =>
          simp only [transact_eq] at htry ⊢
          cases hrun : (processSegment env.f (some p) env.store).result with
          | error e =>
              rw [hrun] at htry
              exact ⟨_, htry, unwritten_start segment _⟩
          | ok ids =>
              rw [hrun] at htry
              exact tries_report htry

theorem cancelJob_unwritten {infos : List SegmentInfo} {s : AppState} (h : Unwritten infos s) :
    Unwritten infos (cancelJob env segment s) := by
  rw [cancelJob]
  split
  · exact h
  · refine ⟨h.infos, fun stored => ?_⟩
    dsimp only
    split
    · exact h.silent stored
    · rw [List.foldl_append, h.silent]
      rfl

theorem catchError_written {infos : List SegmentInfo} {s : AppState} (h : Unwritten infos s)
    (hupdate : env.g .updateFailed = false) (stored : Option (List SegmentInfo)) :
    (final (catchError env segment s)).effects.foldl write stored =
      some (infos ++ [{ status := false, count := 0 }]) := by
  have hpushed : Unwritten (infos ++ [{ status := false, count := 0 }])
      { s with segmentInfo := s.segmentInfo ++ [{ status := false, count := 0 }] } := by
    rw [← h.infos]
    exact ⟨rfl, h.silent⟩
  have hcancelled := @cancelJob_unwritten env segment _ _ hpushed
  rw [catchError, act_ok hupdate, final, List.foldl_append, hcancelled.silent]
  exact congrArg some hcancelled.infos

end

/-! ## Sequences of runs -/

section
variable {env : Env} {stored : Option (List SegmentInfo)}

theorem effects_loaded {segment : Segment} (hacquired : env.acquired = true)
    (hload : env.g .getTagById = false) :
    (appProcessSegment (env.holding segment stored)).effects =
      match tryRun (env.holding segment stored) (segment.withInfo stored) with
      | .ok (s, _) => s.effects
      | .error s =>
          (final (catchError (env.holding segment stored) (segment.withInfo stored) s)).effects := by
  have hacquired' : (env.holding segment stored).acquired = true := hacquired
  have hload' : (env.holding segment stored).g .getTagById = false := hload
  have hsegment : (env.holding segment stored).segment = some (segment.withInfo stored) := rfl
  rw [appProcessSegment, if_pos hacquired', runSegment, hload', if_neg Bool.false_ne_true, hsegment]
  simp only
  cases tryRun (env.holding segment stored) (segment.withInfo stored) with
  | ok x => rfl
  | error s => rfl

theorem kind_loaded {segment : Segment} (hacquired : env.acquired = true)
    (hload : env.g .getTagById = false) (hsegment : env.segment = some segment) :
    kind env = loadedKind (env.holding segment stored) (segment.withInfo stored) := by
  rw [kind, hacquired, hload, hsegment]
  rfl

theorem loaded_of_kind (h : kind env ≠ .skipped) (h' : kind env ≠ .notLoaded) :
    env.acquired = true ∧ env.g .getTagById = false ∧ ∃ segment, env.segment = some segment := by
  rw [kind] at h h'
  cases hacquired : env.acquired with
  | false =>
      rw [hacquired] at h
      exact absurd rfl h
  | true =>
      cases hload : env.g .getTagById with
      | true =>
          rw [hacquired, hload] at h'
          exact absurd rfl h'
      | false =>
          cases hsegment : env.segment with
          | none =>
              rw [hacquired, hload, hsegment] at h
              exact absurd rfl h
          | some segment => exact ⟨rfl, rfl, segment, rfl⟩

theorem historyAfter_skipped (h : kind env = .skipped) : historyAfter env stored = stored := by
  rw [historyAfter]
  cases hsegment : env.segment with
  | none => rfl
  | some segment =>
      simp only
      split
      · rfl
      · cases hacquired : env.acquired with
        | false =>
            have hacquired' : (env.holding segment stored).acquired = false := hacquired
            rw [appProcessSegment, hacquired', if_neg Bool.false_ne_true]
            rfl
        | true =>
            cases hload : env.g .getTagById with
            | true =>
                rw [kind, hacquired, hload] at h
                cases h
            | false =>
                rw [@kind_loaded env stored _ hacquired hload hsegment] at h
                have htries := tries_kind (env.holding segment stored) (segment.withInfo stored)
                rw [h] at htries
                obtain ⟨s, reply, hs, hunwritten⟩ := htries
                rw [effects_loaded hacquired hload, hs]
                exact hunwritten.silent stored

theorem historyAfter_recorded (h : kind env = .recorded) : ∃ info,
    historyAfter env stored = some (lastHundred (stored.getD [] ++ [info])) := by
  obtain ⟨hacquired, hload, segment, hsegment⟩ :=
    @loaded_of_kind env (by rw [h]; decide) (by rw [h]; decide)
  rw [@kind_loaded env stored _ hacquired hload hsegment] at h
  have htries := tries_kind (env.holding segment stored) (segment.withInfo stored)
  rw [h] at htries
  obtain ⟨s, reply, info, hs, hwritten⟩ := htries
  have hpush : pushThrows env segment stored = false := by
    rw [pushThrows, hs, threw, Bool.and_false]
  refine ⟨info, ?_⟩
  rw [historyAfter, hsegment]
  simp only
  rw [hpush, if_neg Bool.false_ne_true, effects_loaded hacquired hload, hs]
  exact hwritten stored

/-- A run that fails before its own entry adds one, where there is a list to add it to and the
update succeeds. -/
theorem historyAfter_failedEarly (h : kind env = .failedEarly)
    (hlist : stored.isSome ∨ defaulted env) (hupdate : env.g .updateFailed = false) : ∃ info,
    historyAfter env stored = some (stored.getD [] ++ [info]) := by
  obtain ⟨hacquired, hload, segment, hsegment⟩ :=
    @loaded_of_kind env (by rw [h]; decide) (by rw [h]; decide)
  rw [@kind_loaded env stored _ hacquired hload hsegment] at h
  have htries := tries_kind (env.holding segment stored) (segment.withInfo stored)
  rw [h] at htries
  obtain ⟨s, hs, hunwritten⟩ := htries
  have hpush : pushThrows env segment stored = false := by
    rw [pushThrows, Bool.and_eq_false_iff, Bool.and_eq_false_iff]
    refine .inl (hlist.imp (fun hsome => ?_) fun hdefault => ?_)
    · rw [Option.isNone_eq_false_iff]
      exact hsome
    · rw [hdefault, Bool.not_true]
  refine ⟨{ status := false, count := 0 }, ?_⟩
  rw [historyAfter, hsegment]
  simp only
  rw [hpush, if_neg Bool.false_ne_true, effects_loaded hacquired hload, hs]
  exact catchError_written hunwritten hupdate stored

theorem counts_step (h : Counts env stored) :
    (kind env = .skipped ∧ historyAfter env stored = stored) ∨
      (kind env ≠ .skipped ∧ ∃ info,
        historyAfter env stored = some (lastHundred (stored.getD [] ++ [info]))) := by
  rw [Counts] at h
  cases hkind : kind env with
  | skipped => exact .inl ⟨rfl, historyAfter_skipped hkind⟩
  | recorded => exact .inr ⟨by decide, historyAfter_recorded hkind⟩
  | failedEarly =>
      rw [hkind] at h
      obtain ⟨hlist, hlength, hupdate⟩ := h
      obtain ⟨info, hinfo⟩ := historyAfter_failedEarly hkind hlist hupdate
      refine .inr ⟨by decide, info, hinfo.trans (congrArg some (lastHundred_of_le ?_).symm)⟩
      rw [List.length_append]
      exact hlength
  | notLoaded =>
      rw [hkind] at h
      exact h.elim
  | failedLate =>
      rw [hkind] at h
      exact h.elim

/-- In every sequence of runs that count, each that is not skipped adds one entry; the last
hundred are kept in their order, and there are never more. -/
theorem history_keeps {runs : List Env} {stored : Option (List SegmentInfo)}
    (h : AllCount runs stored) : Keeps runs stored ∧
      ((stored.getD []).length ≤ 100 ∨ (∃ env ∈ runs, kind env ≠ .skipped) →
        ((history runs stored).getD []).length ≤ 100) := by
  have hkeeps : Keeps runs stored := by
    induction runs generalizing stored with
    | nil => exact ⟨[], rfl, by rw [if_pos rfl, history, List.foldl_nil]⟩
    | cons env runs ih =>
        obtain ⟨entries, hlength, hhistory⟩ := ih h.2
        rw [history] at hhistory
        rw [Keeps, history, List.foldl_cons, hhistory]
        rcases counts_step h.1 with ⟨hkind, hafter⟩ | ⟨hkind, info, hafter⟩
        · refine ⟨entries, ?_, ?_⟩
          · rw [hlength, List.countP_cons_of_neg]
            rw [hkind]
            decide
          · rw [hafter]
        · refine ⟨info :: entries, ?_, ?_⟩
          · rw [List.length_cons, hlength, List.countP_cons_of_pos]
            exact decide_eq_true hkind
          · rw [if_neg (List.cons_ne_nil _ _), hafter, Option.getD_some]
            split
            · next hnil => rw [hnil]
            · rw [lastHundred_append, List.append_assoc, List.singleton_append]
  refine ⟨hkeeps, fun hbound => ?_⟩
  obtain ⟨entries, hlength, hhistory⟩ := hkeeps
  rw [hhistory]
  split
  · next hnil =>
    rcases hbound with hle | ⟨env, hmem, hkind⟩
    · exact hle
    · rw [hnil, List.length_nil, eq_comm, List.countP_eq_zero] at hlength
      exact absurd (decide_eq_true hkind) (hlength env hmem)
  · exact length_lastHundred _

end

/-! ## Two runs -/

theorem nodup_daily : ([1, 2] : List Int).Nodup := by decide

/-- A segment whose runs succeed; its query selects contact 3. -/
def daily : Env :=
  { f := fun _ => false
    g := fun _ => false
    segment := some {}
    generated := .ok { selected := [3] }
    store := ⟨[1, 2], nodup_daily, []⟩ }

/-- A run whose account cannot be read. -/
def unread : Env := { daily with g := fun c => c = .findAccount }

theorem history_keeps_daily : Keeps [daily, unread] none ∧
    ((history [daily, unread] none).getD []).length ≤ 100 := by
  have hcounts : AllCount [daily, unread] none :=
    ⟨trivial, ⟨.inl rfl, by decide, rfl⟩, trivial⟩
  exact (history_keeps hcounts).imp_right fun h => h (.inl (by decide))

/-- A first run that fails before the history is defaulted leaves none. -/
theorem not_keeps_unread : ¬ Keeps [unread] none := by
  rintro ⟨entries, hlength, hhistory⟩
  have hone : entries.length = 1 := hlength
  obtain ⟨info, rfl⟩ := List.length_eq_one_iff.mp hone
  have hnone : ([] : List SegmentInfo) = [info] := hhistory
  cases hnone

end OpenBms.TagProcess
