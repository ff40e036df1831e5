/-
# `OpenBms.Events.Batches` — the batches of the e-mail providers and their retries

`processSendgrid` and `processSparkPost` take a marker for each event of a batch
(`SET NX EX 600`), drop the events whose marker was there, and go on with the others.
A batch that fails comes again.  The answers of the pipeline belong to the events that
have an id; the filter reads them by the positions of all events.

| an attempt | its markers | its effects |
| :-- | :-- | :-- |
| `checkPostgresConnection` throws | none | none |
| the pipeline throws | some | none |
| the filter reads an answer that is not there | all | none |
| it fails after the filter | all | any of those it kept |
| it succeeds | all | those it kept |

**Proved here.**

    the filter keeps an event by the answer at its position (`mem_filterDuplicateEvents`)
    a run retries its failed batches in full iff every event that
    is not applied finds a free marker at its position (`retried_iff`)
    within 600 s after a failure past the filter, a retry drops
    every event of a batch of events with ids (`retry_discards`)
-/
import OpenBms.Lib.Runs

namespace OpenBms.Events.Batches

/-- An event: `sg_event_id` or `sp_event_id`, if there is one, and the rest of it. -/
structure Event where
  eventId : Option String
  body : String
  deriving DecidableEq

/-- What the two services do differently: SparkPost keeps the events without an id. -/
structure Provider where
  keepsMissing : Bool
  deriving DecidableEq

def sendgrid : Provider := ⟨false⟩

def sparkpost : Provider := ⟨true⟩

/-- `event:sendgrid:${eventId}` by the id, with the time it expires. -/
abbrev Markers := String → Option Nat

def Markers.live (markers : Markers) (now : Nat) (eventId : String) : Bool :=
  (markers eventId).any fun expires => now < expires

def ttlSeconds : Nat := 10 * 60

/-- `pipeline.set(…, 'NX')` for each id; an answer is whether it is `OK`. -/
@[grind =] def setMarkers (now : Nat) : Markers → List String → Markers × List Bool
  | markers, [] => (markers, [])
  | markers, eventId :: eventIds =>
      if markers.live now eventId then
        let (markers', results) := setMarkers now markers eventIds
        (markers', false :: results)
      else
        let (markers', results) :=
          setMarkers now (Function.update markers eventId (some (now + ttlSeconds))) eventIds
        (markers', true :: results)

def eventIds (events : List Event) : List String := events.filterMap (·.eventId)

/-- `events.filter((event, index) => …)`; `results[index][1]` of no answer throws. -/
@[grind =] def filterFrom (provider : Provider) (results : List Bool) :
    Nat → List Event → Option (List Event)
  | _, [] => some []
  | index, event :: events =>
      if provider.keepsMissing ∧ event.eventId = none then
        (filterFrom provider results (index + 1) events).map (event :: ·)
      else
        match results[index]? with
        | none => none
        | some true => (filterFrom provider results (index + 1) events).map (event :: ·)
        | some false => filterFrom provider results (index + 1) events

structure State where
  now : Nat
  markers : Markers
  applied : List Event
  failed : List (List Event)

def State.init : State := ⟨0, fun _ => none, [], []⟩

def filterDuplicateEvents (provider : Provider) (s : State) (events : List Event) :
    Option (List Event) :=
  filterFrom provider (setMarkers s.now s.markers (eventIds events)).2 0 events

/-- How an attempt ends. -/
inductive Fate where
  | noPostgres
  | noRedis (executed : Nat)
  | noResult
  | failure (applied : List Event)
  | success
  deriving DecidableEq

inductive Action where
  | attempt (events : List Event) (fate : Fate)
  | tick (seconds : Nat)
  deriving DecidableEq

namespace State

/-- The markers after the first commands of the pipeline. -/
def mark (s : State) (eventIds : List String) : State :=
  { s with markers := (setMarkers s.now s.markers eventIds).1 }

def apply (s : State) (events : List Event) : State := { s with applied := s.applied ++ events }

def fail (s : State) (events : List Event) : State := { s with failed := events :: s.failed }

def succeed (s : State) (events : List Event) : State :=
  { s with failed := s.failed.filter (· ≠ events) }

end State

/-- One attempt on a batch, of the events `normalizeEnvelopes` left. -/
@[grind =] def step (provider : Provider) (s : State) : Action → Option State
  | .attempt events .noPostgres => some (s.fail events)
  | .attempt events (.noRedis executed) =>
      some ((s.mark ((eventIds events).take executed)).fail events)
  | .attempt events .noResult =>
      match filterDuplicateEvents provider s events with
      | none => some ((s.mark (eventIds events)).fail events)
      | some _ => none
  | .attempt events (.failure applied) =>
      match filterDuplicateEvents provider s events with
      | none => none
      | some uniqueEvents =>
          if uniqueEvents ≠ [] ∧ ∀ event ∈ applied, event ∈ uniqueEvents then
            some (((s.mark (eventIds events)).apply applied).fail events)
          else none
  | .attempt events .success =>
      match filterDuplicateEvents provider s events with
      | none => none
      | some uniqueEvents =>
          some (((s.mark (eventIds events)).apply uniqueEvents).succeed events)
  | .tick seconds => some { s with now := s.now + seconds }

/-! ## Markers -/

section
variable {now : Nat} {markers : Markers} {eventId : String} {ids : List String}

theorem live_update {eventId' : String} {expires : Nat} :
    Markers.live (Function.update markers eventId' (some expires)) now eventId =
      if eventId = eventId' then decide (now < expires) else markers.live now eventId := by
  simp only [Markers.live, Function.update_apply]
  split
  · rfl
  · rfl

/-- A command is answered `OK` when the marker was free and no command before it took it. -/
theorem setMarkers_results {p : Nat} :
    (setMarkers now markers ids).2[p]? = some true ↔
      ∃ eventId, ids[p]? = some eventId ∧ markers.live now eventId = false ∧
        eventId ∉ ids.take p := by
  induction ids generalizing markers p with
  | nil => simp only [setMarkers, List.getElem?_nil, reduceCtorEq, false_and, exists_false]
  | cons first ids ih =>
      simp only [setMarkers]
      split
      · rename_i hlive
        cases p with
        | zero =>
            simp only [List.getElem?_cons_zero, Option.some.injEq, Bool.false_eq_true, false_iff]
            rintro ⟨_, rfl, hfree, _⟩
            exact absurd hlive (by rw [hfree]; exact Bool.false_ne_true)
        | succ p =>
            simp only [List.getElem?_cons_succ, ih, List.take_succ_cons, List.mem_cons, not_or]
            constructor
            · rintro ⟨eventId, hp, hfree, hnew⟩
              refine ⟨eventId, hp, hfree, ?_, hnew⟩
              rintro rfl
              exact absurd hlive (by rw [hfree]; exact Bool.false_ne_true)
            · rintro ⟨eventId, hp, hfree, _, hnew⟩
              exact ⟨eventId, hp, hfree, hnew⟩
      · rename_i hfree
        cases p with
        | zero =>
            simp only [List.getElem?_cons_zero, true_iff, Option.some.injEq, List.take_zero,
              List.not_mem_nil, not_false_eq_true, and_true]
            exact ⟨first, rfl, Bool.eq_false_iff.mpr hfree⟩
        | succ p =>
            simp only [List.getElem?_cons_succ, ih, List.take_succ_cons, List.mem_cons, not_or,
              live_update]
            constructor
            · rintro ⟨eventId, hp, hlive, hnew⟩
              split at hlive
              · exact absurd (Nat.lt_add_of_pos_right (by decide)) (of_decide_eq_false hlive)
              · rename_i hne
                exact ⟨eventId, hp, hlive, hne, hnew⟩
            · rintro ⟨eventId, hp, hlive, hne, hnew⟩
              refine ⟨eventId, hp, ?_, hnew⟩
              rw [if_neg hne]
              exact hlive

theorem setMarkers_length : (setMarkers now markers ids).2.length = ids.length := by
  induction ids generalizing markers with
  | nil => rfl
  | cons first ids ih =>
      simp only [setMarkers]
      split <;> simp only [List.length_cons, ih]

/-- No command shortens the life of a marker. -/
theorem setMarkers_keeps {expires : Nat} (h : markers eventId = some expires)
    (hlive : now < expires) : (setMarkers now markers ids).1 eventId = some expires := by
  induction ids generalizing markers with
  | nil => exact h
  | cons first ids ih =>
      simp only [setMarkers]
      split
      · exact ih h
      · rename_i hfree
        refine ih ((Function.update_of_ne ?_ ..).trans h)
        rintro rfl
        refine hfree ?_
        simp only [Markers.live, h, Option.any_some, decide_eq_true_eq]
        exact hlive

/-! ## The filter -/

variable {provider : Provider} {results : List Bool} {events kept : List Event} {event : Event}
  {index : Nat}

/-- The filter keeps the event at a position. -/
def Keeps (provider : Provider) (results : List Bool) (index : Nat) (event : Event) : Prop :=
  (provider.keepsMissing = true ∧ event.eventId = none) ∨ results[index]? = some true

theorem exists_keeps_cons {first : Event} :
    (∃ p, (first :: events)[p]? = some event ∧ Keeps provider results (index + p) event) ↔
      (event = first ∧ Keeps provider results index first) ∨
        ∃ p, events[p]? = some event ∧ Keeps provider results (index + 1 + p) event := by
  constructor
  · rintro ⟨p, hp, hkeeps⟩
    cases p with
    | zero =>
        cases hp
        exact .inl ⟨rfl, hkeeps⟩
    | succ p => exact .inr ⟨p, hp, by rwa [Nat.add_right_comm, Nat.add_assoc]⟩
  · rintro (⟨rfl, hkeeps⟩ | ⟨p, hp, hkeeps⟩)
    · exact ⟨0, rfl, hkeeps⟩
    · exact ⟨p + 1, hp, by rwa [← Nat.add_assoc, Nat.add_right_comm]⟩

theorem mem_filterFrom (h : filterFrom provider results index events = some kept) :
    event ∈ kept ↔ ∃ p, events[p]? = some event ∧ Keeps provider results (index + p) event := by
  induction events generalizing index kept with
  | nil =>
      cases h
      simp only [List.not_mem_nil, List.getElem?_nil, reduceCtorEq, false_and, exists_false]
  | cons first events ih =>
      rw [exists_keeps_cons]
      simp only [filterFrom] at h
      split at h
      · rename_i hmissing
        obtain ⟨rest, hrest, rfl⟩ := Option.map_eq_some_iff.mp h
        rw [List.mem_cons, ih hrest]
        exact or_congr_left (iff_self_and.mpr fun _ => .inl hmissing)
      · rename_i hid
        split at h
        · cases h
        · rename_i hok
          obtain ⟨rest, hrest, rfl⟩ := Option.map_eq_some_iff.mp h
          rw [List.mem_cons, ih hrest]
          exact or_congr_left (iff_self_and.mpr fun _ => .inr hok)
        · rename_i hduplicate
          rw [ih h]
          refine (or_iff_right ?_).symm
          rintro ⟨_, hmissing | hok⟩
          · exact hid hmissing
          · cases hduplicate.symm.trans hok

/-- Every answer the filter reads is there. -/
def Answered (provider : Provider) (events : List Event) : Prop :=
  ∀ (p : Nat) (event : Event), events[p]? = some event →
    (provider.keepsMissing = true ∧ event.eventId = none) ∨ p < (eventIds events).length

theorem filterFrom_isSome :
    (filterFrom provider results index events).isSome ↔
      ∀ (p : Nat) (event : Event), events[p]? = some event →
        (provider.keepsMissing = true ∧ event.eventId = none) ∨ index + p < results.length := by
  induction events generalizing index with
  | nil =>
      simp only [filterFrom, Option.isSome_some, List.getElem?_nil, reduceCtorEq, false_implies,
        implies_true]
  | cons first events ih =>
      have hshift : (∀ (p : Nat) (event : Event), (first :: events)[p]? = some event →
          (provider.keepsMissing = true ∧ event.eventId = none) ∨ index + p < results.length) ↔
          ((provider.keepsMissing = true ∧ first.eventId = none) ∨ index < results.length) ∧
          ∀ (p : Nat) (event : Event), events[p]? = some event →
            (provider.keepsMissing = true ∧ event.eventId = none) ∨
              index + 1 + p < results.length := by
        constructor
        · intro h
          refine ⟨h 0 first rfl, fun p event hp => ?_⟩
          have := h (p + 1) event hp
          rwa [← Nat.add_assoc, Nat.add_right_comm] at this
        · rintro ⟨hfirst, hrest⟩ p event hp
          cases p with
          | zero =>
              cases hp
              exact hfirst
          | succ p =>
              have := hrest p event hp
              rwa [Nat.add_right_comm] at this
      rw [hshift, ← ih]
      simp only [filterFrom]
      split
      · rename_i hmissing
        rw [Option.isSome_map]
        exact (and_iff_right (.inl hmissing)).symm
      · rename_i hid
        split
        · rename_i hnone
          simp only [Option.isSome_none, Bool.false_eq_true, false_iff, not_and]
          rintro (hmissing | hlt)
          · exact absurd hmissing hid
          · exact absurd (List.getElem?_eq_none_iff.mp hnone) (Nat.not_le.mpr hlt)
        · rename_i hsome
          rw [Option.isSome_map]
          exact (and_iff_right (.inr (List.getElem?_eq_some_iff.mp hsome).1)).symm
        · rename_i hsome
          exact (and_iff_right (.inr (List.getElem?_eq_some_iff.mp hsome).1)).symm

theorem filterDuplicateEvents_isSome {s : State} :
    (filterDuplicateEvents provider s events).isSome ↔ Answered provider events := by
  simp only [filterDuplicateEvents, filterFrom_isSome, setMarkers_length, Nat.zero_add, Answered]

/-- The marker asked for at the event's position is free, or the event is kept without. -/
def Free (provider : Provider) (s : State) (events : List Event) (p : Nat) (event : Event) : Prop :=
  (provider.keepsMissing = true ∧ event.eventId = none) ∨
    ∃ eventId, (eventIds events)[p]? = some eventId ∧ s.markers.live s.now eventId = false ∧
      eventId ∉ (eventIds events).take p

theorem mem_filterDuplicateEvents {s : State}
    (h : filterDuplicateEvents provider s events = some kept) :
    event ∈ kept ↔ ∃ p, events[p]? = some event ∧ Free provider s events p event := by
  rw [mem_filterFrom h]
  simp only [Keeps, Free, Nat.zero_add, setMarkers_results]

/-! ## Retries -/

/-- A retry that succeeds has applied every event of its batch. -/
def Retried (provider : Provider) (s : State) : Action → Prop
  | .attempt events .success => events ∈ s.failed →
      ∀ s', step provider s (.attempt events .success) = some s' →
        ∀ event ∈ events, event ∈ s'.applied
  | _ => True

/-- A retry whose filter finds its answers finds a free marker for every event that is
not applied. -/
def Fresh (provider : Provider) (s : State) : Action → Prop
  | .attempt events .success => events ∈ s.failed → Answered provider events →
      ∀ event ∈ events, event ∉ s.applied →
        ∃ p, events[p]? = some event ∧ Free provider s events p event
  | _ => True

theorem retried_iff_fresh (provider : Provider) (s : State) (a : Action) :
    Retried provider s a ↔ Fresh provider s a := by
  match a with
  | .attempt events .success =>
      simp only [Retried, Fresh]
      refine imp_congr_right fun _ => ?_
      constructor
      · intro h hanswered event hmem hnot
        obtain ⟨kept, hkept⟩ := Option.isSome_iff_exists.mp
          ((filterDuplicateEvents_isSome (s := s)).mpr hanswered)
        have hstep : step provider s (.attempt events .success) =
            some (((s.mark (eventIds events)).apply kept).succeed events) := by
          simp only [step, hkept]
        have happlied := h _ hstep event hmem
        rcases List.mem_append.mp happlied with hold | hnew
        · exact absurd hold hnot
        · exact (mem_filterDuplicateEvents hkept).mp hnew
      · intro h s' hs event hmem
        simp only [step] at hs
        split at hs
        · cases hs
        · rename_i kept hkept
          cases hs
          have hanswered : Answered provider events :=
            filterDuplicateEvents_isSome.mp (Option.isSome_iff_exists.mpr ⟨kept, hkept⟩)
          by_cases hold : event ∈ s.applied
          · exact List.mem_append_left _ hold
          · exact List.mem_append_right _
              ((mem_filterDuplicateEvents hkept).mpr (h hanswered event hmem hold))
  | .attempt _ .noPostgres | .attempt _ (.noRedis _) | .attempt _ .noResult
  | .attempt _ (.failure _) | .tick _ => exact Iff.rfl

/-! ## Markers that stay -/

theorem setMarkers_takes (hmem : eventId ∈ ids) (hfree : markers.live now eventId = false) :
    (setMarkers now markers ids).1 eventId = some (now + ttlSeconds) := by
  induction ids generalizing markers with
  | nil => cases hmem
  | cons first ids ih =>
      simp only [setMarkers]
      split
      · rename_i hlive
        refine ih ((List.mem_cons.mp hmem).resolve_left ?_) hfree
        rintro rfl
        exact absurd hlive (by rw [hfree]; exact Bool.false_ne_true)
      · by_cases heq : eventId = first
        · have hlt : now < now + ttlSeconds := Nat.lt_add_of_pos_right (by decide)
          exact setMarkers_keeps (by rw [heq, Function.update_self]) hlt
        · refine ih ((List.mem_cons.mp hmem).resolve_left heq) ?_
          rw [live_update, if_neg heq]
          exact hfree

/-- A marker stays as long as it lives. -/
theorem step_keeps {s s' : State} {a : Action} {expires : Nat}
    (h : s.markers eventId = some expires ∨ expires ≤ s.now) (hs : step provider s a = some s') :
    s'.markers eventId = some expires ∨ expires ≤ s'.now := by
  have hmark : ∀ ids, (setMarkers s.now s.markers ids).1 eventId = some expires ∨
      expires ≤ s.now := by
    intro ids
    by_cases hlive : s.now < expires
    · exact .inl (setMarkers_keeps (h.resolve_right (Nat.not_le.mpr hlive)) hlive)
    · exact .inr (Nat.not_lt.mp hlive)
  match a with
  | .attempt events .noPostgres =>
      cases hs
      exact h
  | .attempt events (.noRedis executed) =>
      cases hs
      exact hmark _
  | .attempt events .noResult =>
      simp only [step] at hs
      split at hs
      · cases hs
        exact hmark _
      · cases hs
  | .attempt events (.failure applied) =>
      simp only [step] at hs
      split at hs
      · cases hs
      · split at hs
        · cases hs
          exact hmark _
        · cases hs
  | .attempt events .success =>
      simp only [step] at hs
      split at hs
      · cases hs
      · cases hs
        exact hmark _
  | .tick seconds =>
      cases hs
      exact h.imp_right fun hle => hle.trans (Nat.le_add_right _ _)

/-- After an attempt on new events that failed past its filter, whatever happens within
600 s, a retry keeps no event that has an id. -/
theorem retry_discards {s s' t : State} {applied : List Event}
    (hnew : ∀ eventId ∈ eventIds events, s.markers.live s.now eventId = false)
    (hfailed : step provider s (.attempt events (.failure applied)) = some s')
    (h : Runs.Reached (step provider) s' t) (hnow : t.now < s.now + ttlSeconds)
    (hkept : filterDuplicateEvents provider t events = some kept) :
    ∀ event ∈ kept, provider.keepsMissing = true ∧ event.eventId = none := by
  have hmarked : ∀ eventId ∈ eventIds events,
      s'.markers eventId = some (s.now + ttlSeconds) ∨ s.now + ttlSeconds ≤ s'.now := by
    intro eventId hmem
    simp only [step] at hfailed
    split at hfailed
    · cases hfailed
    · split at hfailed
      · cases hfailed
        exact .inl (setMarkers_takes hmem (hnew eventId hmem))
      · cases hfailed
  intro event hmem
  obtain ⟨p, _, hmissing | ⟨eventId, hp, hfree, _⟩⟩ := (mem_filterDuplicateEvents hkept).mp hmem
  · exact hmissing
  · have hlive : t.markers eventId = some (s.now + ttlSeconds) ∨ s.now + ttlSeconds ≤ t.now :=
      h.induction (I := fun t => t.markers eventId = some (s.now + ttlSeconds) ∨
        s.now + ttlSeconds ≤ t.now) (hmarked eventId (List.mem_of_getElem? hp))
        fun _ _ _ hI hs => step_keeps hI hs
    have hmarker := hlive.resolve_right (Nat.not_le.mpr hnow)
    simp only [Markers.live, hmarker, Option.any_some, decide_eq_false_iff_not] at hfree
    exact absurd hnow hfree

end

/-- An open with an id and one without; SparkPost's retry keeps the second. -/
def sampleOpens : List Event := [⟨some "e", "open"⟩, ⟨none, "open"⟩]

/-- What their first attempt leaves, failed past its filter. -/
def failedOpens : State := ((State.init.mark (eventIds sampleOpens)).apply []).fail sampleOpens

theorem retry_discards_sample :
    step sparkpost State.init (.attempt sampleOpens (.failure [])) = some failedOpens ∧
      ∃ t, Runs.Reached (step sparkpost) failedOpens t ∧
        filterDuplicateEvents sparkpost t sampleOpens = some [⟨none, "open"⟩] ∧
        ∀ event ∈ [(⟨none, "open"⟩ : Event)],
          sparkpost.keepsMissing = true ∧ event.eventId = none := by
  have hfailed : step sparkpost State.init (.attempt sampleOpens (.failure [])) =
      some failedOpens := rfl
  have hreached : Runs.Reached (step sparkpost) failedOpens _ := ⟨[.tick 5], rfl⟩
  have hnow : failedOpens.now + 5 < State.init.now + ttlSeconds := by decide
  exact ⟨hfailed, _, hreached, rfl,
    retry_discards (fun _ _ => rfl) hfailed hreached hnow rfl⟩

end OpenBms.Events.Batches
