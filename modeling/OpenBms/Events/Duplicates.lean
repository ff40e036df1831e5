/-
# `OpenBms.Events.Duplicates` — the events a batch is left with

`filterDuplicateEvents` is meant to keep the events without an id, and one event for each
id that was not seen.  It reads the answers of its pipeline by the positions of all events,
and an event without an id has no answer.

| the batch                                   | SendGrid | SparkPost |
| :------------------------------------------ | :------- | :-------- |
| every event has an id                       | kept     | kept      |
| the events with an id come first            | throws   | kept      |
| an event with an id after one without       | throws   | throws    |

**Proved here.**

    the answers are there exactly for the batches in order (`answered_iff`)
    a batch in order is left with what it should be (`filtered_of_inOrder`)
    and no other batch is (`filtered_iff`)
-/
import OpenBms.Events.Batches

namespace OpenBms.Events.Batches

/-- What is kept of a batch: its events without an id, and one event for each id that is
not live, in their order. -/
structure Filtered (live : String → Bool) (events kept : List Event) : Prop where
  order : kept.Sublist events
  missing : kept.filter (·.eventId.isNone) = events.filter (·.eventId.isNone)
  once : ∀ eventId, (eventIds kept).count eventId =
    if !live eventId && (eventIds events).contains eventId then 1 else 0

/-- The events with an id come first; for SendGrid there are no others. -/
structure InOrder (provider : Provider) (events : List Event) : Prop where
  first : events.Pairwise fun e f => e.eventId = none → f.eventId = none
  none : provider.keepsMissing = false → ∀ e ∈ events, e.eventId ≠ none

section
variable {provider : Provider} {events : List Event} {now : Nat} {markers : Markers}

/-- Answers before the position that is read do not matter. -/
theorem filterFrom_append (pre results : List Bool) (n : Nat) :
    filterFrom provider (pre ++ results) (pre.length + n) events =
      filterFrom provider results n events := by
  induction events generalizing n with
  | nil => rfl
  | cons event events ih =>
      have hget : (pre ++ results)[pre.length + n]? = results[n]? := by
        rw [List.getElem?_append_right (Nat.le_add_right _ _), Nat.add_sub_cancel_left]
      simp only [filterFrom, hget, Nat.add_assoc, ih]

theorem filterFrom_one (result : Bool) (results : List Bool) :
    filterFrom provider (result :: results) 1 events = filterFrom provider results 0 events :=
  filterFrom_append [result] results 0

theorem eventIds_cons (event : Event) (events : List Event) :
    eventIds (event :: events) = event.eventId.toList ++ eventIds events := by
  cases h : event.eventId with
  | none => rw [eventIds, List.filterMap_cons_none h]; rfl
  | some eventId => rw [eventIds, List.filterMap_cons_some h]; rfl

theorem eventIds_length_le (events : List Event) : (eventIds events).length ≤ events.length :=
  List.length_filterMap_le _ _

theorem eventIds_nil_of_none (h : ∀ e ∈ events, e.eventId = none) : eventIds events = [] :=
  List.filterMap_eq_nil_iff.mpr h

/-! ## Batches in order -/

theorem first_of_answered (h : Answered provider events) :
    events.Pairwise fun e f => e.eventId = none → f.eventId = none := by
  induction events with
  | nil => exact .nil
  | cons event events ih =>
      have hrest : ∀ (p : Nat) (e : Event), events[p]? = some e →
          (provider.keepsMissing = true ∧ e.eventId = none) ∨
            p + 1 < (eventIds (event :: events)).length := fun p e hp => h (p + 1) e hp
      cases hid : event.eventId with
      | some eventId =>
          have hlength : (eventIds (event :: events)).length = (eventIds events).length + 1 := by
            rw [eventIds_cons, hid, Option.toList_some, List.singleton_append, List.length_cons]
          refine .cons (fun e _ hnone => absurd hnone (hid ▸ Option.some_ne_none eventId)) (ih ?_)
          intro p e hp
          rcases hrest p e hp with hmissing | hlt
          · exact .inl hmissing
          · exact .inr (by omega)
      | none =>
          have hlength : (eventIds (event :: events)).length = (eventIds events).length := by
            rw [eventIds_cons, hid, Option.toList_none, List.nil_append]
          have hsame : ∀ e ∈ events, e.eventId = none := by
            -- the last event with an id would ask for an answer past the end
            by_contra hsome
            push Not at hsome
            obtain ⟨e, hmem, he⟩ := hsome
            have hall : ∀ (p : Nat) (e : Event), events[p]? = some e → e.eventId ≠ none →
                p + 1 < (eventIds events).length := by
              intro p e hp hne
              rcases hrest p e hp with hmissing | hlt
              · exact absurd hmissing.2 hne
              · exact hlength ▸ hlt
            have hcount : ∀ es : List Event, (∀ (p : Nat) (e : Event), es[p]? = some e →
                e.eventId ≠ none → p + 1 < (eventIds events).length) →
                (eventIds es).length + 1 ≤ (eventIds events).length ∨ eventIds es = [] := by
              intro es
              induction es using List.reverseRecOn with
              | nil => exact fun _ => .inr rfl
              | append_singleton es e' ih' =>
                  intro hes
                  have hinit := ih' fun p e hp hne => hes p e
                    ((List.getElem?_append_left (List.getElem?_eq_some_iff.mp hp).1).trans hp) hne
                  rw [eventIds, List.filterMap_append, List.length_append]
                  cases he' : e'.eventId with
                  | none =>
                      rw [List.filterMap_cons_none he', List.filterMap_nil, List.append_nil]
                      exact hinit
                  | some eventId =>
                      rw [List.filterMap_cons_some he', List.filterMap_nil]
                      have hlast := hes es.length e' List.getElem?_concat_length
                        (he' ▸ Option.some_ne_none eventId)
                      have hle := eventIds_length_le es
                      rw [eventIds] at hle
                      exact .inl (by simp only [List.length_singleton]; omega)
            rcases hcount events hall with hlt | hnil
            · omega
            · exact he (List.filterMap_eq_nil_iff.mp hnil e hmem)
          exact .cons (fun e he _ => hsame e he)
            (List.pairwise_of_forall_mem_list fun e _ f hf _ => hsame f hf)

theorem answered_iff : Answered provider events ↔ InOrder provider events := by
  constructor
  · intro h
    refine ⟨first_of_answered h, fun hkeeps e he hnone => ?_⟩
    have hall : ∀ p, p < events.length → p < (eventIds events).length := by
      intro p hp
      rcases h p events[p] (List.getElem?_eq_getElem hp) with hmissing | hlt
      · exact absurd (hkeeps.symm.trans hmissing.1) (by decide)
      · exact hlt
    have hlength : (eventIds events).length = events.length := by
      refine le_antisymm (eventIds_length_le events) (Nat.le_of_not_lt fun hlt => ?_)
      exact absurd (hall _ hlt) (lt_irrefl _)
    have hevery := List.filterMap_length_eq_length.mp hlength
    exact absurd (hevery e he) (hnone ▸ Bool.false_ne_true)
  · intro h
    induction events with
    | nil => exact fun p e hp => nomatch hp
    | cons event events ih =>
        have hfirst := List.pairwise_cons.mp h.first
        have hrest := ih ⟨hfirst.2, fun hkeeps e he => h.none hkeeps e (List.mem_cons_of_mem event he)⟩
        intro p e hp
        cases hid : event.eventId with
        | none =>
            have hnone : e.eventId = none := by
              rcases List.mem_cons.mp (List.mem_of_getElem? hp) with rfl | hmem
              · exact hid
              · exact hfirst.1 e hmem hid
            refine .inl ⟨?_, hnone⟩
            by_contra hkeeps
            exact h.none (Bool.not_eq_true _ ▸ hkeeps) e (List.mem_of_getElem? hp) hnone
        | some eventId =>
            rw [eventIds_cons, hid, Option.toList_some, List.singleton_append, List.length_cons]
            cases p with
            | zero => exact .inr (Nat.succ_pos _)
            | succ p =>
                rcases hrest p e hp with hmissing | hlt
                · exact .inl hmissing
                · exact .inr (Nat.succ_lt_succ hlt)

/-! ## What is kept -/

theorem filterFrom_missing (hkeeps : provider.keepsMissing = true)
    (hnone : ∀ e ∈ events, e.eventId = none) (results : List Bool) (n : Nat) :
    filterFrom provider results n events = some events := by
  induction events generalizing n with
  | nil => rfl
  | cons event events ih =>
      rw [filterFrom, if_pos ⟨hkeeps, hnone event List.mem_cons_self⟩,
        ih fun e he => hnone e (List.mem_cons_of_mem event he)]
      rfl

theorem filtered_missing (live : String → Bool) (hnone : ∀ e ∈ events, e.eventId = none) :
    Filtered live events events where
  order := List.Sublist.refl events
  missing := rfl
  once eventId := by
    rw [eventIds_nil_of_none hnone, List.contains_nil, Bool.and_false]
    rfl

theorem Filtered.skip {live : String → Bool} {event : Event} {eventId : String} {kept : List Event}
    (h : Filtered live events kept) (hid : event.eventId = some eventId) (hlive : live eventId = true) :
    Filtered live (event :: events) kept where
  order := h.order.cons event
  missing := by
    rw [List.filter_cons, hid, Option.isNone_some, if_neg Bool.false_ne_true]
    exact h.missing
  once eventId' := by
    rw [h.once, eventIds_cons, hid, Option.toList_some, List.singleton_append, List.contains_cons]
    rcases Decidable.em (eventId' = eventId) with rfl | hne
    · rw [hlive]
      rfl
    · rw [beq_eq_false_iff_ne.mpr hne, Bool.false_or]

theorem Filtered.take {live : String → Bool} {event : Event} {eventId : String} {kept : List Event}
    (h : Filtered (fun id => if id = eventId then true else live id) events kept)
    (hid : event.eventId = some eventId) (hlive : live eventId = false) :
    Filtered live (event :: events) (event :: kept) where
  order := h.order.cons_cons event
  missing := by
    rw [List.filter_cons, List.filter_cons, hid, Option.isNone_some, if_neg Bool.false_ne_true,
      if_neg Bool.false_ne_true]
    exact h.missing
  once eventId' := by
    rw [eventIds_cons, eventIds_cons, hid, Option.toList_some, List.singleton_append,
      List.singleton_append, List.count_cons, h.once, List.contains_cons]
    rcases Decidable.em (eventId' = eventId) with rfl | hne
    · rw [if_pos rfl, beq_self_eq_true, hlive]
      rfl
    · rw [if_neg hne, beq_eq_false_iff_ne.mpr (Ne.symm hne), beq_eq_false_iff_ne.mpr hne,
        if_neg Bool.false_ne_true, Nat.add_zero, Bool.false_or]

theorem filtered_of_inOrder (h : InOrder provider events) :
    ∃ kept, filterFrom provider (setMarkers now markers (eventIds events)).2 0 events = some kept ∧
      Filtered (markers.live now) events kept := by
  induction events generalizing markers with
  | nil => exact ⟨[], rfl, filtered_missing _ fun e he => nomatch he⟩
  | cons event events ih =>
      have hfirst := List.pairwise_cons.mp h.first
      have hrest : InOrder provider events :=
        ⟨hfirst.2, fun hkeeps e he => h.none hkeeps e (List.mem_cons_of_mem event he)⟩
      cases hid : event.eventId with
      | none =>
          have hkeeps : provider.keepsMissing = true := by
            by_contra hkeeps
            exact h.none (Bool.not_eq_true _ ▸ hkeeps) event List.mem_cons_self hid
          have hnone : ∀ e ∈ event :: events, e.eventId = none := by
            intro e he
            rcases List.mem_cons.mp he with rfl | he
            · exact hid
            · exact hfirst.1 e he hid
          exact ⟨_, filterFrom_missing hkeeps hnone _ 0, filtered_missing _ hnone⟩
      | some eventId =>
          have hmissing : ¬ (provider.keepsMissing = true ∧ event.eventId = none) :=
            fun hnone => absurd (hid.symm.trans hnone.2) (Option.some_ne_none eventId)
          rw [eventIds_cons, hid, Option.toList_some, List.singleton_append, setMarkers]
          cases hlive : markers.live now eventId with
          | true =>
              obtain ⟨kept, hkept, hfiltered⟩ : ∃ kept,
                  filterFrom provider (setMarkers now markers (eventIds events)).2 0 events =
                    some kept ∧ Filtered (markers.live now) events kept := ih hrest
              refine ⟨kept, ?_, hfiltered.skip hid hlive⟩
              rw [if_pos rfl, filterFrom, if_neg hmissing]
              exact (filterFrom_one false _).trans hkept
          | false =>
              let marked : Markers := Function.update markers eventId (some (now + ttlSeconds))
              obtain ⟨kept, hkept, hfiltered⟩ : ∃ kept,
                  filterFrom provider (setMarkers now marked (eventIds events)).2 0 events =
                    some kept ∧ Filtered (marked.live now) events kept := ih hrest
              refine ⟨event :: kept, ?_, ?_⟩
              · rw [if_neg Bool.false_ne_true, filterFrom, if_neg hmissing]
                exact congrArg (Option.map (event :: ·)) ((filterFrom_one true _).trans hkept)
              · have hlater : Markers.live (Function.update markers eventId (some (now + ttlSeconds)))
                    now = fun id => if id = eventId then true else markers.live now id := by
                  funext id
                  rw [live_update]
                  exact if_congr Iff.rfl (decide_eq_true (Nat.lt_add_of_pos_right (by decide))) rfl
                rw [hlater] at hfiltered
                exact hfiltered.take hid hlive

end

/-- For every batch and all the markers there are, the filter keeps what it should exactly
when the events with an id come first, and for SendGrid when there are no others. -/
theorem filtered_iff (provider : Provider) (s : State) (events : List Event) :
    (∃ kept, filterDuplicateEvents provider s events = some kept ∧
      Filtered (s.markers.live s.now) events kept) ↔ InOrder provider events := by
  constructor
  · rintro ⟨kept, hkept, -⟩
    rw [← answered_iff, ← filterDuplicateEvents_isSome (s := s), hkept]
    rfl
  · exact filtered_of_inOrder

/-- SendGrid's filter throws on an event without an id; SparkPost's on one with an id after
it. -/
theorem missing_throws :
    (¬ ∃ kept, filterDuplicateEvents sendgrid .init [⟨some "a", "open"⟩, ⟨none, "open"⟩] = some kept ∧
      Filtered (State.init.markers.live State.init.now) [⟨some "a", "open"⟩, ⟨none, "open"⟩] kept) ∧
    ¬ ∃ kept, filterDuplicateEvents sparkpost .init [⟨none, "open"⟩, ⟨some "a", "open"⟩] = some kept ∧
      Filtered (State.init.markers.live State.init.now) [⟨none, "open"⟩, ⟨some "a", "open"⟩] kept := by
  constructor
  · rintro ⟨kept, hkept, -⟩
    cases hkept
  · rintro ⟨kept, hkept, -⟩
    cases hkept

end OpenBms.Events.Batches
