/-
# `OpenBms.TagProcess.Weeks` — the three copies of the week windows

The windows of a week are computed in three places: for the queries of a segment from one
text, for an automation's event condition from a pair, and once more from the word and a
number.

    current_week, d     from the last week day d on, seven days
    last_week, d        the seven days before those

**Proved here**, for every day and every first day of the week.

    the copies compute the same (`processAutomationBetweenDate_eq`)
    the windows are those weeks iff the first day is
    not Sunday: a week from Sunday on gets seven more (`weekWindows_iff`)
-/
import OpenBms.TagProcess.Placeholders

namespace OpenBms.TagProcess

open Js

variable {c : Clock} {k : Fin 7}

/-- `processConditionalBetweenDate`. -/
def processConditionalBetweenDate (c : Clock) (typeFilter : List Char) (dayFilter : Int) :
    Option Int × Option Int :=
  let dayFinalDate := if dayFilter = 0 then 6 else dayFilter - 1
  if typeFilter = "current_week".toList then
    (some (if c.weekday < dayFilter then c.day dayFilter - 7 else c.day dayFilter),
      some (if dayFilter ≤ c.weekday then c.day dayFinalDate + 7 else c.day dayFinalDate))
  else if c.weekday < dayFilter then
    (some (c.day dayFilter - 14), some (c.day dayFinalDate - 7))
  else (some (c.day dayFilter - 7), some (c.day dayFinalDate))

/-- `processAutomationBetweenDate`. -/
def processAutomationBetweenDate (c : Clock) (filter : List Char × Val) :
    Option Int × Option Int :=
  match filter.2.parseInt with
  | none => (none, none)
  | some dayFilter =>
      let dayFinalDate := if dayFilter = 0 then 6 else dayFilter - 1
      if filter.1 = "current_week".toList then
        (some (if c.weekday < dayFilter then c.day dayFilter - 7 else c.day dayFilter),
          some (if dayFilter ≤ c.weekday then c.day dayFinalDate + 7 else c.day dayFinalDate))
      else if c.weekday < dayFilter then
        (some (c.day dayFilter - 14), some (c.day dayFinalDate - 7))
      else (some (c.day dayFilter - 7), some (c.day dayFinalDate))

/-! ## Weeks -/

/-- The day a week begins with that has today in it. -/
structure Begins (c : Clock) (k : Fin 7) (start : Int) : Prop where
  weekday : (start + 4) % 7 = k.val
  le : start ≤ c.today
  lt : c.today < start + 7

/-- The seven days that begin with the week day and have today in them. -/
def CurrentWeek (c : Clock) (k : Fin 7) (window : Option Int × Option Int) : Prop :=
  ∃ start, Begins c k start ∧ window = (some start, some (start + 6))

/-- The seven days before them. -/
def LastWeek (c : Clock) (k : Fin 7) (window : Option Int × Option Int) : Prop :=
  ∃ start, Begins c k start ∧ window = (some (start - 7), some (start - 1))

/-- A way to compute the windows, by the word and the first day, computes these. -/
structure Weekly (c : Clock) (k : Fin 7) (window : String → Option Int × Option Int) : Prop where
  current : CurrentWeek c k (window "current_week")
  last : LastWeek c k (window "last_week")

/-- All three copies compute them, and the same for the same week day. -/
structure WeekWindows (c : Clock) (k : Fin 7) : Prop where
  segment : Weekly c k fun t => processSegmentBetweenDate c (weekText t k).toList
  automation : ∀ day : Val, day.parseInt = some (k.val : Int) →
    Weekly c k fun t => processAutomationBetweenDate c (t.toList, day)
  conditional : Weekly c k fun t => processConditionalBetweenDate c t.toList k.val
  segment_eq : ∀ result,
    processSegmentBetweenDate c result = processAutomationBetweenDate c (commaParts result)
  automation_eq : ∀ t (day : Val) n, day.parseInt = some n →
    processAutomationBetweenDate c (t, day) = processConditionalBetweenDate c t n

/-! ## The copies -/

theorem processSegmentBetweenDate_eq (c : Clock) (result : List Char) :
    processSegmentBetweenDate c result = processAutomationBetweenDate c (commaParts result) := rfl

theorem processAutomationBetweenDate_eq (c : Clock) (t : List Char) {day : Val} {n : Int}
    (h : day.parseInt = some n) :
    processAutomationBetweenDate c (t, day) = processConditionalBetweenDate c t n := by
  rw [processAutomationBetweenDate]
  simp only [h]
  rfl

/-- What each copy computes. -/
theorem processConditionalBetweenDate_week {t : String} (ht : t ∈ ["current_week", "last_week"])
    (k : Fin 7) : processConditionalBetweenDate c t.toList k.val =
      (some (weekWindow c (.str t) k.val).1,
        some ((weekWindow c (.str t) k.val).2 + if k = 0 then 7 else 0)) := by
  obtain ⟨-, -, hword, hday⟩ := regexBetween_week t ht k
  have hcopy : processSegmentBetweenDate c (weekText t k).toList =
      processConditionalBetweenDate c t.toList k.val := by
    rw [processSegmentBetweenDate_eq, ← hword]
    exact processAutomationBetweenDate_eq c _ hday
  rw [← hcopy]
  exact processSegmentBetweenDate_week ht k

/-! ## The windows -/

theorem begins_iff {start : Int} : Begins c k start ↔ start = c.weekStart k.val := by
  have hlt := k.isLt
  constructor
  · rintro ⟨hweekday, hle, hlt'⟩
    rw [Clock.weekStart, Clock.weekday]
    omega
  · rintro rfl
    refine ⟨?_, ?_, ?_⟩ <;>
    · rw [Clock.weekStart, Clock.weekday]
      omega

theorem currentWeek_iff {extra : Int} :
    CurrentWeek c k (some (weekWindow c (.str "current_week") k.val).1,
      some ((weekWindow c (.str "current_week") k.val).2 + extra)) ↔ extra = 0 := by
  have hwindow : weekWindow c (.str "current_week") k.val =
      (c.weekStart k.val, c.weekStart k.val + 6) := rfl
  rw [hwindow]
  constructor
  · rintro ⟨start, hbegins, hwindow⟩
    rw [begins_iff] at hbegins
    subst hbegins
    have hend := Option.some.inj (Prod.mk.inj hwindow).2
    simp only at hend
    omega
  · rintro rfl
    exact ⟨_, begins_iff.mpr rfl, by rw [Int.add_zero]⟩

theorem lastWeek_iff {extra : Int} :
    LastWeek c k (some (weekWindow c (.str "last_week") k.val).1,
      some ((weekWindow c (.str "last_week") k.val).2 + extra)) ↔ extra = 0 := by
  have hother : ¬ Val.str "last_week" = Val.str "current_week" := by decide
  rw [weekWindow, if_neg hother]
  constructor
  · rintro ⟨start, hbegins, hwindow⟩
    rw [begins_iff] at hbegins
    subst hbegins
    have hend := Option.some.inj (Prod.mk.inj hwindow).2
    simp only at hend
    omega
  · rintro rfl
    exact ⟨_, begins_iff.mpr rfl, by rw [Int.add_zero]⟩

theorem weekly_iff : Weekly c k (fun t => processConditionalBetweenDate c t.toList k.val) ↔
    k ≠ 0 := by
  have hextra : (if k = 0 then (7 : Int) else 0) = 0 ↔ k ≠ 0 := by
    by_cases hsunday : k = 0 <;> simp [hsunday]
  have hcurrent := processConditionalBetweenDate_week (c := c) (t := "current_week") (by simp) k
  have hlast := processConditionalBetweenDate_week (c := c) (t := "last_week") (by simp) k
  constructor
  · intro h
    have hweek := h.current
    rw [hcurrent] at hweek
    exact hextra.mp (currentWeek_iff.mp hweek)
  · intro h
    refine ⟨?_, ?_⟩
    · rw [hcurrent]
      exact currentWeek_iff.mpr (hextra.mpr h)
    · rw [hlast]
      exact lastWeek_iff.mpr (hextra.mpr h)

/-- The windows are the weeks iff these do not begin with Sunday. -/
theorem weekWindows_iff (c : Clock) (k : Fin 7) : WeekWindows c k ↔ k ≠ 0 := by
  constructor
  · intro h
    exact weekly_iff.mp h.conditional
  · intro h
    have hconditional : Weekly c k fun t => processConditionalBetweenDate c t.toList k.val :=
      weekly_iff.mpr h
    refine ⟨⟨?_, ?_⟩, fun day hday => ⟨?_, ?_⟩, hconditional, processSegmentBetweenDate_eq c,
      fun t day n hn => processAutomationBetweenDate_eq c t hn⟩
    · rw [processSegmentBetweenDate_week (by simp) k,
        ← processConditionalBetweenDate_week (by simp) k]
      exact hconditional.current
    · rw [processSegmentBetweenDate_week (by simp) k,
        ← processConditionalBetweenDate_week (by simp) k]
      exact hconditional.last
    · rw [processAutomationBetweenDate_eq c _ hday]
      exact hconditional.current
    · rw [processAutomationBetweenDate_eq c _ hday]
      exact hconditional.last

/-- On Wednesday, 13 March 2024, the current week from Sunday on is fourteen days long. -/
theorem not_weekWindows_sunday : ¬ WeekWindows march2024 0 := by
  intro h
  obtain ⟨start, -, hwindow⟩ := h.conditional.current
  have hdays : processConditionalBetweenDate march2024 "current_week".toList (0 : Fin 7).val =
      (some 19792, some 19805) := by decide
  rw [hdays] at hwindow
  obtain ⟨hstart, hend⟩ := Prod.mk.inj hwindow
  have h1 := Option.some.inj hstart
  have h2 := Option.some.inj hend
  omega

end OpenBms.TagProcess
