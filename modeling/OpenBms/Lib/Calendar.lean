/-
# `OpenBms.Lib.Calendar` — dates of the civil calendar and their arithmetic

A date carries its day of the week and its time of day in milliseconds.  Days are
added one by one, and months by the days they have: a day of the month that the
month reached does not have overflows into the next one.

**Proved here.**

    adding days keeps the time of day (`addDays_time`)
    and moves the day of the week by as many (`addDays_weekday`)
    adding months keeps the day of the month up to the 28th (`addMonths_eq`)
-/
import Mathlib

namespace Calendar

/-- Months count from 1, days of the week from Sunday. -/
structure Date where
  year : Int
  month : Nat
  day : Nat
  weekday : Nat
  time : Nat
  deriving DecidableEq

def isLeap (year : Int) : Bool :=
  year % 4 == 0 && (year % 100 != 0 || year % 400 == 0)

def daysInMonth (year : Int) : Nat → Nat
  | 2 => if isLeap year then 29 else 28
  | 4 | 6 | 9 | 11 => 30
  | _ => 31

/-- The month after a month. -/
def nextMonth (year : Int) (month : Nat) : Int × Nat :=
  if month < 12 then (year, month + 1) else (year + 1, 1)

namespace Date

/-- A month from 1 to 12 and a day it has. -/
structure Valid (d : Date) : Prop where
  month : 1 ≤ d.month ∧ d.month ≤ 12
  day : 1 ≤ d.day ∧ d.day ≤ daysInMonth d.year d.month

def nextDay (d : Date) : Date :=
  if d.day < daysInMonth d.year d.month then
    { d with day := d.day + 1, weekday := (d.weekday + 1) % 7 }
  else
    { d with
      year := (nextMonth d.year d.month).1
      month := (nextMonth d.year d.month).2
      day := 1
      weekday := (d.weekday + 1) % 7 }

/-- `setDate(getDate() + n)`. -/
def addDays : Nat → Date → Date
  | 0, d => d
  | n + 1, d => addDays n d.nextDay

end Date

/-- The days of so many months from a month on. -/
def daysInMonths (year : Int) (month : Nat) : Nat → Nat
  | 0 => 0
  | n + 1 =>
      daysInMonth year month + daysInMonths (nextMonth year month).1 (nextMonth year month).2 n

/-- The month so many months later. -/
def monthAfter (year : Int) (month : Nat) : Nat → Int × Nat
  | 0 => (year, month)
  | n + 1 => monthAfter (nextMonth year month).1 (nextMonth year month).2 n

namespace Date

/-- `setMonth(getMonth() + n)`. -/
def addMonths (n : Nat) (d : Date) : Date :=
  addDays (daysInMonths d.year d.month n) d

section
variable {d : Date} {m n : Nat}

theorem addDays_add : ∀ (m n : Nat) (d : Date), addDays (m + n) d = addDays n (addDays m d)
  | 0, n, d => by rw [Nat.zero_add]; rfl
  | m + 1, n, d => by
      rw [Nat.add_right_comm]
      exact addDays_add m n d.nextDay

theorem nextDay_time (d : Date) : d.nextDay.time = d.time := by
  simp only [nextDay]
  split <;> rfl

theorem nextDay_weekday (d : Date) : d.nextDay.weekday = (d.weekday + 1) % 7 := by
  simp only [nextDay]
  split <;> rfl

theorem addDays_time (n : Nat) (d : Date) : (addDays n d).time = d.time := by
  induction n generalizing d with
  | zero => rfl
  | succ n ih => exact (ih d.nextDay).trans (nextDay_time d)

theorem addDays_weekday (n : Nat) {d : Date} (hd : d.weekday < 7) :
    (addDays n d).weekday = (d.weekday + n) % 7 := by
  induction n generalizing d with
  | zero => exact (Nat.mod_eq_of_lt hd).symm
  | succ n ih =>
      have hnext := nextDay_weekday d
      have hlt : d.nextDay.weekday < 7 := by
        rw [hnext]
        exact Nat.mod_lt _ (by decide)
      show (addDays n d.nextDay).weekday = _
      rw [ih hlt, hnext]
      omega

end

end Date

theorem daysInMonth_pos (year : Int) (month : Nat) : 28 ≤ daysInMonth year month := by
  unfold daysInMonth
  split
  · split <;> omega
  all_goals omega

theorem daysInMonths_add (year : Int) (month a b : Nat) :
    daysInMonths year month (a + b) = daysInMonths year month a +
      daysInMonths (monthAfter year month a).1 (monthAfter year month a).2 b := by
  induction a generalizing year month with
  | zero =>
      rw [Nat.zero_add]
      exact (Nat.zero_add _).symm
  | succ a ih =>
      rw [Nat.add_right_comm]
      simp only [daysInMonths, monthAfter, ih, Nat.add_assoc]

theorem daysInMonths_strictMono (year : Int) (month : Nat) :
    StrictMono (daysInMonths year month) := by
  refine strictMono_nat_of_lt_succ fun n => ?_
  rw [daysInMonths_add year month n 1]
  have h := daysInMonth_pos (monthAfter year month n).1 (monthAfter year month n).2
  simp only [daysInMonths]
  omega

namespace Date

theorem addDays_within {d : Date} {n : Nat} (h : d.day + n ≤ daysInMonth d.year d.month) :
    (addDays n d).year = d.year ∧ (addDays n d).month = d.month ∧
      (addDays n d).day = d.day + n := by
  induction n generalizing d with
  | zero => exact ⟨rfl, rfl, rfl⟩
  | succ n ih =>
      have hnext : d.nextDay =
          { d with day := d.day + 1, weekday := (d.weekday + 1) % 7 } := if_pos (by omega)
      show (addDays n d.nextDay).year = _ ∧ (addDays n d.nextDay).month = _ ∧
        (addDays n d.nextDay).day = _
      rw [hnext]
      have hrest := ih (d := { d with day := d.day + 1, weekday := (d.weekday + 1) % 7 })
        (by show d.day + 1 + n ≤ daysInMonth d.year d.month; omega)
      exact ⟨hrest.1, hrest.2.1, hrest.2.2.trans (by show d.day + 1 + n = _; omega)⟩

theorem addDays_month {d : Date} (hd : 1 ≤ d.day) (hle : d.day ≤ 28) :
    (addDays (daysInMonth d.year d.month) d).year = (nextMonth d.year d.month).1 ∧
      (addDays (daysInMonth d.year d.month) d).month = (nextMonth d.year d.month).2 ∧
      (addDays (daysInMonth d.year d.month) d).day = d.day := by
  have hpos := daysInMonth_pos d.year d.month
  -- to the last day of the month, to the first of the next, and on to the day
  obtain ⟨hyear, hmonth, hday⟩ := addDays_within (d := d)
    (n := daysInMonth d.year d.month - d.day) (by omega)
  generalize hlast : addDays (daysInMonth d.year d.month - d.day) d = last at hyear hmonth hday
  have hfirst : last.nextDay = { last with
      year := (nextMonth d.year d.month).1
      month := (nextMonth d.year d.month).2
      day := 1
      weekday := (last.weekday + 1) % 7 } := by
    simp only [nextDay, hyear, hmonth]
    exact if_neg (by omega)
  have hsplit : addDays (daysInMonth d.year d.month) d =
      addDays (d.day - 1) last.nextDay := by
    rw [← hlast]
    have htotal : daysInMonth d.year d.month =
        daysInMonth d.year d.month - d.day + (1 + (d.day - 1)) := by omega
    rw [htotal, addDays_add, addDays_add, ← htotal]
    rfl
  have hnext := daysInMonth_pos (nextMonth d.year d.month).1 (nextMonth d.year d.month).2
  rw [hsplit, hfirst]
  obtain ⟨hyear', hmonth', hday'⟩ := addDays_within (n := d.day - 1) (d := { last with
      year := (nextMonth d.year d.month).1
      month := (nextMonth d.year d.month).2
      day := 1
      weekday := (last.weekday + 1) % 7 })
    (by
      show 1 + (d.day - 1) ≤ daysInMonth (nextMonth d.year d.month).1 (nextMonth d.year d.month).2
      omega)
  exact ⟨hyear', hmonth', hday'.trans (by show 1 + (d.day - 1) = d.day; omega)⟩

theorem addMonths_eq {d : Date} (hd : 1 ≤ d.day) (hle : d.day ≤ 28) (n : Nat) :
    (addMonths n d).year = (monthAfter d.year d.month n).1 ∧
      (addMonths n d).month = (monthAfter d.year d.month n).2 ∧
      (addMonths n d).day = d.day := by
  induction n generalizing d with
  | zero => exact ⟨rfl, rfl, rfl⟩
  | succ n ih =>
      obtain ⟨hyear, hmonth, hday⟩ := addDays_month hd hle
      have hrest := ih (d := addDays (daysInMonth d.year d.month) d) (by omega) (by omega)
      have hsplit : addMonths (n + 1) d =
          addMonths n (addDays (daysInMonth d.year d.month) d) := by
        simp only [addMonths, daysInMonths, addDays_add, hyear, hmonth]
      rw [hsplit]
      rw [hyear, hmonth, hday] at hrest
      exact hrest

/-- The instant 0, a Thursday. -/
def epoch : Date := ⟨1970, 1, 1, 4, 0⟩

/-- `d.getTime() <= e.getTime()`. -/
def le (d e : Date) : Bool :=
  d.year < e.year || (d.year == e.year && (d.month < e.month || (d.month == e.month &&
    (d.day < e.day || (d.day == e.day && d.time ≤ e.time)))))

theorem le_total (d e : Date) : d.le e = true ∨ e.le d = true := by
  simp only [le, Bool.or_eq_true, Bool.and_eq_true, decide_eq_true_eq, beq_iff_eq]
  omega

theorem le_refl (d : Date) : d.le d = true := (le_total d d).elim id id

/-- A later day is later, whatever the times of day. -/
theorem nextDay_not_le (d : Date) (time : Nat) : { d.nextDay with time := time }.le d = false := by
  refine Bool.eq_false_iff.mpr fun h => ?_
  simp only [le, Bool.or_eq_true, Bool.and_eq_true, decide_eq_true_eq, beq_iff_eq] at h
  simp only [nextDay, nextMonth] at h
  split at h
  · simp only at h
    omega
  · split at h <;> simp only at h <;> omega

theorem le_trans {c d e : Date} (h : c.le d = true) (h' : d.le e = true) : c.le e = true := by
  simp only [le, Bool.or_eq_true, Bool.and_eq_true, decide_eq_true_eq, beq_iff_eq] at *
  omega

theorem addDays_withTime (n : Nat) (d : Date) (time : Nat) :
    addDays n { d with time := time } = { addDays n d with time := time } := by
  induction n generalizing d with
  | zero => rfl
  | succ n ih =>
      have hnext : ({ d with time := time } : Date).nextDay = { d.nextDay with time := time } := by
        simp only [nextDay]
        split <;> rfl
      show addDays n ({ d with time := time } : Date).nextDay = _
      rw [hnext]
      exact ih d.nextDay

theorem addDays_not_le {n : Nat} (hn : 0 < n) (d : Date) (time : Nat) :
    { addDays n d with time := time }.le d = false := by
  induction n generalizing d with
  | zero => exact absurd hn (Nat.lt_irrefl 0)
  | succ n ih =>
      rcases Nat.eq_zero_or_pos n with rfl | hpos
      · exact nextDay_not_le d time
      · refine Bool.eq_false_iff.mpr fun h => ?_
        have hnext : d.le d.nextDay = true :=
          (le_total d d.nextDay).resolve_right fun hle =>
            Bool.eq_false_iff.mp (nextDay_not_le d d.nextDay.time) hle
        exact Bool.eq_false_iff.mp (ih hpos d.nextDay) (le_trans h hnext)

theorem le_addDays (n : Nat) (d : Date) : d.le (addDays n d) = true := by
  rcases Nat.eq_zero_or_pos n with rfl | hpos
  · exact le_refl d
  · exact (le_total d (addDays n d)).resolve_right fun hle =>
      Bool.eq_false_iff.mp (addDays_not_le hpos d (addDays n d).time) hle

theorem exists_next_year (d : Date) : ∃ n, d.year + 1 ≤ (addDays n d).year := by
  induction hm : (12 - d.month) * 32 + (31 - d.day) using Nat.strong_induction_on
    generalizing d with
  | _ m ih =>
      have hlen : daysInMonth d.year d.month ≤ 31 := by
        unfold daysInMonth
        split
        · split <;> omega
        all_goals omega
      by_cases hday : d.day < daysInMonth d.year d.month
      · have hnext : d.nextDay = { d with day := d.day + 1, weekday := (d.weekday + 1) % 7 } :=
          if_pos hday
        obtain ⟨n, hn⟩ := ih _ (by rw [hnext, ← hm]; dsimp only; omega) d.nextDay rfl
        refine ⟨n + 1, le_of_eq_of_le ?_ hn⟩
        rw [hnext]
      · by_cases hmonth : d.month < 12
        · have hnext : d.nextDay =
              { d with month := d.month + 1, day := 1, weekday := (d.weekday + 1) % 7 } := by
            rw [nextDay, if_neg hday, nextMonth, if_pos hmonth]
          obtain ⟨n, hn⟩ := ih _ (by rw [hnext, ← hm]; dsimp only; omega) d.nextDay rfl
          refine ⟨n + 1, le_of_eq_of_le ?_ hn⟩
          rw [hnext]
        · refine ⟨1, le_of_eq ?_⟩
          show _ = d.nextDay.year
          rw [nextDay, if_neg hday, nextMonth, if_neg hmonth]

theorem exists_year (d : Date) (year : Int) : ∃ n, year ≤ (addDays n d).year := by
  have hsteps : ∀ k : Nat, ∃ n, d.year + k ≤ (addDays n d).year := by
    intro k
    induction k with
    | zero => exact ⟨0, le_of_eq (Int.add_zero d.year)⟩
    | succ k ih =>
        obtain ⟨n, hn⟩ := ih
        obtain ⟨m, hm⟩ := exists_next_year (addDays n d)
        refine ⟨n + m, ?_⟩
        rw [addDays_add]
        push_cast
        omega
  obtain ⟨n, hn⟩ := hsteps (year - d.year).toNat
  exact ⟨n, by omega⟩

theorem exists_le_addDays (d e : Date) : ∃ n, ∀ o, n ≤ o → e.le (addDays o d) = true := by
  obtain ⟨n, hn⟩ := exists_year d (e.year + 1)
  refine ⟨n, fun o ho => le_trans (d := addDays n d) ?_ ?_⟩
  · have hlt : e.year < (addDays n d).year := by omega
    simp only [le, hlt, decide_true, Bool.true_or]
  · rw [← Nat.add_sub_cancel' ho, addDays_add]
    exact le_addDays (o - n) (addDays n d)

end Date

end Calendar
