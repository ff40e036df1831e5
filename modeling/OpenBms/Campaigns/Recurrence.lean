/-
# `OpenBms.Campaigns.Recurrence` — the sends of a recurring campaign

Each completion of a run schedules the next one, on the date after the one of the row.
On the account's clock, the sends of the series are meant to be its occurrences, one
after the other.

| frequency | days after the start |
| :-- | :-- |
| daily | the multiples of the interval |
| weekly | the days of the week listed, in every week that is a multiple of the interval |
| monthly | as many months, on the same day of the month or the last one it has |

**Proved here.**

    the loop finds the first listed day that is not over (`search_eq`)
    the date of the next run is the next occurrence (`newEventDate_next`)
    a completion sends on the next occurrence or ends the series (`Lawful.step`)
    the sends of a regular series are its occurrences (`recurrence_law`)
-/
import OpenBms.Lib.Runs
import OpenBms.Campaigns.Tracker

namespace OpenBms.Campaigns

open Calendar Calendar.Date

/-! ## Occurrences -/

/-- The days to the same day of the month so many months later, or to the last day of a
shorter one. -/
def monthOffset (start : Date) (months : Nat) : Nat :=
  daysInMonths start.year start.month months -
    (start.day - daysInMonth (monthAfter start.year start.month months).1
      (monthAfter start.year start.month months).2)

/-- A day, counted from the start, on which the series has a send. -/
def Occurs (s : RecurrenceSettings) (start : Date) (o : Nat) : Prop :=
  match s.frequency with
  | .daily => s.interval ∣ o
  | .weekly =>
      o = 0 ∨ (start.weekday + o) % 7 ∈ s.weekDays ∧ s.interval ∣ (start.weekday + o) / 7
  | .monthly => ∃ k, o = monthOffset start (k * s.interval)

/-- The sends so far are the first occurrences on the account's clock; the last one is so
many days after the start. -/
inductive Series (z : Zone) (s : RecurrenceSettings) (start : Date) : List Date → Nat → Prop
  | start : Series z s start [start] 0
  | next {ds : List Date} {d : Date} {o o' : Nat} (h : Series z s start ds o)
      (hleast : IsLeast {p | o < p ∧ Occurs s (z.toLocal start) p} o')
      (hd : z.toLocal d = addDays o' (z.toLocal start)) : Series z s start (ds ++ [d]) o'

/-- An interval, days of the week for a weekly series, and at most one way to end. -/
structure RecurrenceSettings.Valid (s : RecurrenceSettings) : Prop where
  interval : 1 ≤ s.interval
  weekDays : s.frequency = .weekly → s.weekDays ≠ [] ∧ ∀ d ∈ s.weekDays, d < 7
  oneEnd : s.untilDate = none ∨ s.untilSend = none
  untilSend : s.untilSend ≠ some 0

/-! ## The search for a day of the week -/

section
variable {z : Zone} {ref now : Date} {interval fuel : Nat}

/-- A listed day of the week, in a week that the interval allows. -/
def ListedDay (weekday interval : Nat) (weekDays : List Nat) (o : Nat) : Prop :=
  (weekday + o) % 7 ∈ weekDays ∧ interval ∣ (weekday + o) / 7

theorem find?_least {ds : List Nat} (hsorted : ds.Pairwise (· ≤ ·)) {day d : Nat}
    (hfind : ds.find? (day < ·) = some d) {e : Nat} (he : e ∈ ds) (hlt : day < e) : d ≤ e := by
  obtain ⟨_, as, bs, rfl, has⟩ := List.find?_eq_some_iff_append.mp hfind
  rcases List.mem_append.mp he with hmem | hmem
  · have hnot := has e hmem
    simp only [Bool.not_eq_true', decide_eq_false_iff_not] at hnot
    exact absurd hlt hnot
  · rcases List.mem_cons.mp hmem with rfl | hmem
    · exact le_refl _
    · exact (List.pairwise_cons.mp (List.pairwise_append.mp hsorted).2.1).1 e hmem

theorem weekStart_le {weekday : Nat} {ds : List Nat} {o next : Nat}
    (hweek : ¬ (weekday + o) / 7 % interval = 0) (hnext : ListedDay weekday interval ds next)
    (ho : o ≤ next) : ((weekday + o) / 7 + 1) * 7 - weekday ≤ next := by
  by_contra hlt
  have hsame : (weekday + next) / 7 = (weekday + o) / 7 := by omega
  exact hweek (Nat.mod_eq_zero_of_dvd (hsame ▸ hnext.2))

theorem weekDay_le {weekday : Nat} {ds : List Nat} {o next d : Nat} (hsorted : ds.Pairwise (· ≤ ·))
    (hds : ∀ d ∈ ds, d < 7) (hfind : ds.find? ((weekday + o) % 7 < ·) = some d)
    (hnext : ListedDay weekday interval ds next) (ho : o < next) :
    o + (d - (weekday + o) % 7) ≤ next := by
  have hd : (weekday + o) % 7 < d := by simpa using List.find?_some hfind
  have hd7 : d < 7 := hds d (List.mem_of_find?_eq_some hfind)
  by_contra hlt
  have hday : (weekday + next) % 7 = (weekday + o) % 7 + (next - o) := by omega
  have hle := find?_least hsorted hfind hnext.1 (by omega)
  omega

theorem firstDay_le {weekday : Nat} {ds : List Nat} {o next d : Nat}
    (hsorted : (d :: ds).Pairwise (· ≤ ·)) (hds : ∀ d' ∈ d :: ds, d' < 7)
    (hfind : (d :: ds).find? ((weekday + o) % 7 < ·) = none)
    (hnext : ListedDay weekday interval (d :: ds) next) (ho : o < next) :
    o + (7 - (weekday + o) % 7 + d) ≤ next := by
  have hall : ∀ e ∈ d :: ds, e ≤ (weekday + o) % 7 := by
    intro e he
    have hnot := List.find?_eq_none.mp hfind e he
    simpa using hnot
  have hle := hall _ hnext.1
  have hlt7 := hds _ hnext.1
  have hhead : d ≤ (weekday + next) % 7 := by
    rcases List.mem_cons.mp hnext.1 with heq | hmem
    · exact heq.ge
    · exact (List.pairwise_cons.mp hsorted).1 _ hmem
  by_contra hlt
  omega

/-- The loop finds the first listed day that is not over yet. -/
theorem search_eq {ds : List Nat} (hsorted : ds.Pairwise (· ≤ ·)) (hds : ∀ d ∈ ds, d < 7)
    {next : Nat} (hnext : ListedDay ref.weekday interval ds next)
    (hnow : now.le (z.toUtc (addDays next ref)) = true) :
    ∀ {fuel o : Nat}, o ≤ next →
      (∀ p, o ≤ p → p < next → ListedDay ref.weekday interval ds p →
        ¬ now.le (z.toUtc (addDays p ref)) = true) →
      next < fuel + o → search z ref ds interval now fuel o = some next := by
  intro fuel
  induction fuel with
  | zero =>
      intro o ho _ hfuel
      omega
  | succ fuel ih =>
      intro o ho hnone hfuel
      have hrest : ∀ o', o < o' → o' ≤ next → search z ref ds interval now fuel o' = some next :=
        fun o' hlt hle => ih hle (fun p hp hpn => hnone p (by omega) hpn) (by omega)
      simp only [search]
      by_cases hlisted : ds.contains ((ref.weekday + o) % 7) = true ∧
          now.le (z.toUtc (addDays o ref)) = true
      · rw [if_pos hlisted]
        have hmem : (ref.weekday + o) % 7 ∈ ds := List.contains_iff_mem.mp hlisted.1
        by_cases hweek : (ref.weekday + o) / 7 % interval = 0
        · rw [if_pos hweek]
          have heq : o = next := by
            by_contra hne
            exact hnone o (le_refl o) (by omega) ⟨hmem, Nat.dvd_of_mod_eq_zero hweek⟩ hlisted.2
          rw [heq]
        · -- a week that the interval leaves out
          rw [if_neg hweek]
          have hne : o ≠ next := by
            rintro rfl
            exact hweek (Nat.mod_eq_zero_of_dvd hnext.2)
          exact hrest _ (by omega) (weekStart_le hweek hnext ho)
      · rw [if_neg hlisted]
        have hne : o ≠ next := by
          rintro rfl
          exact hlisted ⟨List.contains_iff_mem.mpr hnext.1, hnow⟩
        have hlt : o < next := Nat.lt_of_le_of_ne ho hne
        have hlt7 : (ref.weekday + o) % 7 < 7 := Nat.mod_lt _ (by decide)
        cases hfind : ds.find? ((ref.weekday + o) % 7 < ·) with
        | some d =>
            have hd : (ref.weekday + o) % 7 < d := by simpa using List.find?_some hfind
            exact hrest _ (by omega) (weekDay_le hsorted hds hfind hnext hlt)
        | none =>
            cases ds with
            | nil => cases hnext.1
            | cons d ds => exact hrest _ (by omega) (firstDay_le hsorted hds hfind hnext hlt)

theorem exists_listedDay {weekday : Nat} {ds : List Nat} (hw : weekday < 7) (hi : 1 ≤ interval)
    (hne : ds ≠ []) (hds : ∀ d ∈ ds, d < 7) :
    ∃ next, IsLeast {o | 0 < o ∧ ListedDay weekday interval ds o} next ∧
      next ≤ 7 * interval + 6 := by
  obtain ⟨d, hd⟩ := List.exists_mem_of_ne_nil ds hne
  have hd7 := hds d hd
  have hsome : 0 < 7 * interval + d - weekday ∧
      ListedDay weekday interval ds (7 * interval + d - weekday) := by
    have hsum : weekday + (7 * interval + d - weekday) = 7 * interval + d := by omega
    refine ⟨by omega, ?_, ?_⟩
    · rw [hsum]
      have hmod : (7 * interval + d) % 7 = d := by omega
      rw [hmod]
      exact hd
    · rw [hsum]
      have hdiv : (7 * interval + d) / 7 = interval := by omega
      rw [hdiv]
  classical
  have hex : ∃ o, 0 < o ∧ ListedDay weekday interval ds o := ⟨_, hsome⟩
  refine ⟨Nat.find hex, ⟨Nat.find_spec hex, fun o ho => Nat.find_min' hex ho⟩, ?_⟩
  exact (Nat.find_min' hex hsome).trans (by omega)

end

/-! ## The next date -/

/-- Where nothing shifts the date that is computed. The dates of a daily and a monthly
series are on the server's clock: the account's keeps its distance to it until the next
one, and shows the same month. A weekly series starts on a full minute, and the account's
clock shows the next date, which is not over yet. No until date is passed. -/
structure Regular (z : Zone) (fuel : Nat) (s : State) (d : Delivery) : Prop where
  daily : s.row.recurrenceSettings.frequency = .daily → ∀ last, s.row.scheduleTo = some last →
    z.toLocal (addDays s.row.recurrenceSettings.interval last) =
      addDays s.row.recurrenceSettings.interval (z.toLocal last)
  weekly : s.row.recurrenceSettings.frequency = .weekly → ∀ last, s.row.scheduleTo = some last →
    (z.toLocal last).time % 60000 = 0 ∧
      ∀ o, IsLeast {o | 0 < o ∧ ListedDay (z.toLocal last).weekday
          s.row.recurrenceSettings.interval s.row.recurrenceSettings.weekDays o} o →
        z.toLocal (z.toUtc (addDays o (z.toLocal last))) = addDays o (z.toLocal last) ∧
          d.1.le (z.toUtc (addDays o (z.toLocal last))) = true
  monthly : s.row.recurrenceSettings.frequency = .monthly → ∀ last, s.row.scheduleTo = some last →
    (z.toLocal last).year = last.year ∧ (z.toLocal last).month = last.month ∧
      z.toLocal (addMonths s.row.recurrenceSettings.interval last) =
        addDays (daysInMonths last.year last.month s.row.recurrenceSettings.interval)
          (z.toLocal last)
  untilDate : ∀ u last next, s.row.recurrenceSettings.untilDate = some u →
    s.row.scheduleTo = some last →
    newEventDate z fuel s.row.recurrenceSettings last d.1 = some next → next.le u = true

/-- The start of a series on the account's clock: a day of the week, and for a monthly
series a day that every month has. -/
structure RegularStart (s : RecurrenceSettings) (start : Date) : Prop where
  weekday : start.weekday < 7
  day : s.frequency = .monthly → 1 ≤ start.day ∧ start.day ≤ 28

section
variable {z : Zone} {fuel : Nat} {s s' : State} {d : Delivery} {set : RecurrenceSettings}
  {start last now : Date} {o : Nat}

theorem monthOffset_eq (hday : start.day ≤ 28) (n : Nat) :
    monthOffset start n = daysInMonths start.year start.month n := by
  have h := daysInMonth_pos (monthAfter start.year start.month n).1
    (monthAfter start.year start.month n).2
  simp only [monthOffset]
  omega

theorem Series.occurs {ds : List Date} (h : Series z set start ds o) :
    Occurs set (z.toLocal start) o := by
  cases h with
  | start =>
      simp only [Occurs]
      split
      · exact dvd_zero _
      · exact .inl trivial
      · exact ⟨0, by simp only [monthOffset, Nat.zero_mul, daysInMonths, Nat.zero_sub]⟩
  | next _ hleast _ => exact hleast.1.2

theorem Series.getLast {ds : List Date} (h : Series z set start ds o) :
    ∃ last, ds.getLast? = some last ∧ z.toLocal last = addDays o (z.toLocal start) := by
  cases h with
  | start => exact ⟨start, rfl, rfl⟩
  | next _ _ hd => exact ⟨_, List.getLast?_concat .., hd⟩

/-- Every send is at the same time of day. -/
theorem Series.time {ds : List Date} (h : Series z set start ds o) :
    ∀ d ∈ ds, (z.toLocal d).time = (z.toLocal start).time := by
  induction h with
  | start =>
      intro d hd
      rw [List.mem_singleton.mp hd]
  | next _ _ hnext ih =>
      intro d hd
      rcases List.mem_append.mp hd with hd | hd
      · exact ih d hd
      · rw [List.mem_singleton.mp hd, hnext, addDays_time]

/-- The next multiple of the interval. -/
theorem isLeast_daily {interval : Nat} (hi : 1 ≤ interval) (ho : interval ∣ o) :
    IsLeast {p | o < p ∧ interval ∣ p} (o + interval) := by
  refine ⟨⟨by omega, (Nat.dvd_add_right ho).mpr (dvd_refl _)⟩, ?_⟩
  rintro p ⟨hlt, hp⟩
  have hle := Nat.le_of_dvd (by omega) ((Nat.dvd_sub hp ho))
  omega

theorem isLeast_monthly {interval k : Nat} (hi : 1 ≤ interval) (year : Int) (month : Nat) :
    IsLeast {p | daysInMonths year month (k * interval) < p ∧
        ∃ k, p = daysInMonths year month (k * interval)}
      (daysInMonths year month ((k + 1) * interval)) := by
  have hmono := daysInMonths_strictMono year month
  refine ⟨⟨hmono ?_, k + 1, rfl⟩, ?_⟩
  · rw [Nat.succ_mul]
    omega
  · rintro p ⟨hlt, j, rfl⟩
    have hkj : k * interval < j * interval := hmono.lt_iff_lt.mp hlt
    have hj : k + 1 ≤ j := Nat.lt_of_mul_lt_mul_right hkj
    exact hmono.monotone (Nat.mul_le_mul_right interval hj)

theorem isLeast_weekly {interval next : Nat} {weekDays : List Nat} {w : Nat}
    (hweek : interval ∣ (w + o) / 7)
    (h : IsLeast {q | 0 < q ∧ ListedDay ((w + o) % 7) interval weekDays q} next) :
    IsLeast {p | o < p ∧ (p = 0 ∨ (w + p) % 7 ∈ weekDays ∧ interval ∣ (w + p) / 7)}
      (o + next) := by
  have hiff : ∀ q, ListedDay ((w + o) % 7) interval weekDays q ↔
      (w + (o + q)) % 7 ∈ weekDays ∧ interval ∣ (w + (o + q)) / 7 := by
    intro q
    have hmod : ((w + o) % 7 + q) % 7 = (w + (o + q)) % 7 := by omega
    have hdiv : (w + (o + q)) / 7 = (w + o) / 7 + ((w + o) % 7 + q) / 7 := by omega
    rw [ListedDay, hmod, hdiv, Nat.dvd_add_right hweek]
  obtain ⟨⟨hpos, hlisted⟩, hleast⟩ := h
  refine ⟨⟨by omega, .inr ((hiff next).mp hlisted)⟩, ?_⟩
  rintro p ⟨hlt, hzero | hp⟩
  · omega
  · have hsum : o + (p - o) = p := by omega
    have hq : next ≤ p - o := hleast ⟨by omega, (hiff (p - o)).mpr (hsum.symm ▸ hp)⟩
    omega

theorem nextOccurrence_next {weekDays : List Nat} {interval next : Nat}
    (hfuel : 7 * interval + 7 ≤ fuel) (hdays : ∀ d ∈ weekDays, d < 7)
    (htime : (z.toLocal last).time % 60000 = 0)
    (hnext : IsLeast {o | 0 < o ∧ ListedDay (z.toLocal last).weekday interval weekDays o} next)
    (hbound : next ≤ 7 * interval + 6)
    (hnow : now.le (z.toUtc (addDays next (z.toLocal last))) = true) :
    nextOccurrence z fuel last weekDays interval now =
      some (z.toUtc (addDays next (z.toLocal last))) := by
  have href : { z.toLocal last with time := (z.toLocal last).time / 60000 * 60000 } =
      z.toLocal last := by
    rw [Nat.div_mul_cancel (Nat.dvd_of_mod_eq_zero htime)]
  have hmem : ∀ d, d ∈ weekDays.insertionSort (· ≤ ·) ↔ d ∈ weekDays :=
    fun d => List.mem_insertionSort _
  have hlisted : ∀ o, ListedDay (z.toLocal last).weekday interval
      (weekDays.insertionSort (· ≤ ·)) o ↔
        ListedDay (z.toLocal last).weekday interval weekDays o := by
    intro o
    simp only [ListedDay, hmem]
  simp only [nextOccurrence, href]
  rw [search_eq (List.pairwise_insertionSort _ _) (fun d hd => hdays d ((hmem d).mp hd))
    ((hlisted next).mpr hnext.1.2) hnow hnext.1.1 ?_ (by omega)]
  · rfl
  · intro p hp hlt hvalid _
    have hle := hnext.2 ⟨hp, (hlisted p).mp hvalid⟩
    omega

theorem isLeast_listedDay {day : Date} (hf : set.frequency = .weekly) (hday : day.weekday < 7)
    (hoccurs : Occurs set day o) {next : Nat}
    (hleast : IsLeast {q | 0 < q ∧ ListedDay ((day.weekday + o) % 7) set.interval set.weekDays q}
      next) :
    IsLeast {p | o < p ∧ Occurs set day p} (o + next) := by
  have hweek : set.interval ∣ (day.weekday + o) / 7 := by
    simp only [Occurs, hf] at hoccurs
    rcases hoccurs with rfl | ⟨_, hweek⟩
    · have hzero : (day.weekday + 0) / 7 = 0 := Nat.div_eq_of_lt hday
      rw [hzero]
      exact dvd_zero _
    · exact hweek
  simpa only [Occurs, hf] using isLeast_weekly hweek hleast

theorem newEventDate_next {ds : List Date} {d : Delivery}
    (hvalid : set.Valid) (hstart : RegularStart set (z.toLocal start))
    (hfuel : 7 * set.interval + 7 ≤ fuel) (hseries : Series z set start ds o)
    (hlast : z.toLocal last = addDays o (z.toLocal start))
    (hscheduled : s.row.scheduleTo = some last) (hregular : Regular z fuel s d)
    (hfrequency : s.row.recurrenceSettings.frequency = set.frequency)
    (hinterval : s.row.recurrenceSettings.interval = set.interval)
    (hdays : ∀ w, w ∈ s.row.recurrenceSettings.weekDays ↔ w ∈ set.weekDays) :
    ∃ next o', newEventDate z fuel s.row.recurrenceSettings last d.1 = some next ∧
      IsLeast {p | o < p ∧ Occurs set (z.toLocal start) p} o' ∧
      z.toLocal next = addDays o' (z.toLocal start) := by
  have hoccurs := hseries.occurs
  have hinterval1 := hvalid.interval
  cases hf : set.frequency with
  | daily =>
      have hf' := hfrequency.trans hf
      refine ⟨addDays set.interval last, o + set.interval, ?_, ?_, ?_⟩
      · simp only [newEventDate, hf', hinterval]
      · simp only [Occurs, hf] at hoccurs ⊢
        exact isLeast_daily hinterval1 hoccurs
      · rw [← hinterval, hregular.daily hf' last hscheduled, hlast, ← addDays_add]
  | weekly =>
      have hf' := hfrequency.trans hf
      obtain ⟨htime, hnext⟩ := hregular.weekly hf' last hscheduled
      obtain ⟨hne, h7⟩ := hvalid.weekDays hf
      have hweekday : (z.toLocal last).weekday = ((z.toLocal start).weekday + o) % 7 := by
        rw [hlast, addDays_weekday o hstart.weekday]
      have hne' : s.row.recurrenceSettings.weekDays ≠ [] := by
        obtain ⟨w, hw⟩ := List.exists_mem_of_ne_nil _ hne
        exact List.ne_nil_of_mem ((hdays w).mpr hw)
      have h7' : ∀ w ∈ s.row.recurrenceSettings.weekDays, w < 7 :=
        fun w hw => h7 w ((hdays w).mp hw)
      have hlt7 : (z.toLocal last).weekday < 7 := by
        rw [hweekday]
        exact Nat.mod_lt _ (by decide)
      obtain ⟨next, hleast, hbound⟩ :=
        exists_listedDay hlt7 (hinterval ▸ hinterval1) hne' h7'
      obtain ⟨hlocal, hnow⟩ := hnext next hleast
      refine ⟨z.toUtc (addDays next (z.toLocal last)), o + next, ?_, ?_, ?_⟩
      · simp only [newEventDate, hf']
        exact nextOccurrence_next (hinterval.symm ▸ hfuel) h7' htime hleast hbound hnow
      · refine isLeast_listedDay hf hstart.weekday hoccurs ?_
        simpa only [ListedDay, hweekday, hinterval, hdays] using hleast
      · rw [hlocal, hlast, ← addDays_add]
  | monthly =>
      have hf' := hfrequency.trans hf
      obtain ⟨hyear, hmonth, hmonths⟩ := hregular.monthly hf' last hscheduled
      obtain ⟨hpos, h28⟩ := hstart.day hf
      simp only [Occurs, hf, monthOffset_eq h28] at hoccurs
      obtain ⟨k, rfl⟩ := hoccurs
      obtain ⟨hlyear, hlmonth, _⟩ := addMonths_eq hpos h28 (k * set.interval)
      have hlocal : z.toLocal last = addMonths (k * set.interval) (z.toLocal start) := hlast
      refine ⟨addMonths set.interval last,
        daysInMonths (z.toLocal start).year (z.toLocal start).month ((k + 1) * set.interval),
        ?_, ?_, ?_⟩
      · simp only [newEventDate, hf', hinterval]
      · simp only [Occurs, hf, monthOffset_eq h28]
        exact isLeast_monthly hinterval1 _ _
      · rw [← hinterval, hmonths, hlast, ← addDays_add, Nat.succ_mul, daysInMonths_add, hinterval,
          ← hyear, ← hmonth, hlocal, hlyear, hlmonth]

/-! ## The series -/

/-- A completion of a run of a series that has not ended. -/
def State.completeRun (z : Zone) (fuel : Nat) (s : State) (d : Delivery) : Option State :=
  if s.row.status ≠ .completed ∧ d.2.completes = true then some (s.handle z fuel d) else none

/-- The dates of the runs: the one of the row at first, and those of the jobs. -/
def State.sends (start : Date) (s : State) : List Date := start :: s.jobs.map (·.date)

/-- A recurring campaign before its first send. -/
structure Scheduled (s : State) (start : Date) : Prop where
  type : s.row.type = .recurring
  status : s.row.status ≠ .completed
  scheduleTo : s.row.scheduleTo = some start
  recurrenceCount : s.row.recurrenceCount = 0
  jobs : s.jobs = []
  valid : s.row.recurrenceSettings.Valid
  untilDate : ∀ u, s.row.recurrenceSettings.untilDate = some u → start.le u = true

/-- What the completions of a regular series keep. -/
structure Lawful (z : Zone) (set : RecurrenceSettings) (start : Date) (s : State) : Prop where
  type : s.row.type = .recurring
  frequency : s.row.recurrenceSettings.frequency = set.frequency
  interval : s.row.recurrenceSettings.interval = set.interval
  weekDays : ∀ w, w ∈ s.row.recurrenceSettings.weekDays ↔ w ∈ set.weekDays
  endDate : s.row.recurrenceSettings.untilDate = set.untilDate
  endCount : s.row.recurrenceSettings.untilSend = set.untilSend
  series : ∃ o, Series z set start (s.sends start) o
  scheduleTo : s.row.scheduleTo = (s.sends start).getLast?
  untilDate : ∀ u, set.untilDate = some u → ∀ d ∈ s.sends start, d.le u = true
  running : s.row.status ≠ .completed → s.row.recurrenceCount = s.jobs.length ∧
    ∀ n, set.untilSend = some n → s.jobs.length < n
  ended : s.row.status = .completed → s.row.recurrenceCount = s.jobs.length + 1 ∧
    set.untilSend = some (s.jobs.length + 1)

theorem Scheduled.lawful (h : Scheduled s start) :
    Lawful z s.row.recurrenceSettings start s := by
  have hsends : s.sends start = [start] := by
    simp only [State.sends, h.jobs, List.map_nil]
  refine ⟨h.type, rfl, rfl, fun _ => Iff.rfl, rfl, rfl, ⟨0, hsends ▸ .start⟩, ?_, ?_, ?_, ?_⟩
  · rw [hsends]
    exact h.scheduleTo
  · intro u hu d hd
    rw [hsends, List.mem_singleton] at hd
    exact hd ▸ h.untilDate u hu
  · intro _
    rw [h.jobs]
    refine ⟨h.recurrenceCount, fun n hn => Nat.pos_of_ne_zero ?_⟩
    rintro rfl
    exact h.valid.untilSend hn
  · intro hs
    exact absurd hs h.status

/-- What a completion leaves of the settings. -/
structure Kept (r r' : RecurrenceSettings) : Prop where
  frequency : r'.frequency = r.frequency
  interval : r'.interval = r.interval
  weekDays : ∀ w, w ∈ r'.weekDays ↔ w ∈ r.weekDays
  untilDate : r'.untilDate = r.untilDate
  untilSend : r'.untilSend = r.untilSend

theorem Kept.trans {r r' r'' : RecurrenceSettings} (h : Kept r r') (h' : Kept r' r'') :
    Kept r r'' :=
  ⟨h'.frequency.trans h.frequency, h'.interval.trans h.interval,
    fun w => (h'.weekDays w).trans (h.weekDays w), h'.untilDate.trans h.untilDate,
    h'.untilSend.trans h.untilSend⟩

theorem Lawful.kept (h : Lawful z set start s) : Kept set s.row.recurrenceSettings :=
  ⟨h.frequency, h.interval, h.weekDays, h.endDate, h.endCount⟩

theorem kept_sorted (r : RecurrenceSettings) : Kept r r.sorted := by
  simp only [RecurrenceSettings.sorted]
  split
  · exact ⟨rfl, rfl, fun _ => List.mem_insertionSort _, rfl, rfl⟩
  · exact ⟨rfl, rfl, fun _ => Iff.rfl, rfl, rfl⟩

/-- The settings after a completion, before the days are sorted. -/
theorem kept_sent (r : RecurrenceSettings) (count : Nat) (sent : Date) :
    Kept r (if count = 1 then
      { r with lastSentDate := some sent, firstSentDate := some r.date }
      else { r with lastSentDate := some sent }) := by
  split
  · exact ⟨rfl, rfl, fun _ => Iff.rfl, rfl, rfl⟩
  · exact ⟨rfl, rfl, fun _ => Iff.rfl, rfl, rfl⟩

theorem setRecurring_last (z : Zone) (fuel jobId : Nat) (now : Date) {c : Campaign}
    (h : c.recurrenceSettings.untilSend = some (c.recurrenceCount + 1)) :
    ∃ settings, setRecurringCampaign z fuel jobId now c =
        some ({ c with recurrenceCount := c.recurrenceCount + 1
                       recurrenceSettings := settings }, none) ∧
      Kept c.recurrenceSettings settings := by
  simp only [setRecurringCampaign, if_pos h]
  exact ⟨_, rfl, kept_sent _ _ _⟩

theorem setRecurring_next (z : Zone) (jobId : Nat) {c : Campaign} {next : Date}
    (h : c.recurrenceSettings.untilSend ≠ some (c.recurrenceCount + 1))
    (hlast : c.scheduleTo = some last)
    (hnext : newEventDate z fuel c.recurrenceSettings last now = some next)
    (huntil : ∀ u, c.recurrenceSettings.untilDate = some u → next.le u = true) :
    ∃ settings, setRecurringCampaign z fuel jobId now c =
        some ({ c with recurrenceCount := c.recurrenceCount + 1
                       recurrenceSettings := settings
                       scheduleTo := some next
                       status := .scheduled
                       scheduleToCloudTaskId := some jobId }, some ⟨jobId, next⟩) ∧
      Kept c.recurrenceSettings settings := by
  have hall : c.recurrenceSettings.untilDate.all (fun untilDate => next.le untilDate) = true := by
    cases hu : c.recurrenceSettings.untilDate with
    | none => rfl
    | some u => exact huntil u hu
  simp only [setRecurringCampaign, if_neg h, hlast, Option.bind_some, hnext, Option.map_some,
    if_pos hall]
  exact ⟨_, rfl, (kept_sent _ _ _).trans (kept_sorted _)⟩

theorem complete_set {c c' : Campaign} {job : Option Job} (htype : c.type = .recurring)
    (hset : setRecurringCampaign z fuel s.nextJob now c = some (c', job)) :
    (s.complete z fuel now c).row = c' ∧ (s.complete z fuel now c).jobs = s.jobs ++ job.toList := by
  simp only [State.complete, if_pos htype, hset]
  cases job with
  | none => exact ⟨rfl, (List.append_nil _).symm⟩
  | some job => exact ⟨rfl, rfl⟩

/-- A completion sends on the next occurrence, or ends the series at its count. -/
theorem Lawful.step (h : Lawful z set start s) (hvalid : set.Valid)
    (hstart : RegularStart set (z.toLocal start)) (hfuel : 7 * set.interval + 7 ≤ fuel)
    (hregular : Regular z fuel s d) (hs' : s.completeRun z fuel d = some s') :
    Lawful z set start s' ∧ s'.jobs.length + (if s'.row.status = .completed then 1 else 0) =
      s.jobs.length + 1 := by
  simp only [State.completeRun] at hs'
  split at hs'
  swap
  · cases hs'
  rename_i hrun
  obtain ⟨hstatus, he⟩ := hrun
  obtain ⟨now, e⟩ := d
  obtain ⟨hcount, hmore⟩ := h.running hstatus
  -- the row that the completion starts from
  obtain ⟨c, hc, hctype, hcset, hcdate, hccount, hcstatus⟩ : ∃ c, (e.count s).completing = c ∧
      c.type = s.row.type ∧ c.recurrenceSettings = s.row.recurrenceSettings ∧
      c.scheduleTo = s.row.scheduleTo ∧ c.recurrenceCount = s.row.recurrenceCount ∧
      c.status = .completed := by
    have hrow : (e.count s).row = s.row := by cases e <;> rfl
    have hcompleting : (e.count s).completing = s.row.merge ⟨.completed,
        some ((e.count s).sentContacts, (e.count s).sentPercentage)⟩ := by
      simp only [State.completing, hrow, if_neg hstatus]
    exact ⟨_, hcompleting, rfl, rfl, rfl, rfl, rfl⟩
  have hjobs : (e.count s).jobs = s.jobs := by cases e <;> rfl
  have hstate : s' = (e.count s).complete z fuel now c := by
    rw [← hc, ← track_completes he]
    exact (Option.some_inj.mp hs').symm
  have htype : c.type = .recurring := hctype.trans h.type
  obtain ⟨o, hseries⟩ := h.series
  obtain ⟨last, hlast, hlocal⟩ := hseries.getLast
  have hscheduled : s.row.scheduleTo = some last := h.scheduleTo.trans hlast
  by_cases hend : c.recurrenceSettings.untilSend = some (c.recurrenceCount + 1)
  · obtain ⟨settings, hset, hkept⟩ :=
      setRecurring_last z fuel (e.count s).nextJob now hend
    obtain ⟨hrow, hsame⟩ := complete_set htype hset
    rw [← hstate] at hrow hsame
    rw [Option.toList_none, List.append_nil, hjobs] at hsame
    rw [hcset] at hkept
    have hset' : Kept set s'.row.recurrenceSettings := hrow.symm ▸ h.kept.trans hkept
    have hsends : s'.sends start = s.sends start := by
      simp only [State.sends, hsame]
    have hended : s'.row.status = .completed := by rw [hrow]; exact hcstatus
    refine ⟨⟨hrow.symm ▸ htype, hset'.frequency, hset'.interval, hset'.weekDays, hset'.untilDate,
      hset'.untilSend, ?_, ?_, ?_, ?_, ?_⟩, ?_⟩
    · rw [hsends]
      exact ⟨o, hseries⟩
    · rw [hsends, hrow]
      exact hcdate.trans h.scheduleTo
    · rw [hsends]
      exact h.untilDate
    · intro hnot
      exact absurd hended hnot
    · intro _
      rw [hcset, h.endCount, hccount, hcount] at hend
      rw [hrow, hsame]
      exact ⟨congrArg (· + 1) (hccount.trans hcount), hend⟩
    · rw [if_pos hended, hsame]
  · obtain ⟨next, o', hdate, hleast, hnext⟩ := newEventDate_next hvalid hstart hfuel hseries hlocal
      hscheduled hregular h.frequency h.interval h.weekDays
    have huntil : ∀ u, s.row.recurrenceSettings.untilDate = some u → next.le u = true :=
      fun u hu => hregular.untilDate u last next hu hscheduled hdate
    obtain ⟨settings, hset, hkept⟩ := setRecurring_next z (e.count s).nextJob hend
      (hcdate.trans hscheduled) (hcset.symm ▸ hdate) (hcset.symm ▸ huntil)
    obtain ⟨hrow, hadded⟩ := complete_set htype hset
    rw [← hstate] at hrow hadded
    rw [Option.toList_some, hjobs] at hadded
    rw [hcset] at hkept
    have hset' : Kept set s'.row.recurrenceSettings := hrow.symm ▸ h.kept.trans hkept
    have hsends : s'.sends start = s.sends start ++ [next] := by
      simp only [State.sends, hadded, List.map_append, List.map_cons, List.map_nil,
        List.cons_append]
    have hlength : s'.jobs.length = s.jobs.length + 1 := by
      rw [hadded, List.length_append, List.length_singleton]
    have hrunning : s'.row.status ≠ .completed := by
      rw [hrow]
      intro hs
      cases hs
    refine ⟨⟨hrow.symm ▸ htype, hset'.frequency, hset'.interval, hset'.weekDays, hset'.untilDate,
      hset'.untilSend, ?_, ?_, ?_, ?_, ?_⟩, ?_⟩
    · rw [hsends]
      exact ⟨o', hseries.next hleast hnext⟩
    · rw [hsends, hrow, List.getLast?_concat]
    · intro u hu d hd
      rw [hsends] at hd
      rcases List.mem_append.mp hd with hd | hd
      · exact h.untilDate u hu d hd
      · rw [List.mem_singleton.mp hd]
        exact huntil u (h.endDate.trans hu)
    · intro _
      rw [hlength, hrow]
      refine ⟨congrArg (· + 1) (hccount.trans hcount), fun n hn => ?_⟩
      have hlt := hmore n hn
      have hne : n ≠ s.jobs.length + 1 := by
        rintro rfl
        rw [hcset, hccount, hcount, h.endCount] at hend
        exact hend hn
      omega
    · intro hs
      exact absurd hs hrunning
    · rw [if_neg hrunning, hlength]

theorem Lawful.run (hvalid : set.Valid) (hstart : RegularStart set (z.toLocal start))
    (hfuel : 7 * set.interval + 7 ≤ fuel) {ds : List Delivery} :
    ∀ {s : State}, Lawful z set start s →
      Runs.Meets (State.completeRun z fuel) (Regular z fuel) s ds →
      Runs.exec (State.completeRun z fuel) s ds = some s' →
        Lawful z set start s' ∧
          s'.jobs.length + (if s'.row.status = .completed then 1 else 0) =
            s.jobs.length + (if s.row.status = .completed then 1 else 0) + ds.length := by
  induction ds with
  | nil =>
      intro s h _ hs'
      cases hs'
      exact ⟨h, rfl⟩
  | cons d ds ih =>
      intro s h hmeets hs'
      obtain ⟨t, ht, hs'⟩ := Runs.exec_cons_eq_some.mp hs'
      obtain ⟨hregular, hmeets⟩ := hmeets
      have hrunning : s.row.status ≠ .completed := by
        intro hcompleted
        simp only [State.completeRun, hcompleted, ne_eq, not_true_eq_false, false_and,
          if_false] at ht
        cases ht
      obtain ⟨hlawful, hlength⟩ := h.step hvalid hstart hfuel hregular ht
      obtain ⟨hlawful', hlength'⟩ := ih hlawful (hmeets t ht) hs'
      refine ⟨hlawful', ?_⟩
      rw [hlength', hlength, if_neg hrunning, List.length_cons]
      omega

end

/-- A daily series of two sends. -/
def dailySettings : RecurrenceSettings := { sampleSettings with untilSend := some 2 }

def dailyState : State :=
  { sampleState .recurring with
    row := { (sampleState .recurring).row with recurrenceSettings := dailySettings } }

/-- The state of a recurring campaign with these settings. -/
def overflowState (settings : RecurrenceSettings) (start : Date) : State :=
  { sampleState .recurring with
    row := { (sampleState .recurring).row with
      recurrenceSettings := settings, scheduleTo := some start } }

end OpenBms.Campaigns
