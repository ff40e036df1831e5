/-
# `OpenBms.Alerts.Severity` — the severity of a metric against its baseline

    z = (current - median) / max(spread, minSpread, |median| * minSpreadPct)

A spike is graded by how high its `z` is, a drop by how low; guards on the value and on the
baseline switch the grade off.  Numbers are rounded after each operation.

| metric | graded by | guards |
| :-- | :-- | :-- |
| `bounce_spike`, `deferred_spike`, `volume_spike` | `z`, upwards | value, deviation, median |
| `volume_drop` | `z`, downwards | deviation, median |
| `spam_spike` | the rate | — |
| `block_detected` | the count | — |

**Proved here**, for every rounding that keeps the order, every metric and every baseline.

    a value that is graded as a spike is above the median (`deviation_pos`)
    and one that is graded as a drop is below it (`deviation_neg`)
    so the guards only let the grade rise with the value, or
    fall for a drop, and a larger spread never raises it (`severity_graded`)
-/
import Mathlib

namespace OpenBms.Alerts

inductive AlertType where
  | bounce_spike
  | deferred_spike
  | volume_drop
  | volume_spike
  | spam_spike
  | block_detected
  deriving DecidableEq

inductive AlertSeverity where
  | warning
  | critical
  deriving DecidableEq

structure StatisticalBaseline where
  median : ℚ
  spread : ℚ
  dataPoints : ℚ

structure AlertThresholdV2 where
  type : AlertType
  warningZScore : ℚ
  criticalZScore : ℚ
  minEvents : ℚ
  minDataPoints : ℚ
  absoluteFloor : ℚ
  minSpread : ℚ
  minSpreadPct : ℚ
  minAbsoluteDeviation : ℚ
  minBaselineMedian : Option ℚ := none
  warningRate : Option ℚ := none
  criticalRate : Option ℚ := none

def ALERT_THRESHOLDS_V2 : List AlertThresholdV2 :=
  [{ type := .bounce_spike
     warningZScore := 3
     criticalZScore := 9 / 2
     minEvents := 200
     minDataPoints := 5
     absoluteFloor := 20
     minSpread := 1
     minSpreadPct := 1 / 20
     minAbsoluteDeviation := 50 },
   { type := .deferred_spike
     warningZScore := 3
     criticalZScore := 9 / 2
     minEvents := 200
     minDataPoints := 5
     absoluteFloor := 50
     minSpread := 1
     minSpreadPct := 1 / 20
     minAbsoluteDeviation := 100 },
   { type := .volume_spike
     warningZScore := 4
     criticalZScore := 6
     minEvents := 200
     minDataPoints := 5
     absoluteFloor := 500
     minSpread := 1
     minSpreadPct := 1 / 10
     minAbsoluteDeviation := 0
     minBaselineMedian := some 50 },
   { type := .volume_drop
     warningZScore := -4
     criticalZScore := -6
     minEvents := 0
     minDataPoints := 5
     absoluteFloor := 200
     minSpread := 1
     minSpreadPct := 1 / 10
     minAbsoluteDeviation := 0 },
   { type := .spam_spike
     warningZScore := 0
     criticalZScore := 0
     minEvents := 200
     minDataPoints := 0
     absoluteFloor := 0
     minSpread := 1
     minSpreadPct := 0
     minAbsoluteDeviation := 0
     warningRate := some (1 / 10)
     criticalRate := some (3 / 10) },
   { type := .block_detected
     warningZScore := 0
     criticalZScore := 0
     minEvents := 10
     minDataPoints := 0
     absoluteFloor := 0
     minSpread := 1
     minSpreadPct := 0
     minAbsoluteDeviation := 0 }]

/-- How the result of an operation is rounded. -/
structure Rounding where
  round : ℚ → ℚ
  mono : ∀ {a b}, a ≤ b → round a ≤ round b
  zero : round 0 = 0

section
variable (r : Rounding)

/-- `currentValue - baseline.median`. -/
def deviation (currentValue : ℚ) (baseline : StatisticalBaseline) : ℚ :=
  r.round (currentValue - baseline.median)

def effectiveSpread (baseline : StatisticalBaseline) (minSpread minSpreadPct : ℚ) : ℚ :=
  let pctFloor := r.round (|baseline.median| * minSpreadPct)
  max (max baseline.spread minSpread) pctFloor

def computeZScore (currentValue : ℚ) (baseline : StatisticalBaseline)
    (minSpread minSpreadPct : ℚ) : ℚ :=
  r.round (deviation r currentValue baseline / effectiveSpread r baseline minSpread minSpreadPct)

def clampZScore (z : ℚ) : ℚ := max (-20) (min 20 z)

structure Alert where
  severity : AlertSeverity
  zScore : ℚ

/-- The end of the function for a drop. -/
def gradeDrop (threshold : AlertThresholdV2) (zScore : ℚ) : Option Alert :=
  if zScore ≤ threshold.criticalZScore then some ⟨.critical, clampZScore zScore⟩
  else if zScore ≤ threshold.warningZScore then some ⟨.warning, clampZScore zScore⟩
  else none

/-- The end of the function for a spike. -/
def gradeSpike (threshold : AlertThresholdV2) (zScore : ℚ) : Option Alert :=
  if threshold.criticalZScore ≤ zScore then some ⟨.critical, clampZScore zScore⟩
  else if threshold.warningZScore ≤ zScore then some ⟨.warning, clampZScore zScore⟩
  else none

/-- `volume_drop`, with a baseline of enough data. -/
def dropSeverity (threshold : AlertThresholdV2) (currentValue : ℚ) (baseline : StatisticalBaseline) :
    Option Alert :=
  if baseline.median < threshold.absoluteFloor then none
  else if |deviation r currentValue baseline| < threshold.minAbsoluteDeviation then none
  else gradeDrop threshold
    (computeZScore r currentValue baseline threshold.minSpread threshold.minSpreadPct)

/-- `bounce_spike`, `deferred_spike` and `volume_spike`, with a baseline of enough data. -/
def spikeSeverity (threshold : AlertThresholdV2) (currentValue : ℚ)
    (baseline : StatisticalBaseline) : Option Alert :=
  if currentValue < threshold.absoluteFloor then none
  else if threshold.minBaselineMedian.any (baseline.median < ·) then none
  else if currentValue < threshold.minEvents then none
  else if |deviation r currentValue baseline| < threshold.minAbsoluteDeviation then none
  else gradeSpike threshold
    (computeZScore r currentValue baseline threshold.minSpread threshold.minSpreadPct)

/-- `getSeverityV2` for a type of which the thresholds are known. -/
def severityAt (threshold : AlertThresholdV2) (currentValue : ℚ)
    (baseline : Option StatisticalBaseline) : Option Alert :=
  match threshold.type with
  | .block_detected => if threshold.minEvents ≤ currentValue then some ⟨.critical, 0⟩ else none
  | .spam_spike =>
      if threshold.criticalRate.getD (3 / 10) ≤ currentValue then some ⟨.critical, 0⟩
      else if threshold.warningRate.getD (1 / 10) ≤ currentValue then some ⟨.warning, 0⟩
      else none
  | type =>
      match baseline with
      | none => none
      | some baseline =>
          if baseline.dataPoints < threshold.minDataPoints then none
          else if type = .volume_drop then dropSeverity r threshold currentValue baseline
          else spikeSeverity r threshold currentValue baseline

def getSeverityV2 (type : AlertType) (currentValue : ℚ) (baseline : Option StatisticalBaseline) :
    Option Alert :=
  match ALERT_THRESHOLDS_V2.find? (·.type = type) with
  | none => none
  | some threshold => severityAt r threshold currentValue baseline

/-! ## Ranks -/

def AlertSeverity.rank : AlertSeverity → Nat
  | .warning => 1
  | .critical => 2

/-- The rank of an answer; no alert is the lowest. -/
def rank : Option Alert → Nat
  | none => 0
  | some alert => alert.severity.rank

/-- The severity follows the value and falls with the spread; nothing is divided by zero, and the
score stays in its range. -/
structure Graded : Prop where
  spike : ∀ type, type ≠ .volume_drop → ∀ baseline x y, x ≤ y →
    rank (getSeverityV2 r type x baseline) ≤ rank (getSeverityV2 r type y baseline)
  drop : ∀ baseline x y, x ≤ y →
    rank (getSeverityV2 r .volume_drop y baseline) ≤ rank (getSeverityV2 r .volume_drop x baseline)
  spread : ∀ type (baseline : StatisticalBaseline) spread x, baseline.spread ≤ spread →
    rank (getSeverityV2 r type x (some { baseline with spread := spread })) ≤
      rank (getSeverityV2 r type x (some baseline))
  divisor : ∀ threshold ∈ ALERT_THRESHOLDS_V2, ∀ baseline,
    0 < effectiveSpread r baseline threshold.minSpread threshold.minSpreadPct
  clamped : ∀ type x baseline alert, getSeverityV2 r type x baseline = some alert →
    -20 ≤ alert.zScore ∧ alert.zScore ≤ 20

end

/-! ## The quotient -/

section
variable {r : Rounding} {threshold : AlertThresholdV2} {baseline : StatisticalBaseline} {x y : ℚ}

theorem Rounding.pos (r : Rounding) {a : ℚ} (h : 0 < r.round a) : 0 < a := by
  by_contra hle
  have hround := r.mono (not_lt.mp hle)
  rw [r.zero] at hround
  exact absurd h (not_lt.mpr hround)

theorem Rounding.neg (r : Rounding) {a : ℚ} (h : r.round a < 0) : a < 0 := by
  by_contra hle
  have hround := r.mono (not_lt.mp hle)
  rw [r.zero] at hround
  exact absurd h (not_lt.mpr hround)

theorem deviation_mono (baseline : StatisticalBaseline) (h : x ≤ y) :
    deviation r x baseline ≤ deviation r y baseline :=
  r.mono (sub_le_sub_right h _)

theorem effectiveSpread_pos (baseline : StatisticalBaseline) {minSpread : ℚ} (h : 0 < minSpread)
    (minSpreadPct : ℚ) : 0 < effectiveSpread r baseline minSpread minSpreadPct :=
  h.trans_le ((le_max_right _ _).trans (le_max_left _ _))

theorem effectiveSpread_mono (baseline : StatisticalBaseline) {spread : ℚ}
    (h : baseline.spread ≤ spread) (minSpread minSpreadPct : ℚ) :
    effectiveSpread r baseline minSpread minSpreadPct ≤
      effectiveSpread r { baseline with spread := spread } minSpread minSpreadPct :=
  max_le_max (max_le_max h le_rfl) le_rfl

theorem computeZScore_mono (baseline : StatisticalBaseline) {minSpread : ℚ} (hspread : 0 < minSpread)
    (minSpreadPct : ℚ) (h : x ≤ y) :
    computeZScore r x baseline minSpread minSpreadPct ≤
      computeZScore r y baseline minSpread minSpreadPct :=
  r.mono (div_le_div_of_nonneg_right (deviation_mono baseline h)
    (effectiveSpread_pos baseline hspread minSpreadPct).le)

/-- A positive score is one of a value above the median. -/
theorem deviation_pos {minSpread minSpreadPct : ℚ} (hspread : 0 < minSpread)
    (h : 0 < computeZScore r x baseline minSpread minSpreadPct) : 0 < deviation r x baseline := by
  have hquotient := r.pos h
  have hdivisor : 0 < effectiveSpread r baseline minSpread minSpreadPct :=
    effectiveSpread_pos baseline hspread minSpreadPct
  exact (div_pos_iff_of_pos_right hdivisor).mp hquotient

/-- A negative score is one of a value below the median. -/
theorem deviation_neg {minSpread minSpreadPct : ℚ} (hspread : 0 < minSpread)
    (h : computeZScore r x baseline minSpread minSpreadPct < 0) : deviation r x baseline < 0 := by
  have hquotient := r.neg h
  have hdivisor : 0 < effectiveSpread r baseline minSpread minSpreadPct :=
    effectiveSpread_pos baseline hspread minSpreadPct
  by_contra hle
  exact absurd hquotient (not_lt.mpr (div_nonneg (not_lt.mp hle) hdivisor.le))

/-- With a larger spread, a score above zero is nearer to it. -/
theorem computeZScore_spread {spread minSpread minSpreadPct : ℚ} (hspread : 0 < minSpread)
    (h : baseline.spread ≤ spread) (hx : 0 ≤ deviation r x baseline) :
    computeZScore r x { baseline with spread := spread } minSpread minSpreadPct ≤
      computeZScore r x baseline minSpread minSpreadPct :=
  r.mono (div_le_div_of_nonneg_left hx (effectiveSpread_pos baseline hspread minSpreadPct)
    (effectiveSpread_mono baseline h minSpread minSpreadPct))

/-- With a larger spread, a score below zero is nearer to it. -/
theorem computeZScore_spread_neg {spread minSpread minSpreadPct : ℚ} (hspread : 0 < minSpread)
    (h : baseline.spread ≤ spread) (hx : deviation r x baseline ≤ 0) :
    computeZScore r x baseline minSpread minSpreadPct ≤
      computeZScore r x { baseline with spread := spread } minSpread minSpreadPct := by
  refine r.mono ?_
  have hdivisor : 0 < effectiveSpread r baseline minSpread minSpreadPct :=
    effectiveSpread_pos baseline hspread minSpreadPct
  have hquotient := div_le_div_of_nonneg_left (neg_nonneg.mpr hx) hdivisor
    (effectiveSpread_mono baseline h minSpread minSpreadPct)
  rw [neg_div, neg_div] at hquotient
  exact neg_le_neg_iff.mp hquotient

end

/-! ## Grades -/

section
variable {r : Rounding} {t : AlertThresholdV2} {b : StatisticalBaseline} {x y z z' spread : ℚ}

theorem rank_gradeSpike_mono (h : z ≤ z') : rank (gradeSpike t z) ≤ rank (gradeSpike t z') := by
  rw [gradeSpike, gradeSpike]
  by_cases hcritical : t.criticalZScore ≤ z
  · rw [if_pos hcritical, if_pos (hcritical.trans h)]
    exact le_rfl
  · rw [if_neg hcritical]
    by_cases hwarning : t.warningZScore ≤ z
    · rw [if_pos hwarning, if_pos (hwarning.trans h)]
      split
      · exact Nat.le_succ 1
      · exact le_rfl
    · rw [if_neg hwarning]
      exact Nat.zero_le _

theorem rank_gradeDrop_anti (h : z ≤ z') : rank (gradeDrop t z') ≤ rank (gradeDrop t z) := by
  rw [gradeDrop, gradeDrop]
  by_cases hcritical : z' ≤ t.criticalZScore
  · rw [if_pos hcritical, if_pos (h.trans hcritical)]
    exact le_rfl
  · rw [if_neg hcritical]
    by_cases hwarning : z' ≤ t.warningZScore
    · rw [if_pos hwarning, if_pos (h.trans hwarning)]
      split
      · exact Nat.le_succ 1
      · exact le_rfl
    · rw [if_neg hwarning]
      exact Nat.zero_le _

/-- What is graded as a spike has a positive score. -/
theorem pos_of_rank (hwarning : 0 < t.warningZScore) (hcritical : 0 < t.criticalZScore)
    (h : 0 < rank (gradeSpike t z)) : 0 < z := by
  rw [gradeSpike] at h
  split at h
  · next hz => exact hcritical.trans_le hz
  · split at h
    · next hz => exact hwarning.trans_le hz
    · exact absurd h (Nat.lt_irrefl 0)

theorem neg_of_rank (hwarning : t.warningZScore < 0) (hcritical : t.criticalZScore < 0)
    (h : 0 < rank (gradeDrop t z)) : z < 0 := by
  rw [gradeDrop] at h
  split at h
  · next hz => exact hz.trans_lt hcritical
  · split at h
    · next hz => exact hz.trans_lt hwarning
    · exact absurd h (Nat.lt_irrefl 0)

/-- The guards of a spike let the value through. -/
structure SpikePasses (r : Rounding) (t : AlertThresholdV2) (x : ℚ) (b : StatisticalBaseline) :
    Prop where
  floor : t.absoluteFloor ≤ x
  median : ¬ t.minBaselineMedian.any (b.median < ·) = true
  events : t.minEvents ≤ x
  deviates : t.minAbsoluteDeviation ≤ |deviation r x b|

theorem spikeSeverity_of_passes (h : SpikePasses r t x b) :
    spikeSeverity r t x b = gradeSpike t (computeZScore r x b t.minSpread t.minSpreadPct) := by
  rw [spikeSeverity, if_neg (not_lt.mpr h.floor), if_neg h.median, if_neg (not_lt.mpr h.events),
    if_neg (not_lt.mpr h.deviates)]

theorem passes_of_rank (h : 0 < rank (spikeSeverity r t x b)) : SpikePasses r t x b := by
  rw [spikeSeverity] at h
  by_cases hfloor : x < t.absoluteFloor
  · rw [if_pos hfloor] at h
    exact absurd h (Nat.lt_irrefl 0)
  · by_cases hmedian : t.minBaselineMedian.any (b.median < ·) = true
    · rw [if_neg hfloor, if_pos hmedian] at h
      exact absurd h (Nat.lt_irrefl 0)
    · by_cases hevents : x < t.minEvents
      · rw [if_neg hfloor, if_neg hmedian, if_pos hevents] at h
        exact absurd h (Nat.lt_irrefl 0)
      · by_cases hdeviates : |deviation r x b| < t.minAbsoluteDeviation
        · rw [if_neg hfloor, if_neg hmedian, if_neg hevents, if_pos hdeviates] at h
          exact absurd h (Nat.lt_irrefl 0)
        · exact ⟨not_lt.mp hfloor, hmedian, not_lt.mp hevents, not_lt.mp hdeviates⟩

/-- What a metric's thresholds must be. -/
structure Sane (t : AlertThresholdV2) : Prop where
  minSpread : 0 < t.minSpread
  spike : t.type ∈ [.bounce_spike, .deferred_spike, .volume_spike] →
    0 < t.warningZScore ∧ 0 < t.criticalZScore
  drop : t.type = .volume_drop → t.warningZScore < 0 ∧ t.criticalZScore < 0

theorem spikeSeverity_mono (hspread : 0 < t.minSpread) (hwarning : 0 < t.warningZScore)
    (hcritical : 0 < t.criticalZScore) (h : x ≤ y) :
    rank (spikeSeverity r t x b) ≤ rank (spikeSeverity r t y b) := by
  rcases Nat.eq_zero_or_pos (rank (spikeSeverity r t x b)) with hzero | hrank
  · rw [hzero]
    exact Nat.zero_le _
  · have hpasses := passes_of_rank hrank
    rw [spikeSeverity_of_passes hpasses] at hrank ⊢
    have hdeviation := deviation_pos hspread (pos_of_rank hwarning hcritical hrank)
    have hle : deviation r x b ≤ deviation r y b := deviation_mono b h
    have hpasses' : SpikePasses r t y b :=
      ⟨hpasses.floor.trans h, hpasses.median, hpasses.events.trans h,
        hpasses.deviates.trans (abs_le_abs_of_nonneg hdeviation.le hle)⟩
    rw [spikeSeverity_of_passes hpasses']
    exact rank_gradeSpike_mono (computeZScore_mono b hspread t.minSpreadPct h)

theorem spikeSeverity_spread (hspread : 0 < t.minSpread) (hwarning : 0 < t.warningZScore)
    (hcritical : 0 < t.criticalZScore) (h : b.spread ≤ spread) :
    rank (spikeSeverity r t x { b with spread := spread }) ≤ rank (spikeSeverity r t x b) := by
  rcases Nat.eq_zero_or_pos (rank (spikeSeverity r t x { b with spread := spread })) with
    hzero | hrank
  · rw [hzero]
    exact Nat.zero_le _
  · have hpasses := passes_of_rank hrank
    have hpasses' : SpikePasses r t x b :=
      ⟨hpasses.floor, hpasses.median, hpasses.events, hpasses.deviates⟩
    rw [spikeSeverity_of_passes hpasses] at hrank ⊢
    have hwider := deviation_pos hspread (pos_of_rank hwarning hcritical hrank)
    have hdeviation : 0 < deviation r x b := hwider
    rw [spikeSeverity_of_passes hpasses']
    exact rank_gradeSpike_mono
      (@computeZScore_spread r b x spread t.minSpread t.minSpreadPct hspread h hdeviation.le)

theorem dropSeverity_anti (hspread : 0 < t.minSpread) (hwarning : t.warningZScore < 0)
    (hcritical : t.criticalZScore < 0) (h : x ≤ y) :
    rank (dropSeverity r t y b) ≤ rank (dropSeverity r t x b) := by
  rw [dropSeverity, dropSeverity]
  by_cases hfloor : b.median < t.absoluteFloor
  · rw [if_pos hfloor, if_pos hfloor]
  · rw [if_neg hfloor, if_neg hfloor]
    by_cases hy : |deviation r y b| < t.minAbsoluteDeviation
    · rw [if_pos hy]
      exact Nat.zero_le _
    · rw [if_neg hy]
      rcases Nat.eq_zero_or_pos
        (rank (gradeDrop t (computeZScore r y b t.minSpread t.minSpreadPct))) with hzero | hrank
      · rw [hzero]
        exact Nat.zero_le _
      · have hdeviation := deviation_neg hspread (neg_of_rank hwarning hcritical hrank)
        have hle : deviation r x b ≤ deviation r y b := deviation_mono b h
        have hx : ¬ |deviation r x b| < t.minAbsoluteDeviation := by
          rw [not_lt] at hy ⊢
          rw [abs_of_neg hdeviation] at hy
          rw [abs_of_neg (hle.trans_lt hdeviation)]
          exact hy.trans (neg_le_neg hle)
        rw [if_neg hx]
        exact rank_gradeDrop_anti (computeZScore_mono b hspread t.minSpreadPct h)

theorem dropSeverity_spread (hspread : 0 < t.minSpread) (hwarning : t.warningZScore < 0)
    (hcritical : t.criticalZScore < 0) (h : b.spread ≤ spread) :
    rank (dropSeverity r t x { b with spread := spread }) ≤ rank (dropSeverity r t x b) := by
  have hsame : deviation r x { b with spread := spread } = deviation r x b := rfl
  rw [dropSeverity, dropSeverity, hsame]
  by_cases hfloor : b.median < t.absoluteFloor
  · rw [if_pos hfloor, if_pos hfloor]
  · rw [if_neg hfloor, if_neg hfloor]
    by_cases hx : |deviation r x b| < t.minAbsoluteDeviation
    · rw [if_pos hx, if_pos hx]
    · rw [if_neg hx, if_neg hx]
      rcases Nat.eq_zero_or_pos (rank (gradeDrop t (computeZScore r x { b with spread := spread }
        t.minSpread t.minSpreadPct))) with hzero | hrank
      · rw [hzero]
        exact Nat.zero_le _
      · have hwider := deviation_neg hspread (neg_of_rank hwarning hcritical hrank)
        have hdeviation : deviation r x b < 0 := hwider
        exact rank_gradeDrop_anti
          (@computeZScore_spread_neg r b x spread t.minSpread t.minSpreadPct hspread h hdeviation.le)

theorem sane_of_mem (h : t ∈ ALERT_THRESHOLDS_V2) : Sane t := by
  have hall : ∀ t ∈ ALERT_THRESHOLDS_V2, Sane t := by
    simp only [ALERT_THRESHOLDS_V2, List.forall_mem_cons, List.not_mem_nil, IsEmpty.forall_iff,
      implies_true, and_true]
    refine ⟨?_, ?_, ?_, ?_, ?_, ?_⟩ <;>
      exact ⟨by norm_num, fun h => by first | exact absurd h (by decide) | norm_num,
        fun h => by first | exact absurd h (by decide) | norm_num⟩
  exact hall t h

theorem clampZScore_mem (z : ℚ) : -20 ≤ clampZScore z ∧ clampZScore z ≤ 20 :=
  ⟨le_max_left _ _, max_le (by norm_num) (min_le_left _ _)⟩

theorem clamped_of_severityAt {baseline : Option StatisticalBaseline} {alert : Alert}
    (h : severityAt r t x baseline = some alert) : -20 ≤ alert.zScore ∧ alert.zScore ≤ 20 := by
  have hzero : (-20 : ℚ) ≤ 0 ∧ (0 : ℚ) ≤ 20 := by norm_num
  have hspike : ∀ {z : ℚ}, gradeSpike t z = some alert → -20 ≤ alert.zScore ∧ alert.zScore ≤ 20 := by
    intro z h
    rw [gradeSpike] at h
    split at h
    · cases h
      exact clampZScore_mem z
    · split at h
      · cases h
        exact clampZScore_mem z
      · cases h
  have hdrop : ∀ {z : ℚ}, gradeDrop t z = some alert → -20 ≤ alert.zScore ∧ alert.zScore ≤ 20 := by
    intro z h
    rw [gradeDrop] at h
    split at h
    · cases h
      exact clampZScore_mem z
    · split at h
      · cases h
        exact clampZScore_mem z
      · cases h
  rw [severityAt] at h
  split at h
  · split at h
    · cases h
      exact hzero
    · cases h
  · split at h
    · cases h
      exact hzero
    · split at h
      · cases h
        exact hzero
      · cases h
  · split at h
    · cases h
    · split at h
      · cases h
      · split at h
        · rw [dropSeverity] at h
          split at h
          · cases h
          · split at h
            · cases h
            · exact hdrop h
        · rw [spikeSeverity] at h
          split at h
          · cases h
          · split at h
            · cases h
            · split at h
              · cases h
              · split at h
                · cases h
                · exact hspike h

theorem getSeverityV2_eq (r : Rounding) (type : AlertType) : ∃ t ∈ ALERT_THRESHOLDS_V2,
    t.type = type ∧ ∀ x b, getSeverityV2 r type x b = severityAt r t x b := by
  have hsome : (ALERT_THRESHOLDS_V2.find? (·.type = type)).isSome = true := by
    cases type <;> rfl
  obtain ⟨t, ht⟩ := Option.isSome_iff_exists.mp hsome
  refine ⟨t, List.mem_of_find?_eq_some ht, ?_, fun x b => ?_⟩
  · exact of_decide_eq_true
      (List.find?_some (p := fun t : AlertThresholdV2 => decide (t.type = type)) ht)
  · rw [getSeverityV2, ht]

end

/-! ## Monotonicity -/

section
variable {r : Rounding} {t : AlertThresholdV2} {x y : ℚ}

/-- The three metrics that are graded by their score, upwards. -/
def isSpike (type : AlertType) : Prop := type ∈ [.bounce_spike, .deferred_spike, .volume_spike]

theorem severityAt_spike (h : isSpike t.type) (x : ℚ) (b : StatisticalBaseline) :
    severityAt r t x (some b) =
      if b.dataPoints < t.minDataPoints then none else spikeSeverity r t x b := by
  rw [isSpike, List.mem_cons, List.mem_cons, List.mem_singleton] at h
  rw [severityAt]
  rcases h with h | h | h <;> rw [h] <;> rfl

theorem severityAt_drop (h : t.type = .volume_drop) (x : ℚ) (b : StatisticalBaseline) :
    severityAt r t x (some b) =
      if b.dataPoints < t.minDataPoints then none else dropSeverity r t x b := by
  rw [severityAt, h]
  rfl

theorem severityAt_none (h : isSpike t.type ∨ t.type = .volume_drop) (x : ℚ) :
    severityAt r t x none = none := by
  rw [isSpike, List.mem_cons, List.mem_cons, List.mem_singleton] at h
  rw [severityAt]
  rcases h with (h | h | h) | h <;> rw [h]

theorem rank_block (h : t.type = .block_detected) (hle : x ≤ y)
    (b : Option StatisticalBaseline) : rank (severityAt r t x b) ≤ rank (severityAt r t y b) := by
  rw [severityAt, severityAt, h]
  by_cases hx : t.minEvents ≤ x
  · simp only [if_pos hx, if_pos (hx.trans hle), le_refl]
  · simp only [if_neg hx]
    exact Nat.zero_le _

theorem rank_spam (h : t.type = .spam_spike) (hle : x ≤ y)
    (b : Option StatisticalBaseline) : rank (severityAt r t x b) ≤ rank (severityAt r t y b) := by
  rw [severityAt, severityAt, h]
  by_cases hcritical : t.criticalRate.getD (3 / 10) ≤ x
  · simp only [if_pos hcritical, if_pos (hcritical.trans hle), le_refl]
  · by_cases hwarning : t.warningRate.getD (1 / 10) ≤ x
    · simp only [if_neg hcritical, if_pos hwarning, if_pos (hwarning.trans hle)]
      split
      · exact Nat.le_succ 1
      · exact le_rfl
    · simp only [if_neg hcritical, if_neg hwarning]
      exact Nat.zero_le _

theorem type_cases (type : AlertType) : isSpike type ∨ type = .volume_drop ∨
    type = .spam_spike ∨ type = .block_detected := by
  cases type <;> simp [isSpike]

/-- The severity of every metric is graded, however its numbers are rounded. -/
theorem severity_graded (r : Rounding) : Graded r := by
  refine ⟨?_, ?_, ?_, ?_, ?_⟩
  · intro type hnot baseline x y hle
    obtain ⟨t, ht, htype, heq⟩ := getSeverityV2_eq r type
    have hsane := sane_of_mem ht
    rw [heq, heq]
    rcases type_cases type with hspike | hdrop | hspam | hblock
    · rw [← htype] at hspike
      obtain ⟨hwarning, hcritical⟩ := hsane.spike hspike
      cases baseline with
      | none => rw [severityAt_none (.inl hspike), severityAt_none (.inl hspike)]
      | some b =>
          rw [severityAt_spike hspike, severityAt_spike hspike]
          split
          · exact le_rfl
          · exact spikeSeverity_mono hsane.minSpread hwarning hcritical hle
    · exact absurd hdrop hnot
    · exact rank_spam (htype.trans hspam) hle baseline
    · exact rank_block (htype.trans hblock) hle baseline
  · intro baseline x y hle
    obtain ⟨t, ht, htype, heq⟩ := getSeverityV2_eq r .volume_drop
    have hsane := sane_of_mem ht
    obtain ⟨hwarning, hcritical⟩ := hsane.drop htype
    rw [heq, heq]
    cases baseline with
    | none => rw [severityAt_none (.inr htype), severityAt_none (.inr htype)]
    | some b =>
        rw [severityAt_drop htype, severityAt_drop htype]
        split
        · exact le_rfl
        · exact dropSeverity_anti hsane.minSpread hwarning hcritical hle
  · intro type b spread x hle
    obtain ⟨t, ht, htype, heq⟩ := getSeverityV2_eq r type
    have hsane := sane_of_mem ht
    rw [heq, heq]
    rcases type_cases type with hspike | hdrop | hspam | hblock
    · rw [← htype] at hspike
      obtain ⟨hwarning, hcritical⟩ := hsane.spike hspike
      rw [severityAt_spike hspike, severityAt_spike hspike]
      by_cases hdata : b.dataPoints < t.minDataPoints
      · rw [if_pos hdata, if_pos hdata]
      · rw [if_neg hdata, if_neg hdata]
        exact spikeSeverity_spread hsane.minSpread hwarning hcritical hle
    · rw [← htype] at hdrop
      obtain ⟨hwarning, hcritical⟩ := hsane.drop hdrop
      rw [severityAt_drop hdrop, severityAt_drop hdrop]
      by_cases hdata : b.dataPoints < t.minDataPoints
      · rw [if_pos hdata, if_pos hdata]
      · rw [if_neg hdata, if_neg hdata]
        exact dropSeverity_spread hsane.minSpread hwarning hcritical hle
    · rw [severityAt, severityAt, htype.trans hspam]
    · rw [severityAt, severityAt, htype.trans hblock]
  · intro threshold hmem baseline
    exact effectiveSpread_pos baseline (sane_of_mem hmem).minSpread _
  · intro type x baseline alert halert
    obtain ⟨t, -, -, heq⟩ := getSeverityV2_eq r type
    rw [heq] at halert
    exact clamped_of_severityAt halert

end

end OpenBms.Alerts
