/-
# `OpenBms.MessageTrigger.Split` — the arm of a split a contact goes on with

`definedStep` draws `Math.floor(Math.random() * 101)` and takes the first arm whose
percentage, with those before it, reaches the number.  The numbers are the 101 from
0 to 100, each as likely as any other, and the draw 0 goes to the first arm too:

| arms       | draws of the arms | draws of none          |
| :--------- | :---------------- | :--------------------- |
| 50, 50     | 51, 50            |                        |
| 100        | 101               |                        |
| 0, 100     | 1, 100            |                        |
| 60, 39     | 61, 39            | 1: the nodes stay      |

Where no arm is reached, `step.child` stays the arms, and the message is passed on
with the nodes of the arms for its steps.

**Proved here.**

    the numbers drawn are of the same length (`Draw.floor_eq_iff`)
    the first arm has a draw too many (`outcomes_zero`)
    the others have as many as they say (`outcomes_succ`)
    without an arm the nodes of the arms are passed on (`child_of_none`)
    the draws are the percentages of the arms where the
    first has all of them, and nowhere else (`selectsFairly_iff`)
-/
import OpenBms.Lib.Thresholds
import OpenBms.MessageTrigger.Interpreter

namespace OpenBms.MessageTrigger

variable {α : Type}

/-! ## The draw -/

/-- The draws that give a number are an interval, as long as that of any other. -/
theorem Draw.floor_eq_iff (d : Draw) {n r : Nat} (hn : 0 < n) :
    d.floor n = r ↔ (r : ℚ) / n ≤ d.value ∧ d.value < (r + 1) / n := by
  have hn' : (0 : ℚ) < n := Nat.cast_pos.mpr hn
  rw [Draw.floor, Nat.floor_eq_iff (mul_nonneg d.nonneg hn'.le), div_le_iff₀ hn', lt_div_iff₀ hn']

/-- The draw at the lower end of a number's interval. -/
def Draw.of (n r : Nat) (h : r < n) : Draw where
  value := r / n
  nonneg := div_nonneg (Nat.cast_nonneg r) (Nat.cast_nonneg n)
  lt_one := (div_lt_one (Nat.cast_pos.mpr (Nat.zero_lt_of_lt h))).mpr (Nat.cast_lt.mpr h)

theorem Draw.floor_of {n r : Nat} (h : r < n) : (Draw.of n r h).floor n = r := by
  have hn : 0 < n := Nat.zero_lt_of_lt h
  rw [Draw.floor_eq_iff _ hn]
  refine ⟨le_refl _, ?_⟩
  exact div_lt_div_of_pos_right (lt_add_one _) (Nat.cast_pos.mpr hn)

/-! ## The arms of a split -/

/-- An arm: its percentage, and the steps below it. -/
structure Arm (α : Type) where
  id : StepId
  value : Nat
  isTestabMode : Bool
  child : List (Step α)

def Arm.step (a : Arm α) : Step α := .mk a.id (.splitPath a.value) a.isTestabMode a.child

/-- The split with these arms. -/
def splitOf (id : StepId) (isTestabMode : Bool) (arms : List (Arm α)) : Step α :=
  .mk id .split isTestabMode (arms.map Arm.step)

def total (arms : List (Arm α)) : Nat := (arms.map Arm.value).sum

/-- The index of the arm a draw selects. -/
def selected (d : Draw) (arms : List (Arm α)) : Option Nat :=
  Thresholds.pick (d.floor 101) 0 (arms.map Arm.value)

/-- How many of the 101 numbers select the arm. -/
def outcomes (arms : List (Arm α)) (i : Nat) : Nat := Thresholds.share 101 (arms.map Arm.value) i

theorem selectArm_eq (r : Nat) (arms : List (Arm α)) (k : Nat) :
    selectArm r (some k) (arms.map Arm.step) =
      ((Thresholds.pick r k (arms.map Arm.value)).bind (arms[·]?)).map Arm.child := by
  induction arms generalizing k with
  | nil => rfl
  | cons a arms ih =>
      have hvalue : a.step.type.value = some a.value := rfl
      simp only [List.map_cons, selectArm, Thresholds.pick, hvalue, Option.bind_some,
        Option.map_some, Option.any_some, decide_eq_true_eq]
      split
      · rfl
      · rw [ih]
        cases Thresholds.pick r (k + a.value) (arms.map Arm.value) with
        | none => rfl
        | some i => rfl

section
variable (id : StepId) (mode : Bool) (arms : List (Arm α)) (w : World α)

theorem child_definedStep : (definedStep w (splitOf id mode arms)).2.child =
    (((selected w.random arms).bind (arms[·]?)).map Arm.child).getD (arms.map Arm.step) := by
  rw [selected, ← selectArm_eq]
  rfl

variable {id mode arms w}

theorem child_of_some {i : Nat} {a : Arm α} (h : selected w.random arms = some i)
    (ha : arms[i]? = some a) : (definedStep w (splitOf id mode arms)).2.child = a.child := by
  rw [child_definedStep, h, Option.bind_some, ha]
  rfl

theorem child_of_none (h : selected w.random arms = none) :
    (definedStep w (splitOf id mode arms)).2.child = arms.map Arm.step := by
  rw [child_definedStep, h]
  rfl

end

/-! ## How many numbers select an arm -/

theorem outcomes_zero {a : Arm α} {arms : List (Arm α)} (h : a.value ≤ 100) :
    outcomes (a :: arms) 0 = a.value + 1 :=
  Thresholds.share_zero (by omega)

theorem outcomes_succ {a : Arm α} {arms : List (Arm α)} {i : Nat} (ha : arms[i + 1]? = some a)
    (h : total arms ≤ 100) : outcomes arms (i + 1) = a.value :=
  Thresholds.share_succ (by rw [List.getElem?_map, ha, Option.map_some]) (Nat.lt_succ_of_le h)

theorem selected_eq_none_iff {d : Draw} {arms : List (Arm α)} :
    selected d arms = none ↔ arms = [] ∨ total arms < d.floor 101 := by
  rw [selected, Thresholds.pick_eq_none_iff, List.map_eq_nil_iff, Nat.zero_add, total]

theorem exists_arm_of_selected {d : Draw} {arms : List (Arm α)} {i : Nat}
    (h : selected d arms = some i) : ∃ a, arms[i]? = some a := by
  have hlt := (Thresholds.pick_eq_some_iff.mp h).1
  rw [List.length_map] at hlt
  exact ⟨arms[i], List.getElem?_eq_getElem hlt⟩

/-! ## Fair splits -/

/-- A split whose percentages sum to 100 selects one arm, whatever is drawn, none of 0
percent, and each by as many numbers as its percentage asks for; one whose percentages
sum to less selects an arm, or is the last step. -/
structure SelectsFairly (id : StepId) (mode : Bool) (arms : List (Arm α)) : Prop where
  one : total arms = 100 → ∀ w : World α, ∃ i a, selected w.random arms = some i ∧
    arms[i]? = some a ∧ (definedStep w (splitOf id mode arms)).2.child = a.child
  zero : total arms = 100 → ∀ (w : World α) (i : Nat) (a : Arm α), arms[i]? = some a →
    a.value = 0 → selected w.random arms ≠ some i
  proportional : total arms = 100 → ∃ c : ℚ, ∀ (i : Nat) (a : Arm α), arms[i]? = some a →
    (outcomes arms i : ℚ) = c * a.value
  resolved : total arms < 100 → ∀ w : World α,
    (∃ a ∈ arms, (definedStep w (splitOf id mode arms)).2.child = a.child) ∨
      nextSteps (definedStep w (splitOf id mode arms)).2.child = [Step.endStep]

/-- A world in which nothing fails. -/
def drawing (d : Draw) : World α where
  random := d
  contactFound := true
  atom := fun _ => some true
  or := fun _ => false
  winnerMessageId := none
  stepRedisKeyExists := false
  messageFound := fun _ => true
  leadHit := false
  removeAutomationHit := false
  targetHit := false
  hour := 12
  hoursToNextDay := 20
  accepts := fun _ => true

section
variable {id : StepId} {mode : Bool} {arms : List (Arm α)}

theorem value_le_total {a : Arm α} (h : a ∈ arms) : a.value ≤ total arms :=
  List.single_le_sum (fun _ _ => Nat.zero_le _) _ (List.mem_map_of_mem h)

/-- Percentages that sum to 100 leave no number over. -/
theorem selects_of_total (h : total arms = 100) (w : World α) : ∃ i a,
    selected w.random arms = some i ∧ arms[i]? = some a ∧
      (definedStep w (splitOf id mode arms)).2.child = a.child := by
  have hdraw : w.random.floor 101 < 101 := w.random.floor_lt (by omega)
  cases hsel : selected w.random arms with
  | none =>
      rcases selected_eq_none_iff.mp hsel with rfl | hlt
      · cases h
      · omega
  | some i =>
      obtain ⟨a, ha⟩ := exists_arm_of_selected hsel
      exact ⟨i, a, rfl, ha, child_of_some hsel ha⟩

variable (id mode) in
/-- Below 100 the number 100 selects no arm: the nodes of the arms are passed on. -/
theorem not_resolved (hne : arms ≠ []) (h : total arms < 100) : ∃ w : World α,
    ¬ ((∃ a ∈ arms, (definedStep w (splitOf id mode arms)).2.child = a.child) ∨
      nextSteps (definedStep w (splitOf id mode arms)).2.child = [Step.endStep]) := by
  have hdraw : (Draw.of 101 100 (by omega)).floor 101 = 100 := Draw.floor_of (by omega)
  have hnone : selected (drawing (Draw.of 101 100 (by omega)) : World α).random arms = none :=
    selected_eq_none_iff.mpr (.inr (h.trans_eq hdraw.symm))
  refine ⟨drawing (Draw.of 101 100 (by omega)), ?_⟩
  rw [child_of_none hnone]
  rintro (⟨a, ha, heq⟩ | hend)
  · -- an arm is no part of what is below it
    have harm : sizeOf a.step < sizeOf (arms.map Arm.step) :=
      List.sizeOf_lt_of_mem (List.mem_map_of_mem ha)
    have hchild : sizeOf a.child < sizeOf a.step := by
      rw [Arm.step, Step.mk.sizeOf_spec]
      omega
    rw [heq] at harm
    exact absurd (harm.trans hchild) (lt_irrefl _)
  · cases arms with
    | nil => exact hne rfl
    | cons a arms =>
        rw [List.map_cons, nextSteps, if_neg (List.cons_ne_nil _ _)] at hend
        have htype := congrArg Step.type (List.cons.inj hend).1
        cases htype

theorem selectsFairly_of_first {a : Arm α} (h : total (a :: arms) = 100) (ha : a.value = 100) :
    SelectsFairly id mode (a :: arms) := by
  have hrest : total arms = 0 := by
    have heq : total (a :: arms) = a.value + total arms := List.sum_cons
    omega
  refine ⟨fun _ => selects_of_total h, ?_, ?_, fun hlt => absurd h (Nat.ne_of_lt hlt)⟩
  · intro _ w i b hb hzero hsel
    cases i with
    | zero =>
        cases hb
        omega
    | succ i =>
        obtain ⟨_, _, hlt⟩ := Thresholds.pick_eq_some_iff.mp hsel
        have hdraw : w.random.floor 101 < 101 := w.random.floor_lt (by omega)
        have hlt := hlt (Nat.succ_pos i)
        rw [List.map_cons, List.take_succ_cons, List.sum_cons] at hlt
        omega
  · intro _
    refine ⟨101 / 100, fun i b hb => ?_⟩
    cases i with
    | zero =>
        cases hb
        rw [outcomes_zero (by omega), ha]
        norm_num
    | succ i =>
        have hzero : b.value = 0 := by
          have hle := value_le_total (List.mem_of_getElem? (i := i) hb)
          omega
        rw [outcomes_succ hb (by omega), hzero]
        norm_num

/-- The first arm has a number more than it says, so the others are to have none. -/
theorem first_of_proportional {a : Arm α} (h : total (a :: arms) = 100)
    (hfair : ∃ c : ℚ, ∀ (i : Nat) (b : Arm α), (a :: arms)[i]? = some b →
      (outcomes (a :: arms) i : ℚ) = c * b.value) : a.value = 100 := by
  obtain ⟨c, hc⟩ := hfair
  have heq : total (a :: arms) = a.value + total arms := List.sum_cons
  by_contra hne
  obtain ⟨b, hb, hpos⟩ : ∃ b ∈ arms, 0 < b.value := by
    by_contra hall
    have hzero : total arms = 0 := by
      refine List.sum_eq_zero fun v hv => ?_
      obtain ⟨b, hb, rfl⟩ := List.mem_map.mp hv
      exact Nat.eq_zero_of_not_pos fun hpos => hall ⟨b, hb, hpos⟩
    omega
  obtain ⟨i, hi⟩ := List.mem_iff_getElem?.mp hb
  have hone : c = 1 := by
    have hshare := hc (i + 1) b hi
    rw [outcomes_succ hi (by omega)] at hshare
    have hb' : (b.value : ℚ) ≠ 0 := Nat.cast_ne_zero.mpr (by omega)
    exact (mul_eq_right₀ hb').mp hshare.symm
  have hfirst := hc 0 a rfl
  rw [outcomes_zero (by omega), hone, one_mul, Nat.cast_inj] at hfirst
  omega

end

/-- The arms are selected as their percentages say where the first arm has all of the
100, where the percentages sum to more, and where there is no arm. -/
theorem selectsFairly_iff (id : StepId) (mode : Bool) (arms : List (Arm α)) :
    SelectsFairly id mode arms ↔
      arms = [] ∨ 100 < total arms ∨
        (total arms = 100 ∧ arms.head?.map Arm.value = some 100) := by
  constructor
  · intro hfair
    rcases Nat.lt_trichotomy (total arms) 100 with hlt | heq | hgt
    · refine .inl (by_contra fun hne => ?_)
      obtain ⟨w, hw⟩ := not_resolved id mode hne hlt
      exact hw (hfair.resolved hlt w)
    · refine .inr (.inr ⟨heq, ?_⟩)
      cases arms with
      | nil => cases heq
      | cons a arms => exact congrArg some (first_of_proportional heq (hfair.proportional heq))
    · exact .inr (.inl hgt)
  · rintro (rfl | hgt | ⟨heq, hfirst⟩)
    · refine ⟨fun h => (nomatch h), fun h => (nomatch h), fun h => (nomatch h), fun _ w => .inr ?_⟩
      rw [child_of_none (selected_eq_none_iff.mpr (.inl rfl))]
      rfl
    · refine ⟨?_, ?_, ?_, ?_⟩ <;> (intro h; omega)
    · cases arms with
      | nil => cases heq
      | cons a arms => exact selectsFairly_of_first heq (Option.some.inj hfirst)

/-- An arm with nothing below it. -/
def leaf (value : Nat) : Arm α := ⟨.num 2, value, false, []⟩

/-- Two halves have 51 and 50 of the numbers; an arm of 0 percent before the other is
selected by 0; arms of 60 and 39 percent are left by 100. -/
theorem halves_uneven : ¬ SelectsFairly (α := Nat) (.num 1) false [leaf 50, leaf 50] ∧
    ¬ SelectsFairly (α := Nat) (.num 1) false [leaf 0, leaf 100] ∧
    ¬ SelectsFairly (α := Nat) (.num 1) false [leaf 60, leaf 39] := by
  refine ⟨fun h => ?_, fun h => ?_, fun h => ?_⟩
  · obtain ⟨c, hc⟩ := h.proportional rfl
    have hfirst : ((51 : Nat) : ℚ) = c * (50 : Nat) := by
      calc ((51 : Nat) : ℚ) = (outcomes [leaf 50, leaf 50] 0 : ℚ) :=
            congrArg Nat.cast (outcomes_zero (a := leaf 50) (by decide)).symm
        _ = c * (50 : Nat) := hc 0 (leaf 50) rfl
    have hsecond : ((50 : Nat) : ℚ) = c * (50 : Nat) := by
      calc ((50 : Nat) : ℚ) = (outcomes [leaf 50, leaf 50] 1 : ℚ) :=
            congrArg Nat.cast (outcomes_succ (a := leaf 50) rfl (by decide)).symm
        _ = c * (50 : Nat) := hc 1 (leaf 50) rfl
    exact absurd (Nat.cast_injective (hfirst.trans hsecond.symm)) (by decide)
  · have hdraw : (Draw.of 101 0 (by omega)).floor 101 = 0 := Draw.floor_of (by omega)
    refine h.zero rfl (drawing (Draw.of 101 0 (by omega))) 0 (leaf 0) rfl rfl ?_
    rw [selected, drawing, hdraw]
    rfl
  · obtain ⟨w, hw⟩ := not_resolved (.num 1) false
      (List.cons_ne_nil (leaf 60 : Arm Nat) [leaf 39]) (by decide)
    exact hw (h.resolved (by decide) w)

end OpenBms.MessageTrigger
