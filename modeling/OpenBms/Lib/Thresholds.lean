/-
# `OpenBms.Lib.Thresholds` — picking by cumulative thresholds

    let below = 0;
    for (let i = 0; i < weights.length; i++) {
      below += weights[i];
      if (draw <= below) return i;
    }

Every weight but the first is picked by as many draws as it says: the draws above
the sum of the weights before it, up to that sum with it.  The first is picked by
the draw 0 as well.

**Proved here.**

    which draws pick a weight (`pick_eq_some_iff`)
    which draws pick none (`pick_eq_none_iff`)
    the first weight is picked once too often (`share_zero`)
    the others as often as they say (`share_succ`)
-/
import Mathlib

namespace Thresholds

/-- The index of the first weight whose sum with those before it reaches the draw. -/
def pick (draw : Nat) : Nat → List Nat → Option Nat
  | _, [] => none
  | below, w :: ws =>
      if draw ≤ below + w then some 0 else (pick draw (below + w) ws).map (· + 1)

theorem pick_eq_some_iff {draw i : Nat} {ws : List Nat} {below : Nat} :
    pick draw below ws = some i ↔
      i < ws.length ∧ draw ≤ below + (ws.take (i + 1)).sum ∧
        (0 < i → below + (ws.take i).sum < draw) := by
  induction ws generalizing below i with
  | nil => simp only [pick, reduceCtorEq, List.length_nil, Nat.not_lt_zero, false_and]
  | cons w ws ih =>
      rw [pick]
      split
      · rename_i hle
        cases i with
        | zero => simp [hle]
        | succ i =>
            simp only [List.take_succ_cons, List.sum_cons, Option.some.injEq]
            omega
      · rename_i hgt
        cases i with
        | zero =>
            simp only [List.take_succ_cons, List.sum_cons, List.take_zero, List.sum_nil,
              Option.map_eq_some_iff]
            constructor
            · rintro ⟨j, _, hj⟩
              omega
            · rintro ⟨_, hle, _⟩
              exact absurd (by omega) hgt
        | succ i =>
            simp only [Option.map_eq_some_iff, Nat.add_right_cancel_iff, exists_eq_right, ih,
              List.take_succ_cons, List.sum_cons, List.length_cons, Nat.add_lt_add_iff_right,
              ← Nat.add_assoc]
            refine and_congr_right fun _ => and_congr_right fun _ => ?_
            cases i with
            | zero =>
                simp only [List.take_zero, List.sum_nil]
                omega
            | succ i => simp only [Nat.succ_pos, true_imp_iff]

theorem pick_eq_none_iff {draw : Nat} {ws : List Nat} {below : Nat} :
    pick draw below ws = none ↔ ws = [] ∨ below + ws.sum < draw := by
  induction ws generalizing below with
  | nil => simp only [pick, true_or]
  | cons w ws ih =>
      rw [pick]
      split
      · simp only [List.sum_cons, reduceCtorEq, false_or, false_iff]
        omega
      · rename_i hgt
        rw [Option.map_eq_none_iff, ih]
        simp only [List.sum_cons, reduceCtorEq, false_or]
        constructor
        · rintro (rfl | hlt)
          · simpa only [List.sum_nil, Nat.add_zero, Nat.not_le] using hgt
          · omega
        · intro hlt
          exact .inr (by omega)

/-! ## How many draws pick a weight -/

/-- How many of the draws below `n` pick the weight. -/
def share (n : Nat) (ws : List Nat) (i : Nat) : Nat :=
  ((Finset.range n).filter fun draw => pick draw 0 ws = some i).card

/-- The draws from 0 on, up to the first weight. -/
theorem share_zero {n w : Nat} {ws : List Nat} (h : w < n) : share n (w :: ws) 0 = w + 1 := by
  have heq : (Finset.range n).filter (fun draw => pick draw 0 (w :: ws) = some 0) =
      Finset.range (w + 1) := by
    ext draw
    simp only [Finset.mem_filter, Finset.mem_range, pick_eq_some_iff, List.take_succ_cons,
      List.take_zero, List.sum_cons, List.sum_nil, List.length_cons]
    omega
  rw [share, heq, Finset.card_range]

/-- The draws above the weights before it, up to their sum with it. -/
theorem share_succ {n i v : Nat} {ws : List Nat} (hi : ws[i + 1]? = some v)
    (h : ws.sum < n) : share n ws (i + 1) = v := by
  obtain ⟨hlen, hv⟩ := List.getElem?_eq_some_iff.mp hi
  have hsum : (ws.take (i + 1 + 1)).sum = (ws.take (i + 1)).sum + v := by
    rw [List.sum_take_succ _ _ hlen, hv]
  have hle : (ws.take (i + 1 + 1)).sum ≤ ws.sum :=
    (List.take_sublist _ _).sum_le_sum fun _ _ => Nat.zero_le _
  have heq : (Finset.range n).filter (fun draw => pick draw 0 ws = some (i + 1)) =
      Finset.Ioc (ws.take (i + 1)).sum (ws.take (i + 1 + 1)).sum := by
    ext draw
    simp only [Finset.mem_filter, Finset.mem_range, pick_eq_some_iff, Finset.mem_Ioc,
      Nat.zero_add, Nat.succ_pos, true_imp_iff]
    omega
  rw [share, heq, Nat.card_Ioc]
  omega

end Thresholds
