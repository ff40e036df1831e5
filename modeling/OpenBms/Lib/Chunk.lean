/-
# `OpenBms.Lib.Chunk` — a list in slices of a fixed length

The loop

    for (let i = 0; i < l.length; i += n) push(l.slice(i, i + n))

**Proved here**, for `0 < n`.

    one slice at a time (`chunk_cons`)
    the slices are the list (`flatten_chunk`)
    none is empty (`chunk_ne_nil`)
    there is one slice exactly when there is something
    and it fits (`chunk_eq_singleton_iff`)
    what is counted once for each slice of a slice (`sum_slices_eq_one_iff`)
-/
import Mathlib

namespace Chunk

variable {α : Type}

/-- At most `k` turns of the loop. -/
def slices (n : Nat) : Nat → List α → List (List α)
  | 0, _ => []
  | _ + 1, [] => []
  | k + 1, a :: l => (a :: l).take n :: slices n k ((a :: l).drop n)

def chunk (n : Nat) (l : List α) : List (List α) := slices n l.length l

theorem slices_nil (n k : Nat) : slices n k ([] : List α) = [] := by
  cases k <;> rfl

theorem chunk_nil (n : Nat) : chunk n ([] : List α) = [] := rfl

/-- More turns than the list is long change nothing. -/
theorem slices_stable {n : Nat} (hn : 0 < n) : ∀ {k j : Nat} {l : List α}, l.length ≤ k →
    l.length ≤ j → slices n k l = slices n j l := by
  intro k
  induction k with
  | zero =>
      intro j l hk _
      obtain rfl := List.length_eq_zero_iff.mp (Nat.le_zero.mp hk)
      rw [slices_nil, slices_nil]
  | succ k ih =>
      intro j l hk hj
      cases l with
      | nil => rw [slices_nil, slices_nil]
      | cons a l =>
          simp only [List.length_cons] at hk hj
          cases j with
          | zero => omega
          | succ j =>
              have hdrop : ((a :: l).drop n).length ≤ l.length := by
                simp only [List.length_drop, List.length_cons]
                omega
              simp only [slices]
              rw [ih (j := j) (by omega) (by omega)]

theorem chunk_cons {n : Nat} (hn : 0 < n) {l : List α} (hl : l ≠ []) :
    chunk n l = l.take n :: chunk n (l.drop n) := by
  cases l with
  | nil => exact absurd rfl hl
  | cons a l =>
      have hdrop : ((a :: l).drop n).length ≤ l.length := by
        simp only [List.length_drop, List.length_cons]
        omega
      simp only [chunk, List.length_cons, slices]
      rw [slices_stable hn hdrop (Nat.le_refl _)]

/-- Induction along the slices. -/
theorem chunk_induction {n : Nat} (hn : 0 < n) {P : List α → Prop} (nil : P [])
    (cons : ∀ l, l ≠ [] → P (l.drop n) → P l) : ∀ l, P l := by
  have key : ∀ (k : Nat) (l : List α), l.length ≤ k → P l := by
    intro k
    induction k with
    | zero =>
        intro l hk
        obtain rfl := List.length_eq_zero_iff.mp (Nat.le_zero.mp hk)
        exact nil
    | succ k ih =>
        intro l hk
        by_cases hl : l = []
        · exact hl ▸ nil
        · have hpos : 0 < l.length := List.length_pos_of_ne_nil hl
          refine cons l hl (ih _ ?_)
          simp only [List.length_drop]
          omega
  exact fun l => key l.length l (Nat.le_refl _)

theorem flatten_chunk {n : Nat} (hn : 0 < n) (l : List α) : (chunk n l).flatten = l := by
  induction l using chunk_induction hn with
  | nil => rfl
  | cons l hl ih => rw [chunk_cons hn hl, List.flatten_cons, ih, List.take_append_drop]

theorem chunk_ne_nil {n : Nat} (hn : 0 < n) (l : List α) : ∀ c ∈ chunk n l, c ≠ [] := by
  induction l using chunk_induction hn with
  | nil => exact fun _ h => nomatch h
  | cons l hl ih =>
      intro c hc
      rw [chunk_cons hn hl] at hc
      rcases List.mem_cons.mp hc with rfl | hc
      · simp only [ne_eq, List.take_eq_nil_iff, not_or]
        exact ⟨by omega, hl⟩
      · exact ih c hc

theorem chunk_eq_nil_iff {n : Nat} (hn : 0 < n) {l : List α} : chunk n l = [] ↔ l = [] := by
  constructor
  · intro h
    by_contra hl
    rw [chunk_cons hn hl] at h
    exact nomatch h
  · rintro rfl
    rfl

/-- One slice: there is something, and it fits. -/
theorem chunk_eq_singleton_iff {n : Nat} (hn : 0 < n) {l : List α} :
    (chunk n l).length = 1 ↔ l ≠ [] ∧ l.length ≤ n := by
  by_cases hl : l = []
  · subst hl
    simp [chunk_nil]
  · rw [chunk_cons hn hl, List.length_cons, Nat.add_eq_right, List.length_eq_zero_iff,
      chunk_eq_nil_iff hn, List.drop_eq_nil_iff]
    exact ⟨fun h => ⟨hl, h⟩, fun h => h.2⟩

theorem chunk_eq_self {n : Nat} (hn : 0 < n) {l : List α} (hl : l ≠ []) (h : l.length ≤ n) :
    chunk n l = [l] := by
  rw [chunk_cons hn hl, List.take_of_length_le h, List.drop_eq_nil_of_le h, chunk_nil]

/-- A non-empty list has a slice. -/
theorem chunk_length_pos {n : Nat} (hn : 0 < n) {l : List α} (hl : l ≠ []) :
    0 < (chunk n l).length :=
  List.length_pos_of_ne_nil ((chunk_eq_nil_iff hn).not.mpr hl)

theorem two_le_chunk_length {n : Nat} (hn : 0 < n) {l : List α} (h : n < l.length) :
    2 ≤ (chunk n l).length := by
  have hl : l ≠ [] := List.ne_nil_of_length_pos (by omega)
  have hpos := chunk_length_pos hn hl
  have hone : (chunk n l).length ≠ 1 := fun h1 => by
    have hfits := ((chunk_eq_singleton_iff hn).mp h1).2
    omega
  omega

section
variable [DecidableEq α]

theorem sum_count_chunk {n : Nat} (hn : 0 < n) (a : α) (l : List α) :
    ((chunk n l).map fun m => m.count a).sum = l.count a := by
  rw [← List.count_flatten, flatten_chunk hn]

/-- Every slice of `n` weighed once for each of its slices of `k`: every element
weighs one exactly when the list fits into `k`, repeats nothing, and each element
weighs one by itself. -/
theorem sum_slices_eq_one_iff {n k : Nat} (hk : 0 < k) (hkn : k < n) (w : α → Nat) (l : List α) :
    (∀ a ∈ l, ((chunk n l).map fun m => (chunk k m).length * (m.count a * w a)).sum = 1) ↔
      l.length ≤ k ∧ l.Nodup ∧ ∀ a ∈ l, w a = 1 := by
  have hn : 0 < n := Nat.lt_trans hk hkn
  by_cases hl : l = []
  · subst hl
    simp
  constructor
  · intro h
    have hle : ∀ a, l.count a * w a
        ≤ ((chunk n l).map fun m => (chunk k m).length * (m.count a * w a)).sum := by
      intro a
      rw [← sum_count_chunk hn a l, ← List.sum_map_mul_right]
      refine List.sum_le_sum fun m hm => ?_
      exact Nat.le_mul_of_pos_left _ (chunk_length_pos hk (chunk_ne_nil hn l m hm))
    have hone : ∀ a ∈ l, l.count a = 1 ∧ w a = 1 := by
      intro a ha
      have hcount : 0 < l.count a := List.count_pos_iff.mpr ha
      have hw : 0 < w a := by
        rcases Nat.eq_zero_or_pos (w a) with h0 | hpos
        · have hsum := h a ha
          simp [h0] at hsum
        · exact hpos
      have hprod : l.count a * w a = 1 :=
        Nat.le_antisymm ((hle a).trans_eq (h a ha)) (Nat.mul_pos hcount hw)
      exact mul_eq_one.mp hprod
    refine ⟨?_, ?_, fun a ha => (hone a ha).2⟩
    · -- a first slice that does not fit counts its first element twice
      by_contra hlong
      obtain ⟨b, r, rfl⟩ := List.exists_cons_of_ne_nil hl
      have hb := h b List.mem_cons_self
      rw [chunk_cons hn hl, List.map_cons, List.sum_cons, (hone b List.mem_cons_self).2] at hb
      have hfirst : 2 ≤ (chunk k ((b :: r).take n)).length :=
        two_le_chunk_length hk (by rw [List.length_take]; omega)
      have hmem : 0 < ((b :: r).take n).count b := by
        refine List.count_pos_iff.mpr ?_
        rw [List.take_cons hn]
        exact List.mem_cons_self
      have htwo : 2 * 1 ≤ (chunk k ((b :: r).take n)).length * (((b :: r).take n).count b * 1) :=
        Nat.mul_le_mul hfirst (by omega)
      omega
    · exact List.nodup_iff_count_le_one.mpr fun a => by
        by_cases ha : a ∈ l
        · exact (hone a ha).1.le
        · rw [List.count_eq_zero_of_not_mem ha]
          exact Nat.zero_le _
  · rintro ⟨hfit, hnodup, hw⟩ a ha
    rw [chunk_eq_self hn hl (hfit.trans hkn.le)]
    simp [chunk_eq_self hk hl hfit, List.count_eq_one_of_mem hnodup ha, hw a ha]

end

end Chunk
