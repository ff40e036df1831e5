/-
# `OpenBms.Lib.Timeline` — pages of two sorted lists that are merged

Two sources, each sorted, are put behind one another, sorted by a stable sort, and a page is cut
out.  Where only a first part of each source is there, the merged list begins as it does with
all of them, as far as the shorter part goes.

**Proved here**, for a total and transitive relation.

    sorting the two behind one another merges them (`insertionSort_append`)
    a first part of each gives the first part of both (`take_insertionSort_append`)
    pages one after the other are a first part (`flatMap_slices`)
-/
import Mathlib

namespace Timeline

variable {α : Type} (r : α → α → Prop) [DecidableRel r]

/-- The merge that takes the left one where both may come first. -/
abbrev merge (l l' : List α) : List α := l.merge l' (r · ·)

/-- `slice((page - 1) * n, page * n)`, of the pages from 0 on. -/
def slice (n page : Nat) (l : List α) : List α := (l.take ((page + 1) * n)).drop (page * n)

variable {r}

/-- An element that may come before the whole left list is merged in front of it. -/
theorem orderedInsert_merge (htrans : ∀ a b c, r a b → r b c → r a c) {a : α} {l : List α}
    (hl : ∀ b ∈ l, r a b) (l' : List α) :
    (merge r l l').orderedInsert r a = merge r (a :: l) l' := by
  induction l' with
  | nil =>
      rw [merge, merge, List.merge_right, List.merge_right]
      cases l with
      | nil => rfl
      | cons b l => exact List.orderedInsert_cons_of_le r l (hl b List.mem_cons_self)
  | cons b l' ih =>
      by_cases hab : r a b
      · rw [merge, merge, List.cons_merge_cons_pos _ _ _ (decide_eq_true hab)]
        cases l with
        | nil =>
            rw [List.nil_merge]
            exact List.orderedInsert_cons_of_le r _ hab
        | cons c l =>
            rw [List.cons_merge_cons]
            split
            · exact List.orderedInsert_cons_of_le r _ (hl c List.mem_cons_self)
            · exact List.orderedInsert_cons_of_le r _ hab
      · have hneg : ¬ decide (r a b) = true := fun h => hab (of_decide_eq_true h)
        have hrest : merge r l (b :: l') = b :: merge r l l' := by
          cases l with
          | nil => rw [merge, merge, List.nil_merge, List.nil_merge]
          | cons c l =>
              have hcb : ¬ decide (r c b) = true := fun h =>
                hab (htrans a c b (hl c List.mem_cons_self) (of_decide_eq_true h))
              exact List.cons_merge_cons_neg _ _ _ hcb
        rw [hrest, List.orderedInsert_of_not_le r _ hab, ih]
        exact (List.cons_merge_cons_neg _ _ _ hneg).symm

theorem insertionSort_append (htrans : ∀ a b c, r a b → r b c → r a c) {l l' : List α}
    (hl : l.Pairwise r) (hl' : l'.Pairwise r) :
    (l ++ l').insertionSort r = merge r l l' := by
  induction l with
  | nil =>
      rw [List.nil_append, hl'.insertionSort_eq]
      exact (List.nil_merge l').symm
  | cons a l ih =>
      obtain ⟨ha, hrest⟩ := List.pairwise_cons.mp hl
      rw [List.cons_append, List.insertionSort_cons, ih hrest, orderedInsert_merge htrans ha]

theorem take_merge (m : Nat) : ∀ {l l' : List α} {i j : Nat}, m ≤ i → m ≤ j →
    (merge r (l.take i) (l'.take j)).take m = (merge r l l').take m := by
  induction m with
  | zero => exact fun _ _ => rfl
  | succ m ih =>
      intro l l' i j hi hj
      obtain ⟨i, rfl⟩ : ∃ k, i = k + 1 := ⟨i - 1, by omega⟩
      obtain ⟨j, rfl⟩ : ∃ k, j = k + 1 := ⟨j - 1, by omega⟩
      cases l with
      | nil => rw [List.take_nil, merge, merge, List.nil_merge, List.nil_merge, List.take_take,
          Nat.min_eq_left hj]
      | cons a l =>
          cases l' with
          | nil => rw [List.take_nil, merge, merge, List.merge_right, List.merge_right,
              List.take_take, Nat.min_eq_left hi]
          | cons b l' =>
              rw [List.take_succ_cons, List.take_succ_cons, merge, merge, List.cons_merge_cons,
                List.cons_merge_cons]
              split
              · rw [List.take_succ_cons, List.take_succ_cons]
                have hstep := @ih l (b :: l') i (j + 1) (by omega) (by omega)
                exact congrArg (a :: ·) hstep
              · rw [List.take_succ_cons, List.take_succ_cons]
                have hstep := @ih (a :: l) l' (i + 1) j (by omega) (by omega)
                exact congrArg (b :: ·) hstep

/-- A first part of each sorted list gives the first part of both. -/
theorem take_insertionSort_append (htrans : ∀ a b c, r a b → r b c → r a c) {l l' : List α}
    (hl : l.Pairwise r) (hl' : l'.Pairwise r) (m : Nat) :
    ((l.take m ++ l'.take m).insertionSort r).take m = ((l ++ l').insertionSort r).take m := by
  rw [insertionSort_append htrans (hl.sublist (List.take_sublist m l))
    (hl'.sublist (List.take_sublist m l')), insertionSort_append htrans hl hl']
  exact take_merge m (Nat.le_refl m) (Nat.le_refl m)

/-- The first pages, one after the other, are the first part of the list. -/
theorem flatMap_slices (n : Nat) (l : List α) (k : Nat) :
    ((List.range k).flatMap fun page => slice n page l) = l.take (k * n) := by
  induction k with
  | zero => rw [Nat.zero_mul, List.take_zero, List.range_zero, List.flatMap_nil]
  | succ k ih =>
      have hfirst : l.take (k * n) = (l.take ((k + 1) * n)).take (k * n) := by
        rw [List.take_take, Nat.min_eq_left (Nat.mul_le_mul_right n (Nat.le_succ k))]
      rw [List.range_succ, List.flatMap_append, ih, List.flatMap_singleton, slice, hfirst,
        List.take_append_drop]

end Timeline
