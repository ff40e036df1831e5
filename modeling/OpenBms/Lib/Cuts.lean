/-
# `OpenBms.Lib.Cuts` — an ordered list cut at some of its places

Cut points in descending order bound stretches `(next, cut]`; the lowest stretch
reaches down to a given floor.

**Proved here.**

    a point above the floor and up to the highest cut is in
    one stretch, any other point in none (`countP_within_stretches`)
    stretches of images (`stretches_map`)
    what the picks of a position are (`picks_concat`, `picks_eq_map`)
    picks that hold below are a first part (`filter_range'_eq`)
    one pick when only the last place is picked (`picks_last`)
    how many elements lie between two places (`countP_between`)
-/
import Mathlib

namespace Cuts

/-! ## Stretches between descending cuts -/

section Stretches

variable {α β : Type}

/-- The stretches below each cut; the last one ends at the floor `a`. -/
@[grind =] def stretches (a : α) : List α → List (α × α)
  | [] => []
  | t :: ts => (ts.headD a, t) :: stretches a ts

theorem stretches_concat (a x : α) (ts : List α) :
    stretches a (ts ++ [x]) = stretches x ts ++ [(a, x)] := by
  induction ts with
  | nil => rfl
  | cons t ts ih =>
      have hhead : (ts ++ [x]).headD a = ts.headD x := by cases ts <;> rfl
      simp only [List.cons_append, stretches, ih, hhead]

theorem stretches_map (f : α → β) (a : α) (ts : List α) :
    stretches (f a) (ts.map f) = (stretches a ts).map (Prod.map f f) := by
  induction ts with
  | nil => rfl
  | cons t ts ih =>
      have hhead : (ts.map f).headD (f a) = f (ts.headD a) := by cases ts <;> rfl
      simp only [List.map_cons, stretches, ih, hhead, Prod.map_apply]

theorem upper_mem_of_mem_stretches {a : α} {ts : List α} {r : α × α} (hr : r ∈ stretches a ts) :
    r.2 ∈ ts := by
  induction ts with
  | nil => cases hr
  | cons t ts ih =>
      rcases List.mem_cons.mp hr with rfl | hr
      · exact List.mem_cons_self
      · exact List.mem_cons_of_mem _ (ih hr)

/-- A list made from each cut and its index is related to the stretches when each entry is
to the stretch below its cut. -/
theorem forall₂_stretches {R : β → α × α → Prop} (f : α → Nat → β) {a : α} {ts : List α} {n : Nat}
    (h : ∀ (i : Nat) (hi : i < ts.length), R (f ts[i] (n + i)) (ts[i + 1]?.getD a, ts[i])) :
    List.Forall₂ R ((ts.zipIdx n).map fun x => f x.1 x.2) (stretches a ts) := by
  induction ts generalizing n with
  | nil => exact List.Forall₂.nil
  | cons t ts ih =>
      have hhead : ts.headD a = (t :: ts)[0 + 1]?.getD a := by cases ts <;> rfl
      rw [List.zipIdx_cons, List.map_cons, stretches, hhead]
      refine List.Forall₂.cons (h 0 (Nat.succ_pos _)) (ih fun i hi => ?_)
      have hnext := h (i + 1) (Nat.succ_lt_succ hi)
      rwa [← Nat.add_assoc, Nat.add_right_comm] at hnext

variable [LinearOrder α]

def within (o : α) (r : α × α) : Bool := decide (r.1 < o) && decide (o ≤ r.2)

theorem within_iff {o : α} {r : α × α} : within o r = true ↔ r.1 < o ∧ o ≤ r.2 := by
  simp only [within, Bool.and_eq_true, decide_eq_true_eq]

theorem headD_le {a t : α} {ts : List α} (hs : (t :: ts).Pairwise (· > ·)) (ha : a < t) :
    ts.headD a < t := by
  cases ts with
  | nil => exact ha
  | cons u us => exact List.rel_of_pairwise_cons hs List.mem_cons_self

/-- A stretch is not empty when the cuts descend above the floor. -/
theorem lower_lt_upper {a : α} {ts : List α} (hs : ts.Pairwise (· > ·)) (ha : ∀ t ∈ ts, a < t)
    {r : α × α} (hr : r ∈ stretches a ts) : r.1 < r.2 := by
  induction ts with
  | nil => cases hr
  | cons t ts ih =>
      rcases List.mem_cons.mp hr with rfl | hr
      · exact headD_le hs (ha t List.mem_cons_self)
      · exact ih hs.of_cons (fun u hu => ha u (List.mem_cons_of_mem _ hu)) hr

/-- The stretches split what lies above the floor and up to the highest cut. -/
theorem countP_within_stretches {a : α} {ts : List α} (hs : ts.Pairwise (· > ·))
    (ha : ∀ t ∈ ts, a < t) (o : α) :
    (stretches a ts).countP (within o) = if a < o ∧ o ≤ ts.headD a then 1 else 0 := by
  induction ts with
  | nil =>
      rw [if_neg (fun h => absurd h.1 (not_lt.mpr h.2))]
      rfl
  | cons t ts ih =>
      have hts : ∀ u ∈ ts, a < u := fun u hu => ha u (List.mem_cons_of_mem _ hu)
      have hlt : ts.headD a < t := headD_le hs (ha t List.mem_cons_self)
      have hle : a ≤ ts.headD a := by
        cases ts with
        | nil => exact le_refl _
        | cons u us => exact (hts u List.mem_cons_self).le
      rw [stretches, List.countP_cons, ih hs.of_cons hts]
      simp only [within_iff, List.headD_cons]
      rcases lt_or_ge (ts.headD a) o with ho | ho
      · rw [if_neg (fun h => absurd h.2 (not_le.mpr ho))]
        simp only [ho, true_and, hle.trans_lt ho, Nat.zero_add]
      · simp only [ho, and_true, not_lt.mpr ho, if_false, Nat.add_zero, ho.trans hlt.le]

end Stretches

/-! ## The elements at picked positions

Positions are counted from 1. -/

section Picks

variable {α : Type}

@[grind =] def picks (p : Nat → Bool) (l : List α) : List α :=
  ((l.zipIdx 1).filter fun x => p x.2).map Prod.fst

theorem picks_concat (p : Nat → Bool) (l : List α) (x : α) :
    picks p (l ++ [x]) = picks p l ++ if p (l.length + 1) then [x] else [] := by
  have hlast : ([x] : List α).zipIdx (1 + l.length) = [(x, l.length + 1)] := by
    rw [List.zipIdx_cons, List.zipIdx_nil, Nat.add_comm]
  rw [picks, List.zipIdx_append, List.filter_append, List.map_append, hlast]
  by_cases hp : p (l.length + 1) = true <;> simp [picks, hp]

theorem picks_sublist (p : Nat → Bool) (l : List α) : (picks p l).Sublist l := by
  have h := (List.filter_sublist (p := fun x : α × Nat => p x.2) (l := l.zipIdx 1)).map Prod.fst
  rwa [List.zipIdx_map_fst] at h

theorem picks_eq_nil {p : Nat → Bool} {l : List α}
    (h : ∀ j, 0 < j → j ≤ l.length → p j = false) : picks p l = [] := by
  induction l using List.reverseRecOn with
  | nil => rfl
  | append_singleton l x ih =>
      have hlen : (l ++ [x]).length = l.length + 1 := List.length_append
      rw [picks_concat, h (l.length + 1) (Nat.succ_pos _) (by omega),
        ih (fun j hj hl => h j hj (by omega))]
      rfl

theorem picks_last {p : Nat → Bool} {l : List α} {x : α}
    (hlast : p (l.length + 1) = true) (h : ∀ j, 0 < j → j ≤ l.length → p j = false) :
    picks p (l ++ [x]) = [x] := by
  rw [picks_concat, picks_eq_nil h, hlast]
  rfl

/-- A picked position's element is among the picks. -/
theorem getElem_mem_picks {p : Nat → Bool} {l : List α} {i : Nat} (hi : i < l.length)
    (hp : p (i + 1) = true) : l[i] ∈ picks p l := by
  induction l using List.reverseRecOn with
  | nil => cases hi
  | append_singleton l x ih =>
      rw [picks_concat]
      have hlen : (l ++ [x]).length = l.length + 1 := List.length_append
      rcases Nat.lt_or_ge i l.length with hlt | hge
      · rw [List.getElem_append_left hlt]
        exact List.mem_append_left _ (ih hlt)
      · obtain rfl : i = l.length := by omega
        rw [hp]
        exact List.mem_append_right _ (by simp)

/-- `0` stands for the floor `a`, `j` for the element at position `j`. -/
@[grind =] def place (a : α) (l : List α) (j : Nat) : α := (a :: l).getD j a

theorem place_succ (a : α) {l : List α} {i : Nat} (hi : i < l.length) :
    place a l (i + 1) = l[i] := by
  simp only [place, List.getD_cons_succ, List.getD_eq_getElem _ _ hi]

theorem picks_eq_map (p : Nat → Bool) (a : α) (l : List α) :
    picks p l = ((List.range' 1 l.length).filter p).map (place a l) := by
  induction l using List.reverseRecOn with
  | nil => rfl
  | append_singleton l x ih =>
      have hplace : ∀ j, j ≤ l.length → place a (l ++ [x]) j = place a l j := by
        intro j hj
        cases j with
        | zero => rfl
        | succ i =>
            have hlen : (l ++ [x]).length = l.length + 1 := List.length_append
            rw [place_succ a (by omega : i < l.length), place_succ a (by omega : i < _),
              List.getElem_append_left]
      have hx : place a (l ++ [x]) (l.length + 1) = x := by
        have hlen : (l ++ [x]).length = l.length + 1 := List.length_append
        rw [place_succ a (by omega : l.length < _), List.getElem_concat_length rfl]
      rw [picks_concat, ih, List.length_append, List.length_singleton, List.range'_concat,
        List.filter_append, List.map_append]
      congr 1
      · refine List.map_congr_left fun j hj => (hplace j ?_).symm
        have := List.mem_range'_1.mp (List.mem_of_mem_filter hj)
        omega
      · rw [Nat.one_mul, Nat.add_comm 1]
        by_cases hp : p (l.length + 1) = true <;> simp [hp, hx]

/-- A predicate that holds below wherever it holds keeps a first part. -/
theorem filter_range'_eq {p : Nat → Bool} {n : Nat}
    (hp : ∀ i j, 0 < i → i ≤ j → j ≤ n → p j = true → p i = true) :
    (List.range' 1 n).filter p = List.range' 1 ((List.range' 1 n).countP p) := by
  induction n with
  | zero => rfl
  | succ n ih =>
      have hlast : List.range' 1 (n + 1) = List.range' 1 n ++ [n + 1] := by
        rw [List.range'_concat, Nat.one_mul, Nat.add_comm 1]
      by_cases h : p (n + 1) = true
      · have hall : ∀ i ∈ List.range' 1 (n + 1), p i = true := by
          intro i hi
          have hmem := List.mem_range'_1.mp hi
          exact hp i (n + 1) (by omega) (by omega) (le_refl _) h
        rw [List.filter_eq_self.mpr hall, List.countP_eq_length.mpr hall, List.length_range']
      · have hn := ih fun i j hi hij hj => hp i j hi hij (by omega)
        rw [hlast, List.filter_append, List.countP_append, hn]
        simp [h]

end Picks

/-! ## How many lie between two places -/

section Between

variable {α : Type} [LinearOrder α]

theorem place_mono {a : α} {l : List α} (hs : (a :: l).Pairwise (· < ·)) {i j : Nat} (hij : i < j)
    (hj : j ≤ l.length) : place a l i < place a l j := by
  have hj' : j < (a :: l).length := Nat.lt_succ_of_le hj
  simp only [place, List.getD_eq_getElem _ _ hj', List.getD_eq_getElem _ _ (hij.trans hj')]
  exact List.pairwise_iff_getElem.mp hs _ _ _ hj' hij

/-- Up to a place, as many as its position says. -/
theorem countP_le_place {a : α} {l : List α} (hs : (a :: l).Pairwise (· < ·)) {j : Nat}
    (hj : j ≤ l.length) : l.countP (fun o => decide (o ≤ place a l j)) = j := by
  have hsplit : l = l.take j ++ l.drop j := (List.take_append_drop j l).symm
  have hget : ∀ (i : Nat) (hi : i < l.length), l[i] = place a l (i + 1) :=
    fun i hi => (place_succ a hi).symm
  have htake : (l.take j).countP (fun o => decide (o ≤ place a l j)) = j := by
    rw [List.countP_eq_length.mpr, List.length_take, Nat.min_eq_left hj]
    intro o ho
    obtain ⟨i, hi, rfl⟩ := List.getElem_of_mem ho
    have hij : i < j := lt_of_lt_of_le hi (List.length_take_le _ _)
    rw [List.getElem_take, hget i (by omega), decide_eq_true_eq]
    rcases Nat.lt_or_ge (i + 1) j with h | h
    · exact (place_mono hs h hj).le
    · exact le_of_eq (congrArg _ (by omega))
  have hdrop : (l.drop j).countP (fun o => decide (o ≤ place a l j)) = 0 := by
    rw [List.countP_eq_zero]
    intro o ho
    obtain ⟨i, hi, rfl⟩ := List.getElem_of_mem ho
    rw [List.length_drop] at hi
    rw [List.getElem_drop, hget (j + i) (by omega), decide_eq_true_eq, not_le]
    exact place_mono hs (by omega) (by omega)
  calc l.countP (fun o => decide (o ≤ place a l j))
      = (l.take j ++ l.drop j).countP (fun o => decide (o ≤ place a l j)) := by rw [← hsplit]
    _ = j := by rw [List.countP_append, htake, hdrop, Nat.add_zero]

theorem countP_within_add {l : List α} {lo hi : α} (h : lo ≤ hi) :
    l.countP (fun o => within o (lo, hi)) + l.countP (fun o => decide (o ≤ lo)) =
      l.countP (fun o => decide (o ≤ hi)) := by
  induction l with
  | nil => rfl
  | cons o l ih =>
      simp only [List.countP_cons, within_iff, decide_eq_true_eq]
      rcases le_or_gt o lo with ho | ho
      · simp only [ho, not_lt.mpr ho, false_and, if_false, if_true, ho.trans h]
        omega
      · simp only [ho, true_and, not_le.mpr ho, if_false]
        omega

theorem countP_between {a : α} {l : List α} (hs : (a :: l).Pairwise (· < ·)) {i j : Nat}
    (hij : i ≤ j) (hj : j ≤ l.length) :
    l.countP (fun o => within o (place a l i, place a l j)) = j - i := by
  have hle : place a l i ≤ place a l j := by
    rcases Nat.lt_or_ge i j with h | h
    · exact (place_mono hs h hj).le
    · exact le_of_eq (congrArg _ (by omega))
  have hadd := countP_within_add (l := l) hle
  rw [countP_le_place hs hj, countP_le_place hs (hij.trans hj)] at hadd
  omega

end Between

end Cuts
