/-
# `OpenBms.Lib.Split` — texts taken apart at a separator

A text is a list of characters.  `split` takes it apart at every separator, `cut` at the
first; `join` writes parts with a separator between them.

**Proved here.**

    what stands before a separator and after it is split apart (`split_append`)
    parts without the separator are read back (`split_join`)
    a text is cut where its first part ends (`cut_append`)
-/
import Mathlib

namespace Split

variable {c : Char} {a b : List Char}

/-- The parts between the separators: `text.split(c)`. -/
@[grind =] def split (c : Char) : List Char → List (List Char)
  | [] => [[]]
  | x :: xs =>
      if x = c then [] :: split c xs
      else match split c xs with
        | [] => [[x]]
        | part :: parts => (x :: part) :: parts

/-- What stands before the first separator, and what stands after it, if there is one. -/
@[grind =] def cut (c : Char) : List Char → List Char × Option (List Char)
  | [] => ([], none)
  | x :: xs =>
      if x = c then ([], some xs)
      else ((x :: (cut c xs).1), (cut c xs).2)

/-- The parts with a separator between them. -/
def join (c : Char) : List (List Char) → List Char
  | [] => []
  | [part] => part
  | part :: parts => part ++ c :: join c parts

theorem split_ne_nil : split c a ≠ [] := by
  cases a with
  | nil => exact List.cons_ne_nil _ _
  | cons x xs =>
      simp only [split]
      split
      · exact List.cons_ne_nil _ _
      · split
        · exact List.cons_ne_nil _ _
        · exact List.cons_ne_nil _ _

theorem split_cons_self : split c (c :: a) = [] :: split c a := by
  rw [split, if_pos rfl]

theorem split_append : split c (a ++ c :: b) = split c a ++ split c b := by
  induction a with
  | nil => exact split_cons_self
  | cons x a ih =>
      rw [List.cons_append, split, split]
      split
      · rw [ih, List.cons_append]
      · rw [ih]
        cases hsplit : split c a with
        | nil => exact absurd hsplit split_ne_nil
        | cons part parts => rfl

theorem split_of_not_mem (h : c ∉ a) : split c a = [a] := by
  induction a with
  | nil => rfl
  | cons x a ih =>
      rw [List.mem_cons, not_or] at h
      rw [split, if_neg (Ne.symm h.1), ih h.2]

theorem not_mem_of_mem_split {part : List Char} (h : part ∈ split c a) : c ∉ part := by
  induction a generalizing part with
  | nil =>
      cases List.mem_singleton.mp h
      exact List.not_mem_nil
  | cons x a ih =>
      rw [split] at h
      split at h
      · rcases List.mem_cons.mp h with rfl | h
        · exact List.not_mem_nil
        · exact ih h
      · rename_i hx
        cases hsplit : split c a with
        | nil => exact absurd hsplit split_ne_nil
        | cons first parts =>
            rw [hsplit] at h
            rcases List.mem_cons.mp h with rfl | h
            · have hfirst : c ∉ first := ih (hsplit ▸ List.mem_cons_self ..)
              rw [List.mem_cons, not_or]
              exact ⟨Ne.symm hx, hfirst⟩
            · exact ih (hsplit ▸ List.mem_cons_of_mem _ h)

/-- A part, or what stands for one that is not there. -/
theorem not_mem_getD_split {i : Nat} {d : List Char} (h : c ∉ d) : c ∉ (split c a).getD i d := by
  rw [List.getD_eq_getElem?_getD]
  cases hi : (split c a)[i]? with
  | none => exact h
  | some part => exact not_mem_of_mem_split (List.mem_of_getElem? hi)

theorem join_cons {part : List Char} {parts : List (List Char)} (h : parts ≠ []) :
    join c (part :: parts) = part ++ c :: join c parts := by
  cases parts with
  | nil => exact absurd rfl h
  | cons next parts => rfl

/-- Parts without the separator are read back. -/
theorem split_join {parts : List (List Char)} (hne : parts ≠ []) (h : ∀ part ∈ parts, c ∉ part) :
    split c (join c parts) = parts := by
  induction parts with
  | nil => exact absurd rfl hne
  | cons part parts ih =>
      have hpart := h part (List.mem_cons_self ..)
      cases hparts : parts with
      | nil => exact split_of_not_mem hpart
      | cons next rest =>
          have hrest : parts ≠ [] := hparts ▸ List.cons_ne_nil _ _
          rw [← hparts, join_cons hrest, split_append, split_of_not_mem hpart,
            ih hrest fun p hp => h p (List.mem_cons_of_mem _ hp), List.singleton_append]

theorem mem_join {parts : List (List Char)} {x : Char} (h : x ∈ join c parts) :
    x = c ∨ ∃ part ∈ parts, x ∈ part := by
  induction parts with
  | nil => cases h
  | cons part parts ih =>
      by_cases hparts : parts = []
      · subst hparts
        exact .inr ⟨part, List.mem_singleton_self _, h⟩
      · rw [join_cons hparts, List.mem_append, List.mem_cons] at h
        rcases h with hpart | rfl | hrest
        · exact .inr ⟨part, List.mem_cons_self .., hpart⟩
        · exact .inl rfl
        · exact (ih hrest).imp_right fun ⟨p, hp, hx⟩ => ⟨p, List.mem_cons_of_mem _ hp, hx⟩

/-! ## The first separator -/

theorem cut_of_not_mem (h : c ∉ a) : cut c a = (a, none) := by
  induction a with
  | nil => rfl
  | cons x a ih =>
      rw [List.mem_cons, not_or] at h
      rw [cut, if_neg (Ne.symm h.1), ih h.2]

theorem cut_append (h : c ∉ a) : cut c (a ++ c :: b) = (a, some b) := by
  induction a with
  | nil => rw [List.nil_append, cut, if_pos rfl]
  | cons x a ih =>
      rw [List.mem_cons, not_or] at h
      rw [List.cons_append, cut, if_neg (Ne.symm h.1), ih h.2]

/-- A text is cut where it was, whatever is written after it. -/
theorem cut_append_of_some {rest : List Char} (h : (cut c a).2 = some rest) :
    cut c (a ++ b) = ((cut c a).1, some (rest ++ b)) := by
  induction a with
  | nil => cases h
  | cons x a ih =>
      rw [List.cons_append]
      simp only [cut] at h ⊢
      split
      · rename_i hx
        rw [if_pos hx] at h
        cases h
        rfl
      · rename_i hx
        rw [if_neg hx] at h
        rw [ih h]

theorem cut_eq_none : (cut c a).2 = none ↔ c ∉ a := by
  induction a with
  | nil => simp only [cut, List.not_mem_nil, not_false_eq_true]
  | cons x a ih =>
      simp only [cut, List.mem_cons, not_or]
      split
      · rename_i hx
        simp only [reduceCtorEq, hx, not_true_eq_false, false_and]
      · rename_i hx
        rw [ih]
        exact (and_iff_right (Ne.symm hx)).symm

end Split
