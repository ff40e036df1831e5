/-
# `OpenBms.Lib.Headed` — lists whose elements have something, all but the first

The connectors of a list of conditions stand with the elements they connect to what is
before them: each has one, and the first has none.

**Proved here.**

    all but the first are those whose place is not 0 (`allButFirst_iff`)
    an element put at the end, or after another, has one (`AllButFirst.append`, `AllButFirst.insertIdx`)
    one taken out leaves it so, and where it was the first
    the next one loses it (`AllButFirst.eraseIdx_succ`, `AllButFirst.eraseIdx_zero`)
    the first element that is meant is changed alone (`mem_modifyFirst`, `AllButFirst.modifyFirst`)
    what the elements are made of shrinks, or grows, with
    that of the changed one (`flatMap_modifyFirst_sublist`,
    `flatMap_modifyFirst_perm`)
-/
import Mathlib

namespace Headed

variable {α β : Type}

/-- The first element has not got it, and the others have. -/
def AllButFirst (p : α → Bool) : List α → Prop
  | [] => True
  | x :: xs => p x = false ∧ ∀ y ∈ xs, p y = true

variable {p : α → Bool} {xs : List α} {x : α}

/-- By their places. -/
theorem allButFirst_iff : AllButFirst p xs ↔ ∀ i y, xs[i]? = some y → (p y = true ↔ i ≠ 0) := by
  constructor
  · intro h i y hy
    cases xs with
    | nil => cases hy
    | cons z zs =>
        cases i with
        | zero =>
            cases hy
            rw [h.1]
            exact ⟨fun hfalse => (nomatch hfalse), fun hne => absurd rfl hne⟩
        | succ i => exact ⟨fun _ => Nat.succ_ne_zero i, fun _ => h.2 y (List.mem_of_getElem? hy)⟩
  · intro h
    cases xs with
    | nil => trivial
    | cons z zs =>
        refine ⟨?_, fun y hy => ?_⟩
        · rw [← Bool.not_eq_true]
          exact fun htrue => (h 0 z rfl).mp htrue rfl
        · obtain ⟨i, hi⟩ := List.mem_iff_getElem?.mp hy
          exact (h (i + 1) y hi).mpr (Nat.succ_ne_zero i)

theorem AllButFirst.append (h : AllButFirst p xs) (hx : p x = !xs.isEmpty) : AllButFirst p (xs ++ [x]) := by
  cases xs with
  | nil => exact ⟨hx, fun y hy => nomatch hy⟩
  | cons z zs =>
      refine ⟨h.1, fun y hy => ?_⟩
      rcases List.mem_append.mp hy with hy | hy
      · exact h.2 y hy
      · rw [List.mem_singleton.mp hy]
        exact hx

theorem AllButFirst.insertIdx (h : AllButFirst p xs) (hx : p x = true) {i : Nat} (hi : i < xs.length) :
    AllButFirst p (xs.insertIdx (i + 1) x) := by
  cases xs with
  | nil => cases hi
  | cons z zs =>
      rw [List.insertIdx_succ_cons]
      refine ⟨h.1, fun y hy => ?_⟩
      rcases List.eq_or_mem_of_mem_insertIdx hy with rfl | hy
      · exact hx
      · exact h.2 y hy

theorem AllButFirst.eraseIdx_succ (h : AllButFirst p xs) (i : Nat) : AllButFirst p (xs.eraseIdx (i + 1)) := by
  cases xs with
  | nil => trivial
  | cons z zs => exact ⟨h.1, fun y hy => h.2 y (List.mem_of_mem_eraseIdx hy)⟩

theorem AllButFirst.eraseIdx_zero (h : AllButFirst p xs) {f : α → α}
    (hf : ∀ y, xs[1]? = some y → p (f y) = false) : AllButFirst p ((xs.eraseIdx 0).modifyHead f) := by
  cases xs with
  | nil => trivial
  | cons z zs =>
      cases zs with
      | nil => trivial
      | cons y ys => exact ⟨hf y rfl, fun w hw => h.2 w (List.mem_cons_of_mem y hw)⟩

theorem AllButFirst.map {q : β → Bool} {f : α → β} (hf : ∀ y ∈ xs, q (f y) = p y) (h : AllButFirst p xs) :
    AllButFirst q (xs.map f) := by
  cases xs with
  | nil => trivial
  | cons z zs =>
      refine ⟨(hf z List.mem_cons_self).trans h.1, fun y hy => ?_⟩
      obtain ⟨w, hw, rfl⟩ := List.mem_map.mp hy
      exact (hf w (List.mem_cons_of_mem z hw)).trans (h.2 w hw)

/-! ## The first element that is meant -/

/-- `find`, and a change of what it returns. -/
@[grind =] def modifyFirst (q : α → Bool) (f : α → α) : List α → List α
  | [] => []
  | x :: xs => if q x then f x :: xs else x :: modifyFirst q f xs

variable {q : α → Bool} {f : α → α}

theorem mem_modifyFirst {y : α} (h : y ∈ modifyFirst q f xs) :
    y ∈ xs ∨ ∃ x ∈ xs, xs.find? q = some x ∧ y = f x := by
  induction xs with
  | nil => cases h
  | cons z zs ih =>
      rw [modifyFirst] at h
      split at h
      · rename_i hq
        rcases List.mem_cons.mp h with rfl | h
        · exact .inr ⟨z, List.mem_cons_self, List.find?_cons_of_pos hq, rfl⟩
        · exact .inl (List.mem_cons_of_mem z h)
      · rename_i hq
        rcases List.mem_cons.mp h with rfl | h
        · exact .inl List.mem_cons_self
        · rcases ih h with hy | ⟨x, hx, hfind, rfl⟩
          · exact .inl (List.mem_cons_of_mem z hy)
          · exact .inr ⟨x, List.mem_cons_of_mem z hx, (List.find?_cons_of_neg hq).trans hfind, rfl⟩

/-- What the elements are made of shrinks where that of the changed one does. -/
theorem flatMap_modifyFirst_sublist {g : α → List β} (hf : ∀ x ∈ xs, (g (f x)).Sublist (g x)) :
    ((modifyFirst q f xs).flatMap g).Sublist (xs.flatMap g) := by
  induction xs with
  | nil => exact .slnil
  | cons z zs ih =>
      rw [modifyFirst]
      split
      · rw [List.flatMap_cons, List.flatMap_cons]
        exact (hf z List.mem_cons_self).append (.refl _)
      · rw [List.flatMap_cons, List.flatMap_cons]
        exact (List.Sublist.refl _).append (ih fun x hx => hf x (List.mem_cons_of_mem z hx))

/-- And has one more where the changed one has. -/
theorem flatMap_modifyFirst_perm {g : α → List β} {b : β} (hfind : (xs.find? q).isSome)
    (hf : ∀ x ∈ xs, (g (f x)).Perm (b :: g x)) :
    ((modifyFirst q f xs).flatMap g).Perm (b :: xs.flatMap g) := by
  induction xs with
  | nil => cases hfind
  | cons z zs ih =>
      rw [modifyFirst]
      split
      · rw [List.flatMap_cons, List.flatMap_cons]
        exact (hf z List.mem_cons_self).append_right _
      · rename_i hq
        rw [List.find?_cons_of_neg hq] at hfind
        rw [List.flatMap_cons, List.flatMap_cons]
        exact ((ih hfind fun x hx => hf x (List.mem_cons_of_mem z hx)).append_left _).trans
          List.perm_middle

theorem AllButFirst.modifyFirst (h : AllButFirst p xs) (hf : ∀ x ∈ xs, p (f x) = p x) :
    AllButFirst p (modifyFirst q f xs) := by
  induction xs with
  | nil => trivial
  | cons z zs ih =>
      rw [Headed.modifyFirst]
      split
      · exact ⟨(hf z List.mem_cons_self).trans h.1, h.2⟩
      · refine ⟨h.1, fun y hy => ?_⟩
        rcases mem_modifyFirst hy with hy | ⟨x, hx, -, rfl⟩
        · exact h.2 y hy
        · exact (hf x (List.mem_cons_of_mem z hx)).trans (h.2 x hx)

/-- One that is not the first may be given it. -/
theorem AllButFirst.modifyFirst_of_not_head (h : AllButFirst p xs) (hf : ∀ x, p (f x) = true)
    (hhead : ∀ x ∈ xs.head?, q x = false) : AllButFirst p (Headed.modifyFirst q f xs) := by
  cases xs with
  | nil => trivial
  | cons z zs =>
      rw [Headed.modifyFirst, if_neg]
      · refine ⟨h.1, fun y hy => ?_⟩
        rcases mem_modifyFirst hy with hy | ⟨x, -, -, rfl⟩
        · exact h.2 y hy
        · exact hf x
      · rw [hhead z rfl]
        exact Bool.false_ne_true

end Headed
