/-
# `OpenBms.Lib.Text` — texts put together from parts

A key is a few parts written after one another, with a separator between them.
The parts are read back from it as long as they do not hold the separator.

**Proved here.**

    texts that begin differently differ (`append_ne_append`)
    a printed number has no colon, and is read back (`colon_not_mem_toString`, `toString_inj`)
    the first and the last part are read back (`colon_inj`, `last_colon_inj`)
-/
import Mathlib

namespace Text

/-- Texts that differ in their first letters. -/
theorem append_ne_append {p q : String} (x y : String) (n : Nat) (hp : n ≤ p.toList.length)
    (hq : n ≤ q.toList.length) (h : p.toList.take n ≠ q.toList.take n) : p ++ x ≠ q ++ y := by
  intro heq
  refine h ?_
  have htake := congrArg (fun s : String => s.toList.take n) heq
  simpa only [String.toList_append, List.take_append_of_le_length hp,
    List.take_append_of_le_length hq] using htake

/-! ## Printed numbers -/

/-- A number is printed without a colon. -/
theorem colon_not_mem_toString (i : Int) : ':' ∉ (toString i).toList := by
  have hnat : ∀ n : Nat, ':' ∉ (toString n).toList := by
    intro n hmem
    have hdigit : (':' : Char).isDigit = true :=
      Nat.isDigit_of_mem_toDigits (by decide) (by decide) (Nat.toList_repr ▸ hmem)
    cases hdigit
  cases i with
  | ofNat n =>
      have htext : toString (Int.ofNat n) = toString n := rfl
      rw [htext]
      exact hnat n
  | negSucc n =>
      have htext : (toString (Int.negSucc n)).toList = '-' :: (toString (n + 1)).toList := by
        have hminus : "-".toList = ['-'] := by decide
        have h : toString (Int.negSucc n) = "-" ++ toString (n + 1) := rfl
        rw [h, String.toList_append, hminus, List.singleton_append]
      rw [htext, List.mem_cons, not_or]
      exact ⟨by decide, hnat (n + 1)⟩

theorem toString_inj {i j : Int} (h : toString i = toString j) : i = j := by
  have hrepr : i.repr = j.repr := h
  exact Int.repr_injective hrepr

/-! ## Parts and colons -/

theorem colon_toList : ":".toList = [':'] := by decide

theorem colon_mem_append (a b : String) : ':' ∈ (a ++ (":" ++ b)).toList := by
  have hcolon : ':' ∈ ":".toList := by decide
  rw [String.toList_append, String.toList_append]
  exact List.mem_append_right _ (List.mem_append_left _ hcolon)

theorem separator_inj {c : Char} {x y : List Char} :
    ∀ {a b : List Char}, c ∉ a → c ∉ b → a ++ c :: x = b ++ c :: y → a = b ∧ x = y := by
  intro a
  induction a with
  | nil =>
      intro b _ hb h
      cases b with
      | nil => exact ⟨rfl, (List.cons.inj h).2⟩
      | cons d b => exact absurd ((List.cons.inj h).1 ▸ List.mem_cons_self) hb
  | cons e a ih =>
      intro b ha hb h
      cases b with
      | nil => exact absurd ((List.cons.inj h).1 ▸ List.mem_cons_self) ha
      | cons d b =>
          obtain ⟨hd, htail⟩ := List.cons.inj h
          obtain ⟨hab, hxy⟩ := ih (fun hm => ha (List.mem_cons_of_mem _ hm))
            (fun hm => hb (List.mem_cons_of_mem _ hm)) htail
          exact ⟨by rw [hd, hab], hxy⟩

/-- What stands before the first colon, and what stands after it. -/
theorem colon_inj {a b x y : String} (ha : ':' ∉ a.toList) (hb : ':' ∉ b.toList)
    (h : a ++ (":" ++ x) = b ++ (":" ++ y)) : a = b ∧ x = y := by
  have hlist := congrArg String.toList h
  simp only [String.toList_append, colon_toList, List.singleton_append] at hlist
  obtain ⟨hab, hxy⟩ := separator_inj ha hb hlist
  exact ⟨String.toList_inj.mp hab, String.toList_inj.mp hxy⟩

theorem last_colon_inj {a b x y : String} (hx : ':' ∉ x.toList) (hy : ':' ∉ y.toList)
    (h : a ++ (":" ++ x) = b ++ (":" ++ y)) : a = b ∧ x = y := by
  have hlist := congrArg (fun s : String => s.toList.reverse) h
  simp only [String.toList_append, colon_toList, List.singleton_append, List.reverse_append,
    List.reverse_cons, List.append_assoc] at hlist
  obtain ⟨hxy, hab⟩ := separator_inj (fun hm => hx (List.mem_reverse.mp hm))
    (fun hm => hy (List.mem_reverse.mp hm)) hlist
  exact ⟨String.toList_inj.mp (List.reverse_inj.mp hab),
    String.toList_inj.mp (List.reverse_inj.mp hxy)⟩

end Text
