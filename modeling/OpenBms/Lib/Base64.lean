/-
# `OpenBms.Lib.Base64` — bytes as base64 text

Bytes are numbers below 256.  Three bytes are four sextets, and a sextet is a symbol; the last
group may be shorter, and is filled with `=`.  The reader skips what is no symbol, and stops
at `=`.

**Proved here.**

    a symbol is read back, and is no blank (`value_symbol`, `symbol_ne`)
    bytes are read back from their text (`decode_encode`)
-/
import Mathlib

namespace Base64

/-- The symbol of a sextet. -/
def symbol (n : Nat) : Char :=
  if n < 26 then Char.ofNat (n + 65)
  else if n < 52 then Char.ofNat (n - 26 + 97)
  else if n < 62 then Char.ofNat (n - 52 + 48)
  else if n = 62 then '+' else '/'

/-- The sextet of a symbol; `-` and `_` are read like `+` and `/`. -/
def value (c : Char) : Option Nat :=
  if c.isUpper then some (c.toNat - 65)
  else if c.isLower then some (c.toNat - 97 + 26)
  else if c.isDigit then some (c.toNat - 48 + 52)
  else if c = '+' || c = '-' then some 62
  else if c = '/' || c = '_' then some 63
  else none

/-- The sextets of bytes, and how many `=` are written after them. -/
def sextets : List Nat → List Nat
  | a :: b :: c :: bytes =>
      a / 4 :: (a % 4 * 16 + b / 16) :: (b % 16 * 4 + c / 64) :: c % 64 :: sextets bytes
  | [a, b] => [a / 4, a % 4 * 16 + b / 16, b % 16 * 4]
  | [a] => [a / 4, a % 4 * 16]
  | [] => []

def padding : List Nat → List Char
  | _ :: _ :: _ :: bytes => padding bytes
  | [_, _] => ['=']
  | [_] => ['=', '=']
  | [] => []

/-- The bytes of sextets; bits that fill no byte are dropped. -/
def bytes : List Nat → List Nat
  | s :: t :: u :: v :: rest =>
      (s * 4 + t / 16) :: (t % 16 * 16 + u / 4) :: (u % 4 * 64 + v) :: bytes rest
  | [s, t, u] => [s * 4 + t / 16, t % 16 * 16 + u / 4]
  | [s, t] => [s * 4 + t / 16]
  | _ => []

def encode (l : List Nat) : List Char := (sextets l).map symbol ++ padding l

def decode (text : List Char) : List Nat := bytes ((text.takeWhile (· ≠ '=')).filterMap value)

theorem value_symbol {n : Nat} (h : n < 64) : value (symbol n) = some n := by
  have hall : ∀ n ∈ List.range 64, value (symbol n) = some n := by decide +kernel
  exact hall n (List.mem_range.mpr h)

theorem symbol_ne {n : Nat} (h : n < 64) : symbol n ≠ '=' := by
  have hall : ∀ n ∈ List.range 64, symbol n ≠ '=' := by decide +kernel
  exact hall n (List.mem_range.mpr h)

theorem sextets_lt {l : List Nat} (h : ∀ b ∈ l, b < 256) : ∀ s ∈ sextets l, s < 64 := by
  induction l using sextets.induct with
  | case1 a b c l ih =>
      have ha := h a (List.mem_cons_self ..)
      have hb := h b (List.mem_cons_of_mem _ (List.mem_cons_self ..))
      have hc := h c (List.mem_cons_of_mem _ (List.mem_cons_of_mem _ (List.mem_cons_self ..)))
      intro s hs
      rw [sextets] at hs
      simp only [List.mem_cons] at hs
      rcases hs with rfl | rfl | rfl | rfl | hs
      · omega
      · omega
      · omega
      · omega
      · refine ih (fun d hd => h d ?_) s hs
        exact List.mem_cons_of_mem _ (List.mem_cons_of_mem _ (List.mem_cons_of_mem _ hd))
  | case2 a b =>
      have ha := h a (List.mem_cons_self ..)
      have hb := h b (List.mem_cons_of_mem _ (List.mem_cons_self ..))
      intro s hs
      simp only [sextets, List.mem_cons, List.not_mem_nil, or_false] at hs
      omega
  | case3 a =>
      have ha := h a (List.mem_cons_self ..)
      intro s hs
      simp only [sextets, List.mem_cons, List.not_mem_nil, or_false] at hs
      omega
  | case4 =>
      intro s hs
      cases hs

theorem bytes_sextets {l : List Nat} (h : ∀ b ∈ l, b < 256) : bytes (sextets l) = l := by
  induction l using sextets.induct with
  | case1 a b c l ih =>
      have ha := h a (List.mem_cons_self ..)
      have hb := h b (List.mem_cons_of_mem _ (List.mem_cons_self ..))
      have hc := h c (List.mem_cons_of_mem _ (List.mem_cons_of_mem _ (List.mem_cons_self ..)))
      rw [sextets, bytes, ih fun d hd => h d
        (List.mem_cons_of_mem _ (List.mem_cons_of_mem _ (List.mem_cons_of_mem _ hd)))]
      congr 1
      · omega
      · congr 1
        · omega
        · congr 1
          omega
  | case2 a b =>
      have ha := h a (List.mem_cons_self ..)
      have hb := h b (List.mem_cons_of_mem _ (List.mem_cons_self ..))
      rw [sextets, bytes]
      congr 1
      · omega
      · congr 1
        omega
  | case3 a =>
      have ha := h a (List.mem_cons_self ..)
      rw [sextets, bytes]
      congr 1
      omega
  | case4 => rfl

theorem padding_eq (l : List Nat) : ∃ n, padding l = List.replicate n '=' := by
  induction l using padding.induct with
  | case1 a b c l ih => exact ih
  | case2 a b => exact ⟨1, rfl⟩
  | case3 a => exact ⟨2, rfl⟩
  | case4 => exact ⟨0, rfl⟩

/-- Bytes are read back. -/
theorem decode_encode {l : List Nat} (h : ∀ b ∈ l, b < 256) : decode (encode l) = l := by
  have hlt := sextets_lt h
  have hsymbols : ∀ c ∈ (sextets l).map symbol, decide (c ≠ '=') = true := by
    intro c hc
    obtain ⟨s, hs, rfl⟩ := List.mem_map.mp hc
    exact decide_eq_true (symbol_ne (hlt s hs))
  obtain ⟨n, hpadding⟩ := padding_eq l
  have htail : (List.replicate n '=').takeWhile (· ≠ '=') = [] := by
    cases n with
    | zero => rfl
    | succ n => rfl
  have hvalues : ((sextets l).map symbol).filterMap value = sextets l := by
    rw [List.filterMap_map]
    refine (List.filterMap_congr fun s hs => ?_).trans List.filterMap_some
    exact value_symbol (hlt s hs)
  rw [decode, encode, hpadding, List.takeWhile_append_of_pos hsymbols, htail, List.append_nil,
    hvalues, bytes_sextets h]

end Base64
