/-
# `OpenBms.Lib.Replace` — the text functions of SQL

`replace` takes the occurrences of a text from left to right and puts another text for each of
them; `LIKE` compares a text with a pattern that has wildcards; a quote in a literal is written
twice.

**Proved here.**

    an occurrence at the front is replaced (`all_append`)
    a character at which none begins stays (`all_cons`)
    a text without the first character of a pattern
    stays as it is (`all_block`)
    a text that has the pattern is like it, and one
    that is like a pattern without wildcards has it (`like_of_infix`, `infix_of_like`)
    a text is read back from its literal (`literal_append_of_not_mem`,
    `literal_double_append`)
-/
import Mathlib.Data.List.Infix

namespace Replace

/-- The replacement in what is left; so many characters belong to an occurrence. -/
def go (old new : List Char) : Nat → List Char → List Char
  | _, [] => []
  | k + 1, _ :: s => go old new k s
  | 0, c :: s => if old <+: c :: s then new ++ go old new (old.length - 1) s else c :: go old new 0 s

/-- `replace(s, old, new)`. -/
def all (old new s : List Char) : List Char := go old new 0 s

/-- `s LIKE pattern`. -/
def like : List Char → List Char → Bool
  | [], s => s.isEmpty
  | '%' :: p, s => s.tails.any (like p)
  | '_' :: p, s =>
      match s with
      | [] => false
      | _ :: s => like p s
  | '\\' :: c :: p, s =>
      match s with
      | [] => false
      | d :: s => c == d && like p s
  | c :: p, s =>
      match s with
      | [] => false
      | d :: s => c == d && like p s

/-- The text of a literal, from between its quotes. -/
def literal : List Char → Option (List Char)
  | [] => some []
  | '\'' :: '\'' :: s => (literal s).map ('\'' :: ·)
  | '\'' :: _ => none
  | c :: s => (literal s).map (c :: ·)

/-- Each quote written twice. -/
def double : List Char → List Char
  | [] => []
  | c :: s => if c = '\'' then '\'' :: '\'' :: double s else c :: double s

variable {old new : List Char}

/-! ## Replacing -/

theorem go_eq_drop (k : Nat) (s : List Char) : go old new k s = go old new 0 (s.drop k) := by
  induction s generalizing k with
  | nil =>
      rw [List.drop_nil]
      cases k <;> rfl
  | cons c s ih =>
      cases k with
      | zero => rfl
      | succ k => exact ih k

/-- An occurrence at the front is replaced. -/
theorem all_append (hold : old ≠ []) (r : List Char) : all old new (old ++ r) = new ++ all old new r := by
  obtain ⟨c, s, rfl⟩ := List.exists_cons_of_ne_nil hold
  show go (c :: s) new 0 (c :: (s ++ r)) = _
  have hprefix : c :: s <+: c :: (s ++ r) := List.prefix_append (c :: s) r
  rw [go, if_pos hprefix, go_eq_drop]
  show new ++ go (c :: s) new 0 ((s ++ r).drop s.length) = _
  rw [List.drop_left]
  rfl

/-- A character at which no occurrence begins stays. -/
theorem all_cons {c : Char} {s : List Char} (h : ¬ old <+: c :: s) :
    all old new (c :: s) = c :: all old new s := by
  show go old new 0 (c :: s) = _
  rw [go, if_neg h]
  rfl

theorem not_prefix_of_ne {c d : Char} {p s : List Char} (h : c ≠ d) : ¬ c :: p <+: d :: s :=
  fun hprefix => h (List.cons_prefix_cons.mp hprefix).1

/-- A text without the first character of the pattern stays as it is. -/
theorem all_block {c : Char} {p block : List Char} (h : c ∉ block) (r : List Char) :
    all (c :: p) new (block ++ r) = block ++ all (c :: p) new r := by
  induction block with
  | nil => rfl
  | cons d block ih =>
      have hne : c ≠ d := by
        rintro rfl
        exact h List.mem_cons_self
      show all (c :: p) new (d :: (block ++ r)) = d :: (block ++ _)
      rw [all_cons (not_prefix_of_ne hne),
        ih fun hmem => h (List.mem_cons_of_mem d hmem)]

/-! ## Comparing -/

theorem like_percent {p s : List Char} (h : ∃ t, t <:+ s ∧ like p t = true) : like ('%' :: p) s = true := by
  obtain ⟨t, ht, hlike⟩ := h
  show s.tails.any (like p) = true
  exact List.any_eq_true.mpr ⟨t, (List.mem_tails t s).mpr ht, hlike⟩

/-- A character of a pattern is like itself, unless it escapes the next one. -/
theorem like_cons {c : Char} {p s : List Char} (hc : c ≠ '\\') (h : like p s = true) :
    like (c :: p) (c :: s) = true := by
  by_cases hpercent : c = '%'
  · subst hpercent
    exact like_percent ⟨s, List.suffix_cons '%' s, h⟩
  by_cases hunder : c = '_'
  · subst hunder
    exact h
  · rw [like]
    · simpa using h
    · exact hpercent
    · exact hunder
    · intro _ _ heq _
      exact hc heq

/-- A text that has the pattern is like it. -/
theorem like_of_infix {p s : List Char} (hp : '\\' ∉ p) (h : p <:+: s) :
    like ('%' :: (p ++ ['%'])) s = true := by
  obtain ⟨before, after, rfl⟩ := h
  refine like_percent ⟨p ++ after, ⟨before, (List.append_assoc ..).symm⟩, ?_⟩
  induction p with
  | nil => exact like_percent ⟨[], List.nil_suffix, rfl⟩
  | cons c p ih =>
      exact like_cons (fun heq => hp (heq ▸ List.mem_cons_self))
        (ih fun hmem => hp (List.mem_cons_of_mem c hmem))

/-- A text that is like a pattern without wildcards, between two of them, has it. -/
theorem infix_of_like {p s : List Char} (hp : ∀ c ∈ p, c ≠ '%' ∧ c ≠ '_' ∧ c ≠ '\\')
    (h : like ('%' :: (p ++ ['%'])) s = true) : p <:+: s := by
  have htails : s.tails.any (like (p ++ ['%'])) = true := h
  obtain ⟨t, ht, hlike⟩ := List.any_eq_true.mp htails
  have hsuffix : t <:+ s := (List.mem_tails t s).mp ht
  have hfront : ∀ {p t : List Char}, (∀ c ∈ p, c ≠ '%' ∧ c ≠ '_' ∧ c ≠ '\\') →
      like (p ++ ['%']) t = true → p <+: t := by
    intro p
    induction p with
    | nil => exact fun _ _ => List.nil_prefix
    | cons c p ih =>
        intro t hp hlike
        obtain ⟨hpercent, hunder, hslash⟩ := hp c List.mem_cons_self
        cases t with
        | nil =>
            rw [List.cons_append, like] at hlike
            · cases hlike
            · exact hpercent
            · exact hunder
            · exact fun _ _ heq _ => hslash heq
        | cons d t =>
            rw [List.cons_append, like] at hlike
            · rw [Bool.and_eq_true, beq_iff_eq] at hlike
              obtain ⟨rfl, hlike⟩ := hlike
              exact List.cons_prefix_cons.mpr
                ⟨rfl, ih (fun e he => hp e (List.mem_cons_of_mem c he)) hlike⟩
            · exact hpercent
            · exact hunder
            · exact fun _ _ heq _ => hslash heq
  exact (hfront hp hlike).isInfix.trans hsuffix.isInfix

/-- Without an occurrence nothing is replaced. -/
theorem all_of_not_infix {s : List Char} (h : ¬ old <:+: s) : all old new s = s := by
  induction s with
  | nil => rfl
  | cons c s ih =>
      rw [all_cons fun hprefix => h hprefix.isInfix,
        ih fun hmem => h (hmem.trans (List.suffix_cons c s).isInfix)]

/-! ## Literals -/

theorem literal_cons {c : Char} (hc : c ≠ '\'') (s : List Char) :
    literal (c :: s) = (literal s).map (c :: ·) := by
  rw [literal]
  · intro _ heq _
    exact hc heq
  · exact hc

theorem literal_append_of_not_mem {s : List Char} (h : '\'' ∉ s) (r : List Char) :
    literal (s ++ r) = (literal r).map (s ++ ·) := by
  induction s with
  | nil =>
      show literal r = _
      cases literal r <;> rfl
  | cons c s ih =>
      show literal (c :: (s ++ r)) = _
      rw [literal_cons (fun heq => h (heq ▸ List.mem_cons_self)),
        ih fun hmem => h (List.mem_cons_of_mem c hmem)]
      cases literal r <;> rfl

theorem literal_double_append (s r : List Char) :
    literal (double s ++ r) = (literal r).map (s ++ ·) := by
  induction s with
  | nil =>
      show literal r = _
      cases literal r <;> rfl
  | cons c s ih =>
      unfold double
      split
      · next hc =>
          subst hc
          show (literal (double s ++ r)).map ('\'' :: ·) = _
          rw [ih]
          cases literal r <;> rfl
      · next hc =>
          show literal (c :: (double s ++ r)) = _
          rw [literal_cons hc, ih]
          cases literal r <;> rfl

end Replace
