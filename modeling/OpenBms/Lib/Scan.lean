/-
# `OpenBms.Lib.Scan` — replacing the matches of a pattern until none is left

A text is a list of characters.  A matcher says whether a pattern matches at
the start of a text, what it captures there and what follows the match.  `find`
is the leftmost match, `rewrite` the loop

    while (the pattern matches) replace its leftmost match by sub(capture)

and `settle` the loop run to its end.  Every match uses up a `mark`, and the
substituted texts have none, so the number of marks bounds the number of turns.

**Proved here**, for a pattern whose matches start with a mark and stay inside
the words of a text (`Local`):

    the number of turns does not matter once it is enough (`rewrite_stable`)
    no match is left (`find_settle`)
    the words of a text are rewritten one by one (`settle_sep`)
    one pattern's substitutions make no match of another (`find_settle_other`)
    nothing that matches is a part of a text without match (`not_infix`)
    a greedy pattern `lit ([cls]+) tail` is such a pattern (`local_between`)
-/
import Mathlib.Data.List.TakeWhile
import Mathlib.Data.List.Count

namespace Scan

/-- Whether a pattern matches at the start of a text: its capture, and the rest. -/
abbrev Matcher := List Char → Option (List Char × List Char)

/-- The leftmost match: what stands before it, its capture, and the rest. -/
@[grind =] def find (m : Matcher) : List Char → Option (List Char × List Char × List Char)
  | [] => none
  | c :: s =>
      match m (c :: s) with
      | some (cap, r) => some ([], cap, r)
      | none => (find m s).map fun p => (c :: p.1, p.2)

/-- At most `n` turns of the loop. -/
@[grind =] def rewrite (m : Matcher) (sub : List Char → List Char) : Nat → List Char → List Char
  | 0, s => s
  | n + 1, s =>
      match find m s with
      | none => s
      | some (b, cap, r) => rewrite m sub n (b ++ sub cap ++ r)

/-- The loop. -/
def settle (m : Matcher) (sub : List Char → List Char) (mark : Char) (s : List Char) : List Char :=
  rewrite m sub (s.count mark) s

/-- A pattern whose matches start with a mark and do not reach over a separator. -/
structure Local (m : Matcher) (mark sep : Char) : Prop where
  consumes : ∀ {s cap r}, m s = some (cap, r) → ∃ x, s = mark :: (x ++ r)
  separate : ∀ s t, m (s ++ sep :: t) = (m s).map fun p => (p.1, p.2 ++ sep :: t)
  extends_ : ∀ {s}, (m s).isSome = true → ∀ t, (m (s ++ t)).isSome = true
  apart : sep ≠ mark

section
variable {m : Matcher} {sub : List Char → List Char} {mark sep : Char}

theorem find_eq_some {s b cap r : List Char} (h : find m s = some (b, cap, r)) :
    ∃ u, s = b ++ u ∧ m u = some (cap, r) := by
  induction s generalizing b with
  | nil => exact nomatch h
  | cons c s ih =>
      simp only [find] at h
      cases hm : m (c :: s) with
      | some p =>
          simp only [hm, Option.some.injEq, Prod.mk.injEq] at h
          obtain ⟨rfl, rfl, rfl⟩ := h
          exact ⟨c :: s, rfl, hm⟩
      | none =>
          simp only [hm, Option.map_eq_some_iff] at h
          obtain ⟨⟨b', cap', r'⟩, hf, heq⟩ := h
          cases heq
          obtain ⟨u, rfl, hu⟩ := ih hf
          exact ⟨u, rfl, hu⟩

theorem matcher_sep (hm : Local m mark sep) (t : List Char) : m (sep :: t) = none := by
  cases h : m (sep :: t) with
  | none => rfl
  | some p =>
      obtain ⟨x, hx⟩ := hm.consumes h
      exact absurd (List.cons.inj hx).1 hm.apart

/-- A match in two words is a match in the first, or else in the second. -/
theorem find_sep (hm : Local m mark sep) (s t : List Char) :
    find m (s ++ sep :: t) =
      match find m s with
      | some (b, cap, r) => some (b, cap, r ++ sep :: t)
      | none => (find m t).map fun p => (s ++ sep :: p.1, p.2) := by
  induction s with
  | nil =>
      simp only [List.nil_append, find, matcher_sep hm]
  | cons c s ih =>
      have hsep : m (c :: (s ++ sep :: t)) = (m (c :: s)).map fun p => (p.1, p.2 ++ sep :: t) :=
        hm.separate (c :: s) t
      simp only [List.cons_append, find, hsep]
      cases hc : m (c :: s) with
      | some p => rfl
      | none =>
          simp only [Option.map_none, ih]
          cases hf : find m s with
          | some p => rfl
          | none =>
              simp only [Option.map_none, Option.map_map]
              rfl

theorem find_none_of_no_mark (hm : Local m mark sep) {s : List Char} (h : mark ∉ s) :
    find m s = none := by
  cases hf : find m s with
  | none => rfl
  | some p =>
      obtain ⟨u, rfl, hu⟩ := find_eq_some hf
      obtain ⟨x, rfl⟩ := hm.consumes hu
      simp at h

/-- Every turn uses up a mark. -/
theorem count_lt (hm : Local m mark sep) (hsub : ∀ cap, mark ∉ sub cap) {s b cap r : List Char}
    (h : find m s = some (b, cap, r)) : (b ++ sub cap ++ r).count mark < s.count mark := by
  obtain ⟨u, rfl, hu⟩ := find_eq_some h
  obtain ⟨x, rfl⟩ := hm.consumes hu
  have hzero : (sub cap).count mark = 0 := List.count_eq_zero.mpr (hsub cap)
  simp only [List.count_append, List.count_cons_self, hzero]
  omega

theorem rewrite_none {s : List Char} (h : find m s = none) (n : Nat) : rewrite m sub n s = s := by
  cases n with
  | zero => rfl
  | succ n => simp only [rewrite, h]

theorem rewrite_stable (hm : Local m mark sep) (hsub : ∀ cap, mark ∉ sub cap) :
    ∀ {n k : Nat} {s : List Char}, s.count mark ≤ n → s.count mark ≤ k →
      rewrite m sub n s = rewrite m sub k s := by
  intro n
  induction n with
  | zero =>
      intro k s hn _
      have hnone : find m s = none :=
        find_none_of_no_mark hm (List.count_eq_zero.mp (Nat.le_zero.mp hn))
      rw [rewrite_none hnone, rewrite_none hnone]
  | succ n ih =>
      intro k s hn hk
      cases hf : find m s with
      | none => rw [rewrite_none hf, rewrite_none hf]
      | some p =>
          obtain ⟨b, cap, r⟩ := p
          have hlt := count_lt hm hsub hf
          cases k with
          | zero => omega
          | succ k =>
              simp only [rewrite, hf]
              exact ih (by omega) (by omega)

theorem rewrite_eq_settle (hm : Local m mark sep) (hsub : ∀ cap, mark ∉ sub cap) {n : Nat}
    {s : List Char} (h : s.count mark ≤ n) : rewrite m sub n s = settle m sub mark s :=
  rewrite_stable hm hsub h (Nat.le_refl _)

theorem settle_none {s : List Char} (h : find m s = none) : settle m sub mark s = s :=
  rewrite_none h _

/-- One turn does not change where the loop ends. -/
theorem settle_some (hm : Local m mark sep) (hsub : ∀ cap, mark ∉ sub cap)
    {s b cap r : List Char} (h : find m s = some (b, cap, r)) :
    settle m sub mark s = settle m sub mark (b ++ sub cap ++ r) := by
  have hlt := count_lt hm hsub h
  rw [settle]
  cases hn : s.count mark with
  | zero => omega
  | succ n =>
      simp only [rewrite, h]
      exact rewrite_eq_settle hm hsub (by omega)

theorem find_rewrite (hm : Local m mark sep) (hsub : ∀ cap, mark ∉ sub cap) :
    ∀ {n : Nat} {s : List Char}, s.count mark ≤ n → find m (rewrite m sub n s) = none := by
  intro n
  induction n with
  | zero =>
      intro s h
      exact find_none_of_no_mark hm (List.count_eq_zero.mp (Nat.le_zero.mp h))
  | succ n ih =>
      intro s h
      cases hf : find m s with
      | none => rw [rewrite_none hf, hf]
      | some p =>
          obtain ⟨b, cap, r⟩ := p
          have hlt := count_lt hm hsub hf
          simp only [rewrite, hf]
          exact ih (by omega)

/-- No match is left. -/
theorem find_settle (hm : Local m mark sep) (hsub : ∀ cap, mark ∉ sub cap) (s : List Char) :
    find m (settle m sub mark s) = none :=
  find_rewrite hm hsub (Nat.le_refl _)

theorem rewrite_sep (hm : Local m mark sep) (hsub : ∀ cap, mark ∉ sub cap) :
    ∀ {n : Nat} {s t : List Char}, s.count mark + t.count mark ≤ n →
      rewrite m sub n (s ++ sep :: t) = rewrite m sub n s ++ sep :: rewrite m sub n t := by
  intro n
  induction n with
  | zero =>
      intro s t _
      rfl
  | succ n ih =>
      intro s t h
      cases hs : find m s with
      | some p =>
          obtain ⟨b, cap, r⟩ := p
          have hlt := count_lt hm hsub hs
          have hstable : rewrite m sub (n + 1) t = rewrite m sub n t :=
            rewrite_stable hm hsub (by omega) (by omega)
          rw [hstable]
          simp only [rewrite, find_sep hm, hs]
          rw [← ih (by omega)]
          simp
      | none =>
          rw [rewrite_none hs]
          cases ht : find m t with
          | none =>
              have hnone : find m (s ++ sep :: t) = none := by simp only [find_sep hm, hs, ht,
                Option.map_none]
              rw [rewrite_none hnone, rewrite_none ht]
          | some p =>
              obtain ⟨b, cap, r⟩ := p
              have hlt := count_lt hm hsub ht
              have hturn : rewrite m sub (n + 1) (s ++ sep :: t)
                  = rewrite m sub n (s ++ sep :: (b ++ sub cap ++ r)) := by
                simp only [rewrite, find_sep hm, hs, ht, Option.map_some]
                simp
              rw [hturn, ih (by omega), rewrite_none hs]
              simp only [rewrite, ht]

/-- The words of a text are rewritten one by one. -/
theorem settle_sep (hm : Local m mark sep) (hsub : ∀ cap, mark ∉ sub cap) (s t : List Char) :
    settle m sub mark (s ++ sep :: t) = settle m sub mark s ++ sep :: settle m sub mark t := by
  have hcount : (s ++ sep :: t).count mark = s.count mark + t.count mark := by
    rw [List.count_append, List.count_cons_of_ne hm.apart]
  have h := rewrite_sep (n := s.count mark + t.count mark) hm hsub (Nat.le_refl _)
  rw [settle, hcount, h, rewrite_eq_settle hm hsub (Nat.le_add_right _ _),
    rewrite_eq_settle hm hsub (Nat.le_add_left _ _)]

theorem settle_no_mark (hm : Local m mark sep) {s : List Char} (h : mark ∉ s) :
    settle m sub mark s = s :=
  settle_none (find_none_of_no_mark hm h)

/-- A text that is one match becomes what is substituted for it. -/
theorem settle_whole (hm : Local m mark sep) (hsub : ∀ cap, mark ∉ sub cap) {s cap : List Char}
    (h : m s = some (cap, [])) : settle m sub mark s = sub cap := by
  have hfind : find m s = some ([], cap, []) := by
    cases s with
    | nil =>
        obtain ⟨x, hx⟩ := hm.consumes h
        exact nomatch hx
    | cons c s => simp only [find, h]
  rw [settle_some hm hsub hfind, List.nil_append, List.append_nil, settle_no_mark hm (hsub cap)]

/-! ### Two patterns -/

theorem find_none_right {s t : List Char} (h : find m (s ++ t) = none) : find m t = none := by
  induction s with
  | nil => exact h
  | cons c s ih =>
      simp only [List.cons_append, find] at h
      cases hc : m (c :: (s ++ t)) with
      | some p => rw [hc] at h; exact nomatch h
      | none =>
          rw [hc] at h
          exact ih (Option.map_eq_none_iff.mp h)

theorem find_none_left (hm : Local m mark sep) {s t : List Char} (h : find m (s ++ t) = none) :
    find m s = none := by
  cases hf : find m s with
  | none => rfl
  | some p =>
      obtain ⟨u, rfl, hu⟩ := find_eq_some hf
      have hnone : find m (u ++ t) = none := find_none_right (s := p.1) (by rw [← List.append_assoc]; exact h)
      have hsome : (m (u ++ t)).isSome = true := hm.extends_ (by rw [hu]; rfl) t
      cases hut : u ++ t with
      | nil =>
          obtain ⟨x, hx⟩ := hm.consumes hu
          simp [hx] at hut
      | cons c r =>
          rw [hut] at hnone hsome
          obtain ⟨q, hq⟩ := Option.isSome_iff_exists.mp hsome
          simp [find, hq] at hnone

/-- What matches is no part of a text without a match. -/
theorem not_infix (hm : Local m mark sep) {s t : List Char} (hs : (m s).isSome = true)
    (ht : find m t = none) : ¬ s <:+: t := by
  rintro ⟨a, b, rfl⟩
  have hnone : find m s = none := find_none_right (s := a) (find_none_left hm ht)
  obtain ⟨p, hp⟩ := Option.isSome_iff_exists.mp hs
  cases s with
  | nil =>
      obtain ⟨x, hx⟩ := hm.consumes hp
      exact nomatch hx
  | cons c s => simp [find, hp] at hnone

theorem find_none_append (hm : Local m mark sep) {w t : List Char} (hw : mark ∉ w)
    (ht : find m t = none) : find m (w ++ t) = none := by
  induction w with
  | nil => exact ht
  | cons c w ih =>
      simp only [List.mem_cons, not_or] at hw
      have hc : m (c :: (w ++ t)) = none := by
        cases h : m (c :: (w ++ t)) with
        | none => rfl
        | some p =>
            obtain ⟨x, hx⟩ := hm.consumes h
            exact absurd (List.cons.inj hx).1.symm hw.1
      simp only [List.cons_append, find, hc, ih hw.2, Option.map_none]

/-- A pattern's substitutions, each a separator and a text without marks, make
no match of another pattern. -/
theorem find_settle_other {m' : Matcher} (hm : Local m mark sep) (hm' : Local m' mark sep)
    (hsub : ∀ cap, mark ∉ sub cap) (hsep : ∀ cap, ∃ w, sub cap = sep :: w) {s : List Char}
    (h : find m' s = none) : find m' (settle m sub mark s) = none := by
  have key : ∀ (n : Nat) (s : List Char), find m' s = none → find m' (rewrite m sub n s) = none := by
    intro n
    induction n with
    | zero => exact fun _ h => h
    | succ n ih =>
        intro s h
        cases hf : find m s with
        | none => rw [rewrite_none hf, h]
        | some p =>
            obtain ⟨b, cap, r⟩ := p
            obtain ⟨u, rfl, hu⟩ := find_eq_some hf
            obtain ⟨x, rfl⟩ := hm.consumes hu
            obtain ⟨w, hw⟩ := hsep cap
            have hb : find m' b = none := find_none_left hm' h
            have hr : find m' r = none := by
              have hx := find_none_right h
              exact find_none_right (s := mark :: x) hx
            have hwm : mark ∉ w := fun hmem => hsub cap (hw ▸ List.mem_cons_of_mem _ hmem)
            simp only [rewrite, hf]
            refine ih _ ?_
            rw [hw, List.append_assoc, List.cons_append, find_sep hm', hb,
              find_none_append hm' hwm hr]
            rfl
  exact key _ _ h

end

/-! ## Greedy patterns -/

/-- The rest of a text after a literal. -/
@[grind =] def literal : List Char → List Char → Option (List Char)
  | [], s => some s
  | _ :: _, [] => none
  | c :: cs, d :: s => if c = d then literal cs s else none

/-- The longest capture of at most `k` characters that the tail follows. -/
@[grind =] def backtrack (tail s : List Char) : Nat → Option (List Char × List Char)
  | 0 => none
  | k + 1 =>
      match literal tail (s.drop (k + 1)) with
      | some r => some (s.take (k + 1), r)
      | none => backtrack tail s k

/-- `lit ([cls]+) tail`. -/
def between (lit : List Char) (cls : Char → Bool) (tail : List Char) : Matcher := fun s =>
  match literal lit s with
  | none => none
  | some s' => backtrack tail s' (s'.takeWhile cls).length

theorem literal_eq_some {lit s r : List Char} (h : literal lit s = some r) : s = lit ++ r := by
  induction lit generalizing s with
  | nil => exact Option.some.inj h
  | cons c cs ih =>
      cases s with
      | nil => exact nomatch h
      | cons d s =>
          simp only [literal] at h
          split at h
          · rename_i hcd
            rw [ih h, hcd]
            rfl
          · exact nomatch h

theorem literal_append (lit r : List Char) : literal lit (lit ++ r) = some r := by
  induction lit with
  | nil => rfl
  | cons c cs ih => simp only [List.cons_append, literal, if_true, ih]

theorem literal_sep {sep : Char} {lit : List Char} (h : sep ∉ lit) (s t : List Char) :
    literal lit (s ++ sep :: t) = (literal lit s).map fun r => r ++ sep :: t := by
  induction lit generalizing s with
  | nil => rfl
  | cons c cs ih =>
      simp only [List.mem_cons, not_or] at h
      cases s with
      | nil => simp only [List.nil_append, literal, if_neg (Ne.symm h.1), Option.map_none]
      | cons d s =>
          simp only [List.cons_append, literal]
          split
          · exact ih h.2 s
          · rfl

theorem backtrack_eq_some {tail s cap r : List Char} {k : Nat} (h : backtrack tail s k = some (cap, r)) :
    s = cap ++ tail ++ r := by
  induction k with
  | zero => exact nomatch h
  | succ k ih =>
      simp only [backtrack] at h
      cases hl : literal tail (s.drop (k + 1)) with
      | none =>
          rw [hl] at h
          exact ih h
      | some r' =>
          simp only [hl, Option.some.injEq, Prod.mk.injEq] at h
          obtain ⟨rfl, rfl⟩ := h
          rw [List.append_assoc, ← literal_eq_some hl, List.take_append_drop]

theorem backtrack_sep {sep : Char} {tail : List Char} (h : sep ∉ tail) (s t : List Char) :
    ∀ {k : Nat}, k ≤ s.length →
      backtrack tail (s ++ sep :: t) k = (backtrack tail s k).map fun p => (p.1, p.2 ++ sep :: t) := by
  intro k
  induction k with
  | zero =>
      intro _
      rfl
  | succ k ih =>
      intro hk
      simp only [backtrack, List.drop_append_of_le_length hk, List.take_append_of_le_length hk,
        literal_sep h]
      cases literal tail (s.drop (k + 1)) with
      | some r => rfl
      | none => exact ih (by omega)

theorem backtrack_isSome {tail s : List Char} (t : List Char) : ∀ {k : Nat}, k ≤ s.length →
    (backtrack tail s k).isSome = true → (backtrack tail (s ++ t) k).isSome = true := by
  intro k
  induction k with
  | zero => exact fun _ h => nomatch h
  | succ k ih =>
      intro hk h
      simp only [backtrack] at h ⊢
      rw [List.drop_append_of_le_length hk]
      cases hl : literal tail (s.drop (k + 1)) with
      | some r =>
          have hsome : literal tail (s.drop (k + 1) ++ t) = some (r ++ t) := by
            rw [literal_eq_some hl, List.append_assoc, literal_append]
          rw [hsome]
          rfl
      | none =>
          rw [hl] at h
          cases literal tail (s.drop (k + 1) ++ t) with
          | some r => rfl
          | none => exact ih (by omega) h

theorem backtrack_mono {tail s : List Char} {k k' : Nat} (hk : k ≤ k')
    (h : (backtrack tail s k).isSome = true) : (backtrack tail s k').isSome = true := by
  induction hk with
  | refl => exact h
  | step _ ih =>
      simp only [backtrack]
      split
      · rfl
      · exact ih

/-- A capture of the class up to a tail that starts outside it. -/
theorem between_self {lit cap tail : List Char} {cls : Char → Bool} (hcap : cap ≠ [])
    (hcls : ∀ c ∈ cap, cls c = true) (htail : tail.takeWhile cls = []) :
    between lit cls tail (lit ++ (cap ++ tail)) = some (cap, []) := by
  have htake : ((cap ++ tail).takeWhile cls).length = cap.length := by
    rw [List.takeWhile_append_of_pos hcls, htail, List.append_nil]
  obtain ⟨k, hk⟩ := Nat.exists_eq_succ_of_ne_zero (fun h => hcap (List.length_eq_zero_iff.mp h))
  have hdrop : (cap ++ tail).drop (k + 1) = tail := List.drop_left' hk
  have hhead : (cap ++ tail).take (k + 1) = cap := List.take_left' hk
  have hlit : literal tail tail = some [] := by
    simpa using literal_append tail []
  simp only [between, literal_append, htake, hk, Nat.succ_eq_add_one, backtrack, hdrop, hhead, hlit]

/-- A greedy pattern stays inside a word when neither its literals nor its class
know the separator. -/
theorem local_between {mark sep : Char} {lit tail : List Char} {cls : Char → Bool}
    (hlit : sep ∉ mark :: lit) (htail : sep ∉ tail) (hcls : cls sep = false) :
    Local (between (mark :: lit) cls tail) mark sep where
  consumes {s cap r} h := by
    unfold between at h
    cases hl : literal (mark :: lit) s with
    | none =>
        rw [hl] at h
        exact nomatch h
    | some s' =>
        simp only [hl] at h
        refine ⟨lit ++ cap ++ tail, ?_⟩
        rw [literal_eq_some hl, backtrack_eq_some h]
        simp
  separate s t := by
    unfold between
    rw [literal_sep hlit]
    cases hl : literal (mark :: lit) s with
    | none => rfl
    | some s' =>
        have htake : (s' ++ sep :: t).takeWhile cls = s'.takeWhile cls := by
          rw [List.takeWhile_append]
          split
          · rename_i hall
            have hself : s'.takeWhile cls = s' := (List.takeWhile_prefix cls).eq_of_length hall
            rw [hself, List.takeWhile_cons, hcls]
            simp
          · rfl
        simp only [Option.map_some, htake]
        exact backtrack_sep htail s' t (List.takeWhile_prefix cls).length_le
  extends_ {s} h t := by
    unfold between at h ⊢
    cases hl : literal (mark :: lit) s with
    | none =>
        rw [hl] at h
        exact nomatch h
    | some s' =>
        have hlt : literal (mark :: lit) (s ++ t) = some (s' ++ t) := by
          rw [literal_eq_some hl, List.append_assoc, literal_append]
        simp only [hl] at h
        simp only [hlt]
        have hle : (s'.takeWhile cls).length ≤ ((s' ++ t).takeWhile cls).length := by
          rw [List.takeWhile_append]
          split
          · rename_i hall
            simp only [List.length_append]
            omega
          · exact Nat.le_refl _
        exact backtrack_mono hle
          (backtrack_isSome t (List.takeWhile_prefix cls).length_le h)
  apart := fun h => hlit (h ▸ List.mem_cons_self)

end Scan
