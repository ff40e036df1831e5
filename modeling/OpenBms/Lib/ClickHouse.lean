/-
# `OpenBms.Lib.ClickHouse` — how the dialect reads a condition

The text of a condition is split into tokens, the tokens are read as a condition, and a condition
holds of a row or not.  In a string literal a backslash takes the next character with it, and two
quotes are one.

| bound most tightly | | |
| :-- | :-- | :-- |
| `=` `!=` `>=` `<=` `IN` `NOT IN` | `NOT` | `AND`, then `OR` |

The end of the text ends a token as a blank does.  Reading takes fuel; whatever is said of it holds
for all fuel from some number on.

**Proved here.**

    texts are split one after the other (`Lexes.append`)
    what escapes backslashes and quotes is one literal (`ends_literal`)
    a number is read back (`ends_int`)
    a list is its items (`lexes_list`, `reads_list`)
    conditions joined by AND are their conjunction, and by
    OR in brackets their disjunction (`reads_conjunction`,
    `prints_disjunction`)
-/
import Mathlib

namespace ClickHouse

/-! ## Tokens -/

inductive Tok where
  | word (w : List Char)
  | num (n : Nat)
  | str (s : List Char)
  | minus
  | eq
  | ne
  | ge
  | le
  | lparen
  | rparen
  | comma
  deriving DecidableEq

/-- Where in a token the text is. -/
inductive Mode where
  | start
  | word (w : List Char)
  | num (n : Nat)
  | str (s : List Char)
  | escape (s : List Char)
  | hex (s : List Char) (high : Option Nat)
  | quote (s : List Char)
  | bang
  | lt
  | gt
  deriving DecidableEq

def isWordStart (c : Char) : Bool := c.isAlpha || c = '_'

def isWord (c : Char) : Bool := isWordStart c || c.isDigit

/-- What `\c` stands for. -/
def unescape (c : Char) : Char :=
  match c with
  | 'b' => Char.ofNat 8
  | 'f' => Char.ofNat 12
  | 'r' => '\r'
  | 'n' => '\n'
  | 't' => '\t'
  | '0' => Char.ofNat 0
  | 'a' => Char.ofNat 7
  | 'v' => Char.ofNat 11
  | c => c

def hexDigit (c : Char) : Option Nat :=
  if c.isDigit then some (c.toNat - '0'.toNat)
  else if 'a' ≤ c ∧ c ≤ 'f' then some (c.toNat - 'a'.toNat + 10)
  else if 'A' ≤ c ∧ c ≤ 'F' then some (c.toNat - 'A'.toNat + 10)
  else none

/-- A character where no token is begun. -/
@[grind =] def start (toks : List Tok) (c : Char) : Option (Mode × List Tok) :=
  if c = ' ' then some (.start, toks)
  else if isWordStart c then some (.word [c], toks)
  else if c.isDigit then some (.num (c.toNat - '0'.toNat), toks)
  else if c = '\'' then some (.str [], toks)
  else if c = '(' then some (.start, toks ++ [.lparen])
  else if c = ')' then some (.start, toks ++ [.rparen])
  else if c = ',' then some (.start, toks ++ [.comma])
  else if c = '=' then some (.start, toks ++ [.eq])
  else if c = '-' then some (.start, toks ++ [.minus])
  else if c = '!' then some (.bang, toks)
  else if c = '<' then some (.lt, toks)
  else if c = '>' then some (.gt, toks)
  else none

@[grind =] def step (s : Mode × List Tok) (c : Char) : Option (Mode × List Tok) :=
  match s.1 with
  | .start => start s.2 c
  | .word w => if isWord c then some (.word (w ++ [c]), s.2) else start (s.2 ++ [.word w]) c
  | .num n =>
      if c.isDigit then some (.num (10 * n + (c.toNat - '0'.toNat)), s.2)
      else if isWordStart c then none
      else start (s.2 ++ [.num n]) c
  | .str t =>
      if c = '\'' then some (.quote t, s.2)
      else if c = '\\' then some (.escape t, s.2)
      else some (.str (t ++ [c]), s.2)
  | .escape t => if c = 'x' then some (.hex t none, s.2) else some (.str (t ++ [unescape c]), s.2)
  | .hex t none => (hexDigit c).map fun d => (.hex t (some d), s.2)
  | .hex t (some high) =>
      (hexDigit c).map fun d => (.str (t ++ [Char.ofNat (16 * high + d)]), s.2)
  | .quote t =>
      if c = '\'' then some (.str (t ++ ['\'']), s.2) else start (s.2 ++ [.str t]) c
  | .bang => if c = '=' then some (.start, s.2 ++ [.ne]) else none
  | .lt => if c = '=' then some (.start, s.2 ++ [.le]) else none
  | .gt => if c = '=' then some (.start, s.2 ++ [.ge]) else none

@[grind =] def run (s : Mode × List Tok) (text : List Char) : Option (Mode × List Tok) := text.foldlM step s

/-- The tokens of a text. -/
def lex (text : List Char) : Option (List Tok) :=
  match run (.start, []) (text ++ [' ']) with
  | some (.start, toks) => some toks
  | _ => none

/-! ## Conditions -/

inductive Operand where
  | column (name : List Char)
  | int (i : Int)
  | str (s : List Char)
  deriving DecidableEq

inductive Op where
  | eq
  | ne
  | ge
  | le
  deriving DecidableEq

inductive Cond where
  | compare (op : Op) (l r : Operand)
  | inList (negated : Bool) (l : Operand) (list : List Operand)
  | not (c : Cond)
  | and (a b : Cond)
  | or (a b : Cond)
  deriving DecidableEq

def keywords : List (List Char) := ["AND".toList, "OR".toList, "NOT".toList, "IN".toList]

def parseOperand : List Tok → Option (Operand × List Tok)
  | .word w :: ts => if keywords.contains w then none else some (.column w, ts)
  | .num n :: ts => some (.int n, ts)
  | .minus :: .num n :: ts => some (.int (-n), ts)
  | .str s :: ts => some (.str s, ts)
  | _ => none

/-- A list after its bracket. -/
@[grind =] def parseList : Nat → List Tok → Option (List Operand × List Tok)
  | 0, _ => none
  | n + 1, ts =>
      match parseOperand ts with
      | some (o, .comma :: ts) => (parseList n ts).map fun r => (o :: r.1, r.2)
      | some (o, .rparen :: ts) => some ([o], ts)
      | _ => none

@[grind =] def parseAtom (n : Nat) (ts : List Tok) : Option (Cond × List Tok) :=
  match parseOperand ts with
  | some (l, .eq :: ts) => (parseOperand ts).map fun r => (.compare .eq l r.1, r.2)
  | some (l, .ne :: ts) => (parseOperand ts).map fun r => (.compare .ne l r.1, r.2)
  | some (l, .ge :: ts) => (parseOperand ts).map fun r => (.compare .ge l r.1, r.2)
  | some (l, .le :: ts) => (parseOperand ts).map fun r => (.compare .le l r.1, r.2)
  | some (l, .word ['I', 'N'] :: .lparen :: ts) =>
      (parseList n ts).map fun r => (.inList false l r.1, r.2)
  | some (l, .word ['N', 'O', 'T'] :: .word ['I', 'N'] :: .lparen :: ts) =>
      (parseList n ts).map fun r => (.inList true l r.1, r.2)
  | _ => none

mutual

@[grind =] def parseOr : Nat → List Tok → Option (Cond × List Tok)
  | 0, _ => none
  | n + 1, ts =>
      match parseAnd n ts with
      | some (a, .word ['O', 'R'] :: ts) => (parseOr n ts).map fun r => (.or a r.1, r.2)
      | r => r

@[grind =] def parseAnd : Nat → List Tok → Option (Cond × List Tok)
  | 0, _ => none
  | n + 1, ts =>
      match parseNot n ts with
      | some (a, .word ['A', 'N', 'D'] :: ts) => (parseAnd n ts).map fun r => (.and a r.1, r.2)
      | r => r

@[grind =] def parseNot : Nat → List Tok → Option (Cond × List Tok)
  | 0, _ => none
  | n + 1, .word ['N', 'O', 'T'] :: ts => (parseNot n ts).map fun r => (.not r.1, r.2)
  | n + 1, .lparen :: ts =>
      match parseOr n ts with
      | some (c, .rparen :: ts) => some (c, ts)
      | _ => none
  | n + 1, ts => parseAtom n ts

end

/-- A text is read as a condition. -/
def Reads (text : List Char) (c : Cond) : Prop :=
  ∃ toks, lex text = some toks ∧ ∃ n, ∀ m ≥ n, parseOr m toks = some (c, [])

/-! ## Rows -/

/-- The value of a column; one of dates is known by how it compares with a literal. -/
inductive Value where
  | int (i : Int)
  | str (s : List Char)
  | date (compare : List Char → Ordering)

abbrev Row := List Char → Option Value

@[grind =] def Operand.value (row : Row) : Operand → Option Value
  | .column name => row name
  | .int i => some (.int i)
  | .str s => some (.str s)

@[grind =] def Op.holds : Op → Ordering → Bool
  | .eq, o => o == .eq
  | .ne, o => o != .eq
  | .ge, o => o != .lt
  | .le, o => o != .gt

/-- A comparison of values; there is none between numbers and strings. -/
@[grind =] def compareValues (op : Op) : Option Value → Option Value → Option Bool
  | some (.int i), some (.int j) => some (op.holds (compare i j))
  | some (.str s), some (.str t) => some (op.holds (compare s t))
  | some (.date f), some (.str t) => some (op.holds (f t))
  | _, _ => none

@[grind =] def member (row : Row) (v : Option Value) : List Operand → Option Bool
  | [] => some false
  | o :: os =>
      match compareValues .eq v (o.value row), member row v os with
      | some a, some b => some (a || b)
      | _, _ => none

/-- Whether a condition holds of a row, and `none` where the types do not fit. -/
@[grind =] def Cond.eval (row : Row) : Cond → Option Bool
  | .compare op l r => compareValues op (l.value row) (r.value row)
  | .inList negated l list => (member row (l.value row) list).map (· != negated)
  | .not c => (c.eval row).map (!·)
  | .and a b =>
      match a.eval row, b.eval row with
      | some a, some b => some (a && b)
      | _, _ => none
  | .or a b =>
      match a.eval row, b.eval row with
      | some a, some b => some (a || b)
      | _, _ => none

/-! ## Splitting -/

/-- A text is split into tokens of its own, whatever follows. -/
def Lexes (text : List Char) (ts : List Tok) : Prop :=
  ∀ toks, run (.start, toks) text = some (.start, toks ++ ts)

/-- A text is split into tokens, when a blank, a comma or a bracket follows. -/
def Ends (text : List Char) (ts : List Tok) : Prop :=
  ∀ toks, ∀ c ∈ [' ', ',', ')'], run (.start, toks) (text ++ [c]) = start (toks ++ ts) c

/-- A text stands for another in a literal. -/
def Literal (text value : List Char) : Prop :=
  ∀ s toks, run (.str s, toks) text = some (.str (s ++ value), toks)

section
variable {text text' : List Char} {ts ts' : List Tok}

theorem run_append (s : Mode × List Tok) (text text' : List Char) :
    run s (text ++ text') = (run s text).bind fun t => run t text' := by
  rw [run, List.foldlM_append]
  rfl

theorem run_singleton (s : Mode × List Tok) (c : Char) : run s [c] = step s c := by
  simp [run]

theorem Lexes.append (h : Lexes text ts) (h' : Lexes text' ts') :
    Lexes (text ++ text') (ts ++ ts') := by
  intro toks
  rw [run_append, h toks, Option.bind_some, h' (toks ++ ts), List.append_assoc]

theorem Lexes.append_ends (h : Lexes text ts) (h' : Ends text' ts') :
    Ends (text ++ text') (ts ++ ts') := by
  intro toks c hc
  rw [List.append_assoc, run_append, h toks, Option.bind_some, h' (toks ++ ts) c hc,
    List.append_assoc]

theorem Lexes.ends (h : Lexes text ts) : Ends text ts := by
  intro toks c _
  rw [run_append, h toks, Option.bind_some, run_singleton]
  rfl

theorem Ends.blank (h : Ends text ts) : Lexes (text ++ [' ']) ts := fun toks =>
  h toks ' ' (by decide)

theorem Ends.comma (h : Ends text ts) : Lexes (text ++ [',', ' ']) (ts ++ [.comma]) := by
  intro toks
  have hsplit : text ++ [',', ' '] = (text ++ [',']) ++ [' '] := by simp
  rw [hsplit, run_append, h toks ',' (by decide), ← List.append_assoc]
  rfl

theorem Ends.rparen (h : Ends text ts) : Lexes (text ++ [')']) (ts ++ [.rparen]) := by
  intro toks
  rw [h toks ')' (by decide), ← List.append_assoc]
  rfl

theorem run_word (w w' : List Char) (toks : List Tok) (h : ∀ c ∈ w', isWord c = true) :
    run (.word w, toks) w' = some (.word (w ++ w'), toks) := by
  induction w' generalizing w with
  | nil => simp [run]
  | cons c w' ih =>
      have hc := h c List.mem_cons_self
      have hstep : step (.word w, toks) c = some (.word (w ++ [c]), toks) := if_pos hc
      rw [run, List.foldlM_cons, hstep]
      have hrest := ih (w ++ [c]) fun d hd => h d (List.mem_cons_of_mem _ hd)
      rw [List.append_assoc] at hrest
      exact hrest

theorem ends_word {c : Char} {w : List Char} (hc : isWordStart c = true) (hne : c ≠ ' ')
    (h : ∀ d ∈ w, isWord d = true) : Ends (c :: w) [.word (c :: w)] := by
  intro toks d hd
  have hstart : step (.start, toks) c = some (.word [c], toks) := by
    change start toks c = _
    rw [start, if_neg hne, if_pos hc]
  have hrun : run (.start, toks) (c :: w) = some (.word (c :: w), toks) := by
    rw [run, List.foldlM_cons, hstart]
    exact run_word [c] w toks h
  rw [run_append, hrun, Option.bind_some, run_singleton]
  have hd : isWord d = false := by
    simp only [List.mem_cons, List.not_mem_nil, or_false] at hd
    rcases hd with rfl | rfl | rfl <;> decide
  rw [step, hd]
  rfl

theorem ends_nat (n : Nat) : Ends (Nat.toDigits 10 n) [.num n] := by
  have hrun : ∀ (cs : List Char) (m : Nat) (toks : List Tok), (∀ c ∈ cs, c.isDigit = true) →
      run (.num m, toks) cs = some (.num (Nat.ofDigitChars 10 cs m), toks) := by
    intro cs
    induction cs with
    | nil => exact fun m toks _ => rfl
    | cons c cs ih =>
        intro m toks h
        have hstep : step (.num m, toks) c =
            some (.num (10 * m + (c.toNat - '0'.toNat)), toks) := if_pos (h c List.mem_cons_self)
        rw [run, List.foldlM_cons, hstep]
        exact ih _ toks fun d hd => h d (List.mem_cons_of_mem _ hd)
  intro toks d hd
  have hdigits : ∀ c ∈ Nat.toDigits 10 n, c.isDigit = true := fun c hc =>
    Nat.isDigit_of_mem_toDigits (by decide) (by decide) hc
  have hvalue := Nat.ofDigitChars_ten_toDigits (n := n)
  cases hcs : Nat.toDigits 10 n with
  | nil => exact absurd hcs Nat.toDigits_ne_nil
  | cons c cs =>
      rw [hcs] at hdigits hvalue
      have hc := hdigits c List.mem_cons_self
      have hother : c ≠ ' ' ∧ isWordStart c = false := by
        have hbounds := hc
        simp only [Char.isDigit, Bool.and_eq_true, decide_eq_true_eq] at hbounds
        constructor
        · rintro rfl
          exact absurd hc (by decide)
        · cases hstart : isWordStart c with
          | false => rfl
          | true =>
              rw [isWordStart, Bool.or_eq_true, decide_eq_true_eq] at hstart
              rcases hstart with halpha | rfl
              · simp only [Char.isAlpha, Char.isUpper, Char.isLower, Bool.or_eq_true,
                  Bool.and_eq_true, decide_eq_true_eq] at halpha
                have h1 := hbounds.1
                have h2 := hbounds.2
                simp only [UInt32.le_iff_toNat_le, GE.ge] at h1 h2 halpha
                rcases halpha with h | h <;> simp at h1 h2 h <;> omega
              · exact absurd hc (by decide)
      have hstart : step (.start, toks) c = some (.num (c.toNat - '0'.toNat), toks) := by
        change start toks c = _
        rw [start, if_neg hother.1, hother.2, if_neg Bool.false_ne_true, if_pos hc]
      have hall : run (.start, toks) (c :: cs) = some (.num n, toks) := by
        rw [run, List.foldlM_cons, hstart]
        refine (hrun cs _ toks fun d hd => hdigits d (List.mem_cons_of_mem _ hd)).trans ?_
        rw [← hvalue]
        simp [Nat.ofDigitChars]
      rw [run_append, hall, Option.bind_some, run_singleton]
      have hd' : d.isDigit = false ∧ isWordStart d = false := by
        simp only [List.mem_cons, List.not_mem_nil, or_false] at hd
        rcases hd with rfl | rfl | rfl <;> decide
      rw [step, hd'.1, hd'.2]
      rfl

/-- A number as it is printed. -/
def printInt : Int → List Char
  | .ofNat n => Nat.toDigits 10 n
  | .negSucc n => '-' :: Nat.toDigits 10 (n + 1)

/-- The tokens of a number. -/
def intToks : Int → List Tok
  | .ofNat n => [.num n]
  | .negSucc n => [.minus, .num (n + 1)]

theorem ends_int (i : Int) : Ends (printInt i) (intToks i) := by
  cases i with
  | ofNat n => exact ends_nat n
  | negSucc n =>
      have hminus : Lexes ['-'] [.minus] := fun toks => rfl
      exact hminus.append_ends (ends_nat (n + 1))

theorem Literal.append {value value' : List Char} (h : Literal text value)
    (h' : Literal text' value') : Literal (text ++ text') (value ++ value') := by
  intro s toks
  rw [run_append, h s toks, Option.bind_some, h' (s ++ value) toks, List.append_assoc]

theorem literal_nil : Literal [] [] := fun s toks => by simp [run]

theorem literal_char {c : Char} (hquote : c ≠ '\'') (hslash : c ≠ '\\') : Literal [c] [c] := by
  intro s toks
  rw [run_singleton]
  exact (if_neg hquote).trans (if_neg hslash)

theorem literal_slash : Literal ['\\', '\\'] ['\\'] := fun _ _ => rfl

theorem literal_quote : Literal ['\'', '\''] ['\''] := fun _ _ => rfl

theorem ends_literal {value : List Char} (h : Literal text value) :
    Ends ('\'' :: (text ++ ['\''])) [.str value] := by
  intro toks d hd
  have hopen : run (.start, toks) ['\''] = some (.str [], toks) := rfl
  have hclose : run (.str value, toks) ['\''] = some (.quote value, toks) := rfl
  have hsplit : '\'' :: (text ++ ['\'']) ++ [d] = ['\''] ++ (text ++ (['\''] ++ [d])) := by simp
  have hvalue := h [] toks
  rw [List.nil_append] at hvalue
  rw [hsplit, run_append, hopen, Option.bind_some, run_append, hvalue, Option.bind_some, run_append,
    hclose, Option.bind_some, run_singleton]
  have hd' : d ≠ '\'' := by
    simp only [List.mem_cons, List.not_mem_nil, or_false] at hd
    rcases hd with rfl | rfl | rfl <;> decide
  exact if_neg hd'

end

/-! ## Texts of conditions -/

/-- Texts with a separator between them. -/
@[grind =] def join (sep : List Char) : List (List Char) → List Char
  | [] => []
  | [t] => t
  | t :: t' :: ts => t ++ (sep ++ join sep (t' :: ts))

/-- The tokens of a list after its bracket. -/
@[grind =] def listToks : List (List Tok) → List Tok
  | [] => []
  | [t] => t ++ [.rparen]
  | t :: t' :: ts => t ++ (.comma :: listToks (t' :: ts))

/-- Tokens that are an operand, whatever follows. -/
def IsOperand (ts : List Tok) (o : Operand) : Prop :=
  ∀ rest, parseOperand (ts ++ rest) = some (o, rest)

/-- Tokens that are a condition bound more tightly than AND, whatever follows. -/
def IsFactor (ts : List Tok) (c : Cond) : Prop :=
  ∀ rest, ∃ n, ∀ m ≥ n, parseNot m (ts ++ rest) = some (c, rest)

/-- A text of such a condition. -/
def Prints (text : List Char) (c : Cond) : Prop := ∃ ts, Ends text ts ∧ IsFactor ts c

@[grind =] def conj : List Cond → Cond
  | [] => .compare .eq (.int 1) (.int 1)
  | [c] => c
  | c :: c' :: cs => .and c (conj (c' :: cs))

@[grind =] def disj : List Cond → Cond
  | [] => .compare .eq (.int 1) (.int 0)
  | [c] => c
  | c :: c' :: cs => .or c (disj (c' :: cs))

section
variable {α : Type} {l r : Operand} {tl tr ts : List Tok} {c : Cond}

theorem isOperand_column {w : List Char} (h : w ∉ keywords) : IsOperand [.word w] (.column w) :=
  fun _ => if_neg fun hkeyword => h (List.contains_iff_mem.mp hkeyword)

theorem isOperand_str (s : List Char) : IsOperand [.str s] (.str s) := fun _ => rfl

theorem isOperand_int (i : Int) : IsOperand (intToks i) (.int i) := by
  cases i with
  | ofNat n => exact fun _ => rfl
  | negSucc n => exact fun _ => rfl

/-- What begins with an operand is no negation, and no bracket. -/
theorem parseNot_atom {n : Nat} {rest : List Tok} (h : parseOperand ts = some (l, rest)) :
    parseNot (n + 1) ts = parseAtom n ts := by
  cases ts with
  | nil => cases h
  | cons t ts =>
      cases t with
      | word w =>
          by_cases hw : w = ['N', 'O', 'T']
          · subst hw
            have hkeyword : keywords.contains ['N', 'O', 'T'] = true := by decide
            rw [parseOperand, if_pos hkeyword] at h
            cases h
          · rw [parseNot]
            · rintro _ ⟨⟩
              exact hw rfl
            · rintro _ ⟨⟩
      | lparen => cases h
      | num n => rfl
      | str s => rfl
      | minus => rfl
      | eq => rfl
      | ne => rfl
      | ge => rfl
      | le => rfl
      | rparen => rfl
      | comma => rfl

def Op.tok : Op → Tok
  | .eq => .eq
  | .ne => .ne
  | .ge => .ge
  | .le => .le

theorem isFactor_compare (op : Op) (hl : IsOperand tl l) (hr : IsOperand tr r) :
    IsFactor (tl ++ (op.tok :: tr)) (.compare op l r) := by
  refine fun rest => ⟨1, fun m hm => ?_⟩
  obtain ⟨m, rfl⟩ := Nat.exists_eq_add_of_le' hm
  have hsplit : tl ++ (op.tok :: tr) ++ rest = tl ++ (op.tok :: (tr ++ rest)) := by simp
  rw [hsplit, parseNot_atom (hl _), parseAtom, hl]
  cases op <;> simp only [Op.tok, hr rest, Option.map_some]

theorem reads_list {toks : α → List Tok} {operand : α → Operand} {items : List α}
    (h : ∀ a ∈ items, IsOperand (toks a) (operand a)) (hne : items ≠ []) (rest : List Tok) :
    ∀ m ≥ items.length, parseList m (listToks (items.map toks) ++ rest) =
      some (items.map operand, rest) := by
  induction items with
  | nil => exact absurd rfl hne
  | cons a items ih =>
      intro m hm
      rw [List.length_cons] at hm
      obtain ⟨m, rfl⟩ := Nat.exists_eq_add_of_le' (show 1 ≤ m by omega)
      have ha := h a List.mem_cons_self
      cases items with
      | nil =>
          simp only [List.map_cons, List.map_nil, listToks, List.append_assoc, List.singleton_append]
          rw [parseList, ha]
      | cons b items =>
          have hrest := ih (fun d hd => h d (List.mem_cons_of_mem _ hd)) (List.cons_ne_nil _ _) m
            (by omega)
          simp only [List.map_cons, listToks, List.append_assoc, List.cons_append] at hrest ⊢
          rw [parseList, ha]
          simp only [hrest, Option.map_some]

theorem isFactor_in {toks : α → List Tok} {operand : α → Operand} {items : List α}
    (hl : IsOperand tl l) (h : ∀ a ∈ items, IsOperand (toks a) (operand a)) (hne : items ≠ []) :
    IsFactor (tl ++ (.word ['I', 'N'] :: .lparen :: listToks (items.map toks)))
      (.inList false l (items.map operand)) := by
  refine fun rest => ⟨items.length + 1, fun m hm => ?_⟩
  obtain ⟨m, rfl⟩ := Nat.exists_eq_add_of_le' (show 1 ≤ m by omega)
  have hlist := reads_list h hne rest m (by omega)
  rw [List.append_assoc, parseNot_atom (hl _), parseAtom, hl]
  simp only [List.cons_append, hlist, Option.map_some]

theorem isFactor_notIn {toks : α → List Tok} {operand : α → Operand} {items : List α}
    (hl : IsOperand tl l) (h : ∀ a ∈ items, IsOperand (toks a) (operand a)) (hne : items ≠ []) :
    IsFactor (tl ++ (.word ['N', 'O', 'T'] :: .word ['I', 'N'] :: .lparen ::
      listToks (items.map toks))) (.inList true l (items.map operand)) := by
  refine fun rest => ⟨items.length + 1, fun m hm => ?_⟩
  obtain ⟨m, rfl⟩ := Nat.exists_eq_add_of_le' (show 1 ≤ m by omega)
  have hlist := reads_list h hne rest m (by omega)
  rw [List.append_assoc, parseNot_atom (hl _), parseAtom, hl]
  simp only [List.cons_append, hlist, Option.map_some]

theorem isFactor_not (h : IsFactor ts c) : IsFactor (.word ['N', 'O', 'T'] :: ts) (.not c) := by
  intro rest
  obtain ⟨n, hn⟩ := h rest
  refine ⟨n + 1, fun m hm => ?_⟩
  obtain ⟨m, rfl⟩ := Nat.exists_eq_add_of_le' (show 1 ≤ m by omega)
  rw [List.cons_append, parseNot, hn m (by omega)]
  rfl

theorem parseAnd_of_parseNot {n : Nat} {rest : List Tok}
    (h : ∀ m ≥ n, parseNot m ts = some (c, rest)) (hrest : ∀ us, rest ≠ .word ['A', 'N', 'D'] :: us) :
    ∀ m ≥ n + 1, parseAnd m ts = some (c, rest) := by
  intro m hm
  obtain ⟨m, rfl⟩ := Nat.exists_eq_add_of_le' (show 1 ≤ m by omega)
  rw [parseAnd, h m (by omega)]
  split
  · next heq =>
    cases heq
    exact absurd rfl (hrest _)
  · rfl

theorem parseOr_of_parseAnd {n : Nat} {rest : List Tok}
    (h : ∀ m ≥ n, parseAnd m ts = some (c, rest)) (hrest : ∀ us, rest ≠ .word ['O', 'R'] :: us) :
    ∀ m ≥ n + 1, parseOr m ts = some (c, rest) := by
  intro m hm
  obtain ⟨m, rfl⟩ := Nat.exists_eq_add_of_le' (show 1 ≤ m by omega)
  rw [parseOr, h m (by omega)]
  split
  · next heq =>
    cases heq
    exact absurd rfl (hrest _)
  · rfl

theorem lexes_list {text : α → List Char} {toks : α → List Tok} {items : List α}
    (h : ∀ a ∈ items, Ends (text a) (toks a)) (hne : items ≠ []) :
    Lexes (join [',', ' '] (items.map text) ++ [')']) (listToks (items.map toks)) := by
  induction items with
  | nil => exact absurd rfl hne
  | cons a items ih =>
      have ha := h a List.mem_cons_self
      cases items with
      | nil => exact ha.rparen
      | cons b items =>
          have hrest := ih (fun d hd => h d (List.mem_cons_of_mem _ hd)) (List.cons_ne_nil _ _)
          have hall := ha.comma.append hrest
          simp only [List.map_cons, join, listToks, List.append_assoc, List.cons_append,
            List.nil_append] at hall ⊢
          exact hall

theorem lexes_and : Lexes "AND ".toList [.word ['A', 'N', 'D']] := fun _ => rfl

theorem lexes_or : Lexes "OR ".toList [.word ['O', 'R']] := fun _ => rfl

theorem lexes_not : Lexes "NOT ".toList [.word ['N', 'O', 'T']] := fun _ => rfl

theorem Prints.not {text : List Char} (h : Prints text c) :
    Prints ("NOT ".toList ++ text) (.not c) := by
  obtain ⟨ts, hends, hfactor⟩ := h
  exact ⟨_, lexes_not.append_ends hends, isFactor_not hfactor⟩

theorem reads_conjunction {text : α → List Char} {cond : α → Cond} {items : List α}
    (h : ∀ a ∈ items, Prints (text a) (cond a)) (hne : items ≠ []) :
    Reads (join " AND ".toList (items.map text)) (conj (items.map cond)) := by
  have hall : ∃ ts, Lexes (join " AND ".toList (items.map text) ++ [' ']) ts ∧
      ∃ n, ∀ m ≥ n, parseAnd m ts = some (conj (items.map cond), []) := by
    induction items with
    | nil => exact absurd rfl hne
    | cons a items ih =>
        obtain ⟨ta, hends, hfactor⟩ := h a List.mem_cons_self
        cases items with
        | nil =>
            obtain ⟨n, hn⟩ := hfactor []
            rw [List.append_nil] at hn
            exact ⟨ta, hends.blank, n + 1, parseAnd_of_parseNot hn (by rintro _ ⟨⟩)⟩
        | cons b items =>
            obtain ⟨ts, hlexes, k, hk⟩ := ih (fun d hd => h d (List.mem_cons_of_mem _ hd))
              (List.cons_ne_nil _ _)
            obtain ⟨n, hn⟩ := hfactor (.word ['A', 'N', 'D'] :: ts)
            refine ⟨ta ++ (.word ['A', 'N', 'D'] :: ts), ?_, n + k + 1, fun m hm => ?_⟩
            · have hjoined := (hends.blank.append lexes_and).append hlexes
              simp only [List.map_cons, join, List.append_assoc, List.cons_append,
                List.nil_append] at hjoined ⊢
              exact hjoined
            · obtain ⟨m, rfl⟩ := Nat.exists_eq_add_of_le' (show 1 ≤ m by omega)
              rw [parseAnd, hn m (by omega)]
              simp only [hk m (by omega), Option.map_some]
              rfl
  obtain ⟨ts, hlexes, n, hn⟩ := hall
  have hlex := hlexes []
  rw [List.nil_append] at hlex
  exact ⟨ts, by rw [lex, hlex], n + 1, parseOr_of_parseAnd hn (by rintro _ ⟨⟩)⟩

theorem prints_disjunction {text : α → List Char} {cond : α → Cond} {items : List α}
    (h : ∀ a ∈ items, Prints (text a) (cond a)) (hne : items ≠ []) :
    Prints ('(' :: (join " OR ".toList (items.map text) ++ [')'])) (disj (items.map cond)) := by
  have hall : ∃ ts, Lexes (join " OR ".toList (items.map text) ++ [')']) ts ∧
      ∀ rest, ∃ n, ∀ m ≥ n, parseOr m (ts ++ rest) =
        some (disj (items.map cond), .rparen :: rest) := by
    induction items with
    | nil => exact absurd rfl hne
    | cons a items ih =>
        obtain ⟨ta, hends, hfactor⟩ := h a List.mem_cons_self
        cases items with
        | nil =>
            refine ⟨ta ++ [Tok.rparen], hends.rparen, fun rest => ?_⟩
            obtain ⟨n, hn⟩ := hfactor (.rparen :: rest)
            rw [List.append_assoc]
            exact ⟨n + 2, parseOr_of_parseAnd (parseAnd_of_parseNot hn (by rintro _ ⟨⟩))
              (by rintro _ ⟨⟩)⟩
        | cons b items =>
            obtain ⟨ts, hlexes, hreads⟩ := ih (fun d hd => h d (List.mem_cons_of_mem _ hd))
              (List.cons_ne_nil _ _)
            refine ⟨ta ++ (.word ['O', 'R'] :: ts), ?_, fun rest => ?_⟩
            · have hjoined := (hends.blank.append lexes_or).append hlexes
              simp only [List.map_cons, join, List.append_assoc, List.cons_append,
                List.nil_append] at hjoined ⊢
              exact hjoined
            · obtain ⟨k, hk⟩ := hreads rest
              obtain ⟨n, hn⟩ := hfactor (.word ['O', 'R'] :: (ts ++ rest))
              have hand := parseAnd_of_parseNot hn (by rintro _ ⟨⟩)
              refine ⟨n + k + 2, fun m hm => ?_⟩
              obtain ⟨m, rfl⟩ := Nat.exists_eq_add_of_le' (show 1 ≤ m by omega)
              have hsplit : ta ++ (.word ['O', 'R'] :: ts) ++ rest =
                  ta ++ (.word ['O', 'R'] :: (ts ++ rest)) := by simp
              rw [hsplit, parseOr, hand m (by omega)]
              simp only [hk m (by omega), Option.map_some]
              rfl
  obtain ⟨ts, hlexes, hreads⟩ := hall
  have hopen : Lexes ['('] [.lparen] := fun _ => rfl
  refine ⟨.lparen :: ts, (hopen.append hlexes).ends, fun rest => ?_⟩
  obtain ⟨n, hn⟩ := hreads rest
  refine ⟨n + 1, fun m hm => ?_⟩
  obtain ⟨m, rfl⟩ := Nat.exists_eq_add_of_le' (show 1 ≤ m by omega)
  rw [List.cons_append, parseNot, hn m (by omega)]

end

/-! ## Comparisons and lists of a column -/

/-- A word that is the name of a column. -/
@[grind =] def isColumn (w : List Char) : Bool :=
  match w with
  | [] => false
  | c :: cs => isWordStart c && c ≠ ' ' && cs.all isWord && !(keywords.contains (c :: cs))

def Op.text : Op → List Char
  | .eq => "= ".toList
  | .ne => "!= ".toList
  | .ge => ">= ".toList
  | .le => "<= ".toList

section
variable {α : Type} {w : List Char}

theorem ends_column (h : isColumn w = true) : Ends w [.word w] := by
  cases w with
  | nil => cases h
  | cons c cs =>
      simp only [isColumn, Bool.and_eq_true, decide_eq_true_eq, List.all_eq_true] at h
      exact ends_word h.1.1.1 h.1.1.2 h.1.2

theorem isOperand_of_isColumn (h : isColumn w = true) : IsOperand [.word w] (.column w) := by
  refine isOperand_column ?_
  cases w with
  | nil => cases h
  | cons c cs =>
      simp only [isColumn, Bool.and_eq_true, Bool.not_eq_true'] at h
      intro hmem
      exact absurd ((List.contains_iff_mem.mpr hmem).symm.trans h.2).symm Bool.false_ne_true

theorem lexes_op (op : Op) : Lexes op.text [op.tok] := by
  cases op <;> exact fun _ => rfl

theorem prints_compare (op : Op) {text : List Char} {ts : List Tok} {o : Operand}
    (hw : isColumn w = true) (htext : Ends text ts) (ho : IsOperand ts o) :
    Prints (w ++ [' '] ++ op.text ++ text) (.compare op (.column w) o) := by
  have hends := ((ends_column hw).blank.append (lexes_op op)).append_ends htext
  refine ⟨_, hends, ?_⟩
  have hfactor := isFactor_compare op (isOperand_of_isColumn hw) ho
  simpa only [List.append_assoc, List.cons_append, List.nil_append] using hfactor

theorem lexes_in : Lexes "IN (".toList [.word ['I', 'N'], .lparen] := by
  intro toks
  rw [← List.singleton_append, ← List.append_assoc]
  rfl

theorem prints_in {text : α → List Char} {toks : α → List Tok} {operand : α → Operand}
    {items : List α} (hw : isColumn w = true) (htext : ∀ a ∈ items, Ends (text a) (toks a))
    (h : ∀ a ∈ items, IsOperand (toks a) (operand a)) (hne : items ≠ []) :
    Prints (w ++ [' '] ++ "IN (".toList ++ (join [',', ' '] (items.map text) ++ [')']))
      (.inList false (.column w) (items.map operand)) := by
  have hends := (((ends_column hw).blank.append lexes_in).append (lexes_list htext hne)).ends
  refine ⟨_, hends, ?_⟩
  have hfactor := isFactor_in (isOperand_of_isColumn hw) h hne
  simpa only [List.append_assoc, List.cons_append, List.nil_append] using hfactor

theorem prints_notIn {text : α → List Char} {toks : α → List Tok} {operand : α → Operand}
    {items : List α} (hw : isColumn w = true) (htext : ∀ a ∈ items, Ends (text a) (toks a))
    (h : ∀ a ∈ items, IsOperand (toks a) (operand a)) (hne : items ≠ []) :
    Prints (w ++ [' '] ++ "NOT IN (".toList ++ (join [',', ' '] (items.map text) ++ [')']))
      (.inList true (.column w) (items.map operand)) := by
  have hends := (((ends_column hw).blank.append (lexes_not.append lexes_in)).append
    (lexes_list htext hne)).ends
  refine ⟨_, hends, ?_⟩
  have hfactor := isFactor_notIn (isOperand_of_isColumn hw) h hne
  simpa only [List.append_assoc, List.cons_append, List.nil_append] using hfactor

end

/-! ## Meanings -/

section
variable {α : Type} {row : Row}

theorem eval_conj {cond : α → Cond} {holds : α → Bool} {items : List α}
    (h : ∀ a ∈ items, (cond a).eval row = some (holds a)) :
    (conj (items.map cond)).eval row = some (items.all holds) := by
  induction items with
  | nil => rfl
  | cons a items ih =>
      have ha := h a List.mem_cons_self
      have hrest := ih fun b hb => h b (List.mem_cons_of_mem _ hb)
      cases items with
      | nil => simp only [List.map_cons, List.map_nil, conj, ha, List.all_cons, List.all_nil,
          Bool.and_true]
      | cons b items =>
          simp only [List.map_cons, conj, Cond.eval, ha] at hrest ⊢
          rw [hrest]
          rfl

theorem eval_disj {cond : α → Cond} {holds : α → Bool} {items : List α} (hne : items ≠ [])
    (h : ∀ a ∈ items, (cond a).eval row = some (holds a)) :
    (disj (items.map cond)).eval row = some (items.any holds) := by
  induction items with
  | nil => exact absurd rfl hne
  | cons a items ih =>
      have ha := h a List.mem_cons_self
      cases items with
      | nil => simp only [List.map_cons, List.map_nil, disj, ha, List.any_cons, List.any_nil,
          Bool.or_false]
      | cons b items =>
          have hrest := ih (List.cons_ne_nil _ _) fun d hd => h d (List.mem_cons_of_mem _ hd)
          simp only [List.map_cons, disj, Cond.eval, ha] at hrest ⊢
          rw [hrest]
          rfl

theorem member_int (i : Int) (is : List Int) :
    member row (some (.int i)) (is.map .int) = some (decide (i ∈ is)) := by
  induction is with
  | nil => rfl
  | cons j is ih =>
      have hcompare : Op.holds .eq (compare i j) = decide (i = j) := by
        by_cases h : i = j
        · subst h
          simp [Op.holds]
        · simp [Op.holds, h]
      simp only [List.map_cons, member, Operand.value, compareValues, ih, hcompare, List.mem_cons]
      rw [Bool.decide_or]

theorem member_str (s : List Char) (ts : List (List Char)) :
    member row (some (.str s)) (ts.map .str) = some (decide (s ∈ ts)) := by
  induction ts with
  | nil => rfl
  | cons t ts ih =>
      have hcompare : Op.holds .eq (compare s t) = decide (s = t) := by
        by_cases h : s = t
        · subst h
          simp [Op.holds]
        · simp [Op.holds, h]
      simp only [List.map_cons, member, Operand.value, compareValues, ih, hcompare, List.mem_cons]
      rw [Bool.decide_or]

end

end ClickHouse
