/-
# `OpenBms.Lib.Jsonb` — JSON documents and the text a database gives for them

A document is written in one way: a blank after each colon and comma and nowhere else, the
characters of a string as they are but for the quote, the backslash and the control characters.
A number is kept as its digits.  The reader also takes blanks elsewhere and the other escapes.

| document | text |
| :-- | :-- |
| object | `{"key": value, "key": value}` |
| array | `[item, item]` |
| string | `"…"`, with `\"`, `\\`, `\n`, … `\u001f` |

**Proved here.**

    a string is read up to its closing quote (`readString_escaped`)
    a number is read up to the next mark (`readNumber_append`)
    a document is read back from its text (`read_text`)
    so two documents have two texts (`text_inj`)
-/
import Mathlib

namespace Jsonb

/-! ## Documents -/

def isNumeric (c : Char) : Bool := c.isDigit || c == '-' || c == '.'

/-- The digits of a number. -/
abbrev Number := { digits : List Char // digits ≠ [] ∧ ∀ c ∈ digits, isNumeric c = true }

mutual

inductive Doc where
  | null
  | bool (b : Bool)
  | num (n : Number)
  | str (s : List Char)
  | arr (items : Items)
  | obj (members : Members)

inductive Items where
  | nil
  | cons (item : Doc) (rest : Items)

inductive Members where
  | nil
  | cons (key : List Char) (value : Doc) (rest : Members)

end

/-- Members one after the other, without what is inside them. -/
@[elab_as_elim]
theorem Members.induction {P : Members → Prop} (nil : P .nil)
    (cons : ∀ key value rest, P rest → P (.cons key value rest)) : ∀ members, P members
  | .nil => nil
  | .cons key value rest => cons key value rest (Members.induction nil cons rest)

/-! ## The text -/

def hexDigit (n : Nat) : Char := if n < 10 then Char.ofNat (48 + n) else Char.ofNat (87 + n)

def escapeChar (c : Char) : List Char :=
  if c = '"' then ['\\', '"']
  else if c = '\\' then ['\\', '\\']
  else if c = '\n' then ['\\', 'n']
  else if c = '\r' then ['\\', 'r']
  else if c = '\t' then ['\\', 't']
  else if c.toNat = 8 then ['\\', 'b']
  else if c.toNat = 12 then ['\\', 'f']
  else if c.toNat < 32 then ['\\', 'u', '0', '0', hexDigit (c.toNat / 16), hexDigit (c.toNat % 16)]
  else [c]

def escape : List Char → List Char
  | [] => []
  | c :: s => escapeChar c ++ escape s

/-- A string between its quotes. -/
def quoted (s : List Char) : List Char := '"' :: (escape s ++ ['"'])

mutual

def Doc.text : Doc → List Char
  | .null => ['n', 'u', 'l', 'l']
  | .bool true => ['t', 'r', 'u', 'e']
  | .bool false => ['f', 'a', 'l', 's', 'e']
  | .num n => n.val
  | .str s => quoted s
  | .arr items => '[' :: (items.text true ++ [']'])
  | .obj members => '{' :: (members.text true ++ ['}'])

/-- The items from one on, which may be the first. -/
def Items.text (first : Bool) : Items → List Char
  | .nil => []
  | .cons item rest => (if first then [] else [',', ' ']) ++ (item.text ++ rest.text false)

def Members.text (first : Bool) : Members → List Char
  | .nil => []
  | .cons key value rest =>
      (if first then [] else [',', ' ']) ++
        (quoted key ++ (':' :: ' ' :: (value.text ++ rest.text false)))

end

/-! ## Reading -/

def isBlank (c : Char) : Bool := c == ' ' || c == '\n' || c == '\r' || c == '\t'

def skip : List Char → List Char
  | [] => []
  | c :: s => if isBlank c then skip s else c :: s

def hexValue (c : Char) : Option Nat :=
  if '0' ≤ c ∧ c ≤ '9' then some (c.toNat - 48)
  else if 'a' ≤ c ∧ c ≤ 'f' then some (c.toNat - 87)
  else if 'A' ≤ c ∧ c ≤ 'F' then some (c.toNat - 55)
  else none

def readHex (a b c d : Char) : Option Char := do
  let a ← hexValue a
  let b ← hexValue b
  let c ← hexValue c
  let d ← hexValue d
  return Char.ofNat (((a * 16 + b) * 16 + c) * 16 + d)

/-- The character that a short escape is for. -/
def unescape (c : Char) : Option Char :=
  match c with
  | '"' => some '"'
  | '\\' => some '\\'
  | '/' => some '/'
  | 'n' => some '\n'
  | 'r' => some '\r'
  | 't' => some '\t'
  | 'b' => some (Char.ofNat 8)
  | 'f' => some (Char.ofNat 12)
  | _ => none

/-- A string after its opening quote, and what follows its closing one. -/
def readString : List Char → Option (List Char × List Char)
  | [] => none
  | '"' :: r => some ([], r)
  | '\\' :: 'u' :: a :: b :: c :: d :: r => do
      let (s, r) ← readString r
      return ((← readHex a b c d) :: s, r)
  | '\\' :: c :: r => do
      let c ← unescape c
      let (s, r) ← readString r
      return (c :: s, r)
  | c :: r => do
      if c == '\\' || c.toNat < 32 then none
      let (s, r) ← readString r
      return (c :: s, r)

def readNumber : List Char → List Char × List Char
  | [] => ([], [])
  | c :: s => if isNumeric c then ((c :: (readNumber s).1), (readNumber s).2) else ([], c :: s)

theorem readNumber_isNumeric : ∀ s c, c ∈ (readNumber s).1 → isNumeric c = true := by
  intro s c
  induction s with
  | nil =>
      intro h
      cases h
  | cons d s ih =>
      unfold readNumber
      split
      · next hd =>
          intro h
          rcases List.mem_cons.mp h with rfl | h
          · exact hd
          · exact ih h
      · intro h
        cases h

mutual

/-- A document with at most so many values inside each other and beside each other. -/
def Doc.read : Nat → List Char → Option (Doc × List Char)
  | 0, _ => none
  | n + 1, s =>
      match skip s with
      | 'n' :: 'u' :: 'l' :: 'l' :: r => some (.null, r)
      | 't' :: 'r' :: 'u' :: 'e' :: r => some (.bool true, r)
      | 'f' :: 'a' :: 'l' :: 's' :: 'e' :: r => some (.bool false, r)
      | '"' :: r => (readString r).map fun p => (.str p.1, p.2)
      | '[' :: r =>
          match skip r with
          | ']' :: r => some (.arr .nil, r)
          | r => (Items.read n r).map fun p => (.arr p.1, p.2)
      | '{' :: r =>
          match skip r with
          | '}' :: r => some (.obj .nil, r)
          | r => (Members.read n r).map fun p => (.obj p.1, p.2)
      | r =>
          if h : (readNumber r).1 = [] then none
          else some (.num ⟨(readNumber r).1, h, readNumber_isNumeric r⟩, (readNumber r).2)

/-- One item or more, up to the closing bracket. -/
def Items.read : Nat → List Char → Option (Items × List Char)
  | 0, _ => none
  | n + 1, s => do
      let (item, r) ← Doc.read n s
      match skip r with
      | ']' :: r => return (.cons item .nil, r)
      | ',' :: r =>
          let (rest, r) ← Items.read n r
          return (.cons item rest, r)
      | _ => none

/-- One member or more, up to the closing brace. -/
def Members.read : Nat → List Char → Option (Members × List Char)
  | 0, _ => none
  | n + 1, s =>
      match skip s with
      | '"' :: r => do
          let (key, r) ← readString r
          match skip r with
          | ':' :: r =>
              let (value, r) ← Doc.read n r
              match skip r with
              | '}' :: r => return (.cons key value .nil, r)
              | ',' :: r =>
                  let (rest, r) ← Members.read n r
                  return (.cons key value rest, r)
              | _ => none
          | _ => none
      | _ => none

end

/-- `text::jsonb`.  The members keep their order. -/
def read (s : List Char) : Option Doc :=
  match Doc.read (s.length + 1) s with
  | some (doc, r) => if skip r = [] then some doc else none
  | none => none

/-! ## Strings -/

theorem hexValue_hexDigit : ∀ n, n < 16 → hexValue (hexDigit n) = some n := by decide

theorem readHex_hexDigit {c : Char} (h : c.toNat < 32) :
    readHex '0' '0' (hexDigit (c.toNat / 16)) (hexDigit (c.toNat % 16)) = some c := by
  have hzero : hexValue '0' = some 0 := by decide
  have hhigh := hexValue_hexDigit (c.toNat / 16) (by omega)
  have hlow := hexValue_hexDigit (c.toNat % 16) (by omega)
  have hsum : ((0 * 16 + 0) * 16 + c.toNat / 16) * 16 + c.toNat % 16 = c.toNat := by omega
  unfold readHex
  rw [hzero, hhigh, hlow]
  show some (Char.ofNat (((0 * 16 + 0) * 16 + c.toNat / 16) * 16 + c.toNat % 16)) = some c
  rw [hsum, Char.ofNat_toNat]

theorem readString_unescape {c d : Char} (hd : unescape c = some d) (hc : c ≠ 'u') (t : List Char) :
    readString ('\\' :: c :: t) = (readString t).map fun p => (d :: p.1, p.2) := by
  rw [readString]
  · rw [hd]
    cases readString t <;> rfl
  · intro _ _ _ _ _ h _
    exact hc h

theorem readString_escapeChar (c : Char) (t : List Char) :
    readString (escapeChar c ++ t) = (readString t).map fun p => (c :: p.1, p.2) := by
  have hchar {n : Nat} (h : c.toNat = n) : c = Char.ofNat n := by rw [← h, Char.ofNat_toNat]
  unfold escapeChar
  split
  · next h => exact readString_unescape (by rw [h]; rfl) (by decide) t
  split
  · next h => exact readString_unescape (by rw [h]; rfl) (by decide) t
  split
  · next h => exact readString_unescape (by rw [h]; rfl) (by decide) t
  split
  · next h => exact readString_unescape (by rw [h]; rfl) (by decide) t
  split
  · next h => exact readString_unescape (by rw [h]; rfl) (by decide) t
  split
  · next h => exact readString_unescape (by rw [hchar h]; rfl) (by decide) t
  split
  · next h => exact readString_unescape (by rw [hchar h]; rfl) (by decide) t
  split
  · next h =>
      show readString ('\\' :: 'u' :: '0' :: '0' :: _ :: _ :: t) = _
      rw [readString, readHex_hexDigit h]
      cases readString t <;> rfl
  · next hquote hslash _ _ _ _ _ hcontrol =>
      show readString (c :: t) = _
      rw [readString]
      · rw [if_neg]
        · cases readString t <;> rfl
        · simp [hslash, hcontrol]
      · exact hquote
      · intro _ _ _ _ _ h _
        exact hslash h
      · intro _ _ h _
        exact hslash h

theorem readString_escaped (s r : List Char) : readString (escape s ++ '"' :: r) = some (s, r) := by
  induction s with
  | nil => rfl
  | cons c s ih =>
      show readString (escapeChar c ++ escape s ++ '"' :: r) = _
      rw [List.append_assoc, readString_escapeChar, ih]
      rfl

/-! ## Numbers -/

/-- No number goes on in what follows. -/
def Ends (r : List Char) : Prop := ∀ c s, r = c :: s → isNumeric c = false

theorem Ends.cons {c : Char} {r : List Char} (h : isNumeric c = false) : Ends (c :: r) := by
  intro d s heq
  cases heq
  exact h

theorem readNumber_append {digits r : List Char} (h : ∀ c ∈ digits, isNumeric c = true) (hr : Ends r) :
    readNumber (digits ++ r) = (digits, r) := by
  induction digits with
  | nil =>
      cases r with
      | nil => rfl
      | cons c r =>
          show readNumber (c :: r) = _
          rw [readNumber, if_neg (by rw [hr c r rfl]; exact Bool.false_ne_true)]
  | cons c digits ih =>
      show readNumber (c :: (digits ++ r)) = _
      rw [readNumber, if_pos (h c List.mem_cons_self), ih fun d hd => h d (List.mem_cons_of_mem c hd)]

/-! ## Documents -/

theorem skip_of_not {c : Char} {s : List Char} (h : isBlank c = false) : skip (c :: s) = c :: s := by
  rw [skip, if_neg (by rw [h]; exact Bool.false_ne_true)]

theorem isBlank_of_isNumeric {c : Char} (h : isNumeric c = true) : isBlank c = false := by
  cases hblank : isBlank c with
  | false => rfl
  | true =>
      unfold isBlank at hblank
      simp only [Bool.or_eq_true, beq_iff_eq] at hblank
      rcases hblank with ((rfl | rfl) | rfl) | rfl <;> cases h

theorem read_number {n : Nat} {digits r : List Char} (hne : digits ≠ [])
    (h : ∀ c ∈ digits, isNumeric c = true) (hr : Ends r) :
    Doc.read (n + 1) (digits ++ r) = some (.num ⟨digits, hne, h⟩, r) := by
  have hread := readNumber_append h hr
  obtain ⟨c, digits, rfl⟩ := List.exists_cons_of_ne_nil hne
  have hc := h c List.mem_cons_self
  have hskip : skip (c :: digits ++ r) = c :: digits ++ r := skip_of_not (isBlank_of_isNumeric hc)
  unfold Doc.read
  rw [hskip]
  -- no other document begins with a digit
  split
  all_goals try (next heq => exact absurd hc (by rw [(List.cons.inj heq).1]; decide))
  rw [dif_neg (by rw [hread]; exact hne)]
  simp only [hread]

theorem quoted_append (s r : List Char) : quoted s ++ r = '"' :: (escape s ++ '"' :: r) := by
  unfold quoted
  rw [List.cons_append, List.append_assoc]
  rfl

/-- The text of a document begins neither with a blank nor with a closing mark. -/
theorem Doc.text_head (d : Doc) : ∃ c s, d.text = c :: s ∧ isBlank c = false ∧ c ≠ ']' := by
  cases d with
  | null => exact ⟨'n', _, rfl, rfl, by decide⟩
  | bool b =>
      cases b with
      | true => exact ⟨'t', _, rfl, rfl, by decide⟩
      | false => exact ⟨'f', _, rfl, rfl, by decide⟩
  | num n =>
      obtain ⟨digits, hne, h⟩ := n
      obtain ⟨c, digits, rfl⟩ := List.exists_cons_of_ne_nil hne
      have hc := h c List.mem_cons_self
      refine ⟨c, digits, rfl, isBlank_of_isNumeric hc, ?_⟩
      rintro rfl
      cases hc
  | str s => exact ⟨'"', _, rfl, rfl, by decide⟩
  | arr items => exact ⟨'[', _, rfl, rfl, by decide⟩
  | obj members => exact ⟨'{', _, rfl, rfl, by decide⟩

theorem Items.text_false (item : Doc) (rest : Items) :
    (Items.cons item rest).text false = ',' :: ' ' :: (Items.cons item rest).text true := rfl

theorem Members.text_false (key : List Char) (value : Doc) (rest : Members) :
    (Members.cons key value rest).text false = ',' :: ' ' :: (Members.cons key value rest).text true :=
  rfl

/-- Blanks before a document are skipped. -/
theorem Doc.read_blank (n : Nat) (s : List Char) : Doc.read n (' ' :: s) = Doc.read n s := by
  cases n with
  | zero => rfl
  | succ n =>
      have hskip : skip (' ' :: s) = skip s := rfl
      unfold Doc.read
      rw [hskip]

theorem Items.read_blank (n : Nat) (s : List Char) : Items.read n (' ' :: s) = Items.read n s := by
  cases n with
  | zero => rfl
  | succ n =>
      unfold Items.read
      rw [Doc.read_blank]

theorem Members.read_blank (n : Nat) (s : List Char) :
    Members.read n (' ' :: s) = Members.read n s := by
  cases n with
  | zero => rfl
  | succ n =>
      have hskip : skip (' ' :: s) = skip s := rfl
      unfold Members.read
      rw [hskip]

mutual

theorem Doc.read_append (d : Doc) (n : Nat) (r : List Char) (hn : d.text.length < n) (hr : Ends r) :
    Doc.read n (d.text ++ r) = some (d, r) := by
  obtain ⟨n, rfl⟩ : ∃ m, n = m + 1 := ⟨n - 1, by omega⟩
  cases d with
  | null => rfl
  | bool b => cases b <;> rfl
  | num digits => exact read_number digits.2.1 digits.2.2 hr
  | str s =>
      show Doc.read (n + 1) (quoted s ++ r) = _
      rw [quoted_append]
      show (readString (escape s ++ '"' :: r)).map _ = _
      rw [readString_escaped]
      rfl
  | arr items =>
      cases items with
      | nil => rfl
      | cons item rest =>
          have hlen : ((Items.cons item rest).text true).length + 1 < n := by
            simp only [Doc.text, List.length_cons, List.length_append, List.length_nil] at hn
            omega
          have hitems := Items.read_append (.cons item rest) n r (fun h => by cases h) hlen
          obtain ⟨c, s, htext, hblank, hclose⟩ := item.text_head
          have hhead : (Items.cons item rest).text true ++ ']' :: r =
              c :: (s ++ rest.text false ++ ']' :: r) := by
            show item.text ++ rest.text false ++ _ = _
            rw [htext]
            rfl
          show Doc.read (n + 1) ('[' :: ((Items.cons item rest).text true ++ [']'] ++ r)) = _
          rw [List.append_assoc]
          show Doc.read (n + 1) ('[' :: ((Items.cons item rest).text true ++ ']' :: r)) = _
          rw [hhead] at hitems ⊢
          show (match skip (c :: (s ++ rest.text false ++ ']' :: r)) with
            | ']' :: r => some (Doc.arr .nil, r)
            | r => (Items.read n r).map fun p : Items × List Char => (Doc.arr p.1, p.2)) = _
          rw [skip_of_not hblank]
          split
          · next heq => exact absurd (List.cons.inj heq).1 hclose
          · rw [hitems]
            rfl
  | obj members =>
      cases members with
      | nil => rfl
      | cons key value rest =>
          have hlen : ((Members.cons key value rest).text true).length + 1 < n := by
            simp only [Doc.text, List.length_cons, List.length_append, List.length_nil] at hn
            omega
          have hmembers := Members.read_append (.cons key value rest) n r (fun h => by cases h) hlen
          show Doc.read (n + 1) ('{' :: ((Members.cons key value rest).text true ++ ['}'] ++ r)) = _
          rw [List.append_assoc]
          show (Members.read n ((Members.cons key value rest).text true ++ '}' :: r)).map _ = _
          rw [hmembers]
          rfl

theorem Items.read_append (items : Items) (n : Nat) (r : List Char) (hne : items ≠ .nil)
    (hn : (items.text true).length + 1 < n) :
    Items.read n (items.text true ++ ']' :: r) = some (items, r) := by
  obtain ⟨n, rfl⟩ : ∃ m, n = m + 1 := ⟨n - 1, by omega⟩
  cases items with
  | nil => exact absurd rfl hne
  | cons item rest =>
  have ih := Items.read_append rest n r
  have htext : (Items.cons item rest).text true = item.text ++ rest.text false := rfl
  rw [htext, List.length_append] at hn
  rw [htext, List.append_assoc]
  unfold Items.read
  cases rest with
  | nil =>
      show (do
        let (item, r) ← Doc.read n (item.text ++ ']' :: r)
        match skip r with
        | ']' :: r => return (Items.cons item .nil, r)
        | ',' :: r =>
            let (rest, r) ← Items.read n r
            return (.cons item rest, r)
        | _ => none) = _
      rw [Doc.read_append item n _ (by omega) (.cons (by decide))]
      rfl
  | cons next rest =>
      rw [Items.text_false, List.length_cons, List.length_cons] at hn
      rw [Items.text_false, List.cons_append, Doc.read_append item n _ (by omega) (.cons (by decide))]
      show (do
        let (rest, r) ← Items.read n (' ' :: ((Items.cons next rest).text true ++ ']' :: r))
        return (Items.cons item rest, r)) = _
      rw [Items.read_blank, ih (fun h => by cases h) (by omega)]
      rfl

theorem Members.read_append (members : Members) (n : Nat) (r : List Char) (hne : members ≠ .nil)
    (hn : (members.text true).length + 1 < n) :
    Members.read n (members.text true ++ '}' :: r) = some (members, r) := by
  obtain ⟨n, rfl⟩ : ∃ m, n = m + 1 := ⟨n - 1, by omega⟩
  cases members with
  | nil => exact absurd rfl hne
  | cons key value rest =>
  have ih := Members.read_append rest n r
  have htext : (Members.cons key value rest).text true =
      quoted key ++ (':' :: ' ' :: (value.text ++ rest.text false)) := rfl
  rw [htext, List.length_append, List.length_cons, List.length_cons, List.length_append] at hn
  rw [htext, List.append_assoc, quoted_append]
  show (do
    let (key, r) ← readString (escape key ++ '"' :: (':' :: ' ' :: (value.text ++ rest.text false) ++ '}' :: r))
    match skip r with
    | ':' :: r =>
        let (value, r) ← Doc.read n r
        match skip r with
        | '}' :: r => return (Members.cons key value .nil, r)
        | ',' :: r =>
            let (rest, r) ← Members.read n r
            return (Members.cons key value rest, r)
        | _ => none
    | _ => none) = _
  rw [readString_escaped]
  show (do
    let (value, r) ← Doc.read n (' ' :: (value.text ++ rest.text false ++ '}' :: r))
    match skip r with
    | '}' :: r => return (Members.cons key value .nil, r)
    | ',' :: r =>
        let (rest, r) ← Members.read n r
        return (Members.cons key value rest, r)
    | _ => none) = _
  rw [Doc.read_blank, List.append_assoc]
  cases rest with
  | nil =>
      rw [show Members.nil.text false ++ '}' :: r = '}' :: r from rfl,
        Doc.read_append value n _ (by omega) (.cons (by decide))]
      rfl
  | cons key' value' rest =>
      rw [Members.text_false, List.length_cons, List.length_cons] at hn
      rw [Members.text_false, List.cons_append,
        Doc.read_append value n _ (by omega) (.cons (by decide))]
      show (do
        let (rest, r) ← Members.read n (' ' :: ((Members.cons key' value' rest).text true ++ '}' :: r))
        return (Members.cons key value rest, r)) = _
      rw [Members.read_blank, ih (fun h => by cases h) (by omega)]
      rfl

end

theorem read_text (d : Doc) : read d.text = some d := by
  have hread := Doc.read_append d (d.text.length + 1) [] (Nat.lt_succ_self _)
    (fun _ _ heq => by cases heq)
  rw [List.append_nil] at hread
  unfold read
  rw [hread]
  rfl

theorem text_inj {d d' : Doc} (h : d.text = d'.text) : d = d' :=
  Option.some.inj ((read_text d).symm.trans ((congrArg read h).trans (read_text d')))

end Jsonb
