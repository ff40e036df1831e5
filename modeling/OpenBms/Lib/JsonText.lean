/-
# `OpenBms.Lib.JsonText` — the texts that are JSON, and what `JSON.parse` makes of them

A text is read character by character: `State` is what may follow, with the containers that are
open, and `Data` what has been read.  Of the values only the strings are kept, as their UTF-16
units; an object has its entries in the order of `Object.values`.

**Proved here.**

    a character of a URL scheme is read only within a string (`step_scheme`)
    a part of a string is read within it (`run_body`, `body_of_run`)
-/
import Mathlib

namespace JsonText

abbrev Units := List Nat

/-- Where a string is: at a character, after a backslash, or before so many more hex digits. -/
inductive Inner where
  | char
  | escape
  | hex (n : Nat)
  deriving DecidableEq

def isHex (c : Char) : Bool := c.isDigit || ('a' ≤ c && c ≤ 'f') || ('A' ≤ c && c ≤ 'F')

/-- A character within a string, other than the quote that ends it. -/
def inner : Inner → Char → Option Inner
  | .char, c =>
      if c = '"' then none else if c = '\\' then some .escape
      else if c.toNat < 0x20 then none else some .char
  | .escape, c =>
      if ['"', '\\', '/', 'b', 'f', 'n', 'r', 't'].contains c then some .char
      else if c = 'u' then some (.hex 3) else none
  | .hex n, c => if isHex c then some (if n = 0 then .char else .hex (n - 1)) else none

/-- How a part of a string ends that begins at a character. -/
def bodyEnd (s : List Char) : Option Inner := s.foldlM inner .char

inductive Num where
  | minus | zero | int | point | frac | exp | sign | digits
  deriving DecidableEq

/-- The words that are values. -/
inductive Word where
  | true | false | null
  deriving DecidableEq

def Word.text : Word → List Char
  | .true => ['t', 'r', 'u', 'e']
  | .false => ['f', 'a', 'l', 's', 'e']
  | .null => ['n', 'u', 'l', 'l']

inductive Mode where
  | value | first | firstKey | key | colon | after
  | str (i : Inner) (isKey : Bool)
  | lit (word : Word) (n : Nat)
  | num (n : Num)
  deriving DecidableEq

/-- What may follow, and whether the open containers are objects. -/
structure State where
  mode : Mode
  stack : List Bool
  deriving DecidableEq

def isWhite (c : Char) : Bool := [' ', '\t', '\n', '\r'].contains c

/-- The front of a value. -/
def begin (stack : List Bool) (c : Char) : Option State :=
  if c = '"' then some ⟨.str .char false, stack⟩
  else if c = '{' then some ⟨.firstKey, true :: stack⟩
  else if c = '[' then some ⟨.first, false :: stack⟩
  else if c = 't' then some ⟨.lit .true 1, stack⟩
  else if c = 'f' then some ⟨.lit .false 1, stack⟩
  else if c = 'n' then some ⟨.lit .null 1, stack⟩
  else if c = '-' then some ⟨.num .minus, stack⟩
  else if c = '0' then some ⟨.num .zero, stack⟩
  else if c.isDigit then some ⟨.num .int, stack⟩
  else none

/-- After a value. -/
def follow (stack : List Bool) (c : Char) : Option State :=
  if isWhite c then some ⟨.after, stack⟩
  else match stack with
    | [] => none
    | true :: outer =>
        if c = ',' then some ⟨.key, stack⟩ else if c = '}' then some ⟨.after, outer⟩ else none
    | false :: outer =>
        if c = ',' then some ⟨.value, stack⟩ else if c = ']' then some ⟨.after, outer⟩ else none

def isExp (c : Char) : Bool := c = 'e' || c = 'E'

def number (stack : List Bool) (c : Char) : Num → Option State
  | .minus =>
      if c = '0' then some ⟨.num .zero, stack⟩
      else if c.isDigit then some ⟨.num .int, stack⟩ else none
  | .zero =>
      if c = '.' then some ⟨.num .point, stack⟩
      else if isExp c then some ⟨.num .exp, stack⟩ else follow stack c
  | .int =>
      if c.isDigit then some ⟨.num .int, stack⟩
      else if c = '.' then some ⟨.num .point, stack⟩
      else if isExp c then some ⟨.num .exp, stack⟩ else follow stack c
  | .point => if c.isDigit then some ⟨.num .frac, stack⟩ else none
  | .frac =>
      if c.isDigit then some ⟨.num .frac, stack⟩
      else if isExp c then some ⟨.num .exp, stack⟩ else follow stack c
  | .exp =>
      if c = '+' || c = '-' then some ⟨.num .sign, stack⟩
      else if c.isDigit then some ⟨.num .digits, stack⟩ else none
  | .sign => if c.isDigit then some ⟨.num .digits, stack⟩ else none
  | .digits => if c.isDigit then some ⟨.num .digits, stack⟩ else follow stack c

def step (st : State) (c : Char) : Option State :=
  match st.mode with
  | .value => if isWhite c then some st else begin st.stack c
  | .first =>
      if isWhite c then some st
      else if c = ']' then some ⟨.after, st.stack.tail⟩ else begin st.stack c
  | .firstKey =>
      if isWhite c then some st
      else if c = '}' then some ⟨.after, st.stack.tail⟩
      else if c = '"' then some ⟨.str .char true, st.stack⟩ else none
  | .key =>
      if isWhite c then some st
      else if c = '"' then some ⟨.str .char true, st.stack⟩ else none
  | .colon =>
      if isWhite c then some st else if c = ':' then some ⟨.value, st.stack⟩ else none
  | .after => follow st.stack c
  | .str i isKey =>
      if i = .char ∧ c = '"' then some ⟨if isKey then .colon else .after, st.stack⟩
      else (inner i c).map fun i => ⟨.str i isKey, st.stack⟩
  | .lit word n =>
      if word.text[n]? = some c then
        some ⟨if n + 1 = word.text.length then .after else .lit word (n + 1), st.stack⟩
      else none
  | .num n => number st.stack c n

def run (st : State) (text : List Char) : Option State := text.foldlM step st

/-- A value has ended, and no container is open. -/
def State.complete (st : State) : Bool :=
  st.stack.isEmpty && match st.mode with
    | .after => true
    | .num n => [Num.zero, .int, .frac, .digits].contains n
    | _ => false

def start : State := ⟨.value, []⟩

def valid (text : List Char) : Bool := (run start text).any State.complete

/-! ## The value of a text -/

inductive Json where
  | scalar
  | str (s : Units)
  | arr (items : List Json)
  | obj (entries : List (Units × Json))

/-- An open container; an object has the key that was read last. -/
inductive Frame where
  | arr (items : List Json)
  | obj (entries : List (Units × Json)) (key : Units)

structure Data where
  units : Units
  code : Nat
  frames : List Frame
  value : Json

/-- The number of a key that is an array index. -/
def arrayIndex (key : Units) : Option Nat :=
  if key = [] ∨ (key.head? = some 48 ∧ key ≠ [48]) ∨ ¬ key.all (fun u => 48 ≤ u && u ≤ 57) then none
  else
    let n := key.foldl (fun n u => 10 * n + (u - 48)) 0
    if n < 2 ^ 32 - 1 then some n else none

/-- Array indices are before the other keys, in their order. -/
def comesBefore (key key' : Units) : Bool :=
  match arrayIndex key, arrayIndex key' with
  | some n, some n' => n < n'
  | some _, none => true
  | none, _ => false

def setProperty (key : Units) (v : Json) : List (Units × Json) → List (Units × Json)
  | [] => [(key, v)]
  | (key', w) :: rest =>
      if key' = key then (key, v) :: rest
      else if comesBefore key key' then (key, v) :: (key', w) :: rest
      else (key', w) :: setProperty key v rest

def Data.put (d : Data) (v : Json) : Data :=
  match d.frames with
  | [] => { d with value := v }
  | .arr items :: outer => { d with frames := .arr (items ++ [v]) :: outer }
  | .obj entries key :: outer => { d with frames := .obj (setProperty key v entries) key :: outer }

def Data.close (d : Data) : Data :=
  match d.frames with
  | [] => d
  | .arr items :: outer => { d with frames := outer }.put (.arr items)
  | .obj entries _ :: outer => { d with frames := outer }.put (.obj entries)

def Data.setKey (d : Data) : Data :=
  match d.frames with
  | .obj entries _ :: outer => { d with frames := .obj entries d.units :: outer }
  | _ => d

/-- The UTF-16 units of a character. -/
def utf16 (c : Char) : Units :=
  if c.toNat < 0x10000 then [c.toNat]
  else [0xD800 + (c.toNat - 0x10000) / 0x400, 0xDC00 + (c.toNat - 0x10000) % 0x400]

def escaped : Char → Nat
  | 'b' => 8
  | 'f' => 12
  | 'n' => 10
  | 'r' => 13
  | 't' => 9
  | c => c.toNat

def hexDigit (c : Char) : Nat :=
  if c.isDigit then c.toNat - 48 else if 'a' ≤ c then c.toNat - 87 else c.toNat - 55

/-- What is read with a character. -/
def record (st : State) (c : Char) (d : Data) : Data :=
  match st.mode with
  | .str .char isKey =>
      if c = '"' then if isKey then d.setKey else d.put (.str d.units)
      else if c = '\\' then d else { d with units := d.units ++ utf16 c }
  | .str .escape _ =>
      if c = 'u' then { d with code := 0 } else { d with units := d.units ++ [escaped c] }
  | .str (.hex n) _ =>
      let code := 16 * d.code + hexDigit c
      if n = 0 then { d with units := d.units ++ [code], code := code } else { d with code := code }
  | mode =>
      if c = '"' then { d with units := [] }
      else if c = '[' then { d with frames := .arr [] :: d.frames }
      else if c = '{' then { d with frames := .obj [] [] :: d.frames }
      else if c = ']' ∨ c = '}' then d.close
      else if (mode = .value ∨ mode = .first) ∧ ¬ isWhite c then d.put .scalar
      else d

def readAll : State → Data → List Char → Data
  | _, d, [] => d
  | st, d, c :: text => readAll ((step st c).getD st) (record st c d) text

/-- `JSON.parse`; `none` where it throws. -/
def parse (text : List Char) : Option Json :=
  if valid text then some (readAll start ⟨[], 0, [], .scalar⟩ text).value else none

/-! ## Within a string -/

theorem run_append (st : State) (s t : List Char) :
    run st (s ++ t) = (run st s).bind fun st => run st t := by
  rw [run, List.foldlM_append]
  rfl

theorem step_str (i : Inner) (isKey : Bool) (stack : List Bool) (c : Char) :
    step ⟨.str i isKey, stack⟩ c =
      if i = .char ∧ c = '"' then some ⟨if isKey then .colon else .after, stack⟩
      else (inner i c).map fun i => ⟨.str i isKey, stack⟩ :=
  rfl

/-- A part of a string is read within it. -/
theorem run_body {i j : Inner} {s : List Char} (h : s.foldlM inner i = some j) (isKey : Bool)
    (stack : List Bool) : run ⟨.str i isKey, stack⟩ s = some ⟨.str j isKey, stack⟩ := by
  induction s generalizing i with
  | nil =>
      cases h
      rfl
  | cons c s ih =>
      rw [List.foldlM_cons] at h
      obtain ⟨k, hk, hrest⟩ := Option.bind_eq_some_iff.mp h
      have hopen : ¬ (i = .char ∧ c = '"') := by
        rintro ⟨rfl, rfl⟩
        cases hk
      have hstep : step ⟨.str i isKey, stack⟩ c = some ⟨.str k isKey, stack⟩ := by
        rw [step_str, if_neg hopen, hk]
        rfl
      rw [run, List.foldlM_cons, hstep]
      exact ih hrest

/-- What is read from within a string and holds no quote is a part of it. -/
theorem body_of_run {i : Inner} {s : List Char} (hquote : '"' ∉ s) {isKey : Bool}
    {stack : List Bool} {st : State} (h : run ⟨.str i isKey, stack⟩ s = some st) :
    ∃ j, s.foldlM inner i = some j ∧ st = ⟨.str j isKey, stack⟩ := by
  induction s generalizing i with
  | nil =>
      cases h
      exact ⟨i, rfl, rfl⟩
  | cons c s ih =>
      rw [List.mem_cons, not_or] at hquote
      rw [run, List.foldlM_cons] at h
      obtain ⟨st', hstep, hrest⟩ := Option.bind_eq_some_iff.mp h
      rw [step_str, if_neg fun hc => hquote.1 hc.2.symm] at hstep
      obtain ⟨k, hk, rfl⟩ := Option.map_eq_some_iff.mp hstep
      obtain ⟨j, hj, hst⟩ := ih hquote.2 hrest
      refine ⟨j, ?_, hst⟩
      rw [List.foldlM_cons, hk]
      exact hj

theorem follow_letter {stack : List Bool} {c : Char} (hc : c = 'h' ∨ c = 'H') :
    follow stack c = none := by
  rcases hc with rfl | rfl <;> rcases stack with _ | ⟨_ | _, _⟩ <;> rfl

/-- The first letter of a URL is read only as a character of a string. -/
theorem step_scheme {st st' : State} {c : Char} (hc : c = 'h' ∨ c = 'H')
    (h : step st c = some st') : ∃ isKey, st.mode = .str .char isKey := by
  obtain ⟨mode, stack⟩ := st
  have hfollow := @follow_letter stack c hc
  cases mode with
  | str i isKey =>
      cases i with
      | char => exact ⟨isKey, rfl⟩
      | escape => rcases hc with rfl | rfl <;> cases h
      | hex n => rcases hc with rfl | rfl <;> cases h
  | after =>
      have hstep : step ⟨.after, stack⟩ c = none := hfollow
      rw [hstep] at h
      cases h
  | lit word n =>
      have hno : word.text[n]? ≠ some c := fun hsome => by
        have hmem := List.mem_of_getElem? hsome
        rcases hc with rfl | rfl <;> revert hmem <;> cases word <;> decide
      have hnone : step ⟨.lit word n, stack⟩ c = none := if_neg hno
      rw [hnone] at h
      cases h
  | num n =>
      have hnone : number stack c n = none := by
        rcases hc with rfl | rfl <;> cases n <;> first | rfl | exact hfollow
      have hstep : step ⟨.num n, stack⟩ c = none := hnone
      rw [hstep] at h
      cases h
  | value => rcases hc with rfl | rfl <;> cases h
  | first => rcases hc with rfl | rfl <;> cases h
  | firstKey => rcases hc with rfl | rfl <;> cases h
  | key => rcases hc with rfl | rfl <;> cases h
  | colon => rcases hc with rfl | rfl <;> cases h

end JsonText
