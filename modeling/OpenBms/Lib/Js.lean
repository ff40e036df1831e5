/-
# `OpenBms.Lib.Js` — the scalar values of a JSON document and how code reads them

The services take loosely typed JSON objects apart with template literals,
`parseInt`, truthiness and `==`.  These are the operations, on one type of
scalars.  Numbers are integers: the numbers met here are ids, counts and days.
-/
import Mathlib

namespace Js

/-- A scalar, or an absent field. -/
inductive Val where
  | undefined
  | null
  | bool (b : Bool)
  | num (n : Int)
  | str (s : String)
  deriving DecidableEq, Inhabited

/-- A call that a value of the wrong kind makes throw. -/
inductive Error where
  | typeError
  | rangeError
  | error (message : String)
  deriving DecidableEq

/-- The text a template literal puts for a value. -/
def Val.text : Val → String
  | .undefined => "undefined"
  | .null => "null"
  | .bool true => "true"
  | .bool false => "false"
  | .num n => toString n
  | .str s => s

/-- What `if (v)` tests. -/
def Val.truthy : Val → Bool
  | .undefined | .null => false
  | .bool b => b
  | .num n => n != 0
  | .str s => s != ""

/-- `v ?? d`. -/
def Val.orElse (v d : Val) : Val :=
  match v with
  | .undefined | .null => d
  | v => v

/-- The digits a text starts with, most significant first. -/
def digits : List Char → List Char
  | [] => []
  | c :: cs => if c.isDigit then c :: digits cs else []

/-- The value of a list of digits. -/
def ofDigits (cs : List Char) : Nat :=
  cs.foldl (fun n c => 10 * n + (c.toNat - '0'.toNat)) 0

/-- An optional sign, and the rest. -/
def sign : List Char → Int × List Char
  | '-' :: cs => (-1, cs)
  | '+' :: cs => (1, cs)
  | cs => (1, cs)

/-- `parseInt(v, 10)`; `none` is `NaN`. -/
def Val.parseInt : Val → Option Int
  | .num n => some n
  | .str s =>
      let (σ, cs) := sign (s.toList.dropWhile Char.isWhitespace)
      match digits cs with
      | [] => none
      | ds => some (σ * ofDigits ds)
  | _ => none

/-- A decimal literal as a mantissa and its number of fractional digits.
Exponents, other radices and `Infinity`, which no field holds, are `NaN`. -/
def decimal (s : String) : Option (Int × Nat) :=
  let trimmed := (s.toList.dropWhile Char.isWhitespace).reverse.dropWhile Char.isWhitespace
  match trimmed.reverse with
  | [] => some (0, 0)
  | cs =>
      let (σ, cs) := sign cs
      let whole := digits cs
      match cs.drop whole.length with
      | [] => if whole = [] then none else some (σ * ofDigits whole, 0)
      | '.' :: fs =>
          if fs = digits fs ∧ ¬ (whole = [] ∧ fs = []) then
            some (σ * ofDigits (whole ++ fs), fs.length)
          else none
      | _ => none

/-- The exponent part of a decimal literal. -/
def exponent : List Char → Option Int
  | [] => some 0
  | e :: cs =>
      let (σ, ds) := sign cs
      if (e = 'e' ∨ e = 'E') ∧ ds ≠ [] ∧ ds = digits ds then some (σ * ofDigits ds) else none

/-- An unsigned decimal literal. -/
def unsigned (cs : List Char) : Option ℚ :=
  let whole := digits cs
  let (frac, rest) :=
    match cs.drop whole.length with
    | '.' :: fs => (digits fs, fs.drop (digits fs).length)
    | rest => ([], rest)
  if whole = [] ∧ frac = [] then none
  else (exponent rest).map fun e : Int =>
    (ofDigits (whole ++ frac) : ℚ) * (10 : ℚ) ^ (e - (frac.length : Int))

/-- The value of a digit of a radix up to 16. -/
def digitOf (c : Char) : Option Nat :=
  if c.isDigit then some (c.toNat - '0'.toNat)
  else if 'a' ≤ c ∧ c ≤ 'f' then some (c.toNat - 'a'.toNat + 10)
  else if 'A' ≤ c ∧ c ≤ 'F' then some (c.toNat - 'A'.toNat + 10)
  else none

/-- A literal after `0x`, `0o` or `0b`. -/
def radix (r : Nat) (cs : List Char) : Option ℚ :=
  if cs = [] then none
  else (cs.foldlM (fun n c => (digitOf c).bind fun d => if d < r then some (r * n + d) else none)
    0).map (↑·)

/-- `Number(s)` of a text as a rational that is not rounded to a double; `none` is
`NaN` or an infinity. -/
def finite (s : String) : Option ℚ :=
  let trimmed := (s.toList.dropWhile Char.isWhitespace).reverse.dropWhile Char.isWhitespace
  let value :=
    match trimmed.reverse with
    | [] => some 0
    | '0' :: 'x' :: cs | '0' :: 'X' :: cs => radix 16 cs
    | '0' :: 'o' :: cs | '0' :: 'O' :: cs => radix 8 cs
    | '0' :: 'b' :: cs | '0' :: 'B' :: cs => radix 2 cs
    | cs => let (σ, cs) := sign cs
            (unsigned cs).map (σ * ·)
  value.filter fun q => |q| < 2 ^ 1024

/-- What arithmetic and `==` against a number make of a value. -/
def Val.number : Val → Option (Int × Nat)
  | .undefined => none
  | .null => some (0, 0)
  | .bool true => some (1, 0)
  | .bool false => some (0, 0)
  | .num n => some (n, 0)
  | .str s => decimal s

/-- `v == n`. -/
def Val.looseEq (v : Val) (n : Int) : Bool :=
  match v with
  | .null => false
  | v => match v.number with
      | none => false
      | some (m, k) => m == n * 10 ^ k

/-- `v > n`. -/
def Val.gt (v : Val) (n : Int) : Bool :=
  match v.number with
  | none => false
  | some (m, k) => decide (n * 10 ^ k < m)

end Js
