/-
# `OpenBms.Lib.Brackets` — texts in brackets, every pair around something

A text is read from the left with one bit for each bracket still open: whether an
operand stands in it already.  A bracket is closed only around an operand, and is one
itself then.

**Proved here.**

    a text is read part by part (`read_append`)
    a text that leaves the brackets as they are is
    read the same anywhere (`Whole`, `Whole.append`)
    brackets around it are read where it holds an
    operand, and only there (`Whole.group`, `read_group_none`)
    the parts of a text stand where their brackets do (`placed_append`)
-/
import Mathlib

namespace Brackets

/-- What a token is to its brackets; `opens true` needs no operand. -/
inductive Kind where
  | opens (full : Bool)
  | closes
  | operand
  | other
  deriving DecidableEq

variable {τ : Type} (kind : τ → Kind)

/-- An operand in the innermost bracket that is open. -/
def fill (b : Bool) : List Bool → List Bool
  | [] => []
  | top :: st => (top || b) :: st

/-- A bracket is not closed without an operand, nor where none is open. -/
def close : List Bool → Option (List Bool)
  | true :: st => some (fill true st)
  | _ => none

def step (t : τ) (st : List Bool) : Option (List Bool) :=
  match kind t with
  | .opens full => some (full :: st)
  | .closes => close st
  | .operand => some (fill true st)
  | .other => some st

def read : List Bool → List τ → Option (List Bool)
  | st, [] => some st
  | st, t :: ts => (step kind t st).bind fun st => read st ts

/-- The tokens, each with how many brackets are open where it stands. -/
def placed : Nat → List τ → List (Nat × τ)
  | _, [] => []
  | d, t :: ts =>
      (d, t) :: placed (match kind t with
        | .opens _ => d + 1
        | .closes => d - 1
        | .operand | .other => d) ts

variable {kind}

@[simp] theorem fill_false (st : List Bool) : fill false st = st := by
  cases st with
  | nil => rfl
  | cons top st => exact congrArg (· :: st) (Bool.or_false top)

@[simp] theorem fill_fill (b c : Bool) (st : List Bool) : fill c (fill b st) = fill (b || c) st := by
  cases st with
  | nil => rfl
  | cons top st => exact congrArg (· :: st) (Bool.or_assoc top b c)

@[simp] theorem length_fill (b : Bool) (st : List Bool) : (fill b st).length = st.length := by
  cases st <;> rfl

theorem read_append (st : List Bool) (ts us : List τ) :
    read kind st (ts ++ us) = (read kind st ts).bind fun st => read kind st us := by
  induction ts generalizing st with
  | nil => rfl
  | cons t ts ih =>
      rw [List.cons_append, read, read, Option.bind_assoc]
      exact congrArg _ (funext ih)

theorem read_one (st : List Bool) (t : τ) : read kind st [t] = step kind t st := by
  rw [read]
  cases step kind t st <;> rfl

/-! ## Texts that leave the brackets as they are -/

/-- The text closes what it opens and nothing else; `b` is whether it holds an operand. -/
def Whole (kind : τ → Kind) (ts : List τ) (b : Bool) : Prop :=
  ∀ st, read kind st ts = some (fill b st)

section
variable {t o c : τ} {ts us : List τ} {a b : Bool}

theorem whole_nil : Whole kind [] false := by
  intro st
  rw [fill_false]
  rfl

theorem whole_other (h : kind t = .other) : Whole kind [t] false := by
  intro st
  rw [read_one, step, h, fill_false]

theorem whole_operand (h : kind t = .operand) : Whole kind [t] true := by
  intro st
  rw [read_one, step, h]

theorem Whole.append (ht : Whole kind ts a) (hu : Whole kind us b) :
    Whole kind (ts ++ us) (a || b) := by
  intro st
  rw [read_append, ht, Option.bind_some, hu, fill_fill]

theorem Whole.before (ht : Whole kind ts true) (hu : Whole kind us b) : Whole kind (ts ++ us) true :=
  ht.append hu

theorem Whole.after (hu : Whole kind us true) (ht : Whole kind ts a) :
    Whole kind (ts ++ us) true := by
  have h := ht.append hu
  rwa [Bool.or_true] at h

/-- A text in brackets, of which the last is read only around an operand. -/
theorem Whole.read_group (ht : Whole kind ts a) (ho : kind o = .opens false) (hc : kind c = .closes)
    (st : List Bool) : read kind st ([o] ++ ts ++ [c]) = if a then some (fill true st) else none := by
  have hopen : read kind st [o] = some (false :: st) := by
    rw [read_one, step, ho]
  rw [read_append, read_append, hopen, Option.bind_some, ht, Option.bind_some, read_one, step, hc]
  cases a <;> rfl

theorem Whole.group (ht : Whole kind ts true) (ho : kind o = .opens false) (hc : kind c = .closes) :
    Whole kind ([o] ++ ts ++ [c]) true :=
  fun st => ht.read_group ho hc st

theorem Whole.flatMap {α : Type} {f : α → List τ} {l : List α} (h : ∀ x ∈ l, Whole kind (f x) true) :
    Whole kind (l.flatMap f) (!l.isEmpty) := by
  induction l with
  | nil => exact whole_nil
  | cons x l ih =>
      have hrest := ih fun y hy => h y (List.mem_cons_of_mem _ hy)
      exact (h x List.mem_cons_self).append hrest

end

/-! ## Where the tokens stand -/

theorem length_close {st st' : List Bool} (h : close st = some st') :
    st'.length = st.length - 1 := by
  cases st with
  | nil => cases h
  | cons top st =>
      cases top with
      | false => cases h
      | true =>
          cases h
          exact length_fill ..

theorem length_step {t : τ} {st st' : List Bool} (h : step kind t st = some st') :
    st'.length = match kind t with
      | .opens _ => st.length + 1
      | .closes => st.length - 1
      | .operand | .other => st.length := by
  rw [step] at h
  split at h
  · cases h
    rfl
  · exact length_close h
  · cases h
    exact length_fill ..
  · cases h
    rfl

theorem placed_append {st st' : List Bool} {ts : List τ} (h : read kind st ts = some st')
    (us : List τ) :
    placed kind st.length (ts ++ us) = placed kind st.length ts ++ placed kind st'.length us := by
  induction ts generalizing st with
  | nil =>
      cases h
      rfl
  | cons t ts ih =>
      rw [read] at h
      obtain ⟨mid, hstep, hread⟩ := Option.bind_eq_some_iff.mp h
      have hrest := ih hread
      rw [length_step hstep] at hrest
      rw [List.cons_append, placed, placed, List.cons_append, hrest]

theorem filterMap_placed {β : Type} {mark : Nat × τ → Option β} {ts : List τ}
    (h : ∀ t ∈ ts, ∀ d, mark (d, t) = none) (d : Nat) : (placed kind d ts).filterMap mark = [] := by
  induction ts generalizing d with
  | nil => rfl
  | cons t ts ih =>
      rw [placed, List.filterMap_cons_none (h t List.mem_cons_self d)]
      exact ih (fun u hu => h u (List.mem_cons_of_mem _ hu)) _

end Brackets
