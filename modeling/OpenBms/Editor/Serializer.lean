/-
# `OpenBms.Editor.Serializer` — the editor's graph and the tree of an automation

The editor holds an automation as nodes and edges; the API has it as a tree of steps.
`serializeFlowToSteps` walks from the first node without an edge to it, and does not
build a node a second time; `handleSave` refuses a node, other than a trigger, that no
edge leads to.

| step               | handle of the edge to a child            |
| :----------------- | :--------------------------------------- |
| `split`            | `path-` and the path of the child, or its number |
| `conditional`      | `yes` for the first, `no` for the others |
| any other          | none                                     |

**Proved here.**

    a graph has a root where it is serialized, and
    nowhere else (`serializeFlowToSteps_eq`)
    the tree is the one of the walk over the nodes
    that exist (`buildTree_eq`)
-/
import OpenBms.Lib.Dfs
import OpenBms.MessageTrigger.Steps

namespace OpenBms.Editor

open Dfs MessageTrigger

variable {σ : Type}

/-! ## Steps -/

/-- The settings of a step; the serializer reads `path` and nothing else of them. -/
structure Settings (σ : Type) where
  path : Option String
  rest : σ
  deriving DecidableEq

structure StepInfo (σ : Type) where
  id : StepId
  type : String
  settings : Settings σ
  deriving DecidableEq

/-- A step with its children. -/
abbrev ApiStep (σ : Type) := Rose (StepInfo σ)

def KNOWN_STEP_TYPES : List String :=
  ["trigger", "wait", "email", "webPush", "mobilePush", "sms", "whatsapp", "testAB",
    "randomMessage", "randomWebPush", "randomMobilePush", "addTag", "removeTag",
    "updateCustomField", "contactTransfer", "removeAutomation", "split", "splitPath",
    "conditional", "conditionalTrue", "conditionalFalse", "conditionalTime", "httpRequest", "end"]

def BRANCHING_STEP_TYPES : List String := ["split", "conditional"]

def NODE_SPACING : Nat := 150

/-! ## The graph -/

structure NodeData (σ : Type) where
  stepId : StepId
  originalType : Option String
  settings : Settings σ

/-- A node; of its position the serializer reads `y`. -/
structure Node (σ : Type) where
  id : String
  type : Option String
  y : ℚ
  data : NodeData σ

structure Edge where
  source : String
  target : String
  sourceHandle : Option String
  deriving DecidableEq

structure Graph (σ : Type) where
  nodes : List (Node σ)
  edges : List Edge

/-! ## Deserialize -/

/-- The handle of the edge to the child at `i`. -/
def handleOf (type : String) (i : Nat) (child : StepInfo σ) : Option String :=
  if BRANCHING_STEP_TYPES.contains type && type == "split" then
    some ("path-" ++ child.settings.path.getD (toString (i + 1)))
  else if BRANCHING_STEP_TYPES.contains type && type == "conditional" then
    some (if i == 0 then "yes" else "no")
  else
    none

/-- The node of a step that is the `index`-th met. -/
def nodeOf (step : StepInfo σ) (index : Nat) : Node σ :=
  let isKnown := KNOWN_STEP_TYPES.contains step.type
  { id := step.id.toText
    type := some (if isKnown then step.type else "unsupported")
    y := index * NODE_SPACING
    data :=
      { stepId := step.id
        originalType := if isKnown then none else some step.type
        settings := step.settings } }

/-- The edge from a parent; none where the parent's id is the empty text. -/
def edgeFrom (parentId nodeId : String) (sourceHandle : Option String) : List Edge :=
  if parentId.isEmpty then [] else [⟨parentId, nodeId, sourceHandle⟩]

mutual

/-- The nodes below a step, the step first; `index` nodes were met before. -/
def walkNodes (index : Nat) : ApiStep σ → List (Node σ)
  | .node step child => nodeOf step index :: walkNodesAll (index + 1) child

def walkNodesAll (index : Nat) : List (ApiStep σ) → List (Node σ)
  | [] => []
  | t :: ts => walkNodes index t ++ walkNodesAll (index + (walkNodes index t).length) ts

end

mutual

/-- The edges below a step. -/
def walkEdges : ApiStep σ → List Edge
  | .node step child => walkEdgesAll step 0 child

def walkEdgesAll (parent : StepInfo σ) (i : Nat) : List (ApiStep σ) → List Edge
  | [] => []
  | t :: ts =>
      edgeFrom parent.id.toText t.root.id.toText (handleOf parent.type i t.root) ++
        walkEdges t ++ walkEdgesAll parent (i + 1) ts

end

def deserializeStepsToFlow (rootStep : ApiStep σ) : Graph σ :=
  ⟨walkNodes 0 rootStep, walkEdges rootStep⟩

/-! ## The order of the children -/

/-- `N` of a handle `path-N`. -/
def pathNumber (handle : String) : Option Nat :=
  let digits := handle.toList.drop 5
  if "path-".toList.isPrefixOf handle.toList && !digits.isEmpty && digits.all Char.isDigit then
    some (digits.foldl (fun n c => 10 * n + (c.toNat - 48)) 0)
  else
    none

section
variable (localeCompare : String → String → Int)

def compareSourceHandles (a b : Option String) : Int :=
  let ah := a.getD ""
  let bh := b.getD ""
  if ah == bh then 0
  else if ah == "yes" && bh == "no" then -1
  else if ah == "no" && bh == "yes" then 1
  else
    match pathNumber ah, pathNumber bh with
    | some m, some n => (m : Int) - n
    | _, _ => localeCompare ah bh

/-- A handle that is there, and not the empty text. -/
def truthy (handle : Option String) : Bool := handle.any fun h => !h.isEmpty

namespace Graph

variable (g : Graph σ)

def find (id : String) : Option (Node σ) := g.nodes.find? fun n => n.id == id

/-- The comparison of two children of a node: by their handles, or by where they stand. -/
def compareEntries (a b : Edge) : ℚ :=
  if truthy a.sourceHandle && truthy b.sourceHandle then
    compareSourceHandles localeCompare a.sourceHandle b.sourceHandle
  else
    ((g.find a.target).map Node.y).getD 0 - ((g.find b.target).map Node.y).getD 0

/-- The children of a node, sorted. -/
def sortedEntries (nodeId : String) : List Edge :=
  (g.edges.filter fun e => e.source == nodeId).mergeSort
    fun a b => compareEntries localeCompare g a b ≤ 0

end Graph

end

/-! ## Serialize -/

namespace Graph

variable (g : Graph σ)

def hasIncoming (id : String) : Bool := g.edges.any fun e => e.target == id

/-- The first node no edge leads to. -/
def rootNode : Option (Node σ) := g.nodes.find? fun n => !g.hasIncoming n.id

end Graph

def Node.stepType (n : Node σ) : String :=
  match n.data.originalType with
  | some t => t
  | none => n.type.getD "end"

namespace Graph

variable (g : Graph σ)

/-- The edge from the conditional above a node: the one with the handle `yes`, or one
from a node that is a conditional. -/
def parentEdge (nodeId : String) : Option Edge :=
  let incomingEdges := g.edges.filter fun e => e.target == nodeId
  (incomingEdges.find? fun e => e.sourceHandle == some "yes").or
    (incomingEdges.find? fun e => ((g.find e.source).bind Node.type) == some "conditional")

/-- The settings of a node's step; those of a `conditionalTrue` are its parent's. -/
def settingsOf (n : Node σ) : Settings σ :=
  if n.stepType == "conditionalTrue" then
    (((g.parentEdge n.id).bind fun e => g.find e.source).map fun p => p.data.settings).getD
      n.data.settings
  else
    n.data.settings

/-- What a node becomes, without its children. -/
def stepOf (n : Node σ) : StepInfo σ := ⟨n.data.stepId, n.stepType, g.settingsOf n⟩

/-- `buildTree`: a node that was visited is not built again, and one that does not exist is
not built. -/
def buildTree (localeCompare : String → String → Int) (nodeId : String) : Option (ApiStep σ) :=
  (visit (fun id => (g.sortedEntries localeCompare id).map Edge.target)
    (fun id => (g.find id).map fun n => Rose.node (g.stepOf n)) (g.nodes.length + 1) [] nodeId).1

end Graph

def serializeFlowToSteps (localeCompare : String → String → Int) (g : Graph σ) :
    Except String (ApiStep σ) :=
  if g.nodes.isEmpty then .error "No nodes in the flow"
  else
    match g.rootNode with
    | none =>
        .error "No root node found (all nodes have incoming edges — possible cycle)"
    | some root =>
        match g.buildTree localeCompare root.id with
        | none => .error "Failed to build tree from root node"
        | some t => .ok t

/-- What `handleSave` sends for a graph: every node but a trigger has to have an edge to it. -/
def handleSave (localeCompare : String → String → Int) (g : Graph σ) :
    Except String (ApiStep σ) :=
  if g.nodes.any fun n => n.type != some "trigger" && !g.hasIncoming n.id then
    .error "automations.editor.disconnectedNode"
  else
    serializeFlowToSteps localeCompare g

/-! ## The graph of the editor -/

/-- A graph of the editor: no two nodes have the same id, and the id of a node is the text of
its step's. -/
structure Flow (σ : Type) extends Graph σ where
  nodup : (nodes.map Node.id).Nodup
  id_eq : ∀ n ∈ nodes, n.id = n.data.stepId.toText

namespace Graph

variable {g : Graph σ}

theorem find_some {id : String} {n : Node σ} (h : g.find id = some n) : n ∈ g.nodes ∧ n.id = id := by
  refine ⟨List.mem_of_find?_eq_some h, ?_⟩
  exact beq_iff_eq.mp (List.find?_some (p := fun n : Node σ => n.id == id) h)

theorem find_isSome {id : String} : (g.find id).isSome ↔ id ∈ g.nodes.map Node.id := by
  rw [find, List.find?_isSome, List.mem_map]
  exact exists_congr fun n => and_congr_right fun _ => beq_iff_eq

theorem find_of_mem (hnodup : (g.nodes.map Node.id).Nodup) {n : Node σ} (h : n ∈ g.nodes) :
    g.find n.id = some n := by
  obtain ⟨m, hm⟩ := Option.isSome_iff_exists.mp (find_isSome.mpr (List.mem_map_of_mem h))
  obtain ⟨hmem, hid⟩ := find_some hm
  rw [hm, List.inj_on_of_nodup_map hnodup hmem h hid]

theorem mem_sortedEntries {localeCompare : String → String → Int} {id : String} {e : Edge} :
    e ∈ g.sortedEntries localeCompare id ↔ e ∈ g.edges ∧ e.source = id := by
  rw [sortedEntries, List.mem_mergeSort, List.mem_filter, beq_iff_eq]

/-- The nodes below a node that exist. -/
def next (g : Graph σ) (localeCompare : String → String → Int) (id : String) : List String :=
  ((g.sortedEntries localeCompare id).map Edge.target).filter fun b => (g.find b).isSome

theorem mem_next {localeCompare : String → String → Int} {a b : String} :
    b ∈ g.next localeCompare a ↔
      b ∈ g.nodes.map Node.id ∧ ∃ e ∈ g.edges, e.source = a ∧ e.target = b := by
  rw [next, List.mem_filter, List.mem_map, find_isSome, and_comm]
  refine and_congr_right fun _ => exists_congr fun e => ?_
  rw [mem_sortedEntries, and_assoc]

/-- The step of a node's id. -/
def stepAt (g : Graph σ) [Inhabited (StepInfo σ)] (id : String) : StepInfo σ :=
  ((g.find id).map g.stepOf).getD default

theorem buildTree_eq [Inhabited (StepInfo σ)] (localeCompare : String → String → Int) {n : Node σ}
    (h : n ∈ g.nodes) : g.buildTree localeCompare n.id =
      (visit (g.next localeCompare) node (g.nodes.length + 1) [] n.id).1.map (Rose.map g.stepAt) := by
  refine (visit_map (fun id => (g.find id).isSome) (fun id hid => ?_) (fun id hid => ?_)
    (g.nodes.length + 1) [] [] n.id (fun _ _ => Iff.rfl) ?_).1
  · obtain ⟨m, hm⟩ := Option.isSome_iff_exists.mp hid
    simp only [hm, Option.map_some, stepAt, Option.getD_some]
  · rw [Option.isSome_eq_false_iff, Option.isNone_iff_eq_none] at hid
    rw [hid, Option.map_none]
  · exact find_isSome.mpr (List.mem_map_of_mem h)

end Graph

theorem serializeFlowToSteps_eq (localeCompare : String → String → Int) {g : Graph σ}
    {root : Node σ} (hroot : g.rootNode = some root) : serializeFlowToSteps localeCompare g =
      match g.buildTree localeCompare root.id with
      | none => .error "Failed to build tree from root node"
      | some t => .ok t := by
  have hmem : root ∈ g.nodes := List.mem_of_find?_eq_some hroot
  have hempty : g.nodes.isEmpty = false := by
    rw [List.isEmpty_eq_false_iff]
    exact List.ne_nil_of_mem hmem
  rw [serializeFlowToSteps, hempty, hroot]
  rfl

end OpenBms.Editor
