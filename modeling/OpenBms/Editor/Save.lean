/-
# `OpenBms.Editor.Save` — what a save keeps of the graph

`buildTree` returns nothing for a node that it met before, and the children of the step
above go on without it: neither `serializeFlowToSteps` nor the check of `handleSave`, that
each node but a trigger has an edge to it, says that something was left out.

| graph                                       | saved                    |
| :------------------------------------------ | :----------------------- |
| two branches that end in the same node      | without the second edge  |
| a branch with an edge back to it            | without that edge        |
| a ring of nodes beside the automation       | without the ring         |

**Proved here.**

    a graph with a root is serialized, as the tree of
    a walk that meets each node once (`exists_walk`)
    its tree has what the walk met (`Walk.represents_iff`)
    a save keeps all of the graph where every node is
    reached from the root and has one node above it,
    and nowhere else (`noSilentLoss_iff`)
-/
import OpenBms.Editor.Serializer

namespace OpenBms.Editor

open Dfs MessageTrigger Relation

variable {σ : Type}

/-! ## What a save has to keep -/

/-- The tree has every node of the graph once, and every edge as a step and a child of it. -/
structure Represents (g : Graph σ) (r : ApiStep σ) : Prop where
  nodes : ∀ n ∈ g.nodes, (r.ids.map StepInfo.id).count n.data.stepId = 1
  edges : ∀ e ∈ g.edges, ∃ p ∈ r.pairs, p.1.id.toText = e.source ∧ p.2.id.toText = e.target

/-- What is serialized has all of the graph; what is not is not saved. -/
structure NoSilentLoss (localeCompare : String → String → Int) (g : Graph σ) : Prop where
  represented : ∀ r, serializeFlowToSteps localeCompare g = .ok r → Represents g r
  refused : ∀ e, serializeFlowToSteps localeCompare g = .error e →
    ∃ e', handleSave localeCompare g = .error e'

namespace Graph

def ids (g : Graph σ) : List String := g.nodes.map Node.id

/-- The edges run between nodes of the graph, those to a node come from the same one, and
every node is reached from the root. -/
structure Rooted (g : Graph σ) (root : String) : Prop where
  ends : ∀ e ∈ g.edges, e.source ∈ g.ids ∧ e.target ∈ g.ids
  single : ∀ e ∈ g.edges, ∀ e' ∈ g.edges, e.target = e'.target → e.source = e'.source
  reach : ∀ id ∈ g.ids,
    ReflTransGen (fun a b => ∃ e ∈ g.edges, e.source = a ∧ e.target = b) root id

end Graph

/-! ## The walk over a graph -/

/-- The tree of the nodes met from the root. -/
structure Walk (localeCompare : String → String → Int) (g : Graph σ) (root : String)
    (t : Rose String) : Prop where
  root_eq : t.root = root
  root_mem : root ∈ g.ids
  visited : ∃ v', Visited (g.next localeCompare) [] [t] v'

namespace Walk

variable {localeCompare : String → String → Int} {g : Graph σ} {root : String} {t : Rose String}

theorem nodup (h : Walk localeCompare g root t) : t.ids.Nodup := by
  obtain ⟨v', hv⟩ := h.visited
  have hnodup := hv.nodup
  rwa [Rose.idsAll, Rose.idsAll, List.append_nil] at hnodup

theorem next_of_pair (h : Walk localeCompare g root t) {x y : String} (hp : (x, y) ∈ t.pairs) :
    y ∈ g.next localeCompare x := by
  obtain ⟨v', hv⟩ := h.visited
  refine hv.pairs x y ?_
  rw [Rose.pairsAll, Rose.pairsAll, List.append_nil]
  exact hp

theorem edge_of_pair (h : Walk localeCompare g root t) {x y : String} (hp : (x, y) ∈ t.pairs) :
    ∃ e ∈ g.edges, e.source = x ∧ e.target = y :=
  (Graph.mem_next.mp (h.next_of_pair hp)).2

/-- What is met exists. -/
theorem mem_ids (h : Walk localeCompare g root t) {x : String} (hx : x ∈ t.ids) : x ∈ g.ids := by
  rcases Rose.parent_of_mem hx with heq | ⟨p, hp⟩
  · rw [heq, h.root_eq]
    exact h.root_mem
  · exact (Graph.mem_next.mp (h.next_of_pair hp)).1

theorem mem_of_reach (h : Walk localeCompare g root t)
    (hends : ∀ e ∈ g.edges, e.source ∈ g.ids ∧ e.target ∈ g.ids) {x : String}
    (hx : ReflTransGen (fun a b => ∃ e ∈ g.edges, e.source = a ∧ e.target = b) root x) :
    x ∈ t.ids := by
  obtain ⟨v', hv⟩ := h.visited
  refine hv.mem_of_reach h.root_eq ?_
  refine ReflTransGen.mono (fun a b => ?_) _ _ hx
  rintro ⟨e, he, hs, ht⟩
  exact Graph.mem_next.mpr ⟨ht ▸ (hends e he).2, e, he, hs, ht⟩

variable [Inhabited (StepInfo σ)] {f : Flow σ}

theorem stepAt_of_mem (f : Flow σ) {n : Node σ} (h : n ∈ f.nodes) :
    f.stepAt n.id = f.stepOf n := by
  rw [Graph.stepAt, Graph.find_of_mem f.nodup h]
  rfl

theorem toText_stepAt (f : Flow σ) {x : String} (hx : x ∈ f.ids) :
    (f.stepAt x).id.toText = x := by
  obtain ⟨n, hn, rfl⟩ := List.mem_map.mp hx
  rw [stepAt_of_mem f hn]
  exact (f.id_eq n hn).symm

/-- The tree that is sent has each node once and each edge where the walk met them. -/
theorem represents_iff (h : Walk localeCompare f.toGraph root t) :
    Represents f.toGraph (t.map f.stepAt) ↔
      (∀ n ∈ f.nodes, n.id ∈ t.ids) ∧ ∀ e ∈ f.edges, (e.source, e.target) ∈ t.pairs := by
  have htext : ((t.map f.stepAt).ids.map StepInfo.id).map StepId.toText = t.ids := by
    rw [Rose.ids_map, List.map_map, List.map_map]
    refine (List.map_congr_left fun x hx => ?_).trans (List.map_id _)
    exact toText_stepAt f (h.mem_ids hx)
  have hnodup : ((t.map f.stepAt).ids.map StepInfo.id).Nodup :=
    List.Nodup.of_map StepId.toText (by rw [htext]; exact h.nodup)
  constructor
  · intro hr
    refine ⟨fun n hn => ?_, fun e he => ?_⟩
    · have hmem : n.data.stepId ∈ (t.map f.stepAt).ids.map StepInfo.id := by
        rw [← List.count_pos_iff, hr.nodes n hn]
        exact Nat.one_pos
      rw [← htext, f.id_eq n hn]
      exact List.mem_map_of_mem hmem
    · obtain ⟨p, hp, hs, ht⟩ := hr.edges e he
      rw [Rose.pairs_map] at hp
      obtain ⟨⟨x, y⟩, hxy, rfl⟩ := List.mem_map.mp hp
      obtain ⟨hx, hy⟩ := Rose.mem_ids_of_pair hxy
      rw [Prod.map_fst, toText_stepAt f (h.mem_ids hx)] at hs
      rw [Prod.map_snd, toText_stepAt f (h.mem_ids hy)] at ht
      rw [← hs, ← ht]
      exact hxy
  · rintro ⟨hnodes, hedges⟩
    refine ⟨fun n hn => ?_, fun e he => ?_⟩
    · refine List.count_eq_one_of_mem hnodup ?_
      rw [Rose.ids_map, List.map_map]
      refine List.mem_map.mpr ⟨n.id, hnodes n hn, ?_⟩
      rw [Function.comp_apply, stepAt_of_mem f hn]
      rfl
    · have hp := hedges e he
      obtain ⟨hx, hy⟩ := Rose.mem_ids_of_pair hp
      refine ⟨(f.stepAt e.source, f.stepAt e.target), ?_, toText_stepAt f (h.mem_ids hx),
        toText_stepAt f (h.mem_ids hy)⟩
      rw [Rose.pairs_map]
      exact List.mem_map.mpr ⟨_, hp, rfl⟩

theorem represents_iff_rooted (h : Walk localeCompare f.toGraph root t)
    (hroot : f.hasIncoming root = false) :
    Represents f.toGraph (t.map f.stepAt) ↔ f.Rooted root := by
  rw [h.represents_iff]
  constructor
  · rintro ⟨hnodes, hedges⟩
    refine ⟨fun e he => ?_, fun e he e' he' heq => ?_, fun id hid => ?_⟩
    · obtain ⟨hx, hy⟩ := Rose.mem_ids_of_pair (hedges e he)
      exact ⟨h.mem_ids hx, h.mem_ids hy⟩
    · exact Rose.parent_unique h.nodup (hedges e he) (heq ▸ hedges e' he')
    · obtain ⟨n, hn, rfl⟩ := List.mem_map.mp hid
      have hreach := Rose.reach_of_mem (hnodes n hn)
      rw [h.root_eq] at hreach
      exact ReflTransGen.mono (fun a b hab => h.edge_of_pair hab) _ _ hreach
  · intro hf
    have hall : ∀ x ∈ f.ids, x ∈ t.ids := fun x hx => h.mem_of_reach hf.ends (hf.reach x hx)
    refine ⟨fun n hn => hall n.id (List.mem_map_of_mem hn), fun e he => ?_⟩
    rcases Rose.parent_of_mem (hall e.target (hf.ends e he).2) with heq | ⟨p, hp⟩
    · -- no edge leads to the root
      have hin : f.hasIncoming root = true := by
        refine List.any_eq_true.mpr ⟨e, he, ?_⟩
        rw [heq, h.root_eq]
        exact beq_self_eq_true root
      rw [hroot] at hin
      cases hin
    · obtain ⟨e', he', hs, ht⟩ := h.edge_of_pair hp
      rw [hf.single e he e' he' ht.symm, hs]
      exact hp

end Walk

/-! ## What is serialized -/

section
variable (localeCompare : String → String → Int) [Inhabited (StepInfo σ)]

theorem exists_walk {g : Graph σ} {root : Node σ} (hroot : g.rootNode = some root) :
    ∃ t, Walk localeCompare g root.id t ∧
      serializeFlowToSteps localeCompare g = .ok (t.map g.stepAt) := by
  have hmem : root ∈ g.nodes := List.mem_of_find?_eq_some hroot
  have hid : root.id ∈ g.ids := List.mem_map_of_mem hmem
  have hclosed : ∀ a ∈ g.ids, ∀ b ∈ g.next localeCompare a, b ∈ g.ids :=
    fun a _ b hb => (Graph.mem_next.mp hb).1
  have hleft : left g.ids [] < g.nodes.length + 1 := by
    refine Nat.lt_succ_of_le ((List.length_filter_le _ _).trans ?_)
    rw [Graph.ids, List.length_map]
  obtain ⟨hvisited, -, hroots⟩ := visit_visited hclosed (g.nodes.length + 1) [] root.id hid hleft
  have hsome := visit_succ_of_not_mem (g.next localeCompare) (n := g.nodes.length)
    (List.not_mem_nil (a := root.id))
  generalize htree : (visitAll (visit (g.next localeCompare) node g.nodes.length) [root.id]
    (g.next localeCompare root.id)).1 = ts at hsome
  rw [hsome] at hvisited hroots
  refine ⟨.node root.id ts, ⟨hroots _ rfl, hid, _, hvisited⟩, ?_⟩
  rw [serializeFlowToSteps_eq localeCompare hroot, Graph.buildTree_eq localeCompare hmem, hsome]
  rfl

theorem represents_serialized_iff (f : Flow σ) {root : Node σ} (hroot : f.rootNode = some root) :
    (∀ r, serializeFlowToSteps localeCompare f.toGraph = .ok r → Represents f.toGraph r) ↔
      f.Rooted root.id := by
  obtain ⟨t, ht, hok⟩ := exists_walk localeCompare hroot
  have hin : f.hasIncoming root.id = false := by
    have hsat := List.find?_some (p := fun n : Node σ => !f.hasIncoming n.id) hroot
    exact Bool.not_eq_true' _ ▸ hsat
  rw [← ht.represents_iff_rooted hin]
  constructor
  · intro h
    exact h _ hok
  · intro h r hr
    rw [hok] at hr
    cases hr
    exact h

end

/-- Without a root nothing is serialized. -/
theorem serializeFlowToSteps_of_none (localeCompare : String → String → Int) {g : Graph σ}
    (hroot : g.rootNode = none) : ∃ e, serializeFlowToSteps localeCompare g = .error e := by
  rw [serializeFlowToSteps, hroot]
  cases g.nodes.isEmpty with
  | true => exact ⟨_, rfl⟩
  | false => exact ⟨_, rfl⟩

/-- What is not serialized is not saved. -/
theorem handleSave_of_error {localeCompare : String → String → Int} {g : Graph σ} {e : String}
    (h : serializeFlowToSteps localeCompare g = .error e) :
    ∃ e', handleSave localeCompare g = .error e' := by
  rw [handleSave, h]
  split
  · exact ⟨_, rfl⟩
  · exact ⟨_, rfl⟩

/-- A save keeps the graph, or is refused, where there is no root, or every node is reached
from it, by edges between nodes, with those to a node from the same one. -/
theorem noSilentLoss_iff (localeCompare : String → String → Int) (f : Flow σ) :
    NoSilentLoss localeCompare f.toGraph ↔
      ∀ root, f.rootNode = some root → f.Rooted root.id := by
  constructor
  · intro h root hroot
    have : Inhabited (StepInfo σ) := ⟨f.stepOf root⟩
    exact (represents_serialized_iff localeCompare f hroot).mp h.represented
  · intro h
    refine ⟨fun r hr => ?_, fun e => handleSave_of_error⟩
    cases hroot : f.rootNode with
    | none =>
        obtain ⟨e, he⟩ := serializeFlowToSteps_of_none localeCompare hroot
        rw [he] at hr
        cases hr
    | some root =>
        have : Inhabited (StepInfo σ) := ⟨f.stepOf root⟩
        exact (represents_serialized_iff localeCompare f hroot).mpr (h root hroot) r hr

/-! ## Two branches that end in the same node -/

/-- A trigger, a conditional with its two branches, and an end to both of them. -/
def join : Flow Unit where
  nodes :=
    [⟨"1", some "trigger", 0, .num 1, none, none, ()⟩,
      ⟨"2", some "conditional", 150, .num 2, none, none, ()⟩,
      ⟨"conditional_2_1", some "conditionalTrue", 250, .text "conditional_2_1", none, none, ()⟩,
      ⟨"conditional_2_2", some "conditionalFalse", 250, .text "conditional_2_2", none, none, ()⟩,
      ⟨"3", some "end", 350, .num 3, none, none, ()⟩]
  edges :=
    [⟨"1", "2", none⟩, ⟨"2", "conditional_2_1", some "yes"⟩, ⟨"2", "conditional_2_2", some "no"⟩,
      ⟨"conditional_2_1", "3", none⟩, ⟨"conditional_2_2", "3", none⟩]
  nodup := by decide
  id_eq := by decide

/-- It is saved, and the end of the second branch is not in what is sent. -/
theorem join_loses : ¬ ∀ (localeCompare : String → String → Int) (f : Flow Unit),
    NoSilentLoss localeCompare f.toGraph := by
  intro h
  have : Inhabited (StepInfo Unit) := ⟨⟨.num 0, "", none, ()⟩⟩
  have hroot : join.rootNode = some ⟨"1", some "trigger", 0, .num 1, none, none, ()⟩ := rfl
  have hrooted := (represents_serialized_iff (fun _ _ => 0) join hroot).mp (h _ join).represented
  have hsource := hrooted.single ⟨"conditional_2_1", "3", none⟩ (by decide)
    ⟨"conditional_2_2", "3", none⟩ (by decide) rfl
  revert hsource
  decide

end OpenBms.Editor
