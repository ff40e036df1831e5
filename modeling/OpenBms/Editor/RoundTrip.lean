/-
# `OpenBms.Editor.RoundTrip` — a tree opened in the editor and saved again

`deserializeStepsToFlow` makes a node of each step, under the text of its id, and an edge
from each step to each of its children; `serializeFlowToSteps` finds the children again by
their handles, or by where they stand.  The settings of a `conditionalTrue` are written
over with those of the conditional above it.

| tree                                       | saved again                          |
| :----------------------------------------- | :----------------------------------- |
| ids of different texts, paths in order     | the tree, mirrored                   |
| `conditionalTrue` with other settings      | with those of its conditional        |
| ids `1` and `"1"`                          | one node is found for both           |
| a step above others with the id `""`       | without the steps below it           |

**Proved here.**

    the edges from a step are those to its children (`filter_walkEdges`)
    the children are found in their order (`sortedEntries_eq`)
    the settings are the mirrored ones (`stepOf_eq`)
    where they are the same the mirror is the tree (`mirror_of_mirrored`)
    a tree comes back mirrored (`serialize_deserialize`)
-/
import OpenBms.Editor.Serializer

namespace OpenBms.Editor

open Dfs MessageTrigger

variable {σ : Type}

/-! ## The mirrored tree -/

/-- A step below its parent: a `conditionalTrue` has the settings of its conditional. -/
def mirrorStep (parent : Option (StepInfo σ)) (s : StepInfo σ) : StepInfo σ :=
  match parent with
  | some p =>
      if s.type == "conditionalTrue" && p.type == "conditional" then { s with settings := p.settings }
      else s
  | none => s

theorem mirrorStep_eta (parent : Option (StepInfo σ)) (s : StepInfo σ) :
    (⟨s.id, s.type, (mirrorStep parent s).settings⟩ : StepInfo σ) = mirrorStep parent s := by
  cases parent with
  | none => rfl
  | some p =>
      rw [mirrorStep]
      cases s.type == "conditionalTrue" && p.type == "conditional" with
      | true => rfl
      | false => rfl

mutual

def mirrorBelow (parent : Option (StepInfo σ)) : ApiStep σ → ApiStep σ
  | .node s child => .node (mirrorStep parent s) (mirrorAll s child)

def mirrorAll (parent : StepInfo σ) : List (ApiStep σ) → List (ApiStep σ)
  | [] => []
  | t :: ts => mirrorBelow (some parent) t :: mirrorAll parent ts

end

/-- The tree with the settings of each `conditionalTrue` those of the conditional above. -/
def mirror (t : ApiStep σ) : ApiStep σ := mirrorBelow none t

theorem map_eq_mirrorBelow (f : StepInfo σ → StepInfo σ) : ∀ (t : ApiStep σ)
    (parent : Option (StepInfo σ)), f t.root = mirrorStep parent t.root →
      (∀ p c, (p, c) ∈ t.pairs → f c = mirrorStep (some p) c) → t.map f = mirrorBelow parent t := by
  intro t
  induction t using Rose.induction with
  | node s ts ih =>
      intro parent hroot hpairs
      have hall : ∀ us : List (ApiStep σ), (∀ u ∈ us, u ∈ ts) → Rose.mapAll f us = mirrorAll s us := by
        intro us
        induction us with
        | nil =>
            intro _
            rfl
        | cons u us ihall =>
            intro hin
            have hu := hin u List.mem_cons_self
            have hone := ih u hu (some s)
              (hpairs s u.root (List.mem_append_left _ (List.mem_map.mpr ⟨u, hu, rfl⟩)))
              fun p c hp => hpairs p c
                (List.mem_append_right _ (Rose.mem_pairsAll.mpr ⟨u, hu, hp⟩))
            rw [Rose.mapAll, mirrorAll, hone, ihall fun u hu => hin u (List.mem_cons_of_mem _ hu)]
      have hchild := hall ts fun _ h => h
      rw [Rose.root] at hroot
      rw [Rose.map, mirrorBelow, hroot, hchild]

/-- Each `conditionalTrue` below a conditional has its settings. -/
def Mirrored (t : ApiStep σ) : Prop :=
  ∀ p c, (p, c) ∈ t.pairs → c.type = "conditionalTrue" → p.type = "conditional" →
    c.settings = p.settings

theorem mirror_of_mirrored {t : ApiStep σ} (h : Mirrored t) : mirror t = t := by
  have hmap := map_eq_mirrorBelow id t none rfl fun p c hp => ?_
  · rw [mirror, ← hmap, Rose.map_id]
  · rw [mirrorStep]
    split
    · rename_i hboth
      obtain ⟨hc, hp'⟩ := Bool.and_eq_true _ _ ▸ hboth
      rw [← h p c hp (beq_iff_eq.mp hc) (beq_iff_eq.mp hp')]
      rfl
    · rfl

/-! ## The trees -/

def StepInfo.text (s : StepInfo σ) : String := s.id.toText

/-- The handles of the edges to the children of a step. -/
def handles (t : ApiStep σ) : List (Option String) :=
  t.children.zipIdx.map fun p => handleOf t.root.type p.2 p.1.root

/-- The ids of the steps differ as texts, and a step above others has one that is not empty;
the children of a split are in the order of their paths. -/
structure Stored (localeCompare : String → String → Int) (t : ApiStep σ) : Prop where
  nodup : (t.ids.map StepInfo.text).Nodup
  nonempty : ∀ s ∈ t.subtrees, s.children ≠ [] → s.root.text ≠ ""
  paths : ∀ s ∈ t.subtrees, s.root.type = "split" →
    (handles s).Pairwise fun a b => compareSourceHandles localeCompare a b ≤ 0

/-! ## The nodes -/

mutual

theorem walkNodes_eq (i : Nat) : ∀ t : ApiStep σ,
    walkNodes i t = (t.ids.zipIdx i).map fun p => nodeOf p.1 p.2
  | .node s ts => by
      rw [walkNodes, Rose.ids, List.zipIdx_cons, List.map_cons, walkNodesAll_eq (i + 1) ts]

theorem walkNodesAll_eq (i : Nat) : ∀ ts : List (ApiStep σ),
    walkNodesAll i ts = ((Rose.idsAll ts).zipIdx i).map fun p => nodeOf p.1 p.2
  | [] => rfl
  | t :: ts => by
      rw [walkNodesAll, Rose.idsAll, List.zipIdx_append, List.map_append, walkNodes_eq i t,
        walkNodesAll_eq _ ts, List.length_map, List.length_zipIdx]

end

section
variable {localeCompare : String → String → Int} {t : ApiStep σ}

theorem nodes_deserialize (t : ApiStep σ) :
    (deserializeStepsToFlow t).nodes = t.ids.zipIdx.map fun p => nodeOf p.1 p.2 :=
  walkNodes_eq 0 t

theorem ids_deserialize (t : ApiStep σ) :
    (deserializeStepsToFlow t).nodes.map Node.id = t.ids.map StepInfo.text := by
  rw [nodes_deserialize, List.map_map]
  have hfst : (Node.id ∘ fun p : StepInfo σ × Nat => nodeOf p.1 p.2) = StepInfo.text ∘ Prod.fst := rfl
  rw [hfst, ← List.map_map, List.zipIdx_map_fst]

theorem find_deserialize (hnodup : (t.ids.map StepInfo.text).Nodup) {i : Nat} {s : StepInfo σ}
    (h : t.ids[i]? = some s) : (deserializeStepsToFlow t).find s.text = some (nodeOf s i) := by
  have hmem : nodeOf s i ∈ (deserializeStepsToFlow t).nodes := by
    rw [nodes_deserialize]
    exact List.mem_map.mpr ⟨(s, i), List.mem_zipIdx_iff_getElem?.mpr h, rfl⟩
  exact Graph.find_of_mem (by rw [ids_deserialize]; exact hnodup) hmem

theorem stepType_nodeOf (s : StepInfo σ) (i : Nat) : (nodeOf s i).stepType = s.type := by
  rw [Node.stepType, nodeOf]
  cases KNOWN_STEP_TYPES.contains s.type with
  | true => rfl
  | false => rfl

theorem type_nodeOf (s : StepInfo σ) (i : Nat) :
    (nodeOf s i).type = some "conditional" ↔ s.type = "conditional" := by
  rw [nodeOf]
  cases hknown : KNOWN_STEP_TYPES.contains s.type with
  | true => exact Option.some_inj
  | false =>
      refine ⟨fun h => ?_, fun h => ?_⟩
      · exact absurd (Option.some_inj.mp h) (by decide : "unsupported" ≠ "conditional")
      · have hin : KNOWN_STEP_TYPES.contains "conditional" = true := by decide
        rw [h, hin] at hknown
        cases hknown

/-! ## The edges -/

/-- The edges from a step to its children. -/
def childEdges (p : StepInfo σ) (i : Nat) (ts : List (ApiStep σ)) : List Edge :=
  (ts.zipIdx i).map fun q => ⟨p.text, q.1.root.text, handleOf p.type q.2 q.1.root⟩

theorem edgeFrom_of_ne {p n : String} {h : Option String} (hp : p ≠ "") :
    edgeFrom p n h = [⟨p, n, h⟩] := by
  rw [edgeFrom, if_neg]
  exact fun hempty => hp (String.isEmpty_iff.mp hempty)

theorem mem_walkEdges {t : ApiStep σ} : ∀ {e : Edge}, e ∈ walkEdges t →
    ∃ p c j, (p, c) ∈ t.pairs ∧ e = ⟨p.text, c.text, handleOf p.type j c⟩ := by
  induction t using Rose.induction with
  | node s ts ih =>
      have hall : ∀ (us : List (ApiStep σ)) (i : Nat), (∀ u ∈ us, u ∈ ts) → ∀ e ∈ walkEdgesAll s i us,
          ∃ p c j, (p, c) ∈ (Rose.node s ts).pairs ∧ e = ⟨p.text, c.text, handleOf p.type j c⟩ := by
        intro us
        induction us with
        | nil =>
            intro i _ e he
            cases he
        | cons u us ihall =>
            intro i hin e he
            have hu := hin u List.mem_cons_self
            rw [walkEdgesAll, List.mem_append, List.mem_append] at he
            rcases he with (he | he) | he
            · rw [edgeFrom] at he
              split at he
              · cases he
              · exact ⟨s, u.root, i, List.mem_append_left _ (List.mem_map.mpr ⟨u, hu, rfl⟩),
                  List.mem_singleton.mp he⟩
            · obtain ⟨p, c, j, hp, heq⟩ := ih u hu he
              exact ⟨p, c, j, List.mem_append_right _ (Rose.mem_pairsAll.mpr ⟨u, hu, hp⟩), heq⟩
            · exact ihall (i + 1) (fun u hu => hin u (List.mem_cons_of_mem _ hu)) e he
      intro e he
      exact hall ts 0 (fun _ h => h) e he

/-- No edge below a tree runs from a step that is not of the tree. -/
theorem filter_walkEdges_of_not_mem {x : String} (h : x ∉ t.ids.map StepInfo.text) :
    ((walkEdges t).filter fun e => e.source == x) = [] := by
  refine List.filter_eq_nil_iff.mpr fun e he hx => ?_
  obtain ⟨p, c, j, hp, rfl⟩ := mem_walkEdges he
  rw [beq_iff_eq] at hx
  exact h (List.mem_map.mpr ⟨p, (Rose.mem_ids_of_pair hp).1, hx⟩)

theorem filter_walkEdgesAll_self {p : StepInfo σ} {ts : List (ApiStep σ)} (hp : ts ≠ [] → p.text ≠ "")
    (hfresh : p.text ∉ (Rose.idsAll ts).map StepInfo.text) : ∀ i,
      ((walkEdgesAll p i ts).filter fun e => e.source == p.text) = childEdges p i ts := by
  induction ts with
  | nil =>
      intro i
      rfl
  | cons u us ih =>
      intro i
      have hne := hp (List.cons_ne_nil u us)
      rw [Rose.idsAll, List.map_append, List.mem_append, not_or] at hfresh
      have hus := ih (fun _ => hne) hfresh.2 (i + 1)
      have htext : p.id.toText ≠ "" := hne
      rw [walkEdgesAll, edgeFrom_of_ne htext, List.filter_append, List.filter_append,
        filter_walkEdges_of_not_mem hfresh.1, hus, List.append_nil, childEdges, childEdges,
        List.zipIdx_cons, List.map_cons, List.filter_singleton]
      rw [show (p.id.toText == p.text) = true from beq_self_eq_true p.text]
      rfl

theorem filter_walkEdgesAll_of_ne {p : StepInfo σ} {x : String} (hx : p.text ≠ x)
    {ts : List (ApiStep σ)} {u : ApiStep σ} (hu : u ∈ ts) (hxu : x ∈ u.ids.map StepInfo.text)
    (hnodup : ((Rose.idsAll ts).map StepInfo.text).Nodup) : ∀ i,
      ((walkEdgesAll p i ts).filter fun e => e.source == x) =
        (walkEdges u).filter fun e => e.source == x := by
  have hown : ∀ n h, ((edgeFrom p.id.toText n h).filter fun e => e.source == x) = [] := by
    intro n h
    rw [edgeFrom]
    split
    · rfl
    · refine List.filter_eq_nil_iff.mpr fun e he heq => ?_
      rw [List.mem_singleton.mp he, beq_iff_eq] at heq
      exact hx heq
  have hnone : ∀ us : List (ApiStep σ), x ∉ (Rose.idsAll us).map StepInfo.text → ∀ i,
      ((walkEdgesAll p i us).filter fun e => e.source == x) = [] := by
    intro us
    induction us with
    | nil =>
        intro _ i
        rfl
    | cons w us ih =>
        intro hw i
        rw [Rose.idsAll, List.map_append, List.mem_append, not_or] at hw
        rw [walkEdgesAll, List.filter_append, List.filter_append, hown,
          filter_walkEdges_of_not_mem hw.1, ih hw.2]
        rfl
  induction ts with
  | nil => cases hu
  | cons w us ih =>
      intro i
      rw [Rose.idsAll, List.map_append, List.nodup_append] at hnodup
      obtain ⟨-, hnodup, hdisj⟩ := hnodup
      rw [walkEdgesAll, List.filter_append, List.filter_append, hown, List.nil_append]
      rcases List.mem_cons.mp hu with rfl | hu
      · rw [hnone us (fun h => hdisj x hxu x h rfl), List.append_nil]
      · have hin : x ∈ (Rose.idsAll us).map StepInfo.text :=
          ((Rose.ids_sublist hu).map StepInfo.text).subset hxu
        rw [filter_walkEdges_of_not_mem fun h => hdisj x h x hin rfl, ih hu hnodup, List.nil_append]

theorem filter_walkEdges {t : ApiStep σ} : (t.ids.map StepInfo.text).Nodup →
    (∀ s ∈ t.subtrees, s.children ≠ [] → s.root.text ≠ "") → ∀ s ∈ t.subtrees,
      ((walkEdges t).filter fun e => e.source == s.root.text) = childEdges s.root 0 s.children := by
  induction t using Rose.induction with
  | node a ts ih =>
      intro hnodup hne s hs
      rw [Rose.ids, List.map_cons, List.nodup_cons] at hnodup
      rcases List.mem_cons.mp hs with rfl | hs
      · exact filter_walkEdgesAll_self (hne _ (Rose.self_mem_subtrees _)) hnodup.1 0
      · obtain ⟨u, hu, hsu⟩ := Rose.mem_subtreesAll.mp hs
        have hxu : s.root.text ∈ u.ids.map StepInfo.text :=
          List.mem_map_of_mem (Rose.root_mem_of_subtree hsu)
        have hin : s.root.text ∈ (Rose.idsAll ts).map StepInfo.text :=
          ((Rose.ids_sublist hu).map StepInfo.text).subset hxu
        have hax : a.text ≠ s.root.text := fun heq => hnodup.1 (heq ▸ hin)
        have hndu : (u.ids.map StepInfo.text).Nodup :=
          hnodup.2.sublist ((Rose.ids_sublist hu).map StepInfo.text)
        rw [walkEdges, filter_walkEdgesAll_of_ne hax hu hxu hnodup.2]
        exact ih u hu hndu
          (fun s hs => hne s (List.mem_cons_of_mem _ (Rose.mem_subtreesAll.mpr ⟨u, hu, hs⟩))) s hsu

/-! ## The order of the children -/

theorem nodup_ids (h : (t.ids.map StepInfo.text).Nodup) : t.ids.Nodup := h.of_map _

/-- The steps of a tree stand in their order. -/
theorem ids_pairwise (h : t.ids.Nodup) : t.ids.Pairwise fun a b =>
    ∀ i j : Nat, t.ids[i]? = some a → t.ids[j]? = some b → i < j := by
  refine List.pairwise_iff_getElem.mpr fun m n hm hn hmn i j hi hj => ?_
  obtain ⟨hilt, hi⟩ := List.getElem?_eq_some_iff.mp hi
  obtain ⟨hjlt, hj⟩ := List.getElem?_eq_some_iff.mp hj
  have him : i = m := (h.getElem_inj_iff).mp hi
  have hjn : j = n := (h.getElem_inj_iff).mp hj
  omega

/-- A later node stands below. -/
theorem y_nodeOf (a b : StepInfo σ) {i j : Nat} (h : i < j) : (nodeOf a i).y - (nodeOf b j).y ≤ 0 := by
  have hij : (i : ℚ) ≤ j := Nat.cast_le.mpr h.le
  have hspace : (0 : ℚ) ≤ NODE_SPACING := Nat.cast_nonneg _
  exact sub_nonpos.mpr (mul_le_mul_of_nonneg_right hij hspace)

theorem zipIdx_pairwise {α : Type} (l : List α) : l.zipIdx.Pairwise fun a b => a.2 < b.2 := by
  refine List.pairwise_iff_getElem.mpr fun i j hi hj hij => ?_
  rw [List.getElem_zipIdx, List.getElem_zipIdx, Nat.zero_add, Nat.zero_add]
  exact hij

theorem truthy_path (x : String) : truthy (some ("path-" ++ x)) = true := by
  rw [truthy, Option.any_some, Bool.not_eq_true', ← Bool.not_eq_true]
  intro hempty
  rw [String.isEmpty_iff] at hempty
  have hlist := congrArg String.toList hempty
  rw [String.toList_append] at hlist
  exact absurd hlist (List.append_ne_nil_of_left_ne_nil (by decide) _)

theorem compare_yes_no (localeCompare : String → String → Int) :
    compareSourceHandles localeCompare (some "yes") (some "no") = -1 := rfl

theorem compare_no_no (localeCompare : String → String → Int) :
    compareSourceHandles localeCompare (some "no") (some "no") = 0 := rfl

theorem childEdges_pairwise (h : Stored localeCompare t) {s : ApiStep σ} (hs : s ∈ t.subtrees) :
    (childEdges s.root 0 s.children).Pairwise fun a b =>
      (deserializeStepsToFlow t).compareEntries localeCompare a b ≤ 0 := by
  rw [childEdges, List.pairwise_map]
  rcases Decidable.em (s.root.type = "split") with hsplit | hsplit
  · have hpaths := h.paths s hs hsplit
    rw [handles, List.pairwise_map] at hpaths
    refine hpaths.imp fun {a b} hab => ?_
    have htruthy : ∀ q : ApiStep σ × Nat, truthy (handleOf s.root.type q.2 q.1.root) = true := by
      intro q
      rw [hsplit]
      exact truthy_path _
    rw [Graph.compareEntries, htruthy, htruthy]
    exact Int.cast_nonpos.mpr hab
  · rcases Decidable.em (s.root.type = "conditional") with hcond | hcond
    · refine (zipIdx_pairwise s.children).imp fun {a b} hab => ?_
      have hno : b.2 ≠ 0 := Nat.ne_zero_of_lt hab
      have hb : handleOf s.root.type b.2 b.1.root = some "no" := by
        rw [hcond]
        show some (if b.2 == 0 then "yes" else "no") = some "no"
        rw [if_neg fun heq => hno (beq_iff_eq.mp heq)]
      have ha : handleOf s.root.type a.2 a.1.root = some (if a.2 == 0 then "yes" else "no") := by
        rw [hcond]
        rfl
      rw [Graph.compareEntries, ha, hb]
      cases a.2 == 0 with
      | true => exact Int.cast_nonpos.mpr ((compare_yes_no localeCompare).trans_le (by decide))
      | false => exact Int.cast_nonpos.mpr (compare_no_no localeCompare).le
    · have hnone : ∀ q : ApiStep σ × Nat, handleOf s.root.type q.2 q.1.root = none := by
        intro q
        have hsplit' : (s.root.type == "split") = false := beq_eq_false_iff_ne.mpr hsplit
        have hcond' : (s.root.type == "conditional") = false := beq_eq_false_iff_ne.mpr hcond
        rw [handleOf, hsplit', hcond', Bool.and_false]
        rfl
      have hsub : (s.children.map Rose.root).Sublist t.ids := by
        have hbelow : (s.children.map Rose.root).Sublist s.ids := by
          cases s with
          | node a ts => exact (Rose.roots_sublist ts).cons a
        exact hbelow.trans (Rose.ids_sublist_of_subtree hs)
      have horder := (ids_pairwise (nodup_ids h.nodup)).sublist hsub
      have hfst : s.children.map Rose.root =
          s.children.zipIdx.map fun q => Rose.root q.1 := by
        rw [← Function.comp_def Rose.root Prod.fst, ← List.map_map, List.zipIdx_map_fst]
      rw [hfst, List.pairwise_map] at horder
      refine (List.Pairwise.and_mem.mp horder).imp fun {a b} hab => ?_
      obtain ⟨ha, hb, hab⟩ := hab
      have hmem : ∀ q ∈ s.children.zipIdx, q.1.root ∈ t.ids := by
        intro q hq
        refine hsub.subset ?_
        rw [hfst]
        exact List.mem_map.mpr ⟨q, hq, rfl⟩
      obtain ⟨i, hi⟩ := List.mem_iff_getElem?.mp (hmem a ha)
      obtain ⟨j, hj⟩ := List.mem_iff_getElem?.mp (hmem b hb)
      rw [Graph.compareEntries, hnone, hnone, find_deserialize h.nodup hi,
        find_deserialize h.nodup hj]
      exact y_nodeOf _ _ (hab i j hi hj)

theorem sortedEntries_eq (h : Stored localeCompare t) {s : ApiStep σ} (hs : s ∈ t.subtrees) :
    (deserializeStepsToFlow t).sortedEntries localeCompare s.root.text =
      childEdges s.root 0 s.children := by
  rw [Graph.sortedEntries, deserializeStepsToFlow, filter_walkEdges h.nodup h.nonempty s hs]
  exact List.mergeSort_of_pairwise
    ((childEdges_pairwise h hs).imp fun {a b} hab => decide_eq_true hab)

theorem next_eq (h : Stored localeCompare t) {s : ApiStep σ} (hs : s ∈ t.subtrees) :
    (deserializeStepsToFlow t).next localeCompare s.root.text =
      s.children.map fun u => u.root.text := by
  have htargets : (childEdges s.root 0 s.children).map Edge.target =
      s.children.map fun u => u.root.text := by
    rw [childEdges, List.map_map]
    have hfst : (Edge.target ∘ fun q : ApiStep σ × Nat =>
        (⟨s.root.text, q.1.root.text, handleOf s.root.type q.2 q.1.root⟩ : Edge)) =
          (fun u : ApiStep σ => u.root.text) ∘ Prod.fst := rfl
    rw [hfst, ← List.map_map, List.zipIdx_map_fst]
  rw [Graph.next, sortedEntries_eq h hs, htargets, List.filter_eq_self]
  intro x hx
  obtain ⟨u, hu, rfl⟩ := List.mem_map.mp hx
  rw [Graph.find_isSome, ids_deserialize]
  have hpair : (s.root, u.root) ∈ t.pairs := Rose.mem_pairs.mpr ⟨s, hs, rfl, u, hu, rfl⟩
  exact List.mem_map_of_mem (Rose.mem_ids_of_pair hpair).2

/-! ## The settings -/

theorem edge_to (hnodup : (t.ids.map StepInfo.text).Nodup) {p c : StepInfo σ}
    (hp : (p, c) ∈ t.pairs) {e : Edge} (he : e ∈ (deserializeStepsToFlow t).edges)
    (ht : e.target = c.text) : e.source = p.text ∧ ∃ j, e.sourceHandle = handleOf p.type j c := by
  obtain ⟨q, d, j, hq, rfl⟩ := mem_walkEdges he
  have hd : d = c := List.inj_on_of_nodup_map hnodup (Rose.mem_ids_of_pair hq).2
    (Rose.mem_ids_of_pair hp).2 ht
  rw [hd] at hq ⊢
  have hqp : q = p := Rose.parent_unique (nodup_ids hnodup) hq hp
  rw [hqp]
  exact ⟨rfl, j, rfl⟩

theorem hasIncoming_root (hnodup : (t.ids.map StepInfo.text).Nodup) :
    (deserializeStepsToFlow t).hasIncoming t.root.text = false := by
  rw [Graph.hasIncoming, ← Bool.not_eq_true, List.any_eq_true]
  rintro ⟨e, he, ht⟩
  obtain ⟨p, c, j, hp, rfl⟩ := mem_walkEdges he
  have hc : c = t.root := List.inj_on_of_nodup_map hnodup (Rose.mem_ids_of_pair hp).2
    t.root_mem_ids (beq_iff_eq.mp ht)
  have hnd := (Rose.ids_perm t).nodup_iff.mp (nodup_ids hnodup)
  exact (List.nodup_cons.mp hnd).1 (List.mem_map.mpr ⟨(p, c), hp, hc⟩)

theorem conditional_of_yes {type : String} {j : Nat} {c : StepInfo σ}
    (h : handleOf type j c = some "yes") : type = "conditional" := by
  rw [handleOf] at h
  split at h
  · have hlist := congrArg String.toList (Option.some_inj.mp h)
    rw [String.toList_append] at hlist
    have hhead : some 'p' = some 'y' := by
      have hhead := congrArg List.head? hlist
      rwa [List.head?_append] at hhead
    exact absurd (Option.some_inj.mp hhead) (by decide)
  · split at h
    · rename_i hcond
      exact beq_iff_eq.mp (Bool.and_eq_true _ _ ▸ hcond).2
    · cases h

theorem parentEdge_eq (hnodup : (t.ids.map StepInfo.text).Nodup)
    (hne : ∀ s ∈ t.subtrees, s.children ≠ [] → s.root.text ≠ "") {p c : StepInfo σ}
    (hp : (p, c) ∈ t.pairs) : (((deserializeStepsToFlow t).parentEdge c.text).map Edge.source) =
      if p.type == "conditional" then some p.text else none := by
  obtain ⟨i, hi⟩ := List.mem_iff_getElem?.mp (Rose.mem_ids_of_pair hp).1
  have hfind := find_deserialize hnodup hi
  have hin : ∀ {e}, e ∈ (deserializeStepsToFlow t).edges.filter (fun e => e.target == c.text) →
      e.source = p.text ∧ ∃ j, e.sourceHandle = handleOf p.type j c := by
    intro e he
    obtain ⟨he, ht⟩ := List.mem_filter.mp he
    exact edge_to hnodup hp he (beq_iff_eq.mp ht)
  cases hcond : p.type == "conditional" with
  | true =>
      -- the edge itself is one whose source is a conditional
      have htype : ((deserializeStepsToFlow t).find p.text).bind Node.type = some "conditional" := by
        rw [hfind, Option.bind_some, type_nodeOf]
        exact beq_iff_eq.mp hcond
      obtain ⟨s, hs, rfl, u, hu, rfl⟩ := Rose.mem_pairs.mp hp
      obtain ⟨j, hj⟩ := List.mem_iff_getElem?.mp hu
      have hedge : (⟨s.root.text, u.root.text, handleOf s.root.type j u.root⟩ : Edge) ∈
          (deserializeStepsToFlow t).edges.filter (fun e => e.target == u.root.text) := by
        have hchild : (⟨s.root.text, u.root.text, handleOf s.root.type j u.root⟩ : Edge) ∈
            childEdges s.root 0 s.children :=
          List.mem_map.mpr ⟨(u, j), List.mem_zipIdx_iff_getElem?.mpr hj, rfl⟩
        rw [← filter_walkEdges hnodup hne s hs] at hchild
        exact List.mem_filter.mpr ⟨(List.mem_filter.mp hchild).1, beq_self_eq_true _⟩
      obtain ⟨e, he⟩ : ∃ e, (deserializeStepsToFlow t).parentEdge u.root.text = some e := by
        rw [Graph.parentEdge, ← Option.isSome_iff_exists, Option.isSome_or, Bool.or_eq_true]
        right
        rw [List.find?_isSome]
        exact ⟨_, hedge, beq_iff_eq.mpr htype⟩
      have hmem : e ∈ (deserializeStepsToFlow t).edges.filter
          (fun e => e.target == u.root.text) := by
        rw [Graph.parentEdge, Option.or_eq_some_iff] at he
        rcases he with he | ⟨-, he⟩
        · exact List.mem_of_find?_eq_some he
        · exact List.mem_of_find?_eq_some he
      rw [he, Option.map_some, (hin hmem).1]
      rfl
  | false =>
      have hne' : p.type ≠ "conditional" := beq_eq_false_iff_ne.mp hcond
      have hnone : (deserializeStepsToFlow t).parentEdge c.text = none := by
        rw [Graph.parentEdge, Option.or_eq_none_iff, List.find?_eq_none, List.find?_eq_none]
        refine ⟨fun e he hyes => ?_, fun e he htype => ?_⟩
        · obtain ⟨-, j, hj⟩ := hin he
          rw [hj] at hyes
          exact hne' (conditional_of_yes (beq_iff_eq.mp hyes))
        · rw [(hin he).1, hfind, Option.bind_some, beq_iff_eq, type_nodeOf] at htype
          exact hne' htype
      rw [hnone]
      rfl

theorem settingsOf_root (hnodup : (t.ids.map StepInfo.text).Nodup) (k : Nat) :
    (deserializeStepsToFlow t).settingsOf (nodeOf t.root k) = t.root.settings := by
  have hnone : (deserializeStepsToFlow t).edges.filter (fun e => e.target == t.root.text) = [] := by
    refine List.filter_eq_nil_iff.mpr fun e he ht => ?_
    have hin : (deserializeStepsToFlow t).hasIncoming t.root.text = true :=
      List.any_eq_true.mpr ⟨e, he, ht⟩
    rw [hasIncoming_root hnodup] at hin
    cases hin
  have hedge : (deserializeStepsToFlow t).parentEdge (nodeOf t.root k).id = none := by
    show (deserializeStepsToFlow t).parentEdge t.root.text = none
    rw [Graph.parentEdge, hnone]
    rfl
  rw [Graph.settingsOf, hedge]
  split
  · rfl
  · rfl

theorem settingsOf_eq (hnodup : (t.ids.map StepInfo.text).Nodup)
    (hne : ∀ s ∈ t.subtrees, s.children ≠ [] → s.root.text ≠ "") {p c : StepInfo σ}
    (hp : (p, c) ∈ t.pairs) (k : Nat) :
    (deserializeStepsToFlow t).settingsOf (nodeOf c k) = (mirrorStep (some p) c).settings := by
  obtain ⟨i, hi⟩ := List.mem_iff_getElem?.mp (Rose.mem_ids_of_pair hp).1
  have hfind := find_deserialize hnodup hi
  have hedge := parentEdge_eq hnodup hne hp
  rw [Graph.settingsOf, stepType_nodeOf, mirrorStep]
  cases htrue : c.type == "conditionalTrue" with
  | false => rfl
  | true =>
      rw [if_pos rfl, Bool.true_and]
      show (((deserializeStepsToFlow t).parentEdge c.text |>.bind fun e =>
        (deserializeStepsToFlow t).find e.source).map fun p => p.data.settings).getD c.settings = _
      rw [← Function.comp_def (deserializeStepsToFlow t).find Edge.source, ← Option.bind_map, hedge]
      cases p.type == "conditional" with
      | true =>
          rw [if_pos rfl, if_pos rfl, Option.bind_some, hfind]
          rfl
      | false => rfl

end

/-! ## The round trip -/

section
variable (localeCompare : String → String → Int)

theorem rootNode_deserialize {t : ApiStep σ} (hnodup : (t.ids.map StepInfo.text).Nodup) :
    (deserializeStepsToFlow t).rootNode = some (nodeOf t.root 0) := by
  have hroot := hasIncoming_root hnodup
  have hnodes : ∃ ns, (deserializeStepsToFlow t).nodes = nodeOf t.root 0 :: ns := by
    cases t with
    | node s ts => exact ⟨_, rfl⟩
  obtain ⟨ns, hns⟩ := hnodes
  rw [Graph.rootNode, hns, List.find?_cons_of_pos]
  rw [Bool.not_eq_true']
  exact hroot

theorem buildTree_deserialize {t : ApiStep σ} (h : Stored localeCompare t) :
    (deserializeStepsToFlow t).buildTree localeCompare (nodeOf t.root 0).id = some (mirror t) := by
  have : Inhabited (StepInfo σ) := ⟨t.root⟩
  have hroot := rootNode_deserialize h.nodup
  have hmem : nodeOf t.root 0 ∈ (deserializeStepsToFlow t).nodes := List.mem_of_find?_eq_some hroot
  have hwalk := visit_tree ((deserializeStepsToFlow t).next localeCompare) (t := t.map StepInfo.text)
    (n := (deserializeStepsToFlow t).nodes.length + 1) (v := [])
    (by
      intro s hs
      rw [Rose.subtrees_map] at hs
      obtain ⟨u, hu, rfl⟩ := List.mem_map.mp hs
      rw [Rose.root_map, next_eq h hu, Rose.children_map, List.map_map]
      exact List.map_congr_left fun w _ => (Rose.root_map _ w).symm)
    (by
      rw [Rose.ids_map]
      exact h.nodup)
    (fun x _ => List.not_mem_nil)
    (by
      refine (Rose.height_le_length _).trans (Nat.le_succ_of_le ?_)
      rw [Rose.ids_map, ← ids_deserialize, List.length_map])
  have htree : (deserializeStepsToFlow t).buildTree localeCompare (nodeOf t.root 0).id =
      some (t.map ((deserializeStepsToFlow t).stepAt ∘ StepInfo.text)) := by
    have hid : (nodeOf t.root 0).id = (t.map StepInfo.text).root := (Rose.root_map StepInfo.text t).symm
    rw [Graph.buildTree_eq localeCompare hmem, hid, hwalk.1, Option.map_some, Rose.map_map]
  have hstep : ∀ {c : StepInfo σ}, c ∈ t.ids → ∀ {parent : Option (StepInfo σ)},
      (∀ k, (deserializeStepsToFlow t).settingsOf (nodeOf c k) = (mirrorStep parent c).settings) →
      (deserializeStepsToFlow t).stepAt c.text = mirrorStep parent c := by
    intro c hc parent hset
    obtain ⟨k, hk⟩ := List.mem_iff_getElem?.mp hc
    rw [Graph.stepAt, find_deserialize h.nodup hk, Option.map_some, Option.getD_some, Graph.stepOf,
      stepType_nodeOf, hset k]
    exact mirrorStep_eta parent c
  have hmirror : t.map ((deserializeStepsToFlow t).stepAt ∘ StepInfo.text) = mirror t := by
    refine map_eq_mirrorBelow _ t none (hstep t.root_mem_ids fun k => ?_) fun p c hp => ?_
    · exact settingsOf_root h.nodup k
    · exact hstep (Rose.mem_ids_of_pair hp).2 fun k => settingsOf_eq h.nodup h.nonempty hp k
  rw [htree, hmirror]

/-- A tree opened in the editor and saved again is the mirrored tree, which is the tree where
the settings are those of the parents. -/
theorem serialize_deserialize {t : ApiStep σ} (h : Stored localeCompare t) :
    serializeFlowToSteps localeCompare (deserializeStepsToFlow t) = .ok (mirror t) ∧
      (Mirrored t → mirror t = t) := by
  refine ⟨?_, mirror_of_mirrored⟩
  rw [serializeFlowToSteps_eq localeCompare (rootNode_deserialize h.nodup),
    buildTree_deserialize localeCompare h]

end

/-! ## A branch with rules of its own -/

/-- A conditional with these rules, above a branch with those. -/
def branch (rules below : Nat) : ApiStep Nat :=
  .node ⟨.num 2, "conditional", none, rules⟩
    [.node ⟨.text "conditional_2_1", "conditionalTrue", none, below⟩
        [.node ⟨.num 3, "end", none, 0⟩ []],
      .node ⟨.text "conditional_2_2", "conditionalFalse", none, 0⟩ [.node ⟨.num 4, "end", none, 0⟩ []]]

theorem stored_branch (rules below : Nat) : Stored (fun _ _ => 0) (branch rules below) where
  nodup := (by decide : ["2", "conditional_2_1", "3", "conditional_2_2", "4"].Nodup)
  nonempty := by
    intro s hs _
    have htext : s.root.text ∈ ["2", "conditional_2_1", "3", "conditional_2_2", "4"] :=
      List.mem_map_of_mem (Rose.root_mem_of_subtree hs)
    intro hempty
    rw [hempty] at htext
    exact absurd htext (by decide)
  paths := by
    intro s hs hsplit
    have htype : s.root.type ∈
        ["conditional", "conditionalTrue", "end", "conditionalFalse", "end"] :=
      List.mem_map_of_mem (Rose.root_mem_of_subtree hs)
    rw [hsplit] at htype
    exact absurd htype (by decide)

theorem serialize_deserialize_branch :
    serializeFlowToSteps (fun _ _ => 0) (deserializeStepsToFlow (branch 1 1)) =
        .ok (mirror (branch 1 1)) ∧ (Mirrored (branch 1 1) → mirror (branch 1 1) = branch 1 1) :=
  serialize_deserialize (fun _ _ => 0) (stored_branch 1 1)

/-- The rules of the branch are those of the conditional then. -/
theorem branch_loses : ¬ ∀ (localeCompare : String → String → Int) (t : ApiStep Nat),
    (t.ids.map StepInfo.id).Nodup →
    (∀ s ∈ t.subtrees, s.root.type = "split" →
      (handles s).Pairwise fun a b => compareSourceHandles localeCompare a b ≤ 0) →
    serializeFlowToSteps localeCompare (deserializeStepsToFlow t) = .ok t := by
  intro h
  have hstored := stored_branch 1 2
  have hnodup : ((branch 1 2).ids.map StepInfo.id).Nodup := by decide
  have hsame := h (fun _ _ => 0) (branch 1 2) hnodup hstored.paths
  rw [serializeFlowToSteps_eq _ (rootNode_deserialize hstored.nodup),
    buildTree_deserialize _ hstored] at hsame
  have hids := congrArg (fun t : ApiStep Nat => t.ids.map fun s => s.settings.rest)
    (Except.ok.inj hsame)
  revert hids
  decide

end OpenBms.Editor
