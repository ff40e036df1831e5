/-
# `OpenBms.Lib.Dfs` — a tree built by walking a graph with a visited set

    function build(a) {
      if (visited.has(a)) return null;
      visited.add(a);
      const make = find(a);
      if (!make) return null;
      return make(next(a).map(build).filter(Boolean));
    }

What is built does not show what was left out: a vertex met a second time is not built
again, and one that is not met is not built at all.

**Proved here.**

    a walk that is given enough fuel visits what it
    builds and nothing else, each vertex once, and
    all that follows what it built (`visit_visited`)
    it builds all that is reached from its vertex (`Visited.mem_of_reach`)
    a tree is built again from its own graph (`visit_tree`)
    what is made is the tree of the walk, made,
    without the vertices nothing is made of (`visit_map`)
-/
import Mathlib

namespace Dfs

variable {α β : Type}

/-! ## Trees -/

inductive Rose (α : Type) where
  | node (a : α) (children : List (Rose α))

namespace Rose

def root : Rose α → α
  | node a _ => a

def children : Rose α → List (Rose α)
  | node _ ts => ts

mutual

/-- The vertices, a parent before its children. -/
@[grind =] def ids : Rose α → List α
  | node a ts => a :: idsAll ts

@[grind =] def idsAll : List (Rose α) → List α
  | [] => []
  | t :: ts => t.ids ++ idsAll ts

end

mutual

/-- Each parent with each of its children. -/
@[grind =] def pairs : Rose α → List (α × α)
  | node a ts => ts.map (fun t => (a, t.root)) ++ pairsAll ts

@[grind =] def pairsAll : List (Rose α) → List (α × α)
  | [] => []
  | t :: ts => t.pairs ++ pairsAll ts

end

mutual

@[grind =] def map (g : α → β) : Rose α → Rose β
  | node a ts => node (g a) (mapAll g ts)

@[grind =] def mapAll (g : α → β) : List (Rose α) → List (Rose β)
  | [] => []
  | t :: ts => t.map g :: mapAll g ts

end

mutual

/-- The trees below a vertex, with the tree itself. -/
def subtrees : Rose α → List (Rose α)
  | node a ts => node a ts :: subtreesAll ts

def subtreesAll : List (Rose α) → List (Rose α)
  | [] => []
  | t :: ts => t.subtrees ++ subtreesAll ts

end

mutual

def height : Rose α → Nat
  | node _ ts => heightAll ts + 1

def heightAll : List (Rose α) → Nat
  | [] => 0
  | t :: ts => max t.height (heightAll ts)

end

/-- A property of every tree, by its children. -/
@[elab_as_elim]
theorem induction {P : Rose α → Prop}
    (node : ∀ a ts, (∀ t ∈ ts, P t) → P (.node a ts)) : ∀ t, P t
  | .node a ts => node a ts fun t _ => induction node t

@[simp] theorem idsAll_append (ts us : List (Rose α)) : idsAll (ts ++ us) = idsAll ts ++ idsAll us := by
  induction ts with
  | nil => rfl
  | cons t ts ih => rw [List.cons_append, idsAll, idsAll, ih, List.append_assoc]

@[simp] theorem pairsAll_append (ts us : List (Rose α)) :
    pairsAll (ts ++ us) = pairsAll ts ++ pairsAll us := by
  induction ts with
  | nil => rfl
  | cons t ts ih => rw [List.cons_append, pairsAll, pairsAll, ih, List.append_assoc]

theorem mem_idsAll {x : α} {ts : List (Rose α)} : x ∈ idsAll ts ↔ ∃ t ∈ ts, x ∈ t.ids := by
  induction ts with
  | nil =>
      refine ⟨fun h => ?_, fun ⟨_, h, _⟩ => ?_⟩
      · cases h
      · cases h
  | cons t ts ih =>
      rw [idsAll, List.mem_append, ih, List.exists_mem_cons_iff]

theorem mem_pairsAll {p : α × α} {ts : List (Rose α)} : p ∈ pairsAll ts ↔ ∃ t ∈ ts, p ∈ t.pairs := by
  induction ts with
  | nil =>
      refine ⟨fun h => ?_, fun ⟨_, h, _⟩ => ?_⟩
      · cases h
      · cases h
  | cons t ts ih =>
      rw [pairsAll, List.mem_append, ih, List.exists_mem_cons_iff]

theorem root_mem_ids (t : Rose α) : t.root ∈ t.ids := by
  cases t with
  | node a ts => exact List.mem_cons_self

theorem reach_of_mem {t : Rose α} : ∀ {x : α}, x ∈ t.ids →
    Relation.ReflTransGen (fun a b => (a, b) ∈ t.pairs) t.root x := by
  induction t using Rose.induction with
  | node a ts ih =>
      intro x hx
      rw [ids, List.mem_cons] at hx
      rcases hx with rfl | hx
      · exact .refl
      · obtain ⟨t, ht, hxt⟩ := mem_idsAll.mp hx
        have hstep : (a, t.root) ∈ (node a ts).pairs :=
          List.mem_append_left _ (List.mem_map.mpr ⟨t, ht, rfl⟩)
        have hbelow : ∀ b c, (b, c) ∈ t.pairs → (b, c) ∈ (node a ts).pairs :=
          fun b c hbc => List.mem_append_right _ (mem_pairsAll.mpr ⟨t, ht, hbc⟩)
        exact .head hstep (Relation.ReflTransGen.mono hbelow _ _ (ih t ht hxt))

theorem ids_perm : ∀ t : Rose α, t.ids.Perm (t.root :: t.pairs.map Prod.snd) := by
  intro t
  induction t using Rose.induction with
  | node a ts ih =>
      have hall : ∀ us : List (Rose α), (∀ t ∈ us, t ∈ ts) →
          (idsAll us).Perm (us.map root ++ (pairsAll us).map Prod.snd) := by
        intro us
        induction us with
        | nil =>
            intro _
            exact .nil
        | cons u us ihall =>
            intro hin
            have hu := ih u (hin u List.mem_cons_self)
            have hus := ihall fun t ht => hin t (List.mem_cons_of_mem _ ht)
            rw [idsAll, pairsAll, List.map_cons, List.map_append, List.cons_append]
            refine (hu.append hus).trans ?_
            rw [List.cons_append, ← List.append_assoc, ← List.append_assoc]
            exact (List.perm_append_comm.append_right _).cons _
      have hmap : ((ts.map fun t => (a, t.root)).map Prod.snd) = ts.map root := by
        rw [List.map_map]
        rfl
      rw [ids, pairs, List.map_append, hmap]
      exact (hall ts fun _ h => h).cons a

theorem parent_of_mem {t : Rose α} {x : α} (h : x ∈ t.ids) : x = t.root ∨ ∃ p, (p, x) ∈ t.pairs := by
  rcases List.mem_cons.mp ((ids_perm t).mem_iff.mp h) with heq | hmem
  · exact .inl heq
  · obtain ⟨⟨p, y⟩, hp, rfl⟩ := List.mem_map.mp hmem
    exact .inr ⟨p, hp⟩

theorem parent_unique {t : Rose α} (hnodup : t.ids.Nodup) {x y z : α} (hx : (x, z) ∈ t.pairs)
    (hy : (y, z) ∈ t.pairs) : x = y := by
  have hsnd : (t.pairs.map Prod.snd).Nodup := ((ids_perm t).nodup_iff.mp hnodup).of_cons
  exact congrArg Prod.fst (List.inj_on_of_nodup_map hsnd hx hy rfl)

/-- Both ends of a pair are vertices of the tree. -/
theorem mem_ids_of_pair {t : Rose α} : ∀ {x y : α}, (x, y) ∈ t.pairs → x ∈ t.ids ∧ y ∈ t.ids := by
  induction t using Rose.induction with
  | node a ts ih =>
      intro x y h
      rw [pairs, List.mem_append] at h
      rcases h with h | h
      · obtain ⟨t, ht, heq⟩ := List.mem_map.mp h
        cases heq
        exact ⟨List.mem_cons_self, List.mem_cons_of_mem _ (mem_idsAll.mpr ⟨t, ht, t.root_mem_ids⟩)⟩
      · obtain ⟨t, ht, hp⟩ := mem_pairsAll.mp h
        obtain ⟨hx, hy⟩ := ih t ht hp
        exact ⟨List.mem_cons_of_mem _ (mem_idsAll.mpr ⟨t, ht, hx⟩),
          List.mem_cons_of_mem _ (mem_idsAll.mpr ⟨t, ht, hy⟩)⟩

theorem mem_subtreesAll {s : Rose α} {ts : List (Rose α)} :
    s ∈ subtreesAll ts ↔ ∃ t ∈ ts, s ∈ t.subtrees := by
  induction ts with
  | nil =>
      refine ⟨fun h => ?_, fun ⟨_, h, _⟩ => ?_⟩
      · cases h
      · cases h
  | cons t ts ih =>
      rw [subtreesAll, List.mem_append, ih, List.exists_mem_cons_iff]

theorem self_mem_subtrees (t : Rose α) : t ∈ t.subtrees := by
  cases t with
  | node a ts => exact List.mem_cons_self

theorem mem_pairs {t : Rose α} : ∀ {x y : α}, (x, y) ∈ t.pairs ↔
    ∃ s ∈ t.subtrees, s.root = x ∧ ∃ u ∈ s.children, u.root = y := by
  induction t using Rose.induction with
  | node a ts ih =>
      intro x y
      rw [pairs, List.mem_append, List.mem_map, mem_pairsAll, subtrees, List.exists_mem_cons_iff]
      refine or_congr ⟨?_, ?_⟩ ⟨?_, ?_⟩
      · rintro ⟨t, ht, heq⟩
        cases heq
        exact ⟨rfl, t, ht, rfl⟩
      · rintro ⟨rfl, u, hu, rfl⟩
        exact ⟨u, hu, rfl⟩
      · rintro ⟨t, ht, hp⟩
        obtain ⟨s, hs, h⟩ := (ih t ht).mp hp
        exact ⟨s, mem_subtreesAll.mpr ⟨t, ht, hs⟩, h⟩
      · rintro ⟨s, hs, h⟩
        obtain ⟨t, ht, hst⟩ := mem_subtreesAll.mp hs
        exact ⟨t, ht, (ih t ht).mpr ⟨s, hst, h⟩⟩

/-- A vertex is the root of a tree below. -/
theorem root_mem_of_subtree {t : Rose α} : ∀ {s : Rose α}, s ∈ t.subtrees → s.root ∈ t.ids := by
  induction t using Rose.induction with
  | node a ts ih =>
      intro s hs
      rcases List.mem_cons.mp hs with rfl | hs
      · exact List.mem_cons_self
      · obtain ⟨t, ht, hst⟩ := mem_subtreesAll.mp hs
        exact List.mem_cons_of_mem _ (mem_idsAll.mpr ⟨t, ht, ih t ht hst⟩)

/-- The roots of the children are vertices, in the order of the vertices. -/
theorem roots_sublist (ts : List (Rose α)) : (ts.map root).Sublist (idsAll ts) := by
  induction ts with
  | nil => exact .slnil
  | cons t ts ih =>
      cases t with
      | node a us => exact (ih.trans (List.sublist_append_right _ _)).cons_cons a

theorem ids_sublist {t : Rose α} {ts : List (Rose α)} (h : t ∈ ts) : t.ids.Sublist (idsAll ts) := by
  induction ts with
  | nil => cases h
  | cons u ts ih =>
      rcases List.mem_cons.mp h with rfl | h
      · exact List.sublist_append_left _ _
      · exact (ih h).trans (List.sublist_append_right _ _)

theorem ids_sublist_of_subtree {t : Rose α} :
    ∀ {s : Rose α}, s ∈ t.subtrees → s.ids.Sublist t.ids := by
  induction t using Rose.induction with
  | node a ts ih =>
      intro s hs
      rcases List.mem_cons.mp hs with rfl | hs
      · exact .refl _
      · obtain ⟨t, ht, hst⟩ := mem_subtreesAll.mp hs
        exact ((ih t ht hst).trans (ids_sublist ht)).cons a

/-- No path is longer than there are vertices. -/
theorem height_le_length : ∀ t : Rose α, t.height ≤ t.ids.length := by
  intro t
  induction t using Rose.induction with
  | node a ts ih =>
      have hall : ∀ us : List (Rose α), (∀ t ∈ us, t ∈ ts) → heightAll us ≤ (idsAll us).length := by
        intro us
        induction us with
        | nil =>
            intro _
            exact Nat.zero_le _
        | cons u us ihall =>
            intro hin
            have hu := ih u (hin u List.mem_cons_self)
            have hus := ihall fun t ht => hin t (List.mem_cons_of_mem _ ht)
            rw [heightAll, idsAll, List.length_append]
            omega
      have hts := hall ts fun _ h => h
      rw [height, ids, List.length_cons]
      omega

/-! ### Trees of other vertices -/

section
variable (g : α → β)

@[simp] theorem root_map (t : Rose α) : (t.map g).root = g t.root := by
  cases t with
  | node a ts => rfl

theorem mapAll_eq (ts : List (Rose α)) : mapAll g ts = ts.map (Rose.map g) := by
  induction ts with
  | nil => rfl
  | cons t ts ih => rw [mapAll, ih, List.map_cons]

theorem mapAll_append (ts us : List (Rose α)) : mapAll g (ts ++ us) = mapAll g ts ++ mapAll g us := by
  rw [mapAll_eq, mapAll_eq, mapAll_eq, List.map_append]

mutual

theorem ids_map : ∀ t : Rose α, (t.map g).ids = t.ids.map g
  | node a ts => by rw [map, ids, ids, List.map_cons, idsAll_map ts]

theorem idsAll_map : ∀ ts : List (Rose α), idsAll (mapAll g ts) = (idsAll ts).map g
  | [] => rfl
  | t :: ts => by rw [mapAll, idsAll, idsAll, List.map_append, ids_map t, idsAll_map ts]

end

mutual

theorem map_map {γ : Type} (f : β → γ) : ∀ t : Rose α, (t.map g).map f = t.map (f ∘ g)
  | node a ts => by rw [map, map, map, mapAll_map f ts]; rfl

theorem mapAll_map {γ : Type} (f : β → γ) :
    ∀ ts : List (Rose α), mapAll f (mapAll g ts) = mapAll (f ∘ g) ts
  | [] => rfl
  | t :: ts => by rw [mapAll, mapAll, mapAll, map_map f t, mapAll_map f ts]

end

mutual

theorem map_id : ∀ t : Rose α, t.map id = t
  | node a ts => by rw [map, mapAll_id ts, id]

theorem mapAll_id : ∀ ts : List (Rose α), mapAll id ts = ts
  | [] => rfl
  | t :: ts => by rw [mapAll, map_id t, mapAll_id ts]

end

@[simp] theorem children_map (t : Rose α) : (t.map g).children = t.children.map (Rose.map g) := by
  cases t with
  | node a ts => exact mapAll_eq g ts

mutual

theorem subtrees_map : ∀ t : Rose α, (t.map g).subtrees = t.subtrees.map (Rose.map g)
  | node a ts => by rw [map, subtrees, subtrees, List.map_cons, subtreesAll_map ts, map]

theorem subtreesAll_map :
    ∀ ts : List (Rose α), subtreesAll (mapAll g ts) = (subtreesAll ts).map (Rose.map g)
  | [] => rfl
  | t :: ts => by
      rw [mapAll, subtreesAll, subtreesAll, List.map_append, subtrees_map t, subtreesAll_map ts]

end

mutual

theorem pairs_map : ∀ t : Rose α, (t.map g).pairs = t.pairs.map (Prod.map g g)
  | node a ts => by
      rw [map, pairs, pairs, List.map_append, pairsAll_map ts, mapAll_eq, List.map_map, List.map_map]
      congr 1
      refine List.map_congr_left fun t _ => ?_
      rw [Function.comp_apply, Function.comp_apply, root_map]
      rfl

theorem pairsAll_map : ∀ ts : List (Rose α), pairsAll (mapAll g ts) = (pairsAll ts).map (Prod.map g g)
  | [] => rfl
  | t :: ts => by rw [mapAll, pairsAll, pairsAll, List.map_append, pairs_map t, pairsAll_map ts]

end

end

end Rose

/-! ## The walk -/

section
variable [DecidableEq α] (next : α → List α) (make : α → Option (List β → β))

/-- The vertices in turn, each with what was visited before it. -/
@[grind =] def visitAll (f : List α → α → Option β × List α) : List α → List α → List β × List α
  | v, [] => ([], v)
  | v, a :: as =>
      let r := f v a
      let rs := visitAll f r.2 as
      (r.1.toList ++ rs.1, rs.2)

/-- What is built from a vertex, and what is visited then; the first argument bounds the
depth of the walk. -/
@[grind =] def visit : Nat → List α → α → Option β × List α
  | 0, v, _ => (none, v)
  | n + 1, v, a =>
      if v.contains a then (none, v)
      else
        match make a with
        | none => (none, a :: v)
        | some mk =>
            let rs := visitAll (visit n) (a :: v) (next a)
            (some (mk rs.1), rs.2)

end

/-! ## What is visited -/

section
variable {next : α → List α}

/-- The trees `out` are what a walk built that had visited `v` before and `v'` then. -/
structure Visited (next : α → List α) (v : List α) (out : List (Rose α)) (v' : List α) : Prop where
  mem : ∀ x, x ∈ v' ↔ x ∈ v ∨ x ∈ Rose.idsAll out
  nodup : (Rose.idsAll out).Nodup
  fresh : ∀ x ∈ Rose.idsAll out, x ∉ v
  closed : ∀ x ∈ Rose.idsAll out, ∀ y ∈ next x, y ∈ v'
  pairs : ∀ x y, (x, y) ∈ Rose.pairsAll out → y ∈ next x

theorem Visited.nil (v : List α) : Visited next v [] v where
  mem _ := ⟨.inl, fun h => h.resolve_right fun hx => nomatch hx⟩
  nodup := List.nodup_nil
  fresh _ h := nomatch h
  closed _ h := nomatch h
  pairs _ _ h := nomatch h

theorem Visited.append {v v' v'' : List α} {ts us : List (Rose α)} (ht : Visited next v ts v')
    (hu : Visited next v' us v'') : Visited next v (ts ++ us) v'' where
  mem x := by
    rw [hu.mem, ht.mem, Rose.idsAll_append, List.mem_append, or_assoc]
  nodup := by
    rw [Rose.idsAll_append, List.nodup_append]
    refine ⟨ht.nodup, hu.nodup, ?_⟩
    rintro x hx _ hy rfl
    exact hu.fresh x hy ((ht.mem x).mpr (.inr hx))
  fresh x hx := by
    rw [Rose.idsAll_append, List.mem_append] at hx
    rcases hx with hx | hx
    · exact ht.fresh x hx
    · exact fun hv => hu.fresh x hx ((ht.mem x).mpr (.inl hv))
  closed x hx y hy := by
    rw [Rose.idsAll_append, List.mem_append] at hx
    rcases hx with hx | hx
    · exact (hu.mem y).mpr (.inl (ht.closed x hx y hy))
    · exact hu.closed x hx y hy
  pairs x y h := by
    rw [Rose.pairsAll_append, List.mem_append] at h
    rcases h with h | h
    · exact ht.pairs x y h
    · exact hu.pairs x y h

/-- A vertex above the trees that its successors built. -/
theorem Visited.node {v v' : List α} {a : α} {ts : List (Rose α)} (ha : a ∉ v)
    (h : Visited next (a :: v) ts v') (hall : ∀ b ∈ next a, b ∈ v')
    (hroots : ∀ t ∈ ts, t.root ∈ next a) : Visited next v [.node a ts] v' := by
  have hids : Rose.idsAll [.node a ts] = a :: Rose.idsAll ts := by
    rw [Rose.idsAll, Rose.ids, Rose.idsAll, List.append_nil]
  have hpairs : Rose.pairsAll [.node a ts] = ts.map (fun t => (a, t.root)) ++ Rose.pairsAll ts := by
    rw [Rose.pairsAll, Rose.pairs, Rose.pairsAll, List.append_nil]
  refine ⟨fun x => ?_, ?_, fun x hx => ?_, fun x hx y hy => ?_, fun x y hxy => ?_⟩
  · rw [h.mem, hids, List.mem_cons, List.mem_cons, or_assoc, or_left_comm]
  · rw [hids, List.nodup_cons]
    exact ⟨fun hmem => h.fresh a hmem List.mem_cons_self, h.nodup⟩
  · rw [hids, List.mem_cons] at hx
    rcases hx with rfl | hx
    · exact ha
    · exact fun hv => h.fresh x hx (List.mem_cons_of_mem _ hv)
  · rw [hids, List.mem_cons] at hx
    rcases hx with rfl | hx
    · exact hall y hy
    · exact h.closed x hx y hy
  · rw [hpairs, List.mem_append] at hxy
    rcases hxy with hxy | hxy
    · obtain ⟨t, ht, heq⟩ := List.mem_map.mp hxy
      cases heq
      exact hroots t ht
    · exact h.pairs x y hxy

theorem Visited.mem_of_reach {a : α} {t : Rose α} {v' : List α} (h : Visited next [] [t] v')
    (ha : t.root = a) {x : α} (hx : Relation.ReflTransGen (fun b c => c ∈ next b) a x) : x ∈ t.ids := by
  have hids : Rose.idsAll [t] = t.ids := List.append_nil _
  induction hx with
  | refl => exact ha ▸ t.root_mem_ids
  | tail _ hstep ih =>
      have hmem := h.closed _ (hids.symm ▸ ih) _ hstep
      rw [h.mem, hids] at hmem
      exact hmem.resolve_left List.not_mem_nil

end

section
variable [DecidableEq α] {next : α → List α}

/-- The walk that builds the tree itself. -/
def node (a : α) : Option (List (Rose α) → Rose α) := some (.node a)

theorem visit_succ_of_mem {make : α → Option (List β → β)} {n : Nat} {v : List α} {a : α}
    (h : a ∈ v) : visit next make (n + 1) v a = (none, v) := by
  rw [visit, if_pos (List.contains_iff_mem.mpr h)]

variable (next) in
theorem visit_succ_of_not_mem {n : Nat} {v : List α} {a : α} (h : a ∉ v) :
    visit next node (n + 1) v a =
      (some (.node a (visitAll (visit next node n) (a :: v) (next a)).1),
        (visitAll (visit next node n) (a :: v) (next a)).2) := by
  rw [visit, if_neg fun hmem => h (List.contains_iff_mem.mp hmem)]
  rfl

/-- How many of the vertices are not visited yet. -/
def left (univ v : List α) : Nat := (univ.filter fun a => !v.contains a).length

theorem left_mono {univ v v' : List α} (h : ∀ x ∈ v, x ∈ v') : left univ v' ≤ left univ v := by
  refine (List.monotone_filter_right univ fun a ha => ?_).length_le
  rw [Bool.not_eq_true', List.contains_eq_mem, decide_eq_false_iff_not] at ha ⊢
  exact fun hv => ha (h a hv)

theorem left_cons {univ v : List α} {a : α} (hmem : a ∈ univ) (ha : a ∉ v) :
    left univ (a :: v) < left univ v := by
  have hle : left univ (a :: v) ≤ left univ v := left_mono fun _ hx => List.mem_cons_of_mem _ hx
  refine lt_of_le_of_ne hle fun heq => ?_
  have hsub : (univ.filter fun x => !(a :: v).contains x).Sublist
      (univ.filter fun x => !v.contains x) := by
    refine List.monotone_filter_right univ fun x hx => ?_
    rw [Bool.not_eq_true', List.contains_eq_mem, decide_eq_false_iff_not] at hx ⊢
    exact fun hv => hx (List.mem_cons_of_mem _ hv)
  have hfilter := hsub.eq_of_length heq
  have hin : a ∈ univ.filter fun x => !v.contains x := by
    refine List.mem_filter.mpr ⟨hmem, ?_⟩
    rw [Bool.not_eq_true', List.contains_eq_mem, decide_eq_false_iff_not]
    exact ha
  rw [← hfilter] at hin
  have hout := (List.mem_filter.mp hin).2
  rw [Bool.not_eq_true', List.contains_eq_mem, decide_eq_false_iff_not] at hout
  exact hout List.mem_cons_self

/-- With fuel for every vertex left, a walk visits what it builds and what follows it. -/
theorem visit_visited {univ : List α} (huniv : ∀ a ∈ univ, ∀ b ∈ next a, b ∈ univ) :
    ∀ (n : Nat) (v : List α) (a : α), a ∈ univ → left univ v < n →
      Visited next v (visit next node n v a).1.toList (visit next node n v a).2 ∧
        a ∈ (visit next node n v a).2 ∧ ∀ t ∈ (visit next node n v a).1, t.root = a := by
  intro n
  induction n with
  | zero =>
      intro v a _ hlt
      cases hlt
  | succ n ih =>
      intro v a hmem hlt
      by_cases ha : a ∈ v
      · rw [visit_succ_of_mem ha]
        exact ⟨.nil v, ha, fun _ h => (nomatch h)⟩
      · have hall : ∀ (as v : List α), (∀ b ∈ as, b ∈ univ) → left univ v < n →
            Visited next v (visitAll (visit next node n) v as).1 (visitAll (visit next node n) v as).2 ∧
              (∀ b ∈ as, b ∈ (visitAll (visit next node n) v as).2) ∧
              ∀ t ∈ (visitAll (visit next node n) v as).1, t.root ∈ as := by
          intro as
          induction as with
          | nil =>
              intro v _ _
              exact ⟨.nil v, fun _ h => (nomatch h), fun _ h => (nomatch h)⟩
          | cons b as ihall =>
              intro v hin hleft
              obtain ⟨hone, hb, hroot⟩ := ih v b (hin b List.mem_cons_self) hleft
              have hgrow : ∀ x ∈ v, x ∈ (visit next node n v b).2 :=
                fun x hx => (hone.mem x).mpr (.inl hx)
              obtain ⟨hrest, has, hroots⟩ := ihall (visit next node n v b).2
                (fun c hc => hin c (List.mem_cons_of_mem _ hc))
                (lt_of_le_of_lt (left_mono hgrow) hleft)
              refine ⟨hone.append hrest, fun c hc => ?_, fun t ht => ?_⟩
              · rcases List.mem_cons.mp hc with rfl | hc
                · exact (hrest.mem c).mpr (.inl hb)
                · exact has c hc
              · rcases List.mem_append.mp ht with ht | ht
                · rw [hroot t (Option.mem_toList.mp ht)]
                  exact List.mem_cons_self
                · exact List.mem_cons_of_mem _ (hroots t ht)
        have hcons := left_cons hmem ha
        obtain ⟨hbelow, hnext, hroots⟩ := hall (next a) (a :: v) (huniv a hmem) (by omega)
        rw [visit_succ_of_not_mem next ha]
        refine ⟨Visited.node ha hbelow hnext hroots, (hbelow.mem a).mpr (.inl List.mem_cons_self), ?_⟩
        intro t ht
        cases ht
        rfl

variable (next) in
/-- A vertex nothing is made of adds itself at most to what is visited. -/
theorem visit_none {make : α → Option (List β → β)} {n : Nat} {v : List α} {a : α}
    (h : make a = none) : (visit next make n v a).1 = none ∧
      ∀ x, x ≠ a → (x ∈ (visit next make n v a).2 ↔ x ∈ v) := by
  cases n with
  | zero => exact ⟨rfl, fun _ _ => Iff.rfl⟩
  | succ n =>
      rw [visit, h]
      cases v.contains a with
      | true => exact ⟨rfl, fun _ _ => Iff.rfl⟩
      | false => exact ⟨rfl, fun x hx => ⟨fun hmem => (List.mem_cons.mp hmem).resolve_left hx,
          List.mem_cons_of_mem a⟩⟩

/-- Where a vertex is made by itself, or not at all, the walk makes the tree it walks without
the vertices that are not made. -/
theorem visit_map (live : α → Bool) {make : α → Option (List (Rose β) → Rose β)} {g : α → β}
    (hlive : ∀ a, live a = true → make a = some (.node (g a)))
    (hdead : ∀ a, live a = false → make a = none) : ∀ (n : Nat) (v w : List α) (a : α),
      (∀ x, live x = true → (x ∈ v ↔ x ∈ w)) → live a = true →
      (visit next make n v a).1 =
          (visit (fun b => (next b).filter live) node n w a).1.map (Rose.map g) ∧
        ∀ x, live x = true → (x ∈ (visit next make n v a).2 ↔
          x ∈ (visit (fun b => (next b).filter live) node n w a).2) := by
  intro n
  induction n with
  | zero =>
      intro v w a hvw _
      exact ⟨rfl, hvw⟩
  | succ n ih =>
      intro v w a hvw ha
      have hall : ∀ (as v w : List α), (∀ x, live x = true → (x ∈ v ↔ x ∈ w)) →
          (visitAll (visit next make n) v as).1 = Rose.mapAll g
              (visitAll (visit (fun b => (next b).filter live) node n) w (as.filter live)).1 ∧
            ∀ x, live x = true → (x ∈ (visitAll (visit next make n) v as).2 ↔
              x ∈ (visitAll (visit (fun b => (next b).filter live) node n) w (as.filter live)).2) := by
        intro as
        induction as with
        | nil =>
            intro v w hvw
            exact ⟨rfl, hvw⟩
        | cons b as ihall =>
            intro v w hvw
            cases hb : live b with
            | true =>
                obtain ⟨hone, hvis⟩ := ih v w b hvw hb
                obtain ⟨hrest, hviss⟩ := ihall _ _ hvis
                rw [List.filter_cons_of_pos hb]
                refine ⟨?_, hviss⟩
                rw [visitAll, visitAll, Rose.mapAll_append, hrest, hone]
                cases (visit (fun b => (next b).filter live) node n w b).1 with
                | none => rfl
                | some t => rfl
            | false =>
                obtain ⟨hone, hvis⟩ := visit_none next (hdead b hb) (n := n) (v := v)
                have hvw' : ∀ x, live x = true → (x ∈ (visit next make n v b).2 ↔ x ∈ w) := by
                  intro x hx
                  have hne : x ≠ b := by
                    rintro rfl
                    rw [hb] at hx
                    cases hx
                  exact (hvis x hne).trans (hvw x hx)
                obtain ⟨hrest, hviss⟩ := ihall _ _ hvw'
                rw [List.filter_cons_of_neg (by rw [hb]; exact Bool.false_ne_true)]
                refine ⟨?_, hviss⟩
                rw [visitAll, hone]
                exact hrest
      rcases Decidable.em (a ∈ v) with hav | hav
      · rw [visit_succ_of_mem hav, visit_succ_of_mem ((hvw a ha).mp hav)]
        exact ⟨rfl, hvw⟩
      · have haw : a ∉ w := fun h => hav ((hvw a ha).mpr h)
        have hcons : ∀ x, live x = true → (x ∈ a :: v ↔ x ∈ a :: w) := by
          intro x hx
          rw [List.mem_cons, List.mem_cons, hvw x hx]
        obtain ⟨hts, hvis⟩ := hall (next a) (a :: v) (a :: w) hcons
        rw [visit_succ_of_not_mem _ haw, visit, if_neg fun hin => hav (List.contains_iff_mem.mp hin),
          hlive a ha]
        refine ⟨?_, hvis⟩
        show some (Rose.node (g a) _) = _
        rw [hts]
        rfl

variable (next) in
/-- A tree whose vertices are followed by their children is walked as it is. -/
theorem visit_tree {t : Rose α} : ∀ {n : Nat} {v : List α},
    (∀ s ∈ t.subtrees, next s.root = s.children.map Rose.root) → t.ids.Nodup →
    (∀ x ∈ t.ids, x ∉ v) → t.height ≤ n →
      (visit next node n v t.root).1 = some t ∧
        ∀ x, x ∈ (visit next node n v t.root).2 ↔ x ∈ v ∨ x ∈ t.ids := by
  induction t using Rose.induction with
  | node a ts ih =>
      intro n v hnext hnodup hfresh hheight
      rw [Rose.ids, List.nodup_cons] at hnodup
      obtain ⟨ha, hnodup⟩ := hnodup
      rw [Rose.height] at hheight
      obtain ⟨n, rfl⟩ := Nat.exists_eq_add_of_le' (Nat.le_of_add_left_le hheight)
      have hall : ∀ (us : List (Rose α)) (v : List α), (∀ t ∈ us, t ∈ ts) →
          (Rose.idsAll us).Nodup → (∀ x ∈ Rose.idsAll us, x ∉ v) → Rose.heightAll us ≤ n →
          (visitAll (visit next node n) v (us.map Rose.root)).1 = us ∧
            ∀ x, x ∈ (visitAll (visit next node n) v (us.map Rose.root)).2 ↔
              x ∈ v ∨ x ∈ Rose.idsAll us := by
        intro us
        induction us with
        | nil =>
            intro v _ _ _ _
            exact ⟨rfl, fun x => ⟨.inl, fun h => h.resolve_right fun hx => nomatch hx⟩⟩
        | cons u us ihall =>
            intro v hin hnd hfr hht
            rw [Rose.idsAll, List.nodup_append] at hnd
            obtain ⟨hndu, hndus, hdisj⟩ := hnd
            have hu := hin u List.mem_cons_self
            have hsub : ∀ s ∈ u.subtrees, next s.root = s.children.map Rose.root := by
              intro s hs
              exact hnext s (List.mem_cons_of_mem _ (Rose.mem_subtreesAll.mpr ⟨u, hu, hs⟩))
            have hfru : ∀ x ∈ u.ids, x ∉ v := fun x hx => hfr x (List.mem_append_left _ hx)
            obtain ⟨hone, hvis⟩ := ih u hu hsub hndu hfru ((le_max_left _ _).trans hht)
            have hfrus : ∀ x ∈ Rose.idsAll us, x ∉ (visit next node n v u.root).2 := by
              intro x hx hmem
              rcases (hvis x).mp hmem with hv | hxu
              · exact hfr x (List.mem_append_right _ hx) hv
              · exact hdisj x hxu x hx rfl
            obtain ⟨hrest, hviss⟩ := ihall (visit next node n v u.root).2
              (fun t ht => hin t (List.mem_cons_of_mem _ ht)) hndus hfrus ((le_max_right _ _).trans hht)
            refine ⟨?_, fun x => ?_⟩
            · rw [List.map_cons, visitAll, hone]
              simp only [Option.toList_some, List.cons_append, List.nil_append, hrest]
            · rw [List.map_cons, visitAll, hviss, hvis, Rose.idsAll, List.mem_append, or_assoc]
      have hav : a ∉ v := hfresh a List.mem_cons_self
      have hsucc : next a = ts.map Rose.root := hnext (.node a ts) (Rose.self_mem_subtrees _)
      have hfr : ∀ x ∈ Rose.idsAll ts, x ∉ a :: v := by
        intro x hx hmem
        rcases List.mem_cons.mp hmem with rfl | hv
        · exact ha hx
        · exact hfresh x (List.mem_cons_of_mem _ hx) hv
      obtain ⟨hts, hvis⟩ := hall ts (a :: v) (fun _ h => h) hnodup hfr (Nat.le_of_succ_le_succ hheight)
      rw [Rose.root, visit_succ_of_not_mem next hav, hsucc, hts]
      refine ⟨rfl, fun x => ?_⟩
      rw [hvis, Rose.ids, List.mem_cons, List.mem_cons, or_assoc, or_left_comm]

end

end Dfs
