/-
# `OpenBms.Lib.Resources` — named resources on a session that outlives its users

A session holds a set of names.  A command creates a name, uses it or drops it,
and fails when the name is there already, or is not there.  A list of commands
runs one after the other and stops at the first failure.

**Proved here.**

    lists of commands compose (`run_append`)
    distinct fresh names can all be created and used (`run_creates`, `run_uses`)
    what is there can be dropped once (`run_drops`)
    create, use, drop: the session is as it was (`run_balanced`)
-/
import Mathlib.Data.Finset.Basic

namespace Resources

inductive Command (α : Type) where
  | create (a : α)
  | use (a : α)
  | drop (a : α)
  deriving DecidableEq

/-- The names a list of commands uses. -/
def used {α : Type} (cs : List (Command α)) : List α :=
  cs.filterMap fun
    | .use a => some a
    | _ => none

/-- The names a list of commands drops. -/
def dropped {α : Type} (cs : List (Command α)) : List α :=
  cs.filterMap fun
    | .drop a => some a
    | _ => none

/-- Names used, then names dropped. -/
def usesDrops {α : Type} (us ds : List α) : List (Command α) := us.map .use ++ ds.map .drop

@[simp] theorem used_usesDrops {α : Type} (us ds : List α) : used (usesDrops us ds) = us := by
  simp [used, usesDrops, List.filterMap_append, List.filterMap_map]

@[simp] theorem dropped_usesDrops {α : Type} (us ds : List α) :
    dropped (usesDrops us ds) = ds := by
  simp [dropped, usesDrops, List.filterMap_append, List.filterMap_map]

section
variable {α : Type} [DecidableEq α]

/-- One command; `none` is its failure. -/
def Command.exec : Command α → Finset α → Option (Finset α)
  | .create a, s => if a ∈ s then none else some (insert a s)
  | .use a, s => if a ∈ s then some s else none
  | .drop a, s => if a ∈ s then some (s.erase a) else none

def run : List (Command α) → Finset α → Option (Finset α)
  | [], s => some s
  | c :: cs, s => (c.exec s).bind (run cs)

theorem run_append (cs ds : List (Command α)) (s : Finset α) :
    run (cs ++ ds) s = (run cs s).bind (run ds) := by
  induction cs generalizing s with
  | nil => rfl
  | cons c cs ih =>
      simp only [List.cons_append, run]
      cases c.exec s with
      | none => rfl
      | some s' => exact ih s'

theorem run_uses {as : List α} {s : Finset α} (h : ∀ a ∈ as, a ∈ s) :
    run (as.map .use) s = some s := by
  induction as with
  | nil => rfl
  | cons a as ih =>
      have ha : a ∈ s := h a List.mem_cons_self
      simp only [List.map_cons, run, Command.exec, if_pos ha, Option.bind_some]
      exact ih fun b hb => h b (List.mem_cons_of_mem _ hb)

/-- Each name is created and used at once. -/
def creates (as : List α) : List (Command α) := as.flatMap fun a => [.create a, .use a]

theorem run_creates {as : List α} : ∀ {s : Finset α}, as.Nodup → (∀ a ∈ as, a ∉ s) →
    run (creates as) s = some (s ∪ as.toFinset) := by
  induction as with
  | nil =>
      intro s _ _
      simp [creates, run]
  | cons a as ih =>
      intro s hnd hfresh
      have ha : a ∉ s := hfresh a List.mem_cons_self
      obtain ⟨hnot, hnd⟩ := List.nodup_cons.mp hnd
      have hrest : ∀ b ∈ as, b ∉ insert a s := by
        intro b hb hmem
        rcases Finset.mem_insert.mp hmem with rfl | hmem
        · exact hnot hb
        · exact hfresh b (List.mem_cons_of_mem _ hb) hmem
      have hcons : creates (a :: as) = .create a :: .use a :: creates as := rfl
      simp only [hcons, run, Command.exec, if_neg ha, Option.bind_some,
        if_pos (Finset.mem_insert_self a s)]
      rw [ih hnd hrest]
      congr 1
      ext b
      simp only [Finset.mem_union, Finset.mem_insert, List.toFinset_cons]
      tauto

theorem run_drops {as : List α} : ∀ {s : Finset α}, as.Nodup → (∀ a ∈ as, a ∈ s) →
    run (as.map .drop) s = some (s \ as.toFinset) := by
  induction as with
  | nil =>
      intro s _ _
      simp [run]
  | cons a as ih =>
      intro s hnd hmem
      have ha : a ∈ s := hmem a List.mem_cons_self
      obtain ⟨hnot, hnd⟩ := List.nodup_cons.mp hnd
      have hrest : ∀ b ∈ as, b ∈ s.erase a := by
        intro b hb
        refine Finset.mem_erase.mpr ⟨?_, hmem b (List.mem_cons_of_mem _ hb)⟩
        rintro rfl
        exact hnot hb
      simp only [List.map_cons, run, Command.exec, if_pos ha, Option.bind_some]
      rw [ih hnd hrest]
      congr 1
      ext b
      simp only [Finset.mem_sdiff, Finset.mem_erase, List.toFinset_cons, Finset.mem_insert]
      tauto

/-- Distinct fresh names, created, used and each dropped once. -/
theorem run_balanced {as bs ds : List α} {s : Finset α} (hnd : as.Nodup) (hfresh : ∀ a ∈ as, a ∉ s)
    (hused : ∀ b ∈ bs, b ∈ as) (hdrop : ds.Perm as) :
    run (creates as ++ usesDrops bs ds) s = some s := by
  have huse : ∀ b ∈ bs, b ∈ s ∪ as.toFinset := by
    intro b hb
    exact Finset.mem_union_right _ (List.mem_toFinset.mpr (hused b hb))
  have hdrops : ∀ d ∈ ds, d ∈ s ∪ as.toFinset := by
    intro d hd
    exact Finset.mem_union_right _ (List.mem_toFinset.mpr (hdrop.mem_iff.mp hd))
  rw [usesDrops, run_append, run_creates hnd hfresh, Option.bind_some, run_append, run_uses huse,
    Option.bind_some, run_drops (hdrop.nodup_iff.mpr hnd) hdrops]
  congr 1
  ext b
  simp only [Finset.mem_sdiff, Finset.mem_union, List.mem_toFinset, hdrop.mem_iff]
  constructor
  · rintro ⟨hs | ha, hnot⟩
    · exact hs
    · exact absurd ha hnot
  · intro hs
    exact ⟨.inl hs, fun ha => hfresh b ha hs⟩

end

end Resources
