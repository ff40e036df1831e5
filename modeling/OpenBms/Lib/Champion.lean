/-
# `OpenBms.Lib.Champion` — a running comparison of values that may be undefined

The champion of a list is found from left to right: the one so far stays where it is
greater than the next, and a comparison with an undefined value is false.  An undefined
value takes the place of any other, and any other its place: what comes before the last
undefined value is forgotten.

**Proved here.**

    the champion is the greatest after the last undefined
    value, or that one itself (`champion_spec`)
    it is the greatest of all exactly when the values
    before are reached after (`tops_iff`)
-/
import Mathlib

namespace Champion

section
variable {α β : Type} (value : α → Option β)

/-- What comes after the last undefined value. -/
def decided (l : List α) : List α := (l.reverse.takeWhile fun x => (value x).isSome).reverse

variable {value}

theorem decided_concat_none {l : List α} {y : α} (h : value y = none) : decided value (l ++ [y]) = [] := by
  rw [decided, List.reverse_append, List.reverse_singleton, List.singleton_append,
    List.takeWhile_cons_of_neg (by rw [h]; exact Bool.false_ne_true)]
  rfl

theorem decided_concat_some {l : List α} {y : α} {b : β} (h : value y = some b) :
    decided value (l ++ [y]) = decided value l ++ [y] := by
  rw [decided, List.reverse_append, List.reverse_singleton, List.singleton_append,
    List.takeWhile_cons_of_pos (by rw [h]; rfl), List.reverse_cons]
  rfl

theorem isSome_of_mem_decided {l : List α} {y : α} (h : y ∈ decided value l) :
    (value y).isSome = true := by
  have hall := List.all_takeWhile (p := fun x => (value x).isSome) (l := l.reverse)
  exact List.all_eq_true.mp hall y (List.mem_reverse.mp h)

variable [LinearOrder β] (value)

/-- `prev > current`. -/
def keeps (prev current : α) : Bool :=
  match value prev, value current with
  | some a, some b => decide (b < a)
  | _, _ => false

def pick (prev current : α) : α := if keeps value prev current then prev else current

def champion : List α → Option α
  | [] => none
  | x :: xs => some (xs.foldl (pick value) x)

/-- No value is greater than that of `w`, and a defined one only stands beside a defined. -/
def Tops (w : α) (l : List α) : Prop :=
  ∀ y ∈ l, ∀ b, value y = some b → ∃ c, value w = some c ∧ b ≤ c

/-- Each value is reached after the last undefined one. -/
def Reached (l : List α) : Prop :=
  ∀ y ∈ l, ∀ b, value y = some b → ∃ z ∈ decided value l, ∃ c, value z = some c ∧ b ≤ c

variable {value}

theorem pick_some {w y : α} {a b : β} (hw : value w = some a) (hy : value y = some b) :
    pick value w y = if b < a then w else y := by
  rw [pick, keeps, hw, hy]
  exact if_congr decide_eq_true_iff rfl rfl

theorem champion_concat (l : List α) (y : α) : champion value (l ++ [y]) =
    some (match champion value l with
      | none => y
      | some w => pick value w y) := by
  cases l with
  | nil => rfl
  | cons x xs => exact congrArg some (List.foldl_concat (pick value) x y xs)

theorem pick_none_left {w y : α} (h : value w = none) : pick value w y = y := by
  rw [pick, keeps, h]
  rfl

theorem pick_none_right {w y : α} (h : value y = none) : pick value w y = y := by
  rw [pick, keeps, h]
  cases value w <;> rfl

theorem champion_isSome {l : List α} : (champion value l).isSome ↔ l ≠ [] := by
  cases l with
  | nil => simp only [champion, Option.isSome_none, Bool.false_eq_true, ne_eq, not_true_eq_false]
  | cons x xs =>
      simp only [champion, Option.isSome_some, ne_eq, reduceCtorEq, not_false_eq_true]

theorem champion_mem {l : List α} {w : α} (h : champion value l = some w) : w ∈ l := by
  induction l using List.reverseRecOn generalizing w with
  | nil => cases h
  | append_singleton l y ih =>
      rw [champion_concat] at h
      cases hl : champion value l with
      | none =>
          rw [hl] at h
          cases h
          exact List.mem_append_right l List.mem_cons_self
      | some v =>
          rw [hl] at h
          cases h
          show pick value v y ∈ l ++ [y]
          rw [pick]
          split
          · exact List.mem_append_left [y] (ih hl)
          · exact List.mem_append_right l List.mem_cons_self

theorem champion_eq_none {l : List α} (h : champion value l = none) : l = [] := by
  by_contra hne
  have hsome : (champion value l).isSome := champion_isSome.mpr hne
  rw [h] at hsome
  cases hsome

/-- An element whose value is undefined takes the place of any champion. -/
theorem champion_concat_none (l : List α) {y : α} (h : value y = none) :
    champion value (l ++ [y]) = some y := by
  rw [champion_concat]
  cases champion value l with
  | none => rfl
  | some w => exact congrArg some (pick_none_right h)

theorem tops_singleton (y : α) : Tops value y [y] := by
  intro z hz a ha
  rw [List.mem_singleton.mp hz] at ha
  exact ⟨a, ha, le_refl a⟩

theorem Tops.append {w : α} {l l' : List α} (h : Tops value w l) (h' : Tops value w l') :
    Tops value w (l ++ l') := by
  intro z hz
  rcases List.mem_append.mp hz with hz | hz
  · exact h z hz
  · exact h' z hz

theorem Tops.trans {w y : α} {l : List α} {a b : β} (h : Tops value w l) (hw : value w = some a)
    (hy : value y = some b) (hle : a ≤ b) : Tops value y l := by
  intro z hz c hc
  obtain ⟨a', ha', hc'⟩ := h z hz c hc
  rw [hw] at ha'
  exact ⟨b, hy, hc'.trans ((Option.some.inj ha') ▸ hle)⟩

/-- The champion is the greatest after the last undefined value, or undefined with nothing
after it. -/
theorem champion_spec {l : List α} {w : α} (h : champion value l = some w) :
    (decided value l = [] ∧ value w = none) ∨ (w ∈ decided value l ∧ Tops value w (decided value l)) := by
  induction l using List.reverseRecOn generalizing w with
  | nil => cases h
  | append_singleton l y ih =>
      cases hy : value y with
      | none =>
          rw [champion_concat_none l hy] at h
          cases h
          exact .inl ⟨decided_concat_none hy, hy⟩
      | some b =>
          right
          rw [decided_concat_some hy]
          rw [champion_concat] at h
          have hlast : y ∈ decided value l ++ [y] := List.mem_append_right _ List.mem_cons_self
          cases hl : champion value l with
          | none =>
              rw [hl] at h
              cases h
              rw [champion_eq_none hl] at hlast ⊢
              exact ⟨hlast, tops_singleton y⟩
          | some v =>
              rw [hl] at h
              have hw : pick value v y = w := Option.some.inj h
              rcases ih hl with ⟨hnil, hnone⟩ | ⟨hmem, htops⟩
              · rw [pick_none_left hnone] at hw
                rw [hnil, ← hw]
                exact ⟨List.mem_cons_self, tops_singleton y⟩
              · obtain ⟨a, ha⟩ := Option.isSome_iff_exists.mp (isSome_of_mem_decided hmem)
                rw [pick_some ha hy] at hw
                rcases lt_or_ge b a with hlt | hge
                · rw [if_pos hlt] at hw
                  subst hw
                  exact ⟨List.mem_append_left [y] hmem,
                    htops.append ((tops_singleton y).trans hy ha hlt.le)⟩
                · rw [if_neg hge.not_gt] at hw
                  subst hw
                  exact ⟨hlast, (htops.trans ha hy hge).append (tops_singleton y)⟩

theorem tops_iff {l : List α} {w : α} (h : champion value l = some w) :
    Tops value w l ↔ Reached value l := by
  constructor
  · intro htops y hy b hb
    obtain ⟨c, hc, hle⟩ := htops y hy b hb
    rcases champion_spec h with ⟨-, hnone⟩ | ⟨hmem, -⟩
    · rw [hnone] at hc
      cases hc
    · exact ⟨w, hmem, c, hc, hle⟩
  · intro hreached y hy b hb
    obtain ⟨z, hz, c, hc, hle⟩ := hreached y hy b hb
    rcases champion_spec h with ⟨hnil, -⟩ | ⟨-, htops⟩
    · rw [hnil] at hz
      cases hz
    · obtain ⟨d, hd, hcd⟩ := htops z hz c hc
      exact ⟨d, hd, hle.trans hcd⟩

end

end Champion
