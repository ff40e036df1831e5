/-
# `OpenBms.Lib.Runs` — runs of a labelled transition system

A system is a partial step function on states and labels; a run takes a list of
labels, one after the other.  Interleavings are runs whose labels belong to
several parties.

**Proved here.**

    what every allowed step keeps, an allowed run keeps (`invariant`)
    what exactly the allowed steps keep holds all along
    exactly the allowed runs (`always_steps_iff`, `always_iff`,
    `steps_iff`)
    and, where the condition is only enough, in those runs (`always_steps`)
    what every step keeps holds in every reached state (`Reached.induction`)
-/
import Mathlib

namespace Runs

variable {σ α : Type} (step : σ → α → Option σ)

/-- The state after a list of labels; `none` when one of them cannot be taken. -/
def exec : σ → List α → Option σ
  | s, [] => some s
  | s, a :: as => (step s a).bind fun s' => exec s' as

/-- Every step of a run meets `C` in the state it is taken in. -/
def Meets (C : σ → α → Prop) : σ → List α → Prop
  | _, [] => True
  | s, a :: as => C s a ∧ ∀ s', step s a = some s' → Meets C s' as

/-- The states of the runs from `init`. -/
def Reached (init s : σ) : Prop := ∃ as, exec step init as = some s

variable {step}

theorem exec_nil (s : σ) : exec step s [] = some s := rfl

theorem exec_cons (s : σ) (a : α) (as : List α) :
    exec step s (a :: as) = (step s a).bind fun s' => exec step s' as := rfl

theorem exec_cons_eq_some {s t : σ} {a : α} {as : List α} :
    exec step s (a :: as) = some t ↔ ∃ s', step s a = some s' ∧ exec step s' as = some t :=
  Option.bind_eq_some_iff

theorem Meets.cons {C : σ → α → Prop} {s s' : σ} {a : α} {as : List α} (hC : C s a)
    (hs : step s a = some s') (h : Meets step C s' as) : Meets step C s (a :: as) := by
  refine ⟨hC, fun t ht => ?_⟩
  cases hs.symm.trans ht
  exact h

theorem Meets.mono {C D : σ → α → Prop} (hCD : ∀ s a, C s a → D s a) {s : σ} {as : List α}
    (h : Meets step C s as) : Meets step D s as := by
  induction as generalizing s with
  | nil => exact trivial
  | cons a as ih => exact ⟨hCD s a h.1, fun s' hs' => ih (h.2 s' hs')⟩

/-- Conditions that agree at every step agree on runs. -/
theorem meets_congr {C D : σ → α → Prop} (h : ∀ s a, C s a ↔ D s a) {s : σ} {as : List α} :
    Meets step C s as ↔ Meets step D s as :=
  ⟨.mono fun s a => (h s a).mp, .mono fun s a => (h s a).mpr⟩

instance decidableMeets {C : σ → α → Prop} [∀ s a, Decidable (C s a)] :
    ∀ (s : σ) (as : List α), Decidable (Meets step C s as)
  | _, [] => isTrue trivial
  | s, a :: as =>
      match hs : step s a with
      | none => decidable_of_iff (C s a)
          ⟨fun hC => ⟨hC, fun s' hs' => by cases hs.symm.trans hs'⟩, fun h => h.1⟩
      | some s' =>
          haveI := decidableMeets (C := C) s' as
          decidable_of_iff (C s a ∧ Meets step C s' as)
            ⟨fun h => .cons h.1 hs h.2, fun h => ⟨h.1, h.2 s' hs⟩⟩

/-- What every allowed step keeps, an allowed run keeps. -/
theorem invariant {C : σ → α → Prop} {I : σ → Prop}
    (hstep : ∀ s a s', I s → C s a → step s a = some s' → I s') :
    ∀ {as : List α} {s t : σ}, I s → Meets step C s as → exec step s as = some t → I t := by
  intro as
  induction as with
  | nil =>
      intro s t hs _ h
      cases h
      exact hs
  | cons a as ih =>
      intro s t hs hmeets h
      obtain ⟨s', hs', h⟩ := exec_cons_eq_some.mp h
      exact ih (hstep s a s' hs hmeets.1 hs') (hmeets.2 s' hs') h

/-- When every allowed step of a total system keeps an invariant and does what it should,
the invariant holds in every state of an allowed run and every step of it does so. -/
theorem always_steps {next : σ → α → σ} {C K : σ → α → Prop} {I : σ → Prop}
    (hstep : ∀ s a, I s → C s a → I (next s a) ∧ K s a) {s : σ} {as : List α} (hs : I s)
    (h : Meets (fun s a => some (next s a)) C s as) :
    (∀ before after, as = before ++ after → I (before.foldl next s)) ∧
      ∀ before a after, as = before ++ a :: after → K (before.foldl next s) a := by
  induction as generalizing s with
  | nil =>
      refine ⟨fun before after heq => ?_, fun before a after heq => ?_⟩
      · rw [(List.append_eq_nil_iff.mp heq.symm).1]
        exact hs
      · cases (List.append_eq_nil_iff.mp heq.symm).2
  | cons a as ih =>
      obtain ⟨hnext, hK⟩ := hstep s a hs h.1
      obtain ⟨hstates, hsteps⟩ := ih hnext (h.2 _ rfl)
      refine ⟨fun before after heq => ?_, fun before b after heq => ?_⟩
      · cases before with
        | nil => exact hs
        | cons c before =>
            obtain ⟨rfl, htail⟩ := List.cons.inj heq
            exact hstates before after htail
      · cases before with
        | nil =>
            obtain ⟨rfl, -⟩ := List.cons.inj heq
            exact hK
        | cons c before =>
            obtain ⟨rfl, htail⟩ := List.cons.inj heq
            exact hsteps before b after htail

/-- When a condition says exactly which steps do so, these are exactly the allowed runs. -/
theorem always_steps_iff {next : σ → α → σ} {C K : σ → α → Prop} {I : σ → Prop}
    (hstep : ∀ s a, I s → (I (next s a) ∧ K s a ↔ C s a)) {s : σ} (hs : I s) (as : List α) :
    ((∀ before after, as = before ++ after → I (before.foldl next s)) ∧
      ∀ before a after, as = before ++ a :: after → K (before.foldl next s) a) ↔
      Meets (fun s a => some (next s a)) C s as := by
  refine ⟨?_, always_steps (fun s a hs => (hstep s a hs).mpr) hs⟩
  induction as generalizing s with
  | nil => exact fun _ => trivial
  | cons a as ih =>
      rintro ⟨hstates, hsteps⟩
      have hnext : I (next s a) := hstates [a] as rfl
      refine .cons ((hstep s a hs).mp ⟨hnext, hsteps [] a as rfl⟩) rfl (ih hnext ⟨?_, ?_⟩)
      · intro before after heq
        exact hstates (a :: before) after (congrArg (a :: ·) heq)
      · intro before b after heq
        exact hsteps (a :: before) b after (congrArg (a :: ·) heq)

/-- The same for an invariant alone. -/
theorem always_iff {next : σ → α → σ} {C : σ → α → Prop} {I : σ → Prop}
    (hstep : ∀ s a, I s → (I (next s a) ↔ C s a)) {s : σ} (hs : I s) (as : List α) :
    (∀ before after, as = before ++ after → I (before.foldl next s)) ↔
      Meets (fun s a => some (next s a)) C s as := by
  rw [← always_steps_iff (K := fun _ _ => True) (fun s a hs => (and_iff_left trivial).trans
    (hstep s a hs)) hs as]
  exact (and_iff_left fun _ _ _ _ => trivial).symm

theorem steps_iff {next : σ → α → σ} {C K : σ → α → Prop} (hstep : ∀ s a, K s a ↔ C s a) (s : σ)
    (as : List α) :
    (∀ before a after, as = before ++ a :: after → K (before.foldl next s) a) ↔
      Meets (fun s a => some (next s a)) C s as := by
  rw [← always_steps_iff (I := fun _ => True) (fun s a _ => (and_iff_right trivial).trans (hstep s a))
    trivial as]
  exact (and_iff_right fun _ _ _ => trivial).symm

theorem Reached.refl (s : σ) : Reached step s s := ⟨[], rfl⟩

/-- What holds at first and is kept by every step holds in every reached state. -/
theorem Reached.induction {init : σ} {I : σ → Prop} (hinit : I init)
    (hstep : ∀ s a s', I s → step s a = some s' → I s') {s : σ} (h : Reached step init s) : I s := by
  obtain ⟨as, has⟩ := h
  have hmeets : ∀ (as : List α) (s : σ), Meets step (fun _ _ => True) s as := by
    intro as
    induction as with
    | nil => exact fun _ => trivial
    | cons a as ih => exact fun s => ⟨trivial, fun s' _ => ih s'⟩
  exact invariant (fun s a s' hs _ h => hstep s a s' hs h) hinit (hmeets as init) has

end Runs
