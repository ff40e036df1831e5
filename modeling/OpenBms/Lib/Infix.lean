/-
# `OpenBms.Lib.Infix` — reading a flat infix text with two precedence levels

A flat list of tokens is read as an expression tree: operators of class `hi`
bind tighter than operators of class `lo`, both classes associate to the left,
and parentheses group.  The reader is a shift-reduce machine, structural in
the token list, so that it runs and needs no fuel.

    lo      hi        instance
    OR      AND       a boolean condition
    UNION   INTERSECT a query of set operators (EXCEPT is `lo` as well)

**Proved here.**

    a leaf and a parenthesised text are operands (`operand_leaf`, `operand_group`)
    reading commutes with a map of the leaves (`read_map`)
    the machine inside a group does not see the outside (`run_outer`, `run_nested`)
    a chain of operands reads as its flat fold (`read_chain`)
    the flat fold is the left-to-right fold exactly when
      no tight operator follows a loose one (`foldChain_eq_leftToRight`)
-/
import Mathlib.Data.List.Basic

namespace Infix

variable {α lo hi β : Type}

/-- The tokens of a flat infix text. -/
inductive Tok (α lo hi : Type) where
  | leaf (a : α)
  | lo (o : lo)
  | hi (o : hi)
  | lpar
  | rpar
  deriving DecidableEq

/-- What a text is read as. -/
inductive Expr (α lo hi : Type) where
  | leaf (a : α)
  | lo (o : lo) (l r : Expr α lo hi)
  | hi (o : hi) (l r : Expr α lo hi)
  deriving DecidableEq

/-! ## The machine -/

/-- One level of parentheses: the operands still waiting for their right-hand
side, one for each precedence class. -/
structure Frame (α lo hi : Type) where
  low : Option (Expr α lo hi × lo) := none
  high : Option (Expr α lo hi × hi) := none

/-- Hand the pending tight operand its right-hand side. -/
def Frame.closeHigh (f : Frame α lo hi) (e : Expr α lo hi) : Expr α lo hi :=
  match f.high with
  | none => e
  | some (l, o) => .hi o l e

/-- Hand the pending loose operand its right-hand side. -/
def Frame.closeLow (f : Frame α lo hi) (e : Expr α lo hi) : Expr α lo hi :=
  match f.low with
  | none => e
  | some (l, o) => .lo o l e

/-- The frames of the enclosing groups, the current frame, and the operand
just read (`none` while an operand is expected). -/
structure State (α lo hi : Type) where
  outer : List (Frame α lo hi) := []
  frame : Frame α lo hi := {}
  val : Option (Expr α lo hi) := none

/-- One token. -/
@[grind =] def step : State α lo hi → Tok α lo hi → Option (State α lo hi)
  | ⟨out, f, none⟩, .leaf a =>
      some ⟨out, { f with high := none }, some (f.closeHigh (.leaf a))⟩
  | ⟨out, f, none⟩, .lpar => some ⟨f :: out, {}, none⟩
  | ⟨out, f, some e⟩, .hi o => some ⟨out, { f with high := some (e, o) }, none⟩
  | ⟨out, f, some e⟩, .lo o => some ⟨out, { low := some (f.closeLow e, o) }, none⟩
  | ⟨g :: out, f, some e⟩, .rpar =>
      some ⟨out, { g with high := none }, some (g.closeHigh (f.closeLow e))⟩
  | _, _ => none

/-- A whole text. -/
@[grind =] def run : State α lo hi → List (Tok α lo hi) → Option (State α lo hi)
  | s, [] => some s
  | s, t :: ts => (step s t).bind fun s' => run s' ts

/-- The reading: every group closed and an operand at the end. -/
@[grind =] def read (ts : List (Tok α lo hi)) : Option (Expr α lo hi) :=
  match run {} ts with
  | some ⟨[], f, some e⟩ => some (f.closeLow e)
  | _ => none

theorem run_append (s : State α lo hi) (ts us : List (Tok α lo hi)) :
    run s (ts ++ us) = (run s ts).bind fun s' => run s' us := by
  induction ts generalizing s with
  | nil => rfl
  | cons t ts ih =>
      simp only [List.cons_append, run]
      cases step s t with
      | none => rfl
      | some s' => exact ih s'

/-! ## Leaves

What a text is read as has no leaf that does not stand in the text. -/

/-- Every leaf has the property. -/
def Expr.All (P : α → Prop) : Expr α lo hi → Prop
  | .leaf a => P a
  | .lo _ l r => l.All P ∧ r.All P
  | .hi _ l r => l.All P ∧ r.All P

/-- The operands a frame waits with have it. -/
def Frame.All (P : α → Prop) (f : Frame α lo hi) : Prop :=
  (∀ p, f.low = some p → p.1.All P) ∧ ∀ p, f.high = some p → p.1.All P

structure State.All (P : α → Prop) (s : State α lo hi) : Prop where
  outer : ∀ f ∈ s.outer, f.All P
  frame : s.frame.All P
  val : ∀ e, s.val = some e → e.All P

section
variable {P : α → Prop}

theorem Frame.All.closeHigh {f : Frame α lo hi} {e : Expr α lo hi} (hf : f.All P) (he : e.All P) :
    (f.closeHigh e).All P := by
  unfold Frame.closeHigh
  cases h : f.high with
  | none => exact he
  | some p => exact ⟨hf.2 p h, he⟩

theorem Frame.All.closeLow {f : Frame α lo hi} {e : Expr α lo hi} (hf : f.All P) (he : e.All P) :
    (f.closeLow e).All P := by
  unfold Frame.closeLow
  cases h : f.low with
  | none => exact he
  | some p => exact ⟨hf.1 p h, he⟩

theorem Frame.All.empty : Frame.All P ({} : Frame α lo hi) :=
  ⟨fun _ h => (nomatch h), fun _ h => (nomatch h)⟩

theorem all_step {s s' : State α lo hi} {t : Tok α lo hi} (hs : s.All P)
    (ht : ∀ a, t = .leaf a → P a) (h : step s t = some s') : s'.All P := by
  obtain ⟨out, f, v⟩ := s
  obtain ⟨hout, hf, hv⟩ := hs
  cases v with
  | none =>
      cases t with
      | leaf a =>
          cases h
          refine ⟨hout, ⟨hf.1, fun _ h => (nomatch h)⟩, fun e he => ?_⟩
          cases he
          exact Frame.All.closeHigh hf (ht a rfl)
      | lpar =>
          cases h
          refine ⟨fun g hg => ?_, Frame.All.empty, fun _ he => (nomatch he)⟩
          rcases List.mem_cons.mp hg with rfl | hg
          · exact hf
          · exact hout g hg
      | lo | hi | rpar => simp only [step, reduceCtorEq] at h
  | some e =>
      have he : e.All P := hv e rfl
      cases t with
      | hi o =>
          cases h
          refine ⟨hout, ⟨hf.1, fun p hp => ?_⟩, fun _ h => (nomatch h)⟩
          cases hp
          exact he
      | lo o =>
          cases h
          refine ⟨hout, ⟨fun p hp => ?_, fun _ h => (nomatch h)⟩, fun _ h => (nomatch h)⟩
          cases hp
          exact Frame.All.closeLow hf he
      | rpar =>
          cases out with
          | nil => simp only [step, reduceCtorEq] at h
          | cons g out =>
              cases h
              have hg : g.All P := hout g List.mem_cons_self
              refine ⟨fun f hf => hout f (List.mem_cons_of_mem _ hf),
                ⟨hg.1, fun _ h => (nomatch h)⟩, fun e' he' => ?_⟩
              cases he'
              exact Frame.All.closeHigh hg (Frame.All.closeLow hf he)
      | leaf | lpar => simp only [step, reduceCtorEq] at h

theorem all_run {ts : List (Tok α lo hi)} : ∀ {s s' : State α lo hi}, s.All P →
    (∀ a, .leaf a ∈ ts → P a) → run s ts = some s' → s'.All P := by
  induction ts with
  | nil =>
      intro s s' hs _ h
      cases h
      exact hs
  | cons t ts ih =>
      intro s s' hs hts h
      simp only [run, Option.bind_eq_some_iff] at h
      obtain ⟨s₁, hstep, hrun⟩ := h
      have hs₁ := all_step hs (fun a ha => hts a (ha ▸ List.mem_cons_self)) hstep
      exact ih hs₁ (fun a ha => hts a (List.mem_cons_of_mem _ ha)) hrun

theorem all_read {ts : List (Tok α lo hi)} {e : Expr α lo hi} (hts : ∀ a, .leaf a ∈ ts → P a)
    (h : read ts = some e) : e.All P := by
  unfold read at h
  split at h
  · rename_i f v hr
    cases h
    have hs := all_run (s := {}) ⟨fun _ hf => (nomatch hf), Frame.All.empty, fun _ he => (nomatch he)⟩
      hts hr
    exact Frame.All.closeLow hs.frame (hs.val v rfl)
  · exact nomatch h

end

/-! ## A map of the leaves -/

def Tok.map {α' : Type} (f : α → α') : Tok α lo hi → Tok α' lo hi
  | .leaf a => .leaf (f a)
  | .lo o => .lo o
  | .hi o => .hi o
  | .lpar => .lpar
  | .rpar => .rpar

def Expr.map {α' : Type} (f : α → α') : Expr α lo hi → Expr α' lo hi
  | .leaf a => .leaf (f a)
  | .lo o l r => .lo o (l.map f) (r.map f)
  | .hi o l r => .hi o (l.map f) (r.map f)

def Frame.map {α' : Type} (f : α → α') (g : Frame α lo hi) : Frame α' lo hi :=
  ⟨g.low.map fun p => (p.1.map f, p.2), g.high.map fun p => (p.1.map f, p.2)⟩

def State.map {α' : Type} (f : α → α') (s : State α lo hi) : State α' lo hi :=
  ⟨s.outer.map (Frame.map f), s.frame.map f, s.val.map (Expr.map f)⟩

section
variable {α' : Type} (f : α → α')

theorem closeHigh_map (g : Frame α lo hi) (e : Expr α lo hi) :
    (g.map f).closeHigh (e.map f) = (g.closeHigh e).map f := by
  obtain ⟨low, high⟩ := g
  cases high <;> rfl

theorem closeLow_map (g : Frame α lo hi) (e : Expr α lo hi) :
    (g.map f).closeLow (e.map f) = (g.closeLow e).map f := by
  obtain ⟨low, high⟩ := g
  cases low <;> rfl

theorem step_map (s : State α lo hi) (t : Tok α lo hi) :
    step (s.map f) (t.map f) = (step s t).map (State.map f) := by
  obtain ⟨out, g, v⟩ := s
  cases v with
  | none =>
      cases t with
      | leaf a =>
          have h := closeHigh_map f g (.leaf a)
          simp only [State.map, Tok.map, Option.map_none, Option.map_some, step] at h ⊢
          rw [← h]
          rfl
      | lpar | lo | hi | rpar => rfl
  | some e =>
      cases t with
      | lo o =>
          have h := closeLow_map f g e
          simp only [State.map, Tok.map, Option.map_none, Option.map_some, step, h]
          rfl
      | rpar =>
          cases out with
          | nil => rfl
          | cons k out =>
              have h := closeHigh_map f k (g.closeLow e)
              simp only [State.map, Tok.map, Option.map_some, List.map_cons, step, closeLow_map]
              rw [h]
              rfl
      | leaf | lpar | hi => rfl

theorem run_map (s : State α lo hi) (ts : List (Tok α lo hi)) :
    run (s.map f) (ts.map (Tok.map f)) = (run s ts).map (State.map f) := by
  induction ts generalizing s with
  | nil => rfl
  | cons t ts ih =>
      simp only [List.map_cons, run, step_map]
      cases step s t with
      | none => rfl
      | some s' => exact ih s'

theorem read_map (ts : List (Tok α lo hi)) :
    read (ts.map (Tok.map f)) = (read ts).map (Expr.map f) := by
  have hrun : run {} (ts.map (Tok.map f)) = (run {} ts).map (State.map f) := run_map f {} ts
  unfold read
  rw [hrun]
  cases run {} ts with
  | none => rfl
  | some s =>
      obtain ⟨out, g, v⟩ := s
      cases out with
      | cons k out => rfl
      | nil =>
          cases v with
          | none => rfl
          | some e => exact congrArg some (closeLow_map f g e)

end

/-! ## Groups

Inside a group the machine never looks at the frames outside it.  Forwards
this is a frame rule (`run_outer`); backwards it needs the text not to close
more groups than it opens, which `nested` checks. -/

/-- The frame rule: frames below the ones a run uses stay as they are. -/
theorem run_outer {ts : List (Tok α lo hi)} :
    ∀ {s s' : State α lo hi} (out : List (Frame α lo hi)), run s ts = some s' →
      run ⟨s.outer ++ out, s.frame, s.val⟩ ts = some ⟨s'.outer ++ out, s'.frame, s'.val⟩ := by
  induction ts with
  | nil =>
      intro s s' out h
      cases h
      rfl
  | cons t ts ih =>
      intro s s' out h
      obtain ⟨o, f, v⟩ := s
      simp only [run, Option.bind_eq_some_iff] at h ⊢
      obtain ⟨s₁, hs, hr⟩ := h
      refine ⟨⟨s₁.outer ++ out, s₁.frame, s₁.val⟩, ?_, ih out hr⟩
      cases v with
      | none => cases t <;> simp only [step, reduceCtorEq] at hs ⊢ <;> cases hs <;> rfl
      | some e =>
          cases t with
          | rpar =>
              cases o with
              | nil => simp only [step, reduceCtorEq] at hs
              | cons g o => simp only [step] at hs ⊢; cases hs; rfl
          | lo | hi => simp only [step] at hs ⊢; cases hs; rfl
          | leaf | lpar => simp only [step, reduceCtorEq] at hs

/-- The depth a text ends at when it starts at the given one; `none` when it
closes a group it did not open. -/
def nested : Nat → List (Tok α lo hi) → Option Nat
  | d, [] => some d
  | d, .lpar :: ts => nested (d + 1) ts
  | 0, .rpar :: _ => none
  | d + 1, .rpar :: ts => nested d ts
  | d, .leaf _ :: ts | d, .lo _ :: ts | d, .hi _ :: ts => nested d ts

theorem nested_append {ts us : List (Tok α lo hi)} {d : Nat} :
    nested d (ts ++ us) = (nested d ts).bind fun d' => nested d' us := by
  induction ts generalizing d with
  | nil => rfl
  | cons t ts ih =>
      cases t with
      | rpar =>
          cases d with
          | zero => rfl
          | succ d => exact ih
      | leaf | lo | hi | lpar => exact ih

/-- Enclosing groups do not matter to a text that closes only what it opened. -/
theorem nested_add {ts : List (Tok α lo hi)} :
    ∀ {d d' : Nat} (k : Nat), nested d ts = some d' → nested (d + k) ts = some (d' + k) := by
  induction ts with
  | nil =>
      intro d d' k h
      cases h
      rfl
  | cons t ts ih =>
      intro d d' k h
      cases t with
      | rpar =>
          cases d with
          | zero => exact nomatch h
          | succ d =>
              rw [Nat.succ_add]
              exact ih k h
      | lpar =>
          have h' := ih k (show nested (d + 1) ts = some d' from h)
          rw [Nat.add_right_comm] at h'
          exact h'
      | leaf | lo | hi => exact ih k h

/-- A text that closes only what it opened runs as it would alone. -/
theorem run_nested {ts : List (Tok α lo hi)} :
    ∀ {inner out : List (Frame α lo hi)} {f : Frame α lo hi} {v : Option (Expr α lo hi)}
      {s' : State α lo hi} {d : Nat},
      nested inner.length ts = some d → run ⟨inner ++ out, f, v⟩ ts = some s' →
      ∃ inner', inner'.length = d ∧ s'.outer = inner' ++ out ∧
        run ⟨inner, f, v⟩ ts = some ⟨inner', s'.frame, s'.val⟩ := by
  induction ts with
  | nil =>
      intro inner out f v s' d hn h
      cases h
      cases hn
      exact ⟨inner, rfl, rfl, rfl⟩
  | cons t ts ih =>
      intro inner out f v s' d hn h
      simp only [run, Option.bind_eq_some_iff] at h
      obtain ⟨s₁, hs, hr⟩ := h
      cases v with
      | none =>
          cases t with
          | leaf a =>
              simp only [step, Option.some.injEq] at hs
              subst hs
              obtain ⟨i, hi, ho, hr⟩ := ih hn hr
              exact ⟨i, hi, ho, by simpa only [run, step, Option.bind_some] using hr⟩
          | lpar =>
              simp only [step, Option.some.injEq] at hs
              subst hs
              have hn' : nested (f :: inner).length ts = some d := hn
              obtain ⟨i, hi, ho, hr⟩ := @ih (f :: inner) _ _ _ _ _ hn' hr
              exact ⟨i, hi, ho, by simpa only [run, step, Option.bind_some] using hr⟩
          | lo | hi | rpar => simp only [step, reduceCtorEq] at hs
      | some e =>
          cases t with
          | lo o | hi o =>
              simp only [step, Option.some.injEq] at hs
              subst hs
              obtain ⟨i, hi, ho, hr⟩ := ih hn hr
              exact ⟨i, hi, ho, by simpa only [run, step, Option.bind_some] using hr⟩
          | rpar =>
              cases inner with
              | nil => simp only [List.length_nil, nested, reduceCtorEq] at hn
              | cons g inner =>
                  simp only [List.cons_append, step, Option.some.injEq] at hs
                  subst hs
                  obtain ⟨i, hi, ho, hr⟩ := @ih inner _ _ _ _ _ hn hr
                  exact ⟨i, hi, ho, by simpa only [run, step, Option.bind_some] using hr⟩
          | leaf | lpar => simp only [step, reduceCtorEq] at hs

/-! ## Operands -/

/-- `ts` is read as the single operand `e` wherever an operand is expected. -/
def Operand (ts : List (Tok α lo hi)) (e : Expr α lo hi) : Prop :=
  ∀ out f, run ⟨out, f, none⟩ ts = some ⟨out, { f with high := none }, some (f.closeHigh e)⟩

theorem operand_leaf (a : α) : Operand ([.leaf a] : List (Tok α lo hi)) (.leaf a) :=
  fun _ _ => rfl

theorem read_eq_some {ts : List (Tok α lo hi)} {e : Expr α lo hi} (h : read ts = some e) :
    ∃ f v, run {} ts = some ⟨[], f, some v⟩ ∧ f.closeLow v = e := by
  unfold read at h
  split at h
  · rename_i f v hr
    exact ⟨f, v, hr, Option.some.inj h⟩
  · exact nomatch h

theorem operand_group {ts : List (Tok α lo hi)} {e : Expr α lo hi} (h : read ts = some e) :
    Operand (.lpar :: ts ++ [.rpar]) e := by
  obtain ⟨g, v, hr, rfl⟩ := read_eq_some h
  intro out f
  have hin : run ⟨f :: out, {}, none⟩ ts = some ⟨f :: out, g, some v⟩ :=
    run_outer (s := {}) (f :: out) hr
  simp only [List.cons_append, run, step, Option.bind_some, run_append, hin]

theorem read_of_run_group {ts us : List (Tok α lo hi)} {out : List (Frame α lo hi)}
    {f : Frame α lo hi} {s' : State α lo hi} (hn : nested 0 ts = some 0)
    (h : run ⟨out, f, none⟩ (.lpar :: ts ++ .rpar :: us) = some s') :
    ∃ e, read ts = some e ∧
      run ⟨out, { f with high := none }, some (f.closeHigh e)⟩ us = some s' := by
  simp only [List.cons_append, run, step, Option.bind_some, run_append,
    Option.bind_eq_some_iff] at h
  obtain ⟨s₁, hin, s₂, hclose, hrest⟩ := h
  obtain ⟨inner, hlen, hout, hr⟩ := @run_nested _ _ _ _ [] (f :: out) _ _ _ _ hn hin
  have hnil : inner = [] := List.length_eq_zero_iff.mp hlen
  subst hnil
  obtain ⟨o, g, v⟩ := s₁
  have ho : o = f :: out := hout
  subst ho
  cases v with
  | none => exact nomatch hclose
  | some e =>
      cases hclose
      refine ⟨g.closeLow e, ?_, hrest⟩
      have hr' : run {} ts = some ⟨[], g, some e⟩ := hr
      simp only [read, hr']

theorem run_group_after_operand (out : List (Frame α lo hi)) (f : Frame α lo hi)
    (v : Expr α lo hi) (ts : List (Tok α lo hi)) : run ⟨out, f, some v⟩ (.lpar :: ts) = none := by
  cases out <;> rfl

/-! ## Chains

A chain is an operand followed by operators and operands.  Its reading is the
flat fold: the tight operators of a block first, the loose ones between the
blocks. -/

/-- One link: an operator, the text of its right operand and what it reads as. -/
structure Link (α lo hi : Type) where
  op : lo ⊕ hi
  toks : List (Tok α lo hi)
  expr : Expr α lo hi
  isOperand : Operand toks expr

/-- The token of an operator. -/
def opTok : lo ⊕ hi → Tok α lo hi
  | .inl o => .lo o
  | .inr o => .hi o

/-- The text of a chain after its first operand. -/
def linkToks (ls : List (Link α lo hi)) : List (Tok α lo hi) :=
  ls.flatMap fun l => opTok l.op :: l.toks

/-- The value of a chain: `low` is the pending loose operand, `v` the block
read so far. -/
def foldChain (flo : lo → β → β → β) (fhi : hi → β → β → β) :
    Option (β × lo) → β → List ((lo ⊕ hi) × β) → β
  | none, v, [] => v
  | some (l, o), v, [] => flo o l v
  | none, v, (.inl o, x) :: r => foldChain flo fhi (some (v, o)) x r
  | some (l, o'), v, (.inl o, x) :: r => foldChain flo fhi (some (flo o' l v, o)) x r
  | low, v, (.inr o, x) :: r => foldChain flo fhi low (fhi o v x) r

/-- The value of a chain taken strictly from left to right. -/
def leftToRight (flo : lo → β → β → β) (fhi : hi → β → β → β) :
    β → List ((lo ⊕ hi) × β) → β
  | v, [] => v
  | v, (.inl o, x) :: r => leftToRight flo fhi (flo o v x) r
  | v, (.inr o, x) :: r => leftToRight flo fhi (fhi o v x) r

theorem leftToRight_append (flo : lo → β → β → β) (fhi : hi → β → β → β) :
    ∀ (v : β) (ps qs : List ((lo ⊕ hi) × β)),
      leftToRight flo fhi v (ps ++ qs) = leftToRight flo fhi (leftToRight flo fhi v ps) qs
  | _, [], _ => rfl
  | v, (.inl o, x) :: ps, qs => leftToRight_append flo fhi (flo o v x) ps qs
  | v, (.inr o, x) :: ps, qs => leftToRight_append flo fhi (fhi o v x) ps qs

/-- The value of an expression. -/
@[grind =] def Expr.eval (leaf : α → β) (flo : lo → β → β → β) (fhi : hi → β → β → β) :
    Expr α lo hi → β
  | .leaf a => leaf a
  | .lo o l r => flo o (l.eval leaf flo fhi) (r.eval leaf flo fhi)
  | .hi o l r => fhi o (l.eval leaf flo fhi) (r.eval leaf flo fhi)

theorem run_links {ls : List (Link α lo hi)} :
    ∀ (out : List (Frame α lo hi)) (low : Option (Expr α lo hi × lo)) (v : Expr α lo hi),
      ∃ low' v', run ⟨out, { low := low }, some v⟩ (linkToks ls)
          = some ⟨out, { low := low' }, some v'⟩ ∧
        Frame.closeLow { low := low' } v'
          = foldChain .lo .hi low v (ls.map fun l => (l.op, l.expr)) := by
  induction ls with
  | nil =>
      intro out low v
      refine ⟨low, v, rfl, ?_⟩
      cases low with
      | none => rfl
      | some p => rfl
  | cons l ls ih =>
      intro out low v
      obtain ⟨op, ts, e, hop⟩ := l
      cases op with
      | inl o =>
          obtain ⟨low', v', hr, he⟩ :=
            ih out (some (Frame.closeLow { low := low } v, o)) e
          refine ⟨low', v', ?_, ?_⟩
          · have hx := hop out { low := some (Frame.closeLow { low := low } v, o) }
            simp only [linkToks, List.flatMap_cons, opTok, List.cons_append, run, step,
              Option.bind_some, run_append, hx]
            exact hr
          · rw [he]
            cases low with
            | none => rfl
            | some p => rfl
      | inr o =>
          obtain ⟨low', v', hr, he⟩ := ih out low (.hi o v e)
          refine ⟨low', v', ?_, ?_⟩
          · have hx := hop out { low := low, high := some (v, o) }
            simp only [linkToks, List.flatMap_cons, opTok, List.cons_append, run, step,
              Option.bind_some, run_append, hx]
            exact hr
          · rw [he]
            cases low with
            | none => rfl
            | some p => rfl

theorem read_chain {ts : List (Tok α lo hi)} {e : Expr α lo hi} (h : Operand ts e)
    (ls : List (Link α lo hi)) :
    read (ts ++ linkToks ls)
      = some (foldChain .lo .hi none e (ls.map fun l => (l.op, l.expr))) := by
  obtain ⟨low', v', hr, he⟩ := @run_links _ _ _ ls [] none e
  have h0 : run {} ts = some ⟨[], {}, some e⟩ := h [] {}
  simp only [read, run_append, h0, Option.bind_some, hr]
  exact congrArg some he

theorem eval_foldChain (leaf : α → β) (flo : lo → β → β → β) (fhi : hi → β → β → β)
    (ops : List ((lo ⊕ hi) × Expr α lo hi)) :
    ∀ (low : Option (Expr α lo hi × lo)) (v : Expr α lo hi),
      (foldChain .lo .hi low v ops).eval leaf flo fhi
        = foldChain flo fhi (low.map fun p => (p.1.eval leaf flo fhi, p.2))
            (v.eval leaf flo fhi) (ops.map fun p => (p.1, p.2.eval leaf flo fhi)) := by
  induction ops with
  | nil =>
      intro low v
      cases low with
      | none => rfl
      | some p => rfl
  | cons p ops ih =>
      intro low v
      obtain ⟨op, x⟩ := p
      cases op with
      | inl o =>
          cases low with
          | none => exact ih (some (v, o)) x
          | some q => exact ih (some (.lo q.2 q.1 v, o)) x
      | inr o =>
          cases low with
          | none => exact ih none (.hi o v x)
          | some q => exact ih (some q) (.hi o v x)

/-- A property of the leftmost operand that the operators hand on to their
result is a property of the chain; `R` is what the other operands have. -/
theorem foldChain_left {f : lo → β → β → β} {g : hi → β → β → β} {Q R : β → Prop}
    (hhi : ∀ o a b, Q a → R b → Q (g o a b)) (hhi' : ∀ o a b, R a → R b → R (g o a b)) :
    ∀ (ops : List ((lo ⊕ hi) × β)),
      (∀ p ∈ ops, R p.2) → (∀ o x, (.inl o, x) ∈ ops → ∀ a b, Q a → R b → Q (f o a b)) →
      (∀ v, Q v → Q (foldChain f g none v ops)) ∧
      (∀ l o v, (∀ a b, Q a → R b → Q (f o a b)) → Q l → R v →
        Q (foldChain f g (some (l, o)) v ops)) := by
  intro ops
  induction ops with
  | nil =>
      intro _ _
      exact ⟨fun v hv => hv, fun l o v ho hl hv => ho l v hl hv⟩
  | cons p ops ih =>
      intro hR hlo
      obtain ⟨op, x⟩ := p
      have hx : R x := hR _ List.mem_cons_self
      obtain ⟨ihn, ihs⟩ := ih (fun p hp => hR p (List.mem_cons_of_mem _ hp))
        (fun o x hp => hlo o x (List.mem_cons_of_mem _ hp))
      cases op with
      | inl o =>
          have ho := hlo o x List.mem_cons_self
          exact ⟨fun v hv => ihs v o x ho hv hx,
            fun l o' v ho' hl hv => ihs (f o' l v) o x ho (ho' l v hl hv) hx⟩
      | inr o =>
          exact ⟨fun v hv => ihn _ (hhi o v x hv hx),
            fun l o' v ho' hl hv => ihs l o' (g o v x) ho' hl (hhi' o v x hv hx)⟩

theorem eval_map_leaf {α' : Type} (f : α → α') (leaf : α' → β) (flo : lo → β → β → β)
    (fhi : hi → β → β → β) (e : Expr α lo hi) :
    (e.map f).eval leaf flo fhi = e.eval (fun a => leaf (f a)) flo fhi := by
  induction e with
  | leaf a => rfl
  | lo o l r ihl ihr => simp only [Expr.map, Expr.eval, ihl, ihr]
  | hi o l r ihl ihr => simp only [Expr.map, Expr.eval, ihl, ihr]

/-- Values agree where the leaves do. -/
theorem eval_congr {leaf leaf' : α → β} (flo : lo → β → β → β) (fhi : hi → β → β → β)
    {e : Expr α lo hi} (h : e.All fun a => leaf a = leaf' a) :
    e.eval leaf flo fhi = e.eval leaf' flo fhi := by
  induction e with
  | leaf a => exact h
  | lo o l r ihl ihr => simp only [Expr.eval, ihl h.1, ihr h.2]
  | hi o l r ihl ihr => simp only [Expr.eval, ihl h.1, ihr h.2]

/-- Evaluation commutes with a map of the values. -/
theorem eval_map {γ : Type} {f : α → β} {flo : lo → β → β → β} {fhi : hi → β → β → β}
    {flo' : lo → γ → γ → γ} {fhi' : hi → γ → γ → γ} (m : β → γ)
    (hlo : ∀ o a b, m (flo o a b) = flo' o (m a) (m b))
    (hhi : ∀ o a b, m (fhi o a b) = fhi' o (m a) (m b)) (e : Expr α lo hi) :
    m (e.eval f flo fhi) = e.eval (fun a => m (f a)) flo' fhi' := by
  induction e with
  | leaf a => rfl
  | lo o l r ihl ihr => simp only [Expr.eval, hlo, ihl, ihr]
  | hi o l r ihl ihr => simp only [Expr.eval, hhi, ihl, ihr]

/-! ## Precedence against left-to-right order -/

/-- No tight operator stands after a loose one. -/
def TightFirst : List (lo ⊕ hi) → Prop
  | [] => True
  | .inr _ :: r => TightFirst r
  | .inl _ :: r => ∀ o ∈ r, o.isLeft = true

instance decTightFirst : ∀ ops : List (lo ⊕ hi), Decidable (TightFirst ops)
  | [] => inferInstanceAs (Decidable True)
  | .inr _ :: r => decTightFirst r
  | .inl _ :: r => inferInstanceAs (Decidable (∀ o ∈ r, o.isLeft = true))

theorem foldChain_of_loose (flo : lo → β → β → β) (fhi : hi → β → β → β) :
    ∀ (ops : List ((lo ⊕ hi) × β)) (l v : β) (o : lo),
      (∀ p ∈ ops, p.1.isLeft = true) →
      foldChain flo fhi (some (l, o)) v ops = leftToRight flo fhi (flo o l v) ops
  | [], _, _, _, _ => rfl
  | (.inl o', x) :: r, l, v, o, h =>
      foldChain_of_loose flo fhi r (flo o l v) x o'
        (fun p hp => h p (List.mem_cons_of_mem _ hp))
  | (.inr o', x) :: r, _, _, _, h =>
      absurd (h (.inr o', x) List.mem_cons_self) (by simp)

theorem foldChain_eq_leftToRight (flo : lo → β → β → β) (fhi : hi → β → β → β) :
    ∀ (ops : List ((lo ⊕ hi) × β)) (v : β), TightFirst (ops.map Prod.fst) →
      foldChain flo fhi none v ops = leftToRight flo fhi v ops
  | [], _, _ => rfl
  | (.inr o, x) :: r, v, h => foldChain_eq_leftToRight flo fhi r (fhi o v x) h
  | (.inl o, x) :: r, v, h =>
      foldChain_of_loose flo fhi r v x o fun p hp =>
        h p.1 (List.mem_map.mpr ⟨p, hp, rfl⟩)

end Infix
