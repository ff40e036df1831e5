/-
# `OpenBms.MessageTrigger.Branches` — what is sent, step by step

Which e-mails runs send from a step is what they send from where it can go on.

| a step | a run goes on with |
| :-- | :-- |
| that is not carried out, or ends | nothing |
| that is followed by its children | its children |
| with arms | the children of any arm that can be chosen |
| that picks a message | the e-mail of any of its messages, then its children |

An arm of a split can be chosen when it is the first, or has a value and the values before
it do not reach 100; of a condition, when it is the first of its kind.

**Proved here.**

    the arms that some world selects (`exists_chosen`, `sends_of_branches`)
    a step that is followed by its children (`sends_of_follows`)
    a step that stops, and one that sends an e-mail (`not_sends_of_stops`, `sends_of_type_email`)
-/
import OpenBms.MessageTrigger.Sends

namespace OpenBms.MessageTrigger

variable {α : Type}

/-! ## Where a run goes on -/

/-- The messages whose e-mail is sent though no e-mail step holds it: of a random message, of
a test that runs, or the winners of one that is over. -/
def StepType.picks : StepType α → List Message
  | .testAB messages .finished => messages.filter Message.winnerMessage
  | .testAB messages _ => messages
  | .randomMessage messages => messages
  | _ => []

/-- The step is a split or a condition, and its first child is an arm of a split. -/
def Step.Branches (s : Step α) : Prop :=
  s.type = .conditional ∨ s.type = .split ∧ ∀ a ∈ s.child.head?, ∃ v, a.type = .splitPath v

/-- The child that stands after `before` can be chosen.  An arm of a split can when it is the
first, or has a value and those before it sum to less than 100, so that some number from 0 to 100
selects it; an arm of a condition when it is the first of its kind. -/
def Step.Chooses (s : Step α) (before : List (Step α)) (a : Step α) : Prop :=
  match s.type with
  | .split => ∃ v, a.type = .splitPath v ∧
      (before = [] ∨ 0 < v ∧ ∃ k, valueSum before = some k ∧ k < 100)
  | .conditional => ∃ b, a.type.isArm b = true ∧ ∀ x ∈ before, x.type.isArm b = false
  | _ => False

/-- The step is followed by its children; a split is, whose first child is no arm. -/
def Step.Follows (s : Step α) : Prop :=
  s.type.plain = true ∨ s.type = .split ∧ ∃ a ∈ s.child.head?, ∀ v, a.type ≠ .splitPath v

section
variable {n r k x v : Nat} {s a : Step α} {as ss rest before after : List (Step α)} {p : Nat × Int}
  {messageIdAt : Nat → Message → Int} {w : World α}

theorem selectArm_none (r : Nat) (as : List (Step α)) : selectArm r none as = none := by
  induction as with
  | nil => rfl
  | cons a as ih => exact ih

/-- Arms whose values stay below the number are passed over. -/
theorem selectArm_append : ∀ {before : List (Step α)} {k x : Nat}, valueSum before = some k →
    x + k < r → selectArm r (some x) (before ++ as) = selectArm r (some (x + k)) as := by
  intro before
  induction before with
  | nil =>
      intro k x hsum _
      cases hsum
      rfl
  | cons b before ih =>
      intro k x hsum hlt
      obtain ⟨v, hv, hrest⟩ := Option.bind_eq_some_iff.mp hsum
      obtain ⟨k', hk', rfl⟩ := Option.map_eq_some_iff.mp hrest
      have hover : ¬ r ≤ x + v := by omega
      simp only [List.cons_append, selectArm, hv, Option.bind_some, Option.map_some,
        Option.any_some, decide_eq_true_eq, if_neg hover]
      rw [ih hk' (by omega), Nat.add_assoc]

/-- The arm that is selected is the first whose values up to it reach the number. -/
theorem exists_of_selectArm : ∀ {as : List (Step α)} {x : Nat} {c : List (Step α)},
    selectArm r (some x) as = some c → ∃ before a after v k, as = before ++ a :: after ∧
      a.type = .splitPath v ∧ c = a.child ∧ valueSum before = some k ∧ r ≤ x + k + v ∧
      (before = [] ∨ x + k < r) := by
  intro as
  induction as with
  | nil =>
      intro x c h
      cases h
  | cons a as ih =>
      intro x c h
      cases hv : a.type.value with
      | none =>
          have hnone : selectArm r none as = some c := by
            simpa only [selectArm, hv, Option.bind_some, Option.map_none, Option.any_none,
              Bool.false_eq_true, if_false] using h
          rw [selectArm_none] at hnone
          cases hnone
      | some v =>
          simp only [selectArm, hv, Option.bind_some, Option.map_some, Option.any_some,
            decide_eq_true_eq] at h
          split at h
          · rename_i hle
            cases h
            exact ⟨[], a, as, v, 0, rfl, value_eq_some.mp hv, rfl, rfl, by omega, .inl rfl⟩
          · rename_i hlt
            obtain ⟨before, b, after, v', k, rfl, hb, hc, hsum, hle, hbefore⟩ := ih h
            refine ⟨a :: before, b, after, v', v + k, rfl, hb, hc, ?_, by omega, .inr ?_⟩
            · rw [valueSum, hv, hsum]
              rfl
            · rcases hbefore with rfl | hlt'
              · cases hsum
                omega
              · omega

theorem child_split (h : s.type = .split) (w : World α) : (definedStep w s).2.child =
    (selectArm (w.random.floor 101) (some 0) s.child).getD s.child := by
  simp only [definedStep, h, Step.child_withChild]

theorem child_conditional (h : s.type = .conditional) (w : World α) :
    (definedStep w s).2.child = definedConditional w s.child := by
  simp only [definedStep, h, Step.child_withChild]

/-- Atoms that all hold make a condition hold. -/
theorem evaluateAtoms_true {atoms : List (Bool × Bool)} (h : ∀ x ∈ atoms, x.2 = true) :
    evaluateAtoms atoms = true := by
  have hgo : ∀ (atoms : List (Bool × Bool)), (∀ x ∈ atoms, x.2 = true) → ∀ o f,
      evaluateAtoms.go o true f atoms = true := by
    intro atoms
    induction atoms with
    | nil =>
        intro _ o f
        exact Bool.or_true o
    | cons x atoms ih =>
        intro h o f
        have htail := ih fun y hy => h y (List.mem_cons_of_mem _ hy)
        obtain ⟨op, value⟩ := x
        obtain rfl : value = true := h _ List.mem_cons_self
        cases op with
        | true => exact htail _ _
        | false => cases f <;> exact htail _ _
  rw [evaluateAtoms]
  split
  · rfl
  · exact hgo atoms h _ _

theorem exists_definedConditional (b : Bool) (child : List (Step α)) : ∃ w : World α,
    definedConditional w child =
      ((child.find? fun a => a.type.isArm b).map Step.child).getD [] := by
  cases b with
  | false =>
      refine ⟨{ drawing (Draw.of 1 0 Nat.one_pos) with contactFound := false }, ?_⟩
      simp only [definedConditional, Bool.false_eq_true, if_false]
  | true =>
      refine ⟨drawing (Draw.of 1 0 Nat.one_pos), ?_⟩
      have hmap : ∀ settings : List α,
          settings.mapM (fun _ => some true) = some (settings.map fun _ => true) := by
        intro settings
        induction settings with
        | nil => rfl
        | cons atom settings ih => rw [List.mapM_cons, ih]; rfl
      have hfound : (drawing (α := α) (Draw.of 1 0 Nat.one_pos)).contactFound = true := rfl
      have hatom : (drawing (α := α) (Draw.of 1 0 Nat.one_pos)).atom = fun _ => some true := rfl
      simp only [definedConditional, hfound, hatom, if_true, hmap]
      refine if_pos (evaluateAtoms_true fun x hx => ?_)
      obtain ⟨_, _, hvalue⟩ := List.mem_map.mp (List.of_mem_zip hx).2
      exact hvalue.symm

theorem exists_chosen (hchild : s.child = before ++ a :: after) (h : s.Chooses before a) :
    ∃ w : World α, (definedStep w s).2.child = a.child := by
  cases htype : s.type with
  | split =>
      rw [Step.Chooses, htype] at h
      obtain ⟨v, hv, hbefore⟩ := h
      have hv : a.type.value = some v := value_eq_some.mpr hv
      rcases hbefore with rfl | ⟨hpos, k, hsum, hlt⟩
      · refine ⟨drawing (Draw.of 101 0 (by decide)), ?_⟩
        have hfloor : (drawing (α := α) (Draw.of 101 0 (by decide))).random.floor 101 = 0 :=
          Draw.floor_of (n := 101) (r := 0) (by decide)
        rw [child_split htype, hfloor, hchild]
        simp only [List.nil_append, selectArm, hv, Option.bind_some, Option.map_some,
          Option.any_some, Nat.zero_le, decide_true, if_true, Option.getD_some]
      · have hdraw : k + 1 < 101 := by omega
        refine ⟨drawing (Draw.of 101 (k + 1) hdraw), ?_⟩
        have hfloor : (drawing (α := α) (Draw.of 101 (k + 1) hdraw)).random.floor 101 = k + 1 :=
          Draw.floor_of hdraw
        rw [child_split htype, hfloor, hchild, selectArm_append hsum (by omega)]
        have hreach : k + 1 ≤ 0 + k + v := by omega
        simp only [selectArm, hv, Option.bind_some, Option.map_some,
          Option.any_some, hreach, decide_true, if_true, Option.getD_some]
  | conditional =>
      rw [Step.Chooses, htype] at h
      obtain ⟨b, hb, hbefore⟩ := h
      obtain ⟨w, hw⟩ := exists_definedConditional b s.child
      have hfind : s.child.find? (fun a => a.type.isArm b) = some a := by
        rw [List.find?_eq_some_iff_append]
        refine ⟨hb, before, after, hchild, fun x hx => ?_⟩
        rw [hbefore x hx]
        rfl
      refine ⟨w, ?_⟩
      rw [child_conditional htype, hw, hfind]
      rfl
  | _ =>
      rw [Step.Chooses, htype] at h
      cases h

/-! ## What is sent, step by step -/

theorem sends_cons : Sends messageIdAt n (s :: rest) p ↔
    (∃ settings ∈ s.type.emails, p = (n, messageIdAt n settings)) ∨
      s.type.ready = true ∧ s.type ≠ .end_ ∧ ∃ w : World α,
        Sends messageIdAt (s.type.nextEmailId n) (definedStep w s).2.child p := by
  constructor
  · intro h
    cases h with
    | now h => exact .inl ⟨_, h, rfl⟩
    | later w hready hend h => exact .inr ⟨hready, hend, w, h⟩
  · rintro (⟨settings, h, rfl⟩ | ⟨hready, hend, w, h⟩)
    · exact .now h
    · exact .later w hready hend h

/-- A step that is not carried out, or ends, sends nothing and is followed by nothing. -/
theorem not_sends_of_stops (h : s.type.ready = false ∨ s.type = .end_) :
    ¬ Sends messageIdAt n (s :: rest) p := by
  rw [sends_cons]
  rintro (⟨settings, hsettings, -⟩ | ⟨hready, hend, -⟩)
  · cases htype : s.type with
    | email message =>
        rw [htype] at h
        rcases h with h | h
        · cases h
        · cases h
    | randomMessage messages =>
        rw [htype] at h hsettings
        have hready : (StepType.randomMessage (α := α) messages).ready = true :=
          ready_of_mem (show settings ∈ messages from hsettings)
        rcases h with h | h
        · rw [hready] at h
          cases h
        · cases h
    | _ =>
        rw [htype] at hsettings
        cases hsettings
  · rcases h with h | h
    · rw [hready] at h
      cases h
    · exact hend h

theorem sends_of_type_email {settings : Message} (h : s.type = .email settings) :
    Sends messageIdAt n (s :: rest) p ↔
      p = (n, messageIdAt n settings) ∨ Sends messageIdAt (n + 1) s.child p := by
  have hdefined : ∀ w : World α, (definedStep w s).2 = s := by
    intro w
    simp only [definedStep, h]
  rw [sends_cons, h]
  simp only [hdefined]
  constructor
  · rintro (⟨x, hx, rfl⟩ | ⟨-, -, -, hsends⟩)
    · obtain rfl := List.mem_singleton.mp hx
      exact .inl rfl
    · exact .inr hsends
  · rintro (hp | hsends)
    · exact .inl ⟨settings, List.mem_singleton_self _, hp⟩
    · exact .inr ⟨rfl, (fun hend => by cases hend), drawing (Draw.of 1 0 Nat.one_pos), hsends⟩

theorem definedStep_follows (h : s.Follows) (hpicks : s.type.picks = []) (w : World α) :
    (definedStep w s).2.child = s.child := by
  rcases h with hplain | ⟨hsplit, a, ha, harm⟩
  · cases htype : s.type with
    | split | conditional | end_ =>
        rw [htype] at hplain
        cases hplain
    | testAB messages status =>
        rw [htype] at hpicks
        simp only [definedStep, htype, Step.child_withChild, definedTestAB]
        cases status with
        | finished =>
            have hnone : messages.find? Message.winnerMessage = none := by
              rw [List.find?_eq_none]
              exact List.filter_eq_nil_iff.mp hpicks
            simp only [if_true, hnone]
            rfl
        | notStarted | running =>
            obtain rfl : messages = [] := hpicks
            simp only [reduceCtorEq, if_false]
            split <;> rfl
    | _ => simp only [definedStep, htype]
  · rw [child_split hsplit]
    obtain ⟨rest, hrest⟩ : ∃ rest, s.child = a :: rest := by
      cases hchild : s.child with
      | nil =>
          rw [hchild] at ha
          cases ha
      | cons b rest =>
          rw [hchild] at ha
          cases ha
          exact ⟨rest, rfl⟩
    have hvalue : a.type.value = none := by
      cases hv : a.type.value with
      | none => rfl
      | some v => exact absurd (value_eq_some.mp hv) (harm v)
    have hnone : selectArm (w.random.floor 101) (some 0) s.child = none := by
      rw [hrest]
      simp only [selectArm, hvalue, Option.bind_some, Option.map_none, Option.any_none,
        Bool.false_eq_true, if_false, selectArm_none]
    rw [hnone]
    rfl

/-- A step that picks no message and is no e-mail counts none. -/
theorem nextEmailId_eq (hready : s.type.ready = true) (hemail : ∀ settings, s.type ≠ .email settings)
    (hpicks : s.type.picks = []) : s.type.emails = [] ∧ s.type.nextEmailId n = n := by
  cases htype : s.type with
  | email settings => exact absurd htype (hemail settings)
  | randomMessage messages =>
      rw [htype] at hready hpicks
      obtain rfl : messages = [] := hpicks
      cases hready
  | _ => exact ⟨rfl, rfl⟩

theorem sends_of_follows (hready : s.type.ready = true) (hfollows : s.Follows)
    (hemail : ∀ settings, s.type ≠ .email settings) (hpicks : s.type.picks = []) :
    Sends messageIdAt n (s :: rest) p ↔ Sends messageIdAt n s.child p := by
  obtain ⟨hemails, hnumber⟩ := nextEmailId_eq (n := n) hready hemail hpicks
  rw [sends_cons, hemails, hnumber]
  simp only [definedStep_follows hfollows hpicks]
  constructor
  · rintro (⟨x, hx, -⟩ | ⟨-, -, -, hsends⟩)
    · cases hx
    · exact hsends
  · intro hsends
    refine .inr ⟨hready, ?_, drawing (Draw.of 1 0 Nat.one_pos), hsends⟩
    rcases hfollows with h | ⟨h, -⟩
    · intro hend
      rw [hend] at h
      cases h
    · rw [h]
      exact nofun

/-- Below a split or a condition, what some arm that can be chosen lets send is sent. -/
theorem sends_of_branches (h : s.Branches) : Sends messageIdAt n (s :: rest) p ↔
    ∃ before a after, s.child = before ++ a :: after ∧ s.Chooses before a ∧
      Sends messageIdAt n a.child p := by
  have hsilent : s.type.emails = [] ∧ s.type.nextEmailId n = n ∧ s.type.ready = true ∧
      s.type ≠ .end_ := by
    rcases h with h | ⟨h, -⟩
    · rw [h]
      exact ⟨rfl, rfl, rfl, nofun⟩
    · rw [h]
      exact ⟨rfl, rfl, rfl, nofun⟩
  obtain ⟨hemails, hnumber, hready, hend⟩ := hsilent
  rw [sends_cons, hemails, hnumber]
  constructor
  · rintro (⟨x, hx, -⟩ | ⟨-, -, w, hsends⟩)
    · cases hx
    · rcases h with h | ⟨h, hfirst⟩
      · rw [child_conditional h] at hsends
        obtain ⟨b, hb⟩ := definedConditional_cases w s.child
        rw [hb] at hsends
        cases hfind : s.child.find? fun a => a.type.isArm b with
        | none =>
            rw [hfind] at hsends
            cases hsends
        | some a =>
            rw [hfind] at hsends
            obtain ⟨harm, before, after, hchild, hbefore⟩ := List.find?_eq_some_iff_append.mp hfind
            refine ⟨before, a, after, hchild, ?_, hsends⟩
            rw [Step.Chooses, h]
            exact ⟨b, harm, fun x hx => by simpa using hbefore x hx⟩
      · rw [child_split h] at hsends
        have hlt := w.random.floor_lt (n := 101) (by decide)
        cases hselect : selectArm (w.random.floor 101) (some 0) s.child with
        | none =>
            rw [hselect, Option.getD_none] at hsends
            -- no arm is selected: the first arm itself is handled
            cases hchild : s.child with
            | nil =>
                rw [hchild] at hsends
                cases hsends
            | cons a as =>
                obtain ⟨v, hv⟩ := hfirst a (by rw [hchild]; rfl)
                rw [hchild] at hsends
                exact absurd hsends (not_sends_of_stops (.inl (by rw [hv]; rfl)))
        | some c =>
            rw [hselect, Option.getD_some] at hsends
            obtain ⟨before, a, after, v, k, hchild, hv, rfl, hsum, hle, hbefore⟩ :=
              exists_of_selectArm hselect
            refine ⟨before, a, after, hchild, ?_, hsends⟩
            rw [Step.Chooses, h]
            refine ⟨v, hv, hbefore.imp_right fun hlt' => ⟨by omega, k, hsum, by omega⟩⟩
  · rintro ⟨before, a, after, hchild, hchooses, hsends⟩
    obtain ⟨w, hw⟩ := exists_chosen hchild hchooses
    exact .inr ⟨hready, hend, w, hw ▸ hsends⟩

end

end OpenBms.MessageTrigger
