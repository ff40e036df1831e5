/-
# `OpenBms.MessageTrigger.Steps` — the step trees of an automation and their paths

A step holds its type with the settings stored for it, and the steps below it.
Of a list of steps the first is the next one; a `split` and a `conditional` hold
arms, which are no steps of their own.  Atoms of conditions are a parameter.

| below a step of type | a path goes on with |
| :-- | :-- |
| `split`, `conditional` | the children of one arm |
| `testAB` | the e-mail of one message, then its children |
| `end` | nothing |
| any other | its children, or the `end` added below the last one |

**Proved here.**

    a path is at most as long as the trees are high (`Path.length_le`)
    trees whose splits are covered have a path (`exists_path`)
-/
import Mathlib

namespace OpenBms.MessageTrigger

/-- The id of a step: a number, or the text the arms of a condition have. -/
inductive StepId where
  | num (n : Int)
  | text (s : String)
  deriving DecidableEq, Inhabited

/-- `String(id)`. -/
def StepId.toText : StepId → String
  | .num n => toString n
  | .text s => s

/-- A message as a step refers to it. -/
structure Message where
  id : Int
  name : String
  title : String
  subject : Option String
  winnerMessage : Bool
  deriving DecidableEq

/-- The four fields `definedTestAB` copies. -/
def Message.copy (m : Message) : Message := { m with winnerMessage := false }

/-- `timer: string | number`. -/
inductive Timer where
  | num (q : ℚ)
  | text (s : String)
  deriving DecidableEq

inductive TimerType where
  | hours
  | minutes
  deriving DecidableEq

inductive StatusTestAb where
  | notStarted
  | running
  | finished
  deriving DecidableEq

structure Tag where
  id : Int
  name : String
  deriving DecidableEq

/-- Where a contact is transferred to. -/
structure Transfer where
  accountId : Int
  tagName : String
  apiKey : String
  deriving DecidableEq

/-- The types of step that can be stored, with their settings.  `addTag` and
`removeTag` may store one tag instead of a list, which is then a list of one. -/
inductive StepType (α : Type) where
  | email (settings : Message)
  | webPush (settings : Message)
  | mobilePush (settings : Message)
  | sms (settings : Message)
  | whatsapp (settings : Message)
  | randomMessage (messages : List Message)
  | randomWebPush (messages : List Message)
  | randomMobilePush (messages : List Message)
  | testAB (messages : List Message) (status : StatusTestAb)
  | wait (timer : Timer) (timerType : TimerType)
  | conditionalTime (initialTime endTime : Nat)
  | addTag (settings : List Tag)
  | removeTag (settings : List Tag)
  | updateCustomField (id : Int) (value : String)
  | contactTransfer (settings : Transfer)
  | removeAutomation (automations : Option (List Int))
  | httpRequest
  | activeCampaign
  | split
  | splitPath (value : Nat)
  | conditional
  | conditionalTrue (settings : List α)
  | conditionalFalse
  | end_
  deriving DecidableEq

/-- A step, with the steps below it. -/
inductive Step (α : Type) where
  | mk (id : StepId) (type : StepType α) (isTestabMode : Bool) (child : List (Step α))

variable {α : Type}

namespace Step

def id : Step α → StepId
  | mk id _ _ _ => id

def type : Step α → StepType α
  | mk _ type _ _ => type

def isTestabMode : Step α → Bool
  | mk _ _ mode _ => mode

def child : Step α → List (Step α)
  | mk _ _ _ child => child

def withChild : Step α → List (Step α) → Step α
  | mk id type mode _, child => mk id type mode child

@[simp] theorem id_withChild (s : Step α) (c : List (Step α)) : (s.withChild c).id = s.id := by
  cases s
  rfl

@[simp] theorem type_withChild (s : Step α) (c : List (Step α)) :
    (s.withChild c).type = s.type := by
  cases s
  rfl

@[simp] theorem isTestabMode_withChild (s : Step α) (c : List (Step α)) :
    (s.withChild c).isTestabMode = s.isTestabMode := by
  cases s
  rfl

@[simp] theorem child_withChild (s : Step α) (c : List (Step α)) : (s.withChild c).child = c := by
  cases s
  rfl

/-- The node `createNextLeadStateMessage` adds where a tree ends. -/
def endStep : Step α := mk (.num 0) .end_ false []

end Step

/-! ## Nodes and paths -/

/-- A step without what is below it. -/
structure Node (α : Type) where
  id : StepId
  type : StepType α
  deriving DecidableEq

def Step.node (s : Step α) : Node α := ⟨s.id, s.type⟩

/-- The arm a condition goes on with when its verdict is `b`. -/
def StepType.isArm (b : Bool) : StepType α → Bool
  | .conditionalTrue _ => b
  | .conditionalFalse => !b
  | _ => false

/-- Whether a step of the first type takes one of the second for an arm. -/
def StepType.hasArm : StepType α → StepType α → Bool
  | .split, .splitPath _ => true
  | .conditional, .conditionalTrue _ => true
  | .conditional, .conditionalFalse => true
  | _, _ => false

/-- A step that is followed by its children. -/
def StepType.plain : StepType α → Bool
  | .split | .conditional | .end_ => false
  | _ => true

/-- The paths from the first of a list of steps down to where they end.  A
condition may lack an arm. -/
inductive Path : List (Step α) → List (Node α) → Prop where
  | nil : Path [] [Step.endStep.node]
  | last {s : Step α} {rest : List (Step α)} (h : s.type = .end_) : Path (s :: rest) [s.node]
  | plain {s : Step α} {rest : List (Step α)} {p : List (Node α)} (h : s.type.plain = true)
      (hp : Path s.child p) : Path (s :: rest) (s.node :: p)
  | arm {s a : Step α} {rest : List (Step α)} {p : List (Node α)} (ha : a ∈ s.child)
      (h : s.type.hasArm a.type = true) (hp : Path a.child p) : Path (s :: rest) (s.node :: p)
  | noArm {s : Step α} {rest : List (Step α)} {b : Bool} (h : s.type = .conditional)
      (hno : ∀ a ∈ s.child, a.type.isArm b = false) :
      Path (s :: rest) [s.node, Step.endStep.node]
  | picked {s : Step α} {rest : List (Step α)} {p : List (Node α)} {ms : List Message}
      {status : StatusTestAb} {m : Message} (h : s.type = .testAB ms status) (hm : m ∈ ms)
      (hp : Path s.child p) : Path (s :: rest) (s.node :: ⟨s.id, .email m.copy⟩ :: p)

/-! ## Heights -/

/-- The messages a step is handled in: an A/B step once more, as an e-mail. -/
def StepType.visits : StepType α → Nat
  | .testAB _ _ => 2
  | _ => 1

mutual

/-- The greatest number of messages a run through the step can take. -/
def Step.height : Step α → Nat
  | .mk _ type _ child => type.visits + heights child

/-- The same of a list of steps, the added `end` counted. -/
def heights : List (Step α) → Nat
  | [] => 1
  | s :: ss => max s.height (heights ss)

end

theorem Step.height_eq (s : Step α) : s.height = s.type.visits + heights s.child := by
  cases s
  rfl

theorem heights_pos (ss : List (Step α)) : 0 < heights ss := by
  induction ss with
  | nil => exact Nat.one_pos
  | cons s ss ih => exact lt_of_lt_of_le ih (le_max_right _ _)

theorem StepType.visits_pos (t : StepType α) : 0 < t.visits := by
  unfold StepType.visits
  split <;> omega

theorem height_le_heights {s : Step α} {ss : List (Step α)} (h : s ∈ ss) :
    s.height ≤ heights ss := by
  induction ss with
  | nil => cases h
  | cons t ss ih =>
      rcases List.mem_cons.mp h with rfl | h
      · exact le_max_left _ _
      · exact le_trans (ih h) (le_max_right _ _)

theorem heights_child_lt (s : Step α) (rest : List (Step α)) :
    heights s.child < heights (s :: rest) := by
  have hle : s.height ≤ heights (s :: rest) := height_le_heights (List.mem_cons_self ..)
  have hpos := s.type.visits_pos
  rw [s.height_eq] at hle
  omega

theorem heights_arm_lt {s a : Step α} (rest : List (Step α)) (h : a ∈ s.child) :
    heights a.child < heights (s :: rest) := by
  have hle : a.height ≤ heights s.child := height_le_heights h
  rw [a.height_eq] at hle
  exact lt_of_le_of_lt (le_trans (Nat.le_add_left _ _) hle) (heights_child_lt s rest)

/-- A path is at most as long as the tree is high. -/
theorem Path.length_le {ss : List (Step α)} {p : List (Node α)} (h : Path ss p) :
    p.length ≤ heights ss := by
  induction h with
  | nil => exact le_refl _
  | @last s rest h => exact heights_pos _
  | @plain s rest p h hp ih => exact lt_of_le_of_lt ih (heights_child_lt s rest)
  | @arm s a rest p ha h hp ih => exact lt_of_le_of_lt ih (heights_arm_lt rest ha)
  | @noArm s rest b h hno =>
      exact lt_of_le_of_lt (heights_pos s.child) (heights_child_lt s rest)
  | @picked s rest p ms status m h hm hp ih =>
      have hle : s.height ≤ heights (s :: rest) := height_le_heights (List.mem_cons_self ..)
      rw [s.height_eq, h] at hle
      simp only [List.length_cons, StepType.visits] at hle ⊢
      omega

/-! ## Covered splits -/

/-- `settings.value`; of a step that is no arm of a split there is none, which the
sum makes `NaN`. -/
def StepType.value : StepType α → Option Nat
  | .splitPath value => some value
  | _ => none

/-- The sum of the path values of a split. -/
def valueSum : List (Step α) → Option Nat
  | [] => some 0
  | a :: as => a.type.value.bind fun v => (valueSum as).map (v + ·)

/-- The step stands somewhere in the trees. -/
inductive Below : List (Step α) → Step α → Prop where
  | here {ss : List (Step α)} {s : Step α} (h : s ∈ ss) : Below ss s
  | child {ss : List (Step α)} {t s : Step α} (h : t ∈ ss) (hs : Below t.child s) : Below ss s

theorem Below.mono {ss ss' : List (Step α)} {s : Step α} (h : Below ss s) (hss : ss ⊆ ss') :
    Below ss' s := by
  cases h with
  | here hs => exact .here (hss hs)
  | child ht hs => exact .child (hss ht) hs

/-- The path values of every split sum to at least 100. -/
def Covered (ss : List (Step α)) : Prop :=
  ∀ s, Below ss s → s.type = .split → ∃ n, valueSum s.child = some n ∧ 100 ≤ n

theorem Covered.child {ss : List (Step α)} {s : Step α} (h : Covered ss) (hs : s ∈ ss) :
    Covered s.child :=
  fun t ht => h t (.child hs ht)

theorem covered_nil : Covered ([] : List (Step α)) := by
  intro s hs
  cases hs with
  | here h => cases h
  | child h _ => cases h

theorem value_eq_some {t : StepType α} {v : Nat} : t.value = some v ↔ t = .splitPath v := by
  constructor
  · intro h
    cases t <;> simp only [StepType.value, reduceCtorEq, Option.some.injEq] at h
    rw [h]
  · rintro rfl
    rfl

theorem exists_arm {as : List (Step α)} {n : Nat} (h : valueSum as = some n) (hn : 100 ≤ n) :
    ∃ a ∈ as, ∃ v, a.type = .splitPath v := by
  cases as with
  | nil =>
      cases h
      omega
  | cons a as =>
      obtain ⟨v, hv, _⟩ := Option.bind_eq_some_iff.mp h
      exact ⟨a, List.mem_cons_self .., v, value_eq_some.mp hv⟩

theorem isArm_hasArm {t a : StepType α} {b : Bool} (h : t = .conditional) (ha : a.isArm b = true) :
    t.hasArm a = true := by
  subst h
  cases a <;> simp_all [StepType.isArm, StepType.hasArm]

theorem exists_path : ∀ (n : Nat) (ss : List (Step α)), heights ss ≤ n → Covered ss →
    ∃ p, Path ss p := by
  intro n
  induction n with
  | zero =>
      intro ss hle
      have hpos := heights_pos ss
      omega
  | succ n ih =>
      intro ss hle hcover
      cases ss with
      | nil => exact ⟨_, .nil⟩
      | cons s rest =>
          have hmem : s ∈ s :: rest := List.mem_cons_self ..
          have hbelow : ∀ a ∈ s.child, ∃ p, Path a.child p := by
            intro a ha
            have hlt := heights_arm_lt rest ha
            exact ih a.child (by omega) ((hcover.child hmem).child ha)
          by_cases hplain : s.type.plain = true
          · have hlt := heights_child_lt s rest
            obtain ⟨p, hp⟩ := ih s.child (by omega) (hcover.child hmem)
            exact ⟨_, .plain hplain hp⟩
          · cases htype : s.type with
            | end_ => exact ⟨_, .last htype⟩
            | split =>
                obtain ⟨m, hsum, hm⟩ := hcover s (.here hmem) htype
                obtain ⟨a, ha, v, hv⟩ := exists_arm hsum hm
                obtain ⟨p, hp⟩ := hbelow a ha
                exact ⟨_, .arm ha (by rw [htype, hv]; rfl) hp⟩
            | conditional =>
                by_cases harm : ∃ a ∈ s.child, a.type.isArm true = true
                · obtain ⟨a, ha, h⟩ := harm
                  obtain ⟨p, hp⟩ := hbelow a ha
                  exact ⟨_, .arm ha (isArm_hasArm htype h) hp⟩
                · refine ⟨_, .noArm (b := true) htype fun a ha => ?_⟩
                  exact Bool.eq_false_iff.mpr fun h => harm ⟨a, ha, h⟩
            | _ => exact absurd (by rw [htype]; rfl) hplain

end OpenBms.MessageTrigger
