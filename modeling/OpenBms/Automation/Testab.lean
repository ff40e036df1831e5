/-
# `OpenBms.Automation.Testab` — the state of an A/B step, written back

`startedTestabStep` and `finishTestabStep` read the steps of an automation, change the settings
of one of them with `updateStepSettings`, and write the steps back.

    read     [a, b]          two root steps
    written  [a']            the first, with the step changed in it

What is searched is the first root step only, the search asks every other step that it meets
for its list of children, and what was saved since the steps were read is not looked at.

**Proved here.**

    `updateStepSettings` changes the step and nothing else,
    if it meets no step without children (`updateStepSettings_eq`)
    two trees are the same after the change exactly if they
    differ in what it overwrites (`setSettings_inj`)
    what is stored is what was saved, with the step changed,
    exactly for one root step and no other save (`testab_iff`)
-/
import Mathlib.Data.List.Dedup

namespace OpenBms.Automation.Testab

/-- A step of an automation; a `leaf` is one without a list of children. -/
inductive Step (S : Type) where
  | leaf (id : String) (settings : S)
  | node (id : String) (settings : S) (child : List (Step S))

structure Message (T : Type) where
  id : Nat
  winnerMessage : Option Bool
  statistics : Option T
deriving DecidableEq

/-- The settings of an A/B step; `rest` is what neither function writes. -/
structure Settings (R T : Type) where
  status : Option String
  startDate : Option String
  endDate : Option String
  taskId : Option String
  messages : Option (List (Message T))
  rest : R

section
variable {S R T : Type}

/-- A change of the settings of a step, and where it can be made. -/
structure Edit (S : Type) where
  ok : S → Bool
  apply : S → S

def Edit.run (edit : Edit S) (settings : S) : Option S :=
  if edit.ok settings then some (edit.apply settings) else none

mutual

/-- A step that is not the one and has no list of children throws. -/
def updateStepSettings (edit : Edit S) (id : String) : Step S → Option (Step S)
  | .leaf id' settings => if id' = id then (edit.run settings).map (.leaf id') else none
  | .node id' settings child =>
      if id' = id then (edit.run settings).map (.node id' · child)
      else (updateAll edit id child).map (.node id' settings)

def updateAll (edit : Edit S) (id : String) : List (Step S) → Option (List (Step S))
  | [] => some []
  | step :: steps =>
      match updateStepSettings edit id step with
      | none => none
      | some step => (updateAll edit id steps).map (step :: ·)

end

/-- What is stored after the update of the steps that were read; `none` where it throws. -/
def storeUpdated (edit : Edit S) (id : String) (read : List (Step S)) : Option (List (Step S)) :=
  match read with
  | [] => none
  | root :: _ => (updateStepSettings edit id root).map fun newSteps => [newSteps]

def started (startDate endDate taskId : String) : Edit (Settings R T) where
  ok := fun _ => true
  apply := fun settings =>
    { settings with
      status := some "running"
      startDate := some startDate
      endDate := some endDate
      taskId := some taskId }

def startedTestabStep (startDate endDate taskId : String) (id : String)
    (read : List (Step (Settings R T))) : Option (List (Step (Settings R T))) :=
  storeUpdated (started startDate endDate taskId) id read

/-- The change of `finishTestabStep`; it goes through the messages of the step. -/
def finished (statisticsMessages : Nat → Option T) (winnerMessage : Nat) :
    Edit (Settings R T) where
  ok := fun settings => settings.messages.isSome
  apply := fun settings =>
    { settings with
      status := some "finished"
      messages := settings.messages.map fun messages => messages.map fun message =>
        { message with
          winnerMessage := some (message.id = winnerMessage)
          statistics := statisticsMessages message.id } }

/-- The ids of the messages asked about, as `Object.values` has them. -/
def messageIds (messages : Option (List Nat)) : List Nat :=
  (messages.getD []).dedup.mergeSort (· ≤ ·)

/-- `ahead prev current` where `prev` has the better rate.  There is nothing to reduce without
a message. -/
def winnerOf (ahead : Nat → Nat → Bool) (messages : Option (List Nat)) : Option Nat :=
  match messageIds messages with
  | [] => none
  | first :: rest =>
      some (rest.foldl (fun prev current => if ahead prev current then prev else current) first)

/-- `statistics` are those of the database, `messages` those of the request. -/
def finishTestabStep (statistics : Nat → T) (ahead : Nat → Nat → Bool)
    (messages : Option (List Nat)) (id : String) (read : List (Step (Settings R T))) :
    Option (List (Step (Settings R T))) :=
  match winnerOf ahead messages with
  | none => none
  | some winnerMessage =>
      storeUpdated (finished
        (fun id => if (messages.getD []).contains id then some (statistics id) else none)
        winnerMessage) id read

/-! ## What should be stored -/

mutual

/-- The tree with the settings of the step changed, where it is found first on a path. -/
def setSettings (apply : S → S) (id : String) : Step S → Step S
  | .leaf id' settings => .leaf id' (if id' = id then apply settings else settings)
  | .node id' settings child =>
      if id' = id then .node id' (apply settings) child
      else .node id' settings (setAll apply id child)

def setAll (apply : S → S) (id : String) : List (Step S) → List (Step S)
  | [] => []
  | step :: steps => setSettings apply id step :: setAll apply id steps

end

/-- The steps that were saved last are stored with the step changed. -/
def Stored (edit : Edit S) (id : String) (saved : List (Step S))
    (result : Option (List (Step S))) : Prop :=
  result = some (setAll edit.apply id saved)

mutual

/-- Every step that the search meets has a list of children, or is the one and can be changed. -/
def Complete (edit : Edit S) (id : String) : Step S → Prop
  | .leaf id' settings => id' = id ∧ edit.ok settings = true
  | .node id' settings child => if id' = id then edit.ok settings = true else CompleteAll edit id child

def CompleteAll (edit : Edit S) (id : String) : List (Step S) → Prop
  | [] => True
  | step :: steps => Complete edit id step ∧ CompleteAll edit id steps

end

mutual

/-- The trees differ in nothing but what the change overwrites. -/
def SameBut (apply : S → S) (id : String) : Step S → Step S → Prop
  | .leaf i settings, .leaf i' settings' =>
      i = i' ∧ if i = id then apply settings = apply settings' else settings = settings'
  | .node i settings child, .node i' settings' child' =>
      i = i' ∧
        if i = id then apply settings = apply settings' ∧ child = child'
        else settings = settings' ∧ SameAll apply id child child'
  | .leaf _ _, .node _ _ _ => False
  | .node _ _ _, .leaf _ _ => False

def SameAll (apply : S → S) (id : String) : List (Step S) → List (Step S) → Prop
  | [], [] => True
  | step :: steps, step' :: steps' => SameBut apply id step step' ∧ SameAll apply id steps steps'
  | [], _ :: _ => False
  | _ :: _, [] => False

end

/-- There is one root step at both times, the steps saved are those that were read but for
what is overwritten, and the search meets no step without children. -/
def Undisturbed (edit : Edit S) (id : String) (read saved : List (Step S)) : Prop :=
  ∃ root ∈ read.head?, Complete edit id root ∧
    ∃ root', saved = [root'] ∧ SameBut edit.apply id root root'

/-! ## The tree -/

mutual

theorem updateStepSettings_eq (edit : Edit S) (id : String) : ∀ (step step' : Step S),
    updateStepSettings edit id step = some step' ↔
      Complete edit id step ∧ step' = setSettings edit.apply id step
  | .leaf id' settings, step' => by
      rw [updateStepSettings, Complete, setSettings, Edit.run]
      by_cases hid : id' = id
      · by_cases hok : edit.ok settings = true
        · simp [hid, hok, eq_comm]
        · simp [hid, hok]
      · simp [hid]
  | .node id' settings child, step' => by
      rw [updateStepSettings, Complete, setSettings, Edit.run]
      by_cases hid : id' = id
      · by_cases hok : edit.ok settings = true
        · simp [hid, hok, eq_comm]
        · simp [hid, hok]
      · simp only [hid, if_false, Option.map_eq_some_iff, updateAll_eq edit id child]
        constructor
        · rintro ⟨child', ⟨hall, rfl⟩, rfl⟩
          exact ⟨hall, rfl⟩
        · rintro ⟨hall, rfl⟩
          exact ⟨_, ⟨hall, rfl⟩, rfl⟩

theorem updateAll_eq (edit : Edit S) (id : String) : ∀ (steps steps' : List (Step S)),
    updateAll edit id steps = some steps' ↔
      CompleteAll edit id steps ∧ steps' = setAll edit.apply id steps
  | [], steps' => by
      rw [updateAll, CompleteAll, setAll, Option.some.injEq, true_and, eq_comm]
  | step :: steps, steps' => by
      rw [updateAll, CompleteAll, setAll]
      cases hstep : updateStepSettings edit id step with
      | none =>
          refine iff_of_false (fun h => nomatch h) ?_
          rintro ⟨⟨hcomplete, -⟩, -⟩
          have hsome := (updateStepSettings_eq edit id step _).mpr ⟨hcomplete, rfl⟩
          exact nomatch hstep.symm.trans hsome
      | some step₁ =>
          obtain ⟨hcomplete, rfl⟩ := (updateStepSettings_eq edit id step step₁).mp hstep
          simp only [Option.map_eq_some_iff, updateAll_eq edit id steps]
          constructor
          · rintro ⟨rest, ⟨hall, rfl⟩, rfl⟩
            exact ⟨⟨hcomplete, hall⟩, rfl⟩
          · rintro ⟨⟨-, hall⟩, rfl⟩
            exact ⟨_, ⟨hall, rfl⟩, rfl⟩

end

mutual

theorem setSettings_inj (apply : S → S) (id : String) : ∀ step step' : Step S,
    setSettings apply id step = setSettings apply id step' ↔ SameBut apply id step step'
  | .leaf i settings, .leaf i' settings' => by
      rw [setSettings, setSettings, SameBut, Step.leaf.injEq]
      refine and_congr_right fun hi => ?_
      subst hi
      by_cases hid : i = id
      · simp only [hid, if_true]
      · simp only [hid, if_false]
  | .leaf i settings, .node i' settings' child' => by
      rw [setSettings, setSettings, SameBut]
      refine iff_of_false ?_ not_false
      split <;> split <;> exact fun h => nomatch h
  | .node i settings child, .leaf i' settings' => by
      rw [setSettings, setSettings, SameBut]
      refine iff_of_false ?_ not_false
      split <;> split <;> exact fun h => nomatch h
  | .node i settings child, .node i' settings' child' => by
      rw [setSettings, setSettings, SameBut]
      by_cases hi : i = i'
      · subst hi
        by_cases hid : i = id
        · simp [hid]
        · simp [hid, setAll_inj apply id child child']
      · refine iff_of_false ?_ fun h => hi h.1
        split <;> split <;> exact fun h => hi (Step.node.inj h).1

theorem setAll_inj (apply : S → S) (id : String) : ∀ steps steps' : List (Step S),
    setAll apply id steps = setAll apply id steps' ↔ SameAll apply id steps steps'
  | [], [] => by
      rw [SameAll]
      exact iff_of_true rfl trivial
  | [], step' :: steps' => by
      rw [setAll, setAll, SameAll]
      exact iff_of_false (fun h => nomatch h) not_false
  | step :: steps, [] => by
      rw [setAll, setAll, SameAll]
      exact iff_of_false (fun h => nomatch h) not_false
  | step :: steps, step' :: steps' => by
      rw [setAll, setAll, SameAll, List.cons.injEq, setSettings_inj apply id step step',
        setAll_inj apply id steps steps']

end

/-! ## What is stored -/

theorem storeUpdated_iff (edit : Edit S) (id : String) (read saved : List (Step S)) :
    Stored edit id saved (storeUpdated edit id read) ↔ Undisturbed edit id read saved := by
  have hsaved : ∀ root : Step S, ([setSettings edit.apply id root] = setAll edit.apply id saved) ↔
      ∃ root', saved = [root'] ∧ SameBut edit.apply id root root' := by
    intro root
    match saved with
    | [] => simp [setAll]
    | [root'] =>
        rw [setAll, setAll, List.cons.injEq, and_iff_left rfl, setSettings_inj]
        exact ⟨fun h => ⟨root', rfl, h⟩, fun ⟨_, heq, h⟩ => (List.cons.inj heq).1 ▸ h⟩
    | _ :: _ :: _ => simp [setAll]
  cases read with
  | nil => exact iff_of_false (fun h => nomatch h) fun ⟨_, h, _⟩ => nomatch h
  | cons root rest =>
      rw [Stored, storeUpdated, Option.map_eq_some_iff]
      constructor
      · rintro ⟨newSteps, hupdate, hstored⟩
        obtain ⟨hcomplete, rfl⟩ := (updateStepSettings_eq edit id root newSteps).mp hupdate
        exact ⟨root, rfl, hcomplete, (hsaved root).mp hstored⟩
      · rintro ⟨root', hroot, hcomplete, hsame⟩
        cases hroot
        exact ⟨_, (updateStepSettings_eq edit id root _).mpr ⟨hcomplete, rfl⟩,
          (hsaved root).mpr hsame⟩

theorem winnerOf_eq_none (ahead : Nat → Nat → Bool) (messages : Option (List Nat)) :
    winnerOf ahead messages = none ↔ messages.getD [] = [] := by
  have hids : messageIds messages = [] ↔ messages.getD [] = [] := by
    rw [messageIds, ← List.length_eq_zero_iff, List.length_mergeSort, List.length_eq_zero_iff]
    exact List.dedup_eq_nil _
  rw [← hids, winnerOf]
  cases messageIds messages with
  | nil => exact iff_of_true rfl rfl
  | cons first rest => exact iff_of_false (Option.some_ne_none _) (List.cons_ne_nil first rest)

/-- What is stored are the steps that were saved, with the settings of the one changed, exactly
for one root step, lists of children where the search goes, and no other save in between; and
for the end of a test, where the request has a message. -/
theorem testab_iff (startDate endDate taskId : String) (statistics : Nat → T)
    (ahead : Nat → Nat → Bool) (messages : Option (List Nat)) (id : String)
    (read saved : List (Step (Settings R T))) :
    (Stored (started startDate endDate taskId) id saved
        (startedTestabStep startDate endDate taskId id read) ↔
      Undisturbed (started startDate endDate taskId) id read saved) ∧
    ((∃ winnerMessage, winnerOf ahead messages = some winnerMessage ∧
      Stored (finished
        (fun id => if (messages.getD []).contains id then some (statistics id) else none)
        winnerMessage) id saved (finishTestabStep statistics ahead messages id read)) ↔
      messages.getD [] ≠ [] ∧ ∀ winnerMessage, winnerOf ahead messages = some winnerMessage →
        Undisturbed (finished
          (fun id => if (messages.getD []).contains id then some (statistics id) else none)
          winnerMessage) id read saved) := by
  refine ⟨storeUpdated_iff _ id read saved, ?_⟩
  rw [Ne, ← winnerOf_eq_none ahead, finishTestabStep]
  cases winnerOf ahead messages with
  | none => exact iff_of_false (fun ⟨_, h, _⟩ => nomatch h) fun h => h.1 rfl
  | some winnerMessage =>
      have hstored := storeUpdated_iff (finished
        (fun id => if (messages.getD []).contains id then some (statistics id) else none)
        winnerMessage) id read saved
      constructor
      · rintro ⟨_, heq, h⟩
        cases heq
        exact ⟨Option.some_ne_none _, fun _ heq => Option.some.inj heq ▸ hstored.mp h⟩
      · rintro ⟨-, h⟩
        exact ⟨winnerMessage, rfl, hstored.mpr (h winnerMessage rfl)⟩

end

/-- Two root steps, the first of them the A/B step: the second is gone. -/
theorem second_root_lost : ∃ (read : List (Step (Settings Unit Unit))),
    ¬ Stored (started "s" "e" "t") "a" read (startedTestabStep "s" "e" "t" "a" read) :=
  ⟨[.node "a" ⟨none, none, none, none, none, ()⟩ [], .node "b" ⟨none, none, none, none, none, ()⟩ []],
    fun h => absurd (congrArg (Option.map List.length) h) (by decide)⟩

end OpenBms.Automation.Testab
