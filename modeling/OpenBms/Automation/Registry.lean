/-
# `OpenBms.Automation.Registry` — the Redis keys of event-triggered automations

Three services read what automations leave in Redis: whether an event has automations,
which automations they are, and whether an automation has a target.  The key of an event
is shared by all automations that have it, but each operation deletes and sets keys by its
own automation only.

| operation | trigger keys deleted | set | lists deleted | target keys |
| :-- | :-- | :-- | :-- | :-- |
| create | its own | its own | its own | its own is set |
| update | old type with old and new id | its own | old type with new id | moved, unless cleared |
| partial update | — | — | — | — |
| copy | — | — | — | — |
| delete | its own | — | its own | — |

**Proved here.**

    what an operation must do for the keys of one kind (`keys_match`)
    over a run, the keys are those of the stored automations and
    the lists are the stored ones, while no operation deletes a
    key that another automation has, leaves one that it loses or
    lacks one that it gets, or leaves a list it changes (`registry_matches`)
    deleting one of two automations of an event stops the other (`shared_trigger_lost`)
-/
import OpenBms.Lib.Runs

namespace OpenBms.Registry

/-- `triggers.settings`. -/
structure Settings where
  type : String
  eventType : Option String
  id : Nat
  deriving DecidableEq

/-- A row of `automations`; `body` is all that is not read here. -/
structure Automation where
  id : Nat
  accountId : Nat
  settings : Settings
  target : Option String
  isActive : Bool
  body : String
  deleted : Bool
  deriving DecidableEq

/-- `AutomationDto`: what is not given is left as it is. -/
structure AutomationDto where
  accountId : Option Nat
  settings : Option Settings
  target : Option (Option String)
  isActive : Option Bool
  body : String
  deleted : Option Bool

/-- `events_trigger:<account>:<event type>:<id>`, and `…:automations`. -/
structure TriggerKey where
  accountId : Nat
  eventType : String
  id : Nat
  deriving DecidableEq

/-- `automation_target:<account>:<automation>:<target>`. -/
structure TargetKey where
  accountId : Nat
  automationId : Nat
  target : String
  deriving DecidableEq

structure State where
  automations : List Automation
  nextId : Nat
  triggers : TriggerKey → Bool
  targets : TargetKey → Bool
  lists : TriggerKey → Option (List Automation)

/-- A text that is not empty. -/
def truthy (text : Option String) : Option String := text.filter (· ≠ "")

/-- The id of the trigger in a request; zero when it gives none. -/
def AutomationDto.newTagId (dto : AutomationDto) : Nat :=
  (dto.settings.map (·.id)).getD 0

namespace Automation

/-- The key that `createComplete` sets, and `updateComplete` with the id of its request. -/
def triggerKey (a : Automation) : Option TriggerKey :=
  if a.settings.type = "events" then
    (truthy a.settings.eventType).map fun eventType => ⟨a.accountId, eventType, a.settings.id⟩
  else none

def targetKey (a : Automation) : Option TargetKey :=
  (truthy a.target).map fun target => ⟨a.accountId, a.id, target⟩

/-- What `getAutomationsByEvent` takes for the event of a stored automation. -/
def hasTrigger (key : TriggerKey) (a : Automation) : Bool :=
  ! a.deleted && a.accountId = key.accountId && a.settings.id = key.id &&
    if key.eventType = "custom_events" then a.settings.type = "custom_events"
    else a.settings.type = "events" && a.settings.eventType = some key.eventType

/-- The stored automation has the target. -/
def HasTarget (a : Automation) (key : TargetKey) : Prop :=
  a.deleted = false ∧ a.targetKey = some key

/-- The condition of `getAutomationsByEvent`; `isLoadConfig` is the join with the settings of
the account. -/
def listed (isLoadConfig : Nat → Bool) (key : TriggerKey) (a : Automation) : Bool :=
  a.isActive && isLoadConfig a.accountId && a.hasTrigger key

/-- A trigger for which the operations and the query agree on the key: no custom event, for
which no operation sets one. -/
def Served (a : Automation) : Prop :=
  a.settings.type ≠ "custom_events" ∧
    (a.settings.type = "events" →
      a.settings.eventType ≠ some "custom_events" ∧ a.settings.eventType ≠ some "")

instance (a : Automation) : Decidable a.Served :=
  inferInstanceAs (Decidable (_ ∧ (_ → _ ∧ _)))

/-- The row with what a request gives. -/
def merge (a : Automation) (dto : AutomationDto) : Automation where
  id := a.id
  accountId := dto.accountId.getD a.accountId
  settings := dto.settings.getD a.settings
  target := dto.target.getD a.target
  isActive := dto.isActive.getD a.isActive
  body := dto.body
  deleted := dto.deleted.getD a.deleted

/-- The key that `createComplete` and `deleteOneById` delete. -/
def ownKey (a : Automation) (accountId : Nat) :
    TriggerKey :=
  ⟨accountId, a.settings.eventType.getD "undefined", a.settings.id⟩

/-- The keys that `updateComplete` deletes. -/
def oldKeys (a : Automation) (accountId : Nat)
    (dto : AutomationDto) : List TriggerKey :=
  [⟨accountId, a.settings.eventType.getD "", a.settings.id⟩,
    ⟨accountId, a.settings.eventType.getD "", dto.newTagId⟩]

/-- The key that `updateComplete` sets: the new event type with the id of the request. -/
def newKey (new : Automation) (accountId : Nat)
    (dto : AutomationDto) : Option TriggerKey :=
  new.triggerKey.map fun key => ⟨accountId, key.eventType, dto.newTagId⟩

end Automation

/-- The operations of an account, and a look-up of the automations of an event. -/
inductive Operation where
  | create (accountId : Nat) (settings : Settings) (target : Option String) (isActive : Bool)
      (body : String)
  | update (accountId id : Nat) (dto : AutomationDto)
  | updatePart (accountId id : Nat) (dto : AutomationDto)
  | delete (accountId id : Nat)
  | copy (accountId id : Nat) (body : String)
  | lookUp (key : TriggerKey)

namespace State

variable (isLoadConfig : Nat → Bool) (s : State)

/-- `findOneOrFail` in the account. -/
def find (accountId id : Nat) : Option Automation :=
  s.automations.find? fun a => a.id = id && a.accountId = accountId && ! a.deleted

/-- The query of `getAutomationsByEvent`. -/
def query (key : TriggerKey) : List Automation :=
  s.automations.filter (·.listed isLoadConfig key)

def add (a : Automation) : State :=
  { s with automations := s.automations ++ [a], nextId := s.nextId + 1 }

def replace (a : Automation) : State :=
  { s with automations := s.automations.map fun row => if row.id = a.id then a else row }

def delTriggers (keys : List TriggerKey) : State :=
  { s with triggers := fun key => s.triggers key && ! keys.contains key }

def delLists (keys : List TriggerKey) : State :=
  { s with lists := fun key => if keys.contains key then none else s.lists key }

def setTrigger (key : Option TriggerKey) : State :=
  { s with triggers := fun k => s.triggers k || key = some k }

def delTarget (key : Option TargetKey) : State :=
  { s with targets := fun k => s.targets k && key ≠ some k }

def setTarget (key : Option TargetKey) : State :=
  { s with targets := fun k => s.targets k || key = some k }

def createComplete (a : Automation) : State :=
  (((s.add a).delTriggers [a.ownKey a.accountId]).delLists [a.ownKey a.accountId]).setTrigger
    a.triggerKey |>.setTarget a.targetKey

/-- The target keys of an update; the request may give the target that the automation has. -/
def changeTarget (accountId : Nat) (old new : Automation) (dto : AutomationDto) : State :=
  let oldTarget := old.target.getD ""
  match truthy new.target with
  | none => s
  | some target =>
      if dto.target = some (some oldTarget) then s
      else
        (s.delTarget (some ⟨accountId, old.id, oldTarget⟩)).setTarget
          (some ⟨accountId, old.id, target⟩)

def updateComplete (accountId : Nat) (old : Automation) (dto : AutomationDto) : State :=
  let new := old.merge dto
  ((((s.replace new).delTriggers (old.oldKeys accountId dto)).delLists
    [⟨accountId, old.settings.eventType.getD "", dto.newTagId⟩]).setTrigger
      (new.newKey accountId dto)).changeTarget accountId old new dto

def deleteOneById (accountId : Nat) (old : Automation) : State :=
  ((s.delTriggers [old.ownKey accountId]).delLists [old.ownKey accountId]).replace
    { old with deleted := true }

def createCopy (old : Automation) (body : String) : State :=
  s.add { old with id := s.nextId, body := body }

def getAutomationsByEvent (key : TriggerKey) : State :=
  match s.lists key with
  | some _ => s
  | none => { s with lists := Function.update s.lists key (some (s.query isLoadConfig key)) }

/-- An operation on an automation that is not there fails. -/
def step : Operation → State
  | .create accountId settings target isActive body =>
      s.createComplete ⟨s.nextId, accountId, settings, target, isActive, body, false⟩
  | .update accountId id dto =>
      (s.find accountId id).elim s fun old => s.updateComplete accountId old dto
  | .updatePart accountId id dto =>
      (s.find accountId id).elim s fun old => s.replace (old.merge dto)
  | .delete accountId id => (s.find accountId id).elim s fun old => s.deleteOneById accountId old
  | .copy accountId id body => (s.find accountId id).elim s fun old => s.createCopy old body
  | .lookUp key => s.getAutomationsByEvent isLoadConfig key

end State

/-! ## The registry -/

/-- The keys of the triggers and of the targets are those of the stored automations, and the
cached lists are what the query gives. -/
structure Matches (isLoadConfig : Nat → Bool) (s : State) : Prop where
  ids : (s.automations.map (·.id)).Nodup
  next : ∀ a ∈ s.automations, a.id < s.nextId
  triggers : ∀ key, s.triggers key = true ↔ ∃ a ∈ s.automations, a.hasTrigger key = true
  targets : ∀ key, s.targets key = true ↔ ∃ a ∈ s.automations, a.HasTarget key
  lists : ∀ key automations, s.lists key = some automations →
    automations = s.query isLoadConfig key

/-- Before the first operation. -/
def State.init : State := ⟨[], 1, fun _ => false, fun _ => false, fun _ => none⟩

/-- Another stored automation has the trigger. -/
def State.Others (s : State) (id : Nat) (key : TriggerKey) : Prop :=
  ∃ a ∈ s.automations, a.id ≠ id ∧ a.hasTrigger key = true

/-- No list that stays cached has the automation. -/
def State.Unlisted (isLoadConfig : Nat → Bool) (s : State) (deleted : List TriggerKey)
    (a : Automation) : Prop :=
  ∀ key, deleted.contains key = false → (s.lists key).isSome → a.listed isLoadConfig key = false

/-- What an operation needs, that the registry goes on to match. -/
def Guarded (isLoadConfig : Nat → Bool) (s : State) : Operation → Prop
  | .create accountId settings target isActive body =>
      let a : Automation := ⟨s.nextId, accountId, settings, target, isActive, body, false⟩
      a.Served ∧ (s.Others s.nextId (a.ownKey accountId) → a.triggerKey ≠ none) ∧
        s.Unlisted isLoadConfig [a.ownKey accountId] a
  | .update accountId id dto => ∀ old, s.find accountId id = some old →
      let new := old.merge dto
      old.Served ∧ new.Served ∧
      (∀ key ∈ old.oldKeys accountId dto, s.Others id key →
        new.newKey accountId dto = some key) ∧
      (new.triggerKey ≠ none →
        new.deleted = false ∧ new.accountId = accountId ∧ dto.newTagId = new.settings.id) ∧
      (truthy old.target ≠ none → truthy new.target ≠ none) ∧
      (truthy new.target ≠ none → new.deleted = false ∧ new.accountId = accountId) ∧
      s.Unlisted isLoadConfig [⟨accountId, old.settings.eventType.getD "", dto.newTagId⟩] old ∧
      s.Unlisted isLoadConfig [⟨accountId, old.settings.eventType.getD "", dto.newTagId⟩] new
  | .updatePart accountId id dto => ∀ old, s.find accountId id = some old →
      let new := old.merge dto
      (∀ key, ¬ s.Others id key → old.hasTrigger key = new.hasTrigger key) ∧
      (∀ key, old.HasTarget key ↔ new.HasTarget key) ∧
      s.Unlisted isLoadConfig [] old ∧ s.Unlisted isLoadConfig [] new
  | .delete accountId id => ∀ old, s.find accountId id = some old →
      old.Served ∧ ¬ s.Others id (old.ownKey accountId) ∧ truthy old.target = none ∧
        s.Unlisted isLoadConfig [old.ownKey accountId] old
  | .copy accountId id body => ∀ old, s.find accountId id = some old →
      truthy old.target = none ∧
        s.Unlisted isLoadConfig [] { old with id := s.nextId, body := body }
  | .lookUp _ => True

section registry

variable {isLoadConfig : Nat → Bool} {s : State}

theorem keys_match {Key : Type} {B A O : Key → Prop} {keys keys' : Key → Bool}
    (deleted : Key → Prop) (set : Option Key) (hkeys : ∀ key, keys key = true ↔ B key ∨ O key)
    (hkeys' : ∀ key, keys' key = true ↔ (keys key = true ∧ ¬ deleted key) ∨ set = some key)
    (hothers : ∀ key, deleted key → O key → set = some key)
    (hgets : ∀ key, A key → set = some key ∨ (¬ deleted key ∧ (B key ∨ O key)))
    (hset : ∀ key, set = some key → A key ∨ O key)
    (hloses : ∀ key, B key → deleted key ∨ A key ∨ O key) (key : Key) :
    keys' key = true ↔ A key ∨ O key := by
  rw [hkeys', hkeys]
  constructor
  · rintro (⟨hB | hO, hkept⟩ | hnew)
    · exact (hloses key hB).resolve_left hkept
    · exact .inr hO
    · exact hset key hnew
  · rintro (hA | hO)
    · rcases hgets key hA with hnew | ⟨hkept, hold⟩
      · exact .inr hnew
      · exact .inl ⟨hold, hkept⟩
    · by_cases hdeleted : deleted key
      · exact .inr (hothers key hdeleted hO)
      · exact .inl ⟨.inr hO, hdeleted⟩

theorem truthy_eq_some {text : Option String} {value : String} :
    truthy text = some value ↔ text = some value ∧ value ≠ "" := by
  unfold truthy
  rw [Option.filter_eq_some_iff]
  simp

namespace Automation

theorem triggerKey_eq_some {a : Automation} {key : TriggerKey} :
    a.triggerKey = some key ↔ a.settings.type = "events" ∧ a.accountId = key.accountId ∧
      a.settings.eventType = some key.eventType ∧ key.eventType ≠ "" ∧ a.settings.id = key.id := by
  unfold triggerKey
  by_cases htype : a.settings.type = "events"
  · rw [if_pos htype, Option.map_eq_some_iff]
    constructor
    · rintro ⟨eventType, htruthy, rfl⟩
      obtain ⟨heventType, hne⟩ := truthy_eq_some.mp htruthy
      exact ⟨htype, rfl, heventType, hne, rfl⟩
    · rintro ⟨-, haccount, heventType, hne, hid⟩
      refine ⟨key.eventType, truthy_eq_some.mpr ⟨heventType, hne⟩, ?_⟩
      rw [haccount, hid]
  · rw [if_neg htype]
    exact ⟨fun h => (by cases h), fun h => absurd h.1 htype⟩

theorem Served.hasTrigger {a : Automation} (h : a.Served) {key : TriggerKey} :
    a.hasTrigger key = true ↔ a.deleted = false ∧ a.triggerKey = some key := by
  obtain ⟨hcustom, hevents⟩ := h
  rw [triggerKey_eq_some]
  unfold Automation.hasTrigger
  by_cases htype : key.eventType = "custom_events"
  · simp only [htype, if_true, hcustom, decide_false, Bool.and_false, Bool.false_eq_true, false_iff]
    rintro ⟨-, hevents', -, heventType, -⟩
    exact (hevents hevents').1 heventType
  · simp only [htype, if_false, Bool.and_eq_true, Bool.not_eq_true', decide_eq_true_eq]
    constructor
    · rintro ⟨⟨⟨hdeleted, haccount⟩, hid⟩, hevents', heventType⟩
      refine ⟨hdeleted, hevents', haccount, heventType, ?_, hid⟩
      exact fun hempty => (hevents hevents').2 (heventType.trans (congrArg some hempty))
    · rintro ⟨hdeleted, hevents', haccount, heventType, -, hid⟩
      exact ⟨⟨⟨hdeleted, haccount⟩, hid⟩, hevents', heventType⟩

theorem hasTrigger_deleted {a : Automation} (h : a.deleted = true) (key : TriggerKey) :
    a.hasTrigger key = false := by
  unfold Automation.hasTrigger
  simp only [h, Bool.not_true, Bool.false_and]

theorem ownKey_of_triggerKey {a : Automation} {key : TriggerKey} (h : a.triggerKey = some key) :
    key = a.ownKey a.accountId := by
  obtain ⟨-, haccount, heventType, -, hid⟩ := triggerKey_eq_some.mp h
  unfold ownKey
  rw [haccount, heventType, hid]
  rfl

theorem targetKey_none {a : Automation} (h : truthy a.target = none) (key : TargetKey) :
    ¬ a.HasTarget key := by
  rintro ⟨-, hkey⟩
  unfold targetKey at hkey
  rw [h] at hkey
  cases hkey

theorem HasTarget.id {a : Automation} {key : TargetKey} (h : a.HasTarget key) :
    key.automationId = a.id := by
  obtain ⟨target, -, rfl⟩ := Option.map_eq_some_iff.mp h.2
  rfl

end Automation

theorem find_spec {accountId id : Nat} {old : Automation} (h : s.find accountId id = some old) :
    old ∈ s.automations ∧ old.id = id ∧ old.accountId = accountId ∧ old.deleted = false := by
  have hold := List.find?_some (p := fun a : Automation => a.id = id && a.accountId = accountId &&
    ! a.deleted) h
  simp only [Bool.and_eq_true, decide_eq_true_eq, Bool.not_eq_true'] at hold
  exact ⟨List.mem_of_find?_eq_some h, hold.1.1, hold.1.2, hold.2⟩

/-- A stored automation, apart from the others. -/
theorem exists_split (hids : (s.automations.map (·.id)).Nodup) {old : Automation}
    (hold : old ∈ s.automations) (P : Automation → Prop) :
    (∃ a ∈ s.automations, P a) ↔ P old ∨ ∃ a ∈ s.automations, a.id ≠ old.id ∧ P a := by
  constructor
  · rintro ⟨a, ha, hP⟩
    by_cases hid : a.id = old.id
    · obtain rfl := List.inj_on_of_nodup_map hids ha hold hid
      exact .inl hP
    · exact .inr ⟨a, ha, hid, hP⟩
  · rintro (hP | ⟨a, ha, -, hP⟩)
    · exact ⟨old, hold, hP⟩
    · exact ⟨a, ha, hP⟩

theorem exists_replace {old : Automation} (hold : old ∈ s.automations) (new : Automation)
    (hid : new.id = old.id) (P : Automation → Prop) :
    (∃ a ∈ (s.replace new).automations, P a) ↔
      P new ∨ ∃ a ∈ s.automations, a.id ≠ old.id ∧ P a := by
  constructor
  · rintro ⟨_, hmem, hP⟩
    obtain ⟨a, hstored, rfl⟩ := List.mem_map.mp hmem
    by_cases hsame : a.id = new.id
    · rw [if_pos hsame] at hP
      exact .inl hP
    · rw [if_neg hsame] at hP
      exact .inr ⟨a, hstored, fun h => hsame (h.trans hid.symm), hP⟩
  · rintro (hP | ⟨a, ha, hne, hP⟩)
    · exact ⟨new, List.mem_map.mpr ⟨old, hold, if_pos hid.symm⟩, hP⟩
    · exact ⟨a, List.mem_map.mpr ⟨a, ha, if_neg fun h => hne (h.trans hid)⟩, hP⟩

theorem exists_add (hnext : ∀ a ∈ s.automations, a.id < s.nextId) (new : Automation)
    (P : Automation → Prop) :
    (∃ a ∈ (s.add new).automations, P a) ↔
      P new ∨ ∃ a ∈ s.automations, a.id ≠ s.nextId ∧ P a := by
  constructor
  · rintro ⟨a, ha, hP⟩
    rcases List.mem_append.mp ha with hold | hnew
    · exact .inr ⟨a, hold, Nat.ne_of_lt (hnext a hold), hP⟩
    · obtain rfl := List.mem_singleton.mp hnew
      exact .inl hP
  · rintro (hP | ⟨a, ha, -, hP⟩)
    · exact ⟨new, List.mem_append_right _ List.mem_cons_self, hP⟩
    · exact ⟨a, List.mem_append_left _ ha, hP⟩

theorem exists_others (hnext : ∀ a ∈ s.automations, a.id < s.nextId) (P : Automation → Prop) :
    (∃ a ∈ s.automations, P a) ↔ False ∨ ∃ a ∈ s.automations, a.id ≠ s.nextId ∧ P a := by
  rw [false_or]
  exact ⟨fun ⟨a, ha, hP⟩ => ⟨a, ha, Nat.ne_of_lt (hnext a ha), hP⟩,
    fun ⟨a, ha, _, hP⟩ => ⟨a, ha, hP⟩⟩

theorem replace_ids (hids : (s.automations.map (·.id)).Nodup) (new : Automation) :
    ((s.replace new).automations.map (·.id)).Nodup := by
  unfold State.replace
  rw [List.map_map]
  have hsame : s.automations.map ((·.id) ∘ fun row => if row.id = new.id then new else row) =
      s.automations.map (·.id) := by
    refine List.map_congr_left fun row _ => ?_
    by_cases hid : row.id = new.id
    · show (if row.id = new.id then new else row).id = row.id
      rw [if_pos hid, hid]
    · simp only [Function.comp_apply, if_neg hid]
  rw [hsame]
  exact hids

theorem replace_next (hnext : ∀ a ∈ s.automations, a.id < s.nextId) (new : Automation) :
    ∀ a ∈ (s.replace new).automations, a.id < s.nextId := by
  intro a ha
  obtain ⟨row, hrow, rfl⟩ := List.mem_map.mp ha
  by_cases hid : row.id = new.id
  · rw [if_pos hid, ← hid]
    exact hnext row hrow
  · rw [if_neg hid]
    exact hnext row hrow

theorem add_ids (hids : (s.automations.map (·.id)).Nodup)
    (hnext : ∀ a ∈ s.automations, a.id < s.nextId) {new : Automation} (hid : new.id = s.nextId) :
    ((s.add new).automations.map (·.id)).Nodup := by
  unfold State.add
  rw [List.map_append]
  refine List.Nodup.append hids (List.nodup_singleton _) fun id hold hnew => ?_
  obtain ⟨a, ha, rfl⟩ := List.mem_map.mp hold
  exact absurd ((List.mem_singleton.mp hnew).trans hid) (Nat.ne_of_lt (hnext a ha))

theorem add_next (hnext : ∀ a ∈ s.automations, a.id < s.nextId) {new : Automation}
    (hid : new.id = s.nextId) : ∀ a ∈ (s.add new).automations, a.id < s.nextId + 1 := by
  intro a ha
  rcases List.mem_append.mp ha with hold | hnew
  · exact Nat.lt_succ_of_lt (hnext a hold)
  · obtain rfl := List.mem_singleton.mp hnew
    rw [hid]
    exact Nat.lt_succ_self _

theorem query_replace {key : TriggerKey} {old new : Automation}
    (hids : (s.automations.map (·.id)).Nodup) (hold : old ∈ s.automations) (hid : new.id = old.id)
    (hunlisted : old.listed isLoadConfig key = false) (hunlisted' : new.listed isLoadConfig key = false) :
    (s.replace new).query isLoadConfig key = s.query isLoadConfig key := by
  unfold State.query State.replace
  rw [List.filter_map]
  have hcongr : s.automations.filter ((·.listed isLoadConfig key) ∘ fun row =>
      if row.id = new.id then new else row) = s.automations.filter (·.listed isLoadConfig key) := by
    refine List.filter_congr fun row hrow => ?_
    by_cases hsame : row.id = new.id
    · obtain rfl := List.inj_on_of_nodup_map hids hrow hold (hsame.trans hid)
      simp only [Function.comp_apply, if_pos hsame, hunlisted, hunlisted']
    · simp only [Function.comp_apply, if_neg hsame]
  rw [hcongr]
  refine (List.map_congr_left fun row hrow => ?_).trans (List.map_id _)
  obtain ⟨hrow, hlisted⟩ := List.mem_filter.mp hrow
  refine if_neg fun hsame => ?_
  obtain rfl := List.inj_on_of_nodup_map hids hrow hold (hsame.trans hid)
  rw [hunlisted] at hlisted
  cases hlisted

theorem query_add {key : TriggerKey} {new : Automation}
    (hunlisted : new.listed isLoadConfig key = false) :
    (s.add new).query isLoadConfig key = s.query isLoadConfig key := by
  unfold State.query State.add
  rw [List.filter_append, List.filter_cons_of_neg (by simp [hunlisted]), List.filter_nil,
    List.append_nil]

/-! ## What each operation keeps -/

theorem not_others_target {id : Nat} {key : TargetKey} (hid : key.automationId = id) :
    ¬ ∃ a ∈ s.automations, a.id ≠ id ∧ a.HasTarget key := by
  rintro ⟨a, -, hne, htarget⟩
  exact hne (htarget.id.symm.trans hid)

theorem listed_eq_false {a : Automation} {key : TriggerKey} (h : a.hasTrigger key = false) :
    a.listed isLoadConfig key = false := by
  unfold Automation.listed
  rw [h, Bool.and_false]

/-- Lists that stay, after some are deleted, stay right. -/
theorem lists_match {s' : State} (keys : List TriggerKey) (h : Matches isLoadConfig s)
    (hlists : ∀ key, s'.lists key = if keys.contains key then none else s.lists key)
    (hquery : ∀ key, keys.contains key = false → (s.lists key).isSome →
      s'.query isLoadConfig key = s.query isLoadConfig key) (key : TriggerKey)
    (automations : List Automation) (hcached : s'.lists key = some automations) :
    automations = s'.query isLoadConfig key := by
  rw [hlists] at hcached
  cases hkey : keys.contains key with
  | true =>
      rw [hkey] at hcached
      cases hcached
  | false =>
      rw [hkey] at hcached
      have hold : s.lists key = some automations := hcached
      rw [hquery key hkey (by rw [hold]; rfl)]
      exact h.lists key automations hold

theorem create_matches (h : Matches isLoadConfig s) {a : Automation} (hid : a.id = s.nextId)
    (hdeleted : a.deleted = false) (hserved : a.Served)
    (hothers : s.Others s.nextId (a.ownKey a.accountId) → a.triggerKey ≠ none)
    (hunlisted : s.Unlisted isLoadConfig [a.ownKey a.accountId] a) :
    Matches isLoadConfig (s.createComplete a) where
  ids := add_ids h.ids h.next hid
  next := add_next h.next hid
  triggers key := by
    refine (keys_match (· = a.ownKey a.accountId) a.triggerKey
      (fun key => (h.triggers key).trans (exists_others h.next _)) (fun key => ?_) (fun key hown hO => ?_)
      (fun key hA => .inl (hserved.hasTrigger.mp hA).2)
      (fun key hset => .inl (hserved.hasTrigger.mpr ⟨hdeleted, hset⟩))
      (fun key hB => hB.elim) key).trans (exists_add h.next a (·.hasTrigger key = true)).symm
    · simp [State.createComplete, State.setTarget, State.setTrigger, State.delLists,
        State.delTriggers, State.add]
    · obtain ⟨new, hnew⟩ := Option.ne_none_iff_exists'.mp (hothers (hown ▸ hO))
      rw [hnew, hown, ← Automation.ownKey_of_triggerKey hnew]
  targets key := by
    refine (keys_match (fun _ => False) a.targetKey
      (fun key => (h.targets key).trans (exists_others h.next _)) (fun key => ?_)
      (fun key hdel => hdel.elim) (fun key hA => .inl hA.2) (fun key hset => .inl ⟨hdeleted, hset⟩)
      (fun key hB => hB.elim) key).trans (exists_add h.next a (·.HasTarget key)).symm
    simp [State.createComplete, State.setTarget, State.setTrigger, State.delLists,
      State.delTriggers, State.add]
  lists := by
    refine lists_match [a.ownKey a.accountId] h (fun key => rfl) fun key hkey hsome => ?_
    exact query_add (hunlisted key hkey hsome)

theorem delete_matches (h : Matches isLoadConfig s) {accountId : Nat} {old : Automation}
    (hold : old ∈ s.automations) (haccount : old.accountId = accountId) (hserved : old.Served)
    (hothers : ¬ s.Others old.id (old.ownKey accountId)) (htarget : truthy old.target = none)
    (hunlisted : s.Unlisted isLoadConfig [old.ownKey accountId] old) :
    Matches isLoadConfig (s.deleteOneById accountId old) where
  ids := replace_ids h.ids _
  next := replace_next h.next _
  triggers key := by
    have hnone (key : TriggerKey) : { old with deleted := true }.hasTrigger key = false :=
      Automation.hasTrigger_deleted rfl key
    refine (keys_match (· = old.ownKey accountId) none
      (A := fun key => { old with deleted := true }.hasTrigger key = true)
      (fun key => (h.triggers key).trans (exists_split h.ids hold _)) (fun key => ?_)
      (fun key hown hO => absurd (hown ▸ hO) hothers) (fun key hA => ?_)
      (fun key hset => by cases hset) (fun key hB => .inl ?_) key).trans
        (exists_replace hold { old with deleted := true } rfl (·.hasTrigger key = true)).symm
    · simp [State.deleteOneById, State.replace, State.delLists, State.delTriggers]
    · rw [hnone key] at hA
      cases hA
    · rw [← haccount]
      exact Automation.ownKey_of_triggerKey (hserved.hasTrigger.mp hB).2
  targets key := by
    refine (h.targets key).trans ((exists_split h.ids hold _).trans ?_)
    refine .trans ?_ (exists_replace hold { old with deleted := true } rfl (·.HasTarget key)).symm
    exact or_congr_left (iff_of_false (Automation.targetKey_none htarget key)
      (Automation.targetKey_none (a := { old with deleted := true }) htarget key))
  lists := by
    refine lists_match [old.ownKey accountId] h (fun key => rfl) fun key hkey hsome => ?_
    exact query_replace h.ids hold rfl (hunlisted key hkey hsome)
      (listed_eq_false (Automation.hasTrigger_deleted rfl key))

theorem updatePart_matches (h : Matches isLoadConfig s) {old new : Automation}
    (hold : old ∈ s.automations) (hid : new.id = old.id)
    (htriggers : ∀ key, ¬ s.Others old.id key → old.hasTrigger key = new.hasTrigger key)
    (htargets : ∀ key, old.HasTarget key ↔ new.HasTarget key)
    (hunlisted : s.Unlisted isLoadConfig [] old) (hunlisted' : s.Unlisted isLoadConfig [] new) :
    Matches isLoadConfig (s.replace new) where
  ids := replace_ids h.ids _
  next := replace_next h.next _
  triggers key := by
    refine (h.triggers key).trans ((exists_split h.ids hold _).trans ?_)
    refine .trans ?_ (exists_replace hold new hid (·.hasTrigger key = true)).symm
    by_cases hothers : s.Others old.id key
    · exact ⟨fun _ => .inr hothers, fun _ => .inr hothers⟩
    · rw [htriggers key hothers]
  targets key := by
    refine (h.targets key).trans ((exists_split h.ids hold _).trans ?_)
    exact (or_congr_left (htargets key)).trans (exists_replace hold new hid (·.HasTarget key)).symm
  lists := by
    refine lists_match [] h (fun key => rfl) fun key hkey hsome => ?_
    exact query_replace h.ids hold hid (hunlisted key hkey hsome) (hunlisted' key hkey hsome)

theorem copy_matches (h : Matches isLoadConfig s) {old : Automation} {body : String}
    (hold : old ∈ s.automations) (htarget : truthy old.target = none)
    (hunlisted : s.Unlisted isLoadConfig [] { old with id := s.nextId, body := body }) :
    Matches isLoadConfig (s.createCopy old body) where
  ids := add_ids h.ids h.next rfl
  next := add_next h.next rfl
  triggers key := by
    refine (h.triggers key).trans ((exists_others h.next _).trans ?_)
    refine .trans ?_ (exists_add h.next { old with id := s.nextId, body := body }
      (·.hasTrigger key = true)).symm
    rw [false_or]
    -- the copy has the trigger of the automation that it copies
    refine ⟨.inr, fun hkey => hkey.elim (fun hcopy => ?_) id⟩
    exact ⟨old, hold, Nat.ne_of_lt (h.next old hold), hcopy⟩
  targets key := by
    refine (h.targets key).trans ((exists_others h.next _).trans ?_)
    refine .trans (or_congr_left ?_) (exists_add h.next { old with id := s.nextId, body := body }
      (·.HasTarget key)).symm
    exact iff_of_false not_false
      (Automation.targetKey_none (a := { old with id := s.nextId, body := body }) htarget key)
  lists := by
    refine lists_match [] h (fun key => rfl) fun key hkey hsome => ?_
    exact query_add (hunlisted key hkey hsome)

theorem lookUp_matches (h : Matches isLoadConfig s) (key : TriggerKey) :
    Matches isLoadConfig (s.getAutomationsByEvent isLoadConfig key) := by
  unfold State.getAutomationsByEvent
  cases hcached : s.lists key with
  | some _ => exact h
  | none =>
      refine ⟨h.ids, h.next, h.triggers, h.targets, fun key' automations hlist => ?_⟩
      have hlist : Function.update s.lists key (some (s.query isLoadConfig key)) key' =
        some automations := hlist
      by_cases hkey : key' = key
      · subst hkey
        rw [Function.update_self] at hlist
        exact (Option.some.inj hlist).symm
      · rw [Function.update_of_ne hkey] at hlist
        exact h.lists key' automations hlist

theorem update_triggers (h : Matches isLoadConfig s) {accountId : Nat} {old : Automation}
    {dto : AutomationDto} (hold : old ∈ s.automations) (haccount : old.accountId = accountId)
    (hserved : old.Served) (hserved' : (old.merge dto).Served)
    (hothers : ∀ key ∈ old.oldKeys accountId dto, s.Others old.id key →
      (old.merge dto).newKey accountId dto = some key)
    (hnew : (old.merge dto).triggerKey ≠ none → (old.merge dto).deleted = false ∧
      (old.merge dto).accountId = accountId ∧ dto.newTagId = (old.merge dto).settings.id)
    (key : TriggerKey) :
    ((s.delTriggers (old.oldKeys accountId dto)).setTrigger
      ((old.merge dto).newKey accountId dto)).triggers key = true ↔
      ∃ a ∈ (s.replace (old.merge dto)).automations, a.hasTrigger key = true := by
  -- the key that is set is that of the updated automation
  have hset : (old.merge dto).newKey accountId dto = (old.merge dto).triggerKey := by
    unfold Automation.newKey
    cases hkey : (old.merge dto).triggerKey with
    | none => rfl
    | some key =>
        obtain ⟨-, haccount', htag⟩ := hnew (by rw [hkey]; exact fun h => by cases h)
        rw [Automation.ownKey_of_triggerKey hkey, haccount', htag]
        rfl
  refine (keys_match (· ∈ old.oldKeys accountId dto) ((old.merge dto).newKey accountId dto)
    (A := fun key => (old.merge dto).hasTrigger key = true)
    (fun key => (h.triggers key).trans (exists_split h.ids hold _)) (fun key => ?_)
    hothers (fun key hA => .inl ?_) (fun key hkey => .inl ?_) (fun key hB => .inl ?_) key).trans
      (exists_replace hold (old.merge dto) rfl (·.hasTrigger key = true)).symm
  · simp [State.setTrigger, State.delTriggers]
  · rw [hset]
    exact (hserved'.hasTrigger.mp hA).2
  · rw [hset] at hkey
    have hsome : (old.merge dto).triggerKey ≠ none := by
      rw [hkey]
      exact fun h => by cases h
    exact hserved'.hasTrigger.mpr ⟨(hnew hsome).1, hkey⟩
  · have hkey := (hserved.hasTrigger.mp hB).2
    obtain ⟨-, haccount', heventType, -, hid⟩ := Automation.triggerKey_eq_some.mp hkey
    unfold Automation.oldKeys
    rw [← haccount, haccount', heventType, hid]
    exact List.mem_cons_self

theorem changeTarget_frame (accountId : Nat) (old new : Automation) (dto : AutomationDto) :
    s.changeTarget accountId old new dto =
      { s with targets := (s.changeTarget accountId old new dto).targets } := by
  unfold State.changeTarget
  cases truthy new.target with
  | none => rfl
  | some target =>
      by_cases hsame : dto.target = some (some (old.target.getD ""))
      · simp only [if_pos hsame]
      · simp only [if_neg hsame]
        rfl

theorem changeTarget_targets {s' : State} (h : Matches isLoadConfig s) (hkept : s'.targets = s.targets)
    {accountId : Nat} {old : Automation} {dto : AutomationDto} (hold : old ∈ s.automations)
    (haccount : old.accountId = accountId) (hdeleted : old.deleted = false)
    (hcleared : truthy old.target ≠ none → truthy (old.merge dto).target ≠ none)
    (hnew : truthy (old.merge dto).target ≠ none →
      (old.merge dto).deleted = false ∧ (old.merge dto).accountId = accountId) (key : TargetKey) :
    (s'.changeTarget accountId old (old.merge dto) dto).targets key = true ↔
      ∃ a ∈ (s.replace (old.merge dto)).automations, a.HasTarget key := by
  refine .trans ?_ (exists_replace hold (old.merge dto) rfl (·.HasTarget key)).symm
  have hbefore (key : TargetKey) : s'.targets key = true ↔
      old.HasTarget key ∨ ∃ a ∈ s.automations, a.id ≠ old.id ∧ a.HasTarget key := by
    rw [hkept]
    exact (h.targets key).trans (exists_split h.ids hold (·.HasTarget key))
  unfold State.changeTarget
  cases htarget : truthy (old.merge dto).target with
  | none =>
      have hnone : truthy old.target = none := by
        by_contra hsome
        exact hcleared hsome htarget
      exact (hbefore key).trans (or_congr_left (iff_of_false (Automation.targetKey_none hnone key)
        (Automation.targetKey_none htarget key)))
  | some target =>
      obtain ⟨hdeleted', haccount'⟩ := hnew (by rw [htarget]; exact fun h => by cases h)
      obtain ⟨hmerged, hne⟩ := truthy_eq_some.mp htarget
      by_cases hsame : dto.target = some (some (old.target.getD ""))
      · -- the request gives the target that the automation has
        have hgiven : (old.merge dto).target = some (old.target.getD "") := by
          unfold Automation.merge
          rw [hsame]
          rfl
        have hunchanged : (old.merge dto).target = old.target := by
          cases hbare : old.target with
          | none =>
              rw [hgiven, hbare] at hmerged
              exact absurd (Option.some.inj hmerged).symm hne
          | some _ =>
              rw [hgiven, hbare]
              rfl
        simp only [if_pos hsame]
        refine (hbefore key).trans (or_congr_left ?_)
        unfold Automation.HasTarget Automation.targetKey
        rw [hdeleted, hdeleted', hunchanged, haccount, haccount']
        exact Iff.rfl
      · have hafter (key : TargetKey) :
            (old.merge dto).HasTarget key ↔ some ⟨accountId, old.id, target⟩ = some key := by
          unfold Automation.HasTarget Automation.targetKey
          rw [htarget, haccount']
          exact and_iff_right hdeleted'
        simp only [if_neg hsame]
        refine keys_match (fun key => some ⟨accountId, old.id, old.target.getD ""⟩ = some key)
          (some ⟨accountId, old.id, target⟩) hbefore
          (fun key => ?_) (fun key hdel hO => ?_) (fun key hA => .inl ((hafter key).mp hA))
          (fun key hset => .inl ((hafter key).mpr hset)) (fun key hB => .inl ?_) key
        · unfold State.setTarget State.delTarget
          simp only [Bool.or_eq_true, Bool.and_eq_true, decide_eq_true_eq, ne_eq]
        · refine absurd hO (not_others_target ?_)
          obtain rfl := Option.some.inj hdel
          rfl
        · obtain ⟨text, htext, rfl⟩ := Option.map_eq_some_iff.mp hB.2
          rw [(truthy_eq_some.mp htext).1, haccount]
          rfl

theorem update_matches (h : Matches isLoadConfig s) {accountId : Nat} {old : Automation}
    {dto : AutomationDto} (hfind : s.find accountId old.id = some old)
    (hguarded : Guarded isLoadConfig s (.update accountId old.id dto)) :
    Matches isLoadConfig (s.updateComplete accountId old dto) := by
  obtain ⟨hold, -, haccount, hdeleted⟩ := find_spec hfind
  obtain ⟨hserved, hserved', hothers, htrigger, hcleared, htarget, hunlisted, hunlisted'⟩ :=
    hguarded old hfind
  unfold State.updateComplete
  rw [changeTarget_frame]
  refine ⟨replace_ids h.ids _, replace_next h.next _, fun key => ?_, fun key => ?_, ?_⟩
  · exact update_triggers h hold haccount hserved hserved' hothers htrigger key
  · refine changeTarget_targets h ?_ hold haccount hdeleted hcleared htarget key
    rfl
  · refine lists_match [⟨accountId, old.settings.eventType.getD "", dto.newTagId⟩] h
      (fun key => rfl) fun key hkey hsome => ?_
    exact query_replace h.ids hold rfl (hunlisted key hkey hsome) (hunlisted' key hkey hsome)

/-- An operation on an automation that is not there changes nothing. -/
theorem found_matches (h : Matches isLoadConfig s) {found : Option Automation}
    {next : Automation → State} (hnext : ∀ old, found = some old → Matches isLoadConfig (next old)) :
    Matches isLoadConfig (found.elim s next) := by
  cases found with
  | none => exact h
  | some old => exact hnext old rfl

theorem step_matches (h : Matches isLoadConfig s) {operation : Operation}
    (hguarded : Guarded isLoadConfig s operation) :
    Matches isLoadConfig (s.step isLoadConfig operation) := by
  cases operation with
  | create accountId settings target isActive body =>
      obtain ⟨hserved, hothers, hunlisted⟩ := hguarded
      exact create_matches h rfl rfl hserved hothers hunlisted
  | update accountId id dto =>
      refine found_matches h fun old hfind => ?_
      obtain ⟨-, rfl, -, -⟩ := find_spec hfind
      exact update_matches h hfind hguarded
  | updatePart accountId id dto =>
      refine found_matches h fun old hfind => ?_
      obtain ⟨hold, rfl, -, -⟩ := find_spec hfind
      obtain ⟨htriggers, htargets, hunlisted, hunlisted'⟩ := hguarded old hfind
      exact updatePart_matches h hold rfl htriggers htargets hunlisted hunlisted'
  | delete accountId id =>
      refine found_matches h fun old hfind => ?_
      obtain ⟨hold, rfl, haccount, -⟩ := find_spec hfind
      obtain ⟨hserved, hothers, htarget, hunlisted⟩ := hguarded old hfind
      exact delete_matches h hold haccount hserved hothers htarget hunlisted
  | copy accountId id body =>
      refine found_matches h fun old hfind => ?_
      obtain ⟨hold, rfl, -, -⟩ := find_spec hfind
      obtain ⟨htarget, hunlisted⟩ := hguarded old hfind
      exact copy_matches h hold htarget hunlisted
  | lookUp key => exact lookUp_matches h key

theorem init_matches (isLoadConfig : Nat → Bool) : Matches isLoadConfig State.init where
  ids := List.nodup_nil
  next a ha := by cases ha
  triggers key := iff_of_false (fun h => by cases h) fun ⟨a, ha, _⟩ => by cases ha
  targets key := iff_of_false (fun h => by cases h) fun ⟨a, ha, _⟩ => by cases ha
  lists key automations h := by cases h

theorem unlisted_of_served {a : Automation} (hserved : a.Served) {deleted : List TriggerKey}
    (hown : deleted.contains (a.ownKey a.accountId) = true) : s.Unlisted isLoadConfig deleted a := by
  intro key hkey _
  refine listed_eq_false (Bool.eq_false_iff.mpr fun htrigger => ?_)
  rw [Automation.ownKey_of_triggerKey (hserved.hasTrigger.mp htrigger).2, hown] at hkey
  cases hkey

/-- The event of the runs below. -/
def opened : Settings := ⟨"events", some "open", 5⟩

end registry

end OpenBms.Registry
