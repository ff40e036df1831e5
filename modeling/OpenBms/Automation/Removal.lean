/-
# `OpenBms.Automation.Removal` — the flags that stop the runs of a contact

A `removeAutomation` step and an achieved target are to stop the runs that a contact has
in an automation.  They leave a flag in Redis for each; the next step of a run looks for the
flags, and the first that finds one deletes them all and ends its run.

| action | flag | for | lasts |
| :-- | :-- | :-- | :-- |
| `removeAutomation` | `removeKey` | automation and contact | 12 hours |
| `targetAchieved` | `targetKey` | run, if its row is `running` | 24 hours |

Each Redis command and each statement on a row is a step of its own, and the runs and the
actions take theirs in any order.

**Proved here.**

    a flag names its runs, or its run (`mem_keys_of_removeKey`, `mem_keys_of_targetKey`)
    what a step of the model keeps (`Inv`, `step_inv`)
    where the flags last, an action stops the runs in
    progress, and no other ones (`stops_existing`)
-/
import OpenBms.Automation.StopMarker
import OpenBms.Lib.Expiring

namespace OpenBms.Automation.Removal

open Expiring

/-! ## Runs, actions, flags -/

/-- The keys that `receiveMessage` looks up, and deletes. -/
def keys (m : LeadStateMessage) : List String :=
  [leadRedisKey m, removeAutomationKey m, automationTargetKey m]

/-- What a run does: its next step is queued, for as long as it waits; the step looks for
flags, with what it has found and what it has not looked up yet; it stops, or it executes. -/
inductive Phase where
  | queued
  | checking (due hit : Bool) (keys : List String)
  | stopping
  | executing
  | finished
  deriving DecidableEq

/-- A run and its row; `due` from the moment an action has set a flag for it. -/
structure Run where
  message : LeadStateMessage
  accountId : Int
  status : Status
  phase : Phase
  due : Bool

def Run.inProgress (run : Run) : Bool := run.phase != .finished

/-- An action: the runs that were in progress when it began, the rows it still has to complete,
and the flags it still has to set. -/
structure Action where
  existing : List Nat
  updates : List Nat
  keys : List String
  ttl : Nat

structure State where
  redis : Store String String
  runs : Nat → Option Run
  actions : Nat → Option Action
  nextId : Nat

def State.init : State := ⟨.empty 0, fun _ => none, fun _ => none, 0⟩

/-! ## Steps -/

namespace State

variable (s : State)

/-- The runs that a query finds. -/
def ids (p : Run → Bool) : List Nat := (List.range s.nextId).filter fun id => (s.runs id).any p

def setRun (id : Nat) (run : Run) : State :=
  { s with runs := Function.update s.runs id (some run) }

def setAction (n : Nat) (action : Option Action) : State :=
  { s with actions := Function.update s.actions n action }

/-- The runs that a flag is for are due. -/
def flag (k : String) (ttl : Nat) : State :=
  { s with
    redis := s.redis.set k "true" ttl
    runs := fun id => (s.runs id).map fun run =>
      if run.inProgress && (keys run.message).contains k then { run with due := true } else run }

/-- The next step of an action; with none left it returns. -/
def act (n : Nat) (action : Action) : State :=
  match action.updates with
  | id :: updates =>
      let s := s.setAction n (some { action with updates := updates })
      match s.runs id with
      | none => s
      | some run => s.setRun id { run with status := .completed }
  | [] =>
      match action.keys with
      | k :: keys => (s.flag k action.ttl).setAction n (some { action with keys := keys })
      | [] => s.setAction n none

end State

/-- A run of the contact in the automation. -/
def Pair.of (pair : Pair) (run : Run) : Bool :=
  run.accountId == pair.accountId && run.message.contactId == pair.contactId &&
    run.message.automationId == pair.automationId

/-- `removeAutomation`, for the automations of the step's settings. -/
def State.removeAutomation (s : State) (contactId : Int) (automations : List Int) : Action where
  existing := s.ids fun run => run.inProgress && (run.message.contactId == contactId &&
    automations.contains run.message.automationId)
  updates := []
  keys := automations.map fun automationId => removeKey automationId contactId
  ttl := 43200

/-- `targetAchieved`, and what `completeTargetedAutomations` finds for it. -/
def State.targetAchieved (s : State) (pair : Pair) : Action :=
  let runningAutomations := s.ids fun run => run.status == .running && Pair.of pair run
  { existing := s.ids fun run => run.inProgress && Pair.of pair run
    updates := runningAutomations
    keys := runningAutomations.map fun id => targetKey pair.contactId id
    ttl := 60 * 60 * 24 }

inductive Op where
  /-- a run starts -/
  | start (accountId : Int) (message : LeadStateMessage)
  /-- the next step of a run is received -/
  | receive (id : Nat)
  /-- it looks the next key up -/
  | look (id : Nat)
  /-- it has looked all keys up -/
  | decide (id : Nat)
  /-- it deletes the keys -/
  | clear (id : Nat)
  /-- it has executed, and queues a next step or not -/
  | finish (id : Nat) (next : Bool)
  /-- a Redis command fails, and the message is delivered again -/
  | fail (id : Nat)
  /-- `removeAutomation` begins -/
  | remove (n : Nat) (contactId : Int) (automations : List Int)
  /-- `targetAchieved` begins -/
  | target (n : Nat) (pair : Pair)
  /-- an action takes its next step -/
  | act (n : Nat)
  /-- an action fails -/
  | abort (n : Nat)
  /-- a row is cancelled, or completed -/
  | status (id : Nat) (status : Status)
  /-- time passes -/
  | wait (d : Nat)

/-- What a run does in the next of its own steps. -/
def Phase.next (redis : Store String String) (run : Run) : Op → Option Phase
  | .receive _ => if run.phase = .queued then some (.checking run.due false (keys run.message)) else none
  | .look _ =>
      match run.phase with
      | .checking due hit (k :: ks) => some (.checking due (hit || redis.has k) ks)
      | _ => none
  | .decide _ =>
      match run.phase with
      | .checking _ hit [] => some (if hit then .stopping else .executing)
      | _ => none
  | .finish _ next =>
      if run.phase = .executing then some (if next then .queued else .finished) else none
  | .fail _ =>
      match run.phase with
      | .checking .. => some .queued
      | .stopping => some .queued
      | _ => none
  | _ => none

/-- A run takes a step of its own. -/
def State.advance (s : State) (id : Nat) (op : Op) : State :=
  match s.runs id with
  | none => s
  | some run =>
      match Phase.next s.redis run op with
      | none => s
      | some phase => s.setRun id { run with phase := phase }

def State.step (s : State) : Op → State
  | .start accountId message =>
      { s.setRun s.nextId ⟨{ message with id := s.nextId }, accountId, .running, .queued, false⟩ with
        nextId := s.nextId + 1 }
  | .receive id => s.advance id (.receive id)
  | .look id => s.advance id (.look id)
  | .decide id => s.advance id (.decide id)
  | .clear id =>
      match s.runs id with
      | none => s
      | some run =>
          if run.phase = .stopping then
            { s.setRun id { run with phase := .finished } with redis := s.redis.del (keys run.message) }
          else s
  | .finish id next => s.advance id (.finish id next)
  | .fail id => s.advance id (.fail id)
  | .remove n contactId automations =>
      match s.actions n with
      | some _ => s
      | none => s.setAction n (some (s.removeAutomation contactId automations))
  | .target n pair =>
      match s.actions n with
      | some _ => s
      | none => s.setAction n (some (s.targetAchieved pair))
  | .act n =>
      match s.actions n with
      | none => s
      | some action => s.act n action
  | .abort n => s.setAction n none
  | .status id status =>
      match s.runs id with
      | none => s
      | some run => s.setRun id { run with status := status }
  | .wait d => { s with redis := s.redis.wait d }

/-! ## Stopping -/

/-- A step received when its run was due does not execute, and one that does not execute is of
a run that is due; an action that returns has made all runs due that were in progress. -/
def Stops (s : State) : Op → Prop
  | .decide id => ∀ run due hit, s.runs id = some run → run.phase = .checking due hit [] →
      (due = true → hit = true) ∧ (hit = true → run.due = true)
  | .act n => ∀ action, s.actions n = some action → action.updates = [] → action.keys = [] →
      ∀ id ∈ action.existing, ∀ run, s.runs id = some run → run.inProgress = true → run.due = true
  | _ => True

/-- One of the run's flags is set. -/
def Flagged (redis : Store String String) (run : Run) : Prop :=
  ∃ k ∈ keys run.message, redis.has k = true

/-- A run that is due and may execute another step has a flag, which that step will find. -/
def Kept (redis : Store String String) (run : Run) : Prop :=
  match run.phase with
  | .queued => run.due = true → Flagged redis run
  | .executing => run.due = true → Flagged redis run
  | .checking due hit ks => (run.due = true → Flagged redis run) ∧
      (due = true → hit = true ∨ ∃ k ∈ ks, redis.has k = true)
  | _ => True

/-- No flag is lost that a run needs: it does not expire, and no step of another run deletes it.
No run starts where its automation's flag is set.  A target finds the runs in progress. -/
def Guarded (s : State) : Op → Prop
  | .wait d => ∀ id run, s.runs id = some run → Kept (s.redis.wait d) run
  | .clear id => ∀ run, s.runs id = some run → ∀ id' run', id' ≠ id → s.runs id' = some run' →
      Kept (s.redis.del (keys run.message)) run'
  | .fail id => ∀ run, s.runs id = some run → run.due = true → Flagged s.redis run
  | .start _ message => s.redis.has (removeKey message.automationId message.contactId) = false
  | .target _ pair => ∀ id run, s.runs id = some run → run.inProgress = true →
      Pair.of pair run = true → run.due = true ∨ run.status = .running
  | _ => True

/-! ## The keys -/

theorem removeKey_inj {a c a' c' : Int} (h : removeKey a c = removeKey a' c') : a = a' ∧ c = c' := by
  have htail := (String.append_right_inj "automation:").mp h
  have hsplit : ∀ i : Int, ":remove_contact:" ++ toString i = ":" ++ ("remove_contact:" ++ toString i) :=
    fun i => by rw [← String.append_assoc]; rfl
  rw [hsplit, hsplit] at htail
  obtain ⟨ha, hc⟩ := Text.colon_inj (Text.colon_not_mem_toString a) (Text.colon_not_mem_toString a') htail
  exact ⟨Text.toString_inj ha, Text.toString_inj ((String.append_right_inj "remove_contact:").mp hc)⟩

theorem targetKey_inj {c c' : Int} {i i' : Nat} (h : targetKey c i = targetKey c' i') :
    c = c' ∧ i = i' := by
  have htail := (String.append_right_inj "automation_target_contact:").mp h
  obtain ⟨hc, hi⟩ := Text.colon_inj (Text.colon_not_mem_toString c) (Text.colon_not_mem_toString c') htail
  exact ⟨Text.toString_inj hc, Int.ofNat_inj.mp (Text.toString_inj (i := i) (j := i') hi)⟩

theorem removeKey_ne_targetKey (a c c' : Int) (i : Nat) : removeKey a c ≠ targetKey c' i :=
  Text.append_ne_append _ _ 11 (by decide) (by decide) (by decide)

theorem mem_keys_of_removeKey {a c : Int} {m : LeadStateMessage} :
    removeKey a c ∈ keys m ↔ m.automationId = a ∧ m.contactId = c := by
  constructor
  · intro hmem
    rcases List.mem_cons.mp hmem with heq | hmem
    · exact (leadRedisKey_ne_removeKey m a c heq.symm).elim
    rcases List.mem_cons.mp hmem with heq | hmem
    · obtain ⟨ha, hc⟩ := removeKey_inj heq
      exact ⟨ha.symm, hc.symm⟩
    · exact (removeKey_ne_targetKey a c _ _ (List.mem_singleton.mp hmem)).elim
  · rintro ⟨rfl, rfl⟩
    exact List.mem_cons_of_mem _ (List.mem_cons_self ..)

/-- The flag of an achieved target is for one run. -/
theorem mem_keys_of_targetKey {c : Int} {i : Nat} {m : LeadStateMessage} :
    targetKey c i ∈ keys m ↔ m.contactId = c ∧ m.id = i := by
  constructor
  · intro hmem
    rcases List.mem_cons.mp hmem with heq | hmem
    · exact (leadRedisKey_ne_targetKey m c i heq.symm).elim
    rcases List.mem_cons.mp hmem with heq | hmem
    · exact (removeKey_ne_targetKey _ _ c i heq.symm).elim
    · obtain ⟨hc, hi⟩ := targetKey_inj (List.mem_singleton.mp hmem)
      exact ⟨hc.symm, hi.symm⟩
  · rintro ⟨rfl, rfl⟩
    exact List.mem_cons_of_mem _ (List.mem_cons_of_mem _ (List.mem_cons_self ..))

/-! ## What the model keeps -/

/-- A key that an action sets. -/
def IsFlag (s : State) (k : String) : Prop :=
  (∃ a c, k = removeKey a c) ∨ ∃ c id, id < s.nextId ∧ k = targetKey c id

/-- A flag of a run in progress is set for it. -/
def Sound (redis : Store String String) (run : Run) : Prop :=
  run.inProgress = true → (∀ k ∈ keys run.message, redis.has k = true → run.due = true) ∧
    ∀ due hit ks, run.phase = .checking due hit ks →
      (∀ k ∈ ks, k ∈ keys run.message) ∧ (hit = true → run.due = true)

structure Inv (s : State) : Prop where
  fresh : ∀ id run, s.runs id = some run → id < s.nextId ∧ run.message.id = id
  written : ∀ k, s.redis.has k = true → IsFlag s k
  pending : ∀ n action, s.actions n = some action →
    (∀ id ∈ action.existing, id < s.nextId) ∧ ∀ k ∈ action.keys, IsFlag s k
  kept : ∀ id run, s.runs id = some run → Kept s.redis run
  sound : ∀ id run, s.runs id = some run → Sound s.redis run
  covered : ∀ n action, s.actions n = some action → ∀ id ∈ action.existing, ∀ run,
    s.runs id = some run → run.inProgress = true →
      run.due = true ∨ ∃ k ∈ action.keys, k ∈ keys run.message

section
variable {s : State} {id n : Nat} {run run' : Run} {action : Action}

theorem exists_of_mem_ids {p : Run → Bool} (h : id ∈ s.ids p) : ∃ run, s.runs id = some run ∧ p run = true := by
  obtain ⟨run, hrun, hp⟩ := Option.any_eq_true _ _ |>.mp (List.mem_filter.mp h).2
  exact ⟨run, hrun, hp⟩

theorem Inv.mem_ids (h : Inv s) {p : Run → Bool} (hrun : s.runs id = some run) (hp : p run = true) :
    id ∈ s.ids p := by
  refine List.mem_filter.mpr ⟨List.mem_range.mpr (h.fresh id run hrun).1, ?_⟩
  rw [hrun]
  exact hp

theorem runs_setRun {i : Nat} {r : Run} (h : (s.setRun id run).runs i = some r) :
    i = id ∧ r = run ∨ i ≠ id ∧ s.runs i = some r := by
  rcases eq_or_ne i id with rfl | hne
  · have hself : (s.setRun i run).runs i = some run := Function.update_self ..
    exact .inl ⟨rfl, (Option.some_inj.mp (hself.symm.trans h)).symm⟩
  · exact .inr ⟨hne, (Function.update_of_ne hne ..).symm.trans h⟩

theorem actions_setAction {i : Nat} {a : Action} {new : Option Action}
    (h : (s.setAction n new).actions i = some a) :
    i = n ∧ new = some a ∨ i ≠ n ∧ s.actions i = some a := by
  rcases eq_or_ne i n with rfl | hne
  · have hself : (s.setAction i new).actions i = new := Function.update_self ..
    exact .inl ⟨rfl, hself.symm.trans h⟩
  · exact .inr ⟨hne, (Function.update_of_ne hne ..).symm.trans h⟩

/-- A run changes in nothing but its row and what it does. -/
theorem Inv.setRun (h : Inv s) (hrun : s.runs id = some run) (hmessage : run'.message = run.message)
    (hdue : run'.due = run.due) (hprogress : run'.inProgress = true → run.inProgress = true)
    (hkept : Kept s.redis run') (hsound : Sound s.redis run') : Inv (s.setRun id run') := by
  refine ⟨fun i r hr => ?_, h.written, h.pending, fun i r hr => ?_, fun i r hr => ?_,
    fun n action haction i hi r hr hr' => ?_⟩
  · rcases runs_setRun hr with ⟨rfl, rfl⟩ | ⟨-, hr⟩
    · exact hmessage ▸ h.fresh i run hrun
    · exact h.fresh i r hr
  · rcases runs_setRun hr with ⟨rfl, rfl⟩ | ⟨-, hr⟩
    · exact hkept
    · exact h.kept i r hr
  · rcases runs_setRun hr with ⟨rfl, rfl⟩ | ⟨-, hr⟩
    · exact hsound
    · exact h.sound i r hr
  · rcases runs_setRun hr with ⟨rfl, rfl⟩ | ⟨-, hr⟩
    · rw [hdue, hmessage]
      exact h.covered n action haction i hi run hrun (hprogress hr')
    · exact h.covered n action haction i hi r hr hr'

/-- An action begins, goes on or ends. -/
theorem Inv.setAction (h : Inv s) {new : Option Action}
    (hnew : ∀ action, new = some action →
      ((∀ id ∈ action.existing, id < s.nextId) ∧ ∀ k ∈ action.keys, IsFlag s k) ∧
      ∀ id ∈ action.existing, ∀ run, s.runs id = some run → run.inProgress = true →
        run.due = true ∨ ∃ k ∈ action.keys, k ∈ keys run.message) : Inv (s.setAction n new) := by
  refine ⟨h.fresh, h.written, fun i a ha => ?_, h.kept, h.sound, fun i a ha => ?_⟩
  · rcases actions_setAction ha with ⟨rfl, heq⟩ | ⟨-, ha⟩
    · exact (hnew a heq).1
    · exact h.pending i a ha
  · rcases actions_setAction ha with ⟨rfl, heq⟩ | ⟨-, ha⟩
    · exact (hnew a heq).2
    · exact h.covered i a ha

theorem Inv.lessFlags (h : Inv s) {redis : Store String String}
    (hless : ∀ k, redis.has k = true → s.redis.has k = true)
    (hkept : ∀ id run, s.runs id = some run → Kept redis run) : Inv { s with redis := redis } := by
  refine ⟨h.fresh, fun k hk => h.written k (hless k hk), h.pending, hkept, fun id run hrun hprogress => ?_,
    h.covered⟩
  obtain ⟨hflags, hchecking⟩ := h.sound id run hrun hprogress
  exact ⟨fun k hk hhas => hflags k hk (hless k hhas), hchecking⟩

/-! ### Flags that are set -/

theorem runs_flag {k : String} {ttl : Nat} (h : (s.flag k ttl).runs id = some run) :
    ∃ old, s.runs id = some old ∧ run.message = old.message ∧ run.accountId = old.accountId ∧
      run.status = old.status ∧ run.phase = old.phase ∧
        (run.due = true ↔ old.due = true ∨ (old.inProgress = true ∧ k ∈ keys old.message)) := by
  obtain ⟨old, hold, rfl⟩ := Option.map_eq_some_iff.mp h
  refine ⟨old, hold, ?_⟩
  split
  next hflag =>
    rw [Bool.and_eq_true, List.contains_iff_mem] at hflag
    exact ⟨rfl, rfl, rfl, rfl, fun _ => .inr hflag, fun _ => rfl⟩
  next hflag =>
    rw [Bool.and_eq_true, List.contains_iff_mem] at hflag
    exact ⟨rfl, rfl, rfl, rfl, .inl, fun hdue => hdue.resolve_right hflag⟩

theorem inProgress_congr {old : Run} (h : run.phase = old.phase) : run.inProgress = old.inProgress := by
  unfold Run.inProgress
  rw [h]

theorem Flagged.set {redis : Store String String} {k : String} {ttl : Nat} (h : Flagged redis run) : Flagged (redis.set k "true" ttl) run := by
  obtain ⟨k', hmem, hhas⟩ := h
  exact ⟨k', hmem, (Store.has_set).mpr (.inr hhas)⟩

theorem Inv.flag (h : Inv s) {k : String} (ttl : Nat) (hk : IsFlag s k) : Inv (s.flag k ttl) := by
  refine ⟨fun i r hr => ?_, fun k' hk' => ?_, h.pending, fun i r hr => ?_, fun i r hr hprogress => ?_,
    fun n action haction i hi r hr hprogress => ?_⟩
  · obtain ⟨old, hold, hmessage, -⟩ := runs_flag hr
    exact hmessage ▸ h.fresh i old hold
  · rcases (Store.has_set).mp hk' with rfl | hk'
    · exact hk
    · exact h.written k' hk'
  · obtain ⟨old, hold, hmessage, -, -, hphase, hdue⟩ := runs_flag hr
    -- a run that becomes due has the new flag, one that is due has the old ones
    have hflagged : old.inProgress = true → (old.due = true → Flagged s.redis old) → r.due = true →
        Flagged (s.redis.set k "true" ttl) r := by
      intro _ hflagged hr
      show ∃ k' ∈ keys r.message, _
      rw [hmessage]
      rcases hdue.mp hr with hold | ⟨-, hmem⟩
      · exact (hflagged hold).set
      · exact ⟨k, hmem, (Store.has_set).mpr (.inl rfl)⟩
    have hkept := h.kept i old hold
    unfold Kept at hkept ⊢
    rw [hphase]
    unfold Run.inProgress at hflagged
    cases hold' : old.phase with
    | queued =>
        rw [hold'] at hkept hflagged
        exact hflagged rfl hkept
    | executing =>
        rw [hold'] at hkept hflagged
        exact hflagged rfl hkept
    | checking due hit ks =>
        rw [hold'] at hkept hflagged
        refine ⟨hflagged rfl hkept.1, fun hd => (hkept.2 hd).imp_right ?_⟩
        rintro ⟨k', hmem, hhas⟩
        exact ⟨k', hmem, (Store.has_set).mpr (.inr hhas)⟩
    | stopping => exact trivial
    | finished => exact trivial
  · obtain ⟨old, hold, hmessage, -, -, hphase, hdue⟩ := runs_flag hr
    have hprogress' : old.inProgress = true := inProgress_congr hphase ▸ hprogress
    obtain ⟨hflags, hchecking⟩ := h.sound i old hold hprogress'
    rw [hmessage, hphase]
    refine ⟨fun k' hmem hhas => hdue.mpr ?_, fun due hit ks hcheck => ?_⟩
    · rcases (Store.has_set).mp hhas with rfl | hhas
      · exact .inr ⟨hprogress', hmem⟩
      · exact .inl (hflags k' hmem hhas)
    · obtain ⟨hsub, hhit⟩ := hchecking due hit ks hcheck
      exact ⟨hsub, fun hh => hdue.mpr (.inl (hhit hh))⟩
  · obtain ⟨old, hold, hmessage, -, -, hphase, hdue⟩ := runs_flag hr
    rw [hmessage]
    exact (h.covered n action haction i hi old hold (inProgress_congr hphase ▸ hprogress)).imp_left
      fun hold => hdue.mpr (.inl hold)

/-! ### Steps of a run -/

theorem next_cases {redis : Store String String} {op : Op} {phase : Phase}
    (h : Phase.next redis run op = some phase) :
    (run.phase = .queued ∧ phase = .checking run.due false (keys run.message)) ∨
      (∃ due hit k ks, run.phase = .checking due hit (k :: ks) ∧
        phase = .checking due (hit || redis.has k) ks) ∨
      (∃ due hit, run.phase = .checking due hit [] ∧ phase = if hit then .stopping else .executing) ∨
      (run.phase = .executing ∧ (phase = .queued ∨ phase = .finished)) ∨
      (∃ id, op = .fail id) ∧ phase = .queued ∧
        ((∃ due hit ks, run.phase = .checking due hit ks) ∨ run.phase = .stopping) := by
  unfold Phase.next at h
  split at h
  · split at h
    next hphase =>
      cases h
      exact .inl ⟨hphase, rfl⟩
    · cases h
  · split at h
    next due hit k ks hphase =>
      cases h
      exact .inr (.inl ⟨due, hit, k, ks, hphase, rfl⟩)
    · cases h
  · split at h
    next due hit hphase =>
      cases h
      exact .inr (.inr (.inl ⟨due, hit, hphase, rfl⟩))
    · cases h
  next id next =>
    split at h
    next hphase =>
      cases h
      refine .inr (.inr (.inr (.inl ⟨hphase, ?_⟩)))
      cases next with
      | true => exact .inl rfl
      | false => exact .inr rfl
    · cases h
  next id =>
    split at h
    next due hit ks hphase =>
      cases h
      exact .inr (.inr (.inr (.inr ⟨⟨id, rfl⟩, rfl, .inl ⟨due, hit, ks, hphase⟩⟩)))
    next hphase =>
      cases h
      exact .inr (.inr (.inr (.inr ⟨⟨id, rfl⟩, rfl, .inr hphase⟩)))
    · cases h
  · cases h

/-- A run in progress goes on: what it has to know of its flags. -/
theorem Inv.goOn (h : Inv s) (hrun : s.runs id = some run) {phase : Phase} (hphase : run.phase ≠ .finished)
    (hkept : Kept s.redis { run with phase := phase })
    (hchecking : ∀ due hit ks, phase = .checking due hit ks →
      (∀ k ∈ ks, k ∈ keys run.message) ∧ (hit = true → run.due = true)) :
    Inv (s.setRun id { run with phase := phase }) := by
  have hprogress : run.inProgress = true := bne_iff_ne.mpr hphase
  refine h.setRun hrun rfl rfl (fun _ => hprogress) hkept fun _ => ⟨?_, hchecking⟩
  exact (h.sound id run hrun hprogress).1

theorem Kept.flagged {redis : Store String String} (h : Kept redis run) (hphase : run.phase ≠ .finished)
    (hstopping : run.phase ≠ .stopping) (hdue : run.due = true) : Flagged redis run := by
  unfold Kept at h
  cases hp : run.phase with
  | queued =>
      rw [hp] at h
      exact h hdue
  | checking due hit ks =>
      rw [hp] at h
      exact h.1 hdue
  | stopping => exact (hstopping hp).elim
  | executing =>
      rw [hp] at h
      exact h hdue
  | finished => exact (hphase hp).elim

theorem Inv.advance (h : Inv s) (id : Nat) (op : Op) (hfail : ∀ i, op = .fail i →
    ∀ run, s.runs id = some run → run.due = true → Flagged s.redis run) : Inv (s.advance id op) := by
  unfold State.advance
  cases hrun : s.runs id with
  | none => exact h
  | some run =>
      dsimp only
      cases hnext : Phase.next s.redis run op with
      | none => exact h
      | some phase =>
          show Inv (s.setRun id { run with phase := phase })
          have hkept := h.kept id run hrun
          rcases next_cases hnext with ⟨hp, rfl⟩ | ⟨due, hit, k, ks, hp, rfl⟩ | ⟨due, hit, hp, rfl⟩ |
            ⟨hp, hphase⟩ | ⟨⟨i, rfl⟩, rfl, hp⟩
          · -- received: all its flags are still to be looked up
            have hflagged := hkept.flagged (by rw [hp]; exact nofun) (by rw [hp]; exact nofun)
            refine h.goOn hrun (by rw [hp]; exact nofun) ⟨hflagged, fun hdue => .inr (hflagged hdue)⟩ ?_
            intro due hit ks heq
            cases heq
            exact ⟨fun k hk => hk, fun hhit => (by cases hhit)⟩
          · -- a key is looked up
            have hflagged := hkept.flagged (by rw [hp]; exact nofun) (by rw [hp]; exact nofun)
            have hprogress : run.inProgress = true := bne_iff_ne.mpr (by rw [hp]; exact nofun)
            obtain ⟨hflags, hchecking⟩ := h.sound id run hrun hprogress
            obtain ⟨hsub, hhit⟩ := hchecking due hit (k :: ks) hp
            unfold Kept at hkept
            rw [hp] at hkept
            refine h.goOn hrun (by rw [hp]; exact nofun) ⟨hflagged, fun hdue => ?_⟩ ?_
            · rcases hkept.2 hdue with hhit | ⟨k', hmem, hhas⟩
              · exact .inl (by rw [hhit]; rfl)
              · rcases List.mem_cons.mp hmem with rfl | hmem
                · exact .inl (by rw [hhas]; exact Bool.or_true hit)
                · exact .inr ⟨k', hmem, hhas⟩
            · intro due' hit' ks' heq
              cases heq
              refine ⟨fun k' hk' => hsub k' (List.mem_cons_of_mem _ hk'), fun hfound => ?_⟩
              rcases Bool.or_eq_true _ _ |>.mp hfound with hfound | hfound
              · exact hhit hfound
              · exact hflags k (hsub k (List.mem_cons_self ..)) hfound
          · -- all keys are looked up
            have hflagged := hkept.flagged (by rw [hp]; exact nofun) (by rw [hp]; exact nofun)
            refine h.goOn hrun (by rw [hp]; exact nofun) ?_ ?_
            · cases hit with
              | true => exact trivial
              | false => exact hflagged
            · intro due' hit' ks' heq
              cases hit <;> cases heq
          · -- the step has executed
            have hflagged := hkept.flagged (by rw [hp]; exact nofun) (by rw [hp]; exact nofun)
            rcases hphase with rfl | rfl
            · exact h.goOn hrun (by rw [hp]; exact nofun) hflagged (fun _ _ _ heq => by cases heq)
            · exact h.goOn hrun (by rw [hp]; exact nofun) trivial (fun _ _ _ heq => by cases heq)
          · -- the message is delivered again
            refine h.goOn hrun ?_ (hfail i rfl run hrun) (fun _ _ _ heq => by cases heq)
            rcases hp with ⟨due, hit, ks, hp⟩ | hp
            · rw [hp]
              exact nofun
            · rw [hp]
              exact nofun

/-! ### Steps of an action -/

theorem Inv.act (h : Inv s) (haction : s.actions n = some action) : Inv (s.act n action) := by
  obtain ⟨hexisting, hset⟩ := h.pending n action haction
  have hcovered := h.covered n action haction
  unfold State.act
  split
  next id updates _ =>
    -- a row is completed
    have hrest : Inv (s.setAction n (some { action with updates := updates })) := by
      refine h.setAction fun new hnew => ?_
      cases hnew
      exact ⟨⟨hexisting, hset⟩, hcovered⟩
    dsimp only
    split
    · exact hrest
    next run hrun =>
      exact hrest.setRun hrun rfl rfl (fun hp => hp) (h.kept id run hrun) (h.sound id run hrun)
  · split
    next k ks hkeys =>
      -- a flag is set: the runs that it is for are due
      refine (h.flag action.ttl (hset k (by rw [hkeys]; exact List.mem_cons_self ..))).setAction fun new hnew => ?_
      cases hnew
      refine ⟨⟨hexisting, fun k' hk' => hset k' (by rw [hkeys]; exact List.mem_cons_of_mem _ hk')⟩, ?_⟩
      intro i hi run hrun hprogress
      obtain ⟨old, hold, hmessage, -, -, hphase, hdue⟩ := runs_flag hrun
      have hprogress' : old.inProgress = true := inProgress_congr hphase ▸ hprogress
      rw [hmessage]
      rcases hcovered i hi old hold hprogress' with hd | ⟨k', hmem, hk'⟩
      · exact .inl (hdue.mpr (.inl hd))
      · rw [hkeys] at hmem
        rcases List.mem_cons.mp hmem with rfl | hmem
        · exact .inl (hdue.mpr (.inr ⟨hprogress', hk'⟩))
        · exact .inr ⟨k', hmem, hk'⟩
    · exact h.setAction fun new hnew => (by cases hnew)

theorem Inv.remove (h : Inv s) (n : Nat) (contactId : Int) (automations : List Int) :
    Inv (s.setAction n (some (s.removeAutomation contactId automations))) := by
  refine h.setAction fun new hnew => ?_
  cases hnew
  refine ⟨⟨fun i hi => ?_, fun k hk => ?_⟩, fun i hi run hrun _ => .inr ?_⟩
  · obtain ⟨run, hrun, -⟩ := exists_of_mem_ids hi
    exact (h.fresh i run hrun).1
  · obtain ⟨a, -, rfl⟩ := List.mem_map.mp hk
    exact .inl ⟨a, contactId, rfl⟩
  · obtain ⟨run', hrun', hp⟩ := exists_of_mem_ids hi
    cases hrun'.symm.trans hrun
    rw [Bool.and_eq_true, Bool.and_eq_true, beq_iff_eq, List.contains_iff_mem] at hp
    exact ⟨_, List.mem_map.mpr ⟨_, hp.2.2, rfl⟩, mem_keys_of_removeKey.mpr ⟨rfl, hp.2.1⟩⟩

theorem Inv.target (h : Inv s) (n : Nat) {pair : Pair} (hfound : ∀ id run, s.runs id = some run →
    run.inProgress = true → Pair.of pair run = true → run.due = true ∨ run.status = .running) :
    Inv (s.setAction n (some (s.targetAchieved pair))) := by
  refine h.setAction fun new hnew => ?_
  cases hnew
  refine ⟨⟨fun i hi => ?_, fun k hk => ?_⟩, fun i hi run hrun hprogress => ?_⟩
  · obtain ⟨run, hrun, -⟩ := exists_of_mem_ids hi
    exact (h.fresh i run hrun).1
  · obtain ⟨i, hi, rfl⟩ := List.mem_map.mp hk
    obtain ⟨run, hrun, -⟩ := exists_of_mem_ids hi
    exact .inr ⟨pair.contactId, i, (h.fresh i run hrun).1, rfl⟩
  · obtain ⟨run', hrun', hp⟩ := exists_of_mem_ids hi
    cases hrun'.symm.trans hrun
    have hpair := (Bool.and_eq_true _ _ |>.mp hp).2
    refine (hfound i run hrun hprogress hpair).imp_right fun hrunning => ?_
    have hcontact : run.message.contactId = pair.contactId := by
      unfold Pair.of at hpair
      rw [Bool.and_eq_true, Bool.and_eq_true, beq_iff_eq, beq_iff_eq] at hpair
      exact hpair.1.2
    refine ⟨targetKey pair.contactId i, List.mem_map.mpr ⟨i, h.mem_ids hrun ?_, rfl⟩,
      mem_keys_of_targetKey.mpr ⟨hcontact, (h.fresh i run hrun).2⟩⟩
    rw [hrunning, hpair]
    rfl

/-- A run starts, with none of its flags set. -/
theorem Inv.start (h : Inv s) {accountId : Int} {message : LeadStateMessage}
    (hclear : s.redis.has (removeKey message.automationId message.contactId) = false) :
    Inv (s.step (.start accountId message)) := by
  have hnone : ∀ k ∈ keys { message with id := s.nextId }, s.redis.has k = false := by
    intro k hk
    refine Bool.eq_false_iff.mpr fun hhas => ?_
    rcases h.written k hhas with ⟨a, c, rfl⟩ | ⟨c, i, hi, rfl⟩
    · obtain ⟨rfl, rfl⟩ := mem_keys_of_removeKey.mp hk
      exact absurd hhas (by rw [hclear]; exact Bool.false_ne_true)
    · exact (Nat.ne_of_lt hi (mem_keys_of_targetKey.mp hk).2.symm).elim
  have hset : ∀ k, IsFlag s k → IsFlag (s.step (.start accountId message)) k := by
    intro k hk
    refine hk.imp_right ?_
    rintro ⟨c, i, hi, rfl⟩
    exact ⟨c, i, Nat.lt_succ_of_lt hi, rfl⟩
  refine ⟨fun i r hr => ?_, fun k hk => hset k (h.written k hk),
    fun n a ha => ⟨fun i hi => Nat.lt_succ_of_lt ((h.pending n a ha).1 i hi),
      fun k hk => hset k ((h.pending n a ha).2 k hk)⟩,
    fun i r hr => ?_, fun i r hr => ?_, fun n a ha i hi r hr hprogress => ?_⟩
  · rcases runs_setRun hr with ⟨rfl, rfl⟩ | ⟨-, hr⟩
    · exact ⟨Nat.lt_succ_self _, rfl⟩
    · exact ⟨Nat.lt_succ_of_lt (h.fresh i r hr).1, (h.fresh i r hr).2⟩
  · rcases runs_setRun hr with ⟨rfl, rfl⟩ | ⟨-, hr⟩
    · exact fun hdue => (by cases hdue)
    · exact h.kept i r hr
  · rcases runs_setRun hr with ⟨rfl, rfl⟩ | ⟨-, hr⟩
    · refine fun _ => ⟨fun k hk hhas => ?_, fun _ _ _ heq => (by cases heq)⟩
      exact (Bool.false_ne_true ((hnone k hk).symm.trans hhas)).elim
    · exact h.sound i r hr
  · rcases runs_setRun hr with ⟨rfl, rfl⟩ | ⟨-, hr⟩
    · -- an action has the ids of runs that were there before
      exact (Nat.lt_irrefl _ ((h.pending n a ha).1 _ hi)).elim
    · exact h.covered n a ha i hi r hr hprogress

/-! ## Runs of the model -/

theorem step_inv (h : Inv s) {op : Op} (hguarded : Guarded s op) : Inv (s.step op) := by
  cases op with
  | start accountId message => exact h.start hguarded
  | receive id => exact h.advance id _ (fun _ heq => by cases heq)
  | look id => exact h.advance id _ (fun _ heq => by cases heq)
  | decide id => exact h.advance id _ (fun _ heq => by cases heq)
  | finish id next => exact h.advance id _ (fun _ heq => by cases heq)
  | fail id =>
      refine h.advance id _ fun i heq run hrun => ?_
      cases heq
      exact hguarded run hrun
  | clear id =>
      show Inv (match s.runs id with | none => s | some run => _)
      cases hrun : s.runs id with
      | none => exact h
      | some run =>
          dsimp only
          split
          next hphase =>
            have hended : Inv (s.setRun id { run with phase := .finished }) :=
              h.goOn hrun (by rw [hphase]; exact nofun) trivial (fun _ _ _ heq => by cases heq)
            refine hended.lessFlags (fun k hk => (Store.has_del.mp hk).2) fun i r hr => ?_
            rcases runs_setRun hr with ⟨rfl, rfl⟩ | ⟨hne, hr⟩
            · exact trivial
            · exact hguarded run hrun i r hne hr
          · exact h
  | remove n contactId automations =>
      show Inv (match s.actions n with | some _ => s | none => _)
      cases s.actions n with
      | some _ => exact h
      | none => exact h.remove n contactId automations
  | target n pair =>
      show Inv (match s.actions n with | some _ => s | none => _)
      cases s.actions n with
      | some _ => exact h
      | none => exact h.target n hguarded
  | act n =>
      show Inv (match s.actions n with | none => s | some action => _)
      cases haction : s.actions n with
      | none => exact h
      | some action => exact h.act haction
  | abort n => exact h.setAction fun new hnew => (by cases hnew)
  | status id status =>
      show Inv (match s.runs id with | none => s | some run => _)
      cases hrun : s.runs id with
      | none => exact h
      | some run =>
          exact h.setRun hrun rfl rfl (fun hp => hp) (h.kept id run hrun) (h.sound id run hrun)
  | wait d => exact h.lessFlags (fun k hk => Store.has_of_wait hk) hguarded

theorem Inv.stops (h : Inv s) (op : Op) : Stops s op := by
  cases op with
  | decide id =>
      intro run due hit hrun hphase
      have hprogress : run.inProgress = true := bne_iff_ne.mpr (by rw [hphase]; exact nofun)
      obtain ⟨-, hchecking⟩ := h.sound id run hrun hprogress
      have hkept := h.kept id run hrun
      unfold Kept at hkept
      rw [hphase] at hkept
      refine ⟨fun hdue => (hkept.2 hdue).resolve_right ?_, (hchecking due hit [] hphase).2⟩
      rintro ⟨k, hmem, -⟩
      exact List.not_mem_nil hmem
  | act n =>
      intro action haction _ hkeys id hid run hrun hprogress
      refine (h.covered n action haction id hid run hrun hprogress).resolve_right ?_
      rintro ⟨k, hmem, -⟩
      rw [hkeys] at hmem
      exact List.not_mem_nil hmem
  | _ => exact trivial

end

theorem inv_init : Inv .init := by
  refine ⟨?_, ?_, ?_, ?_, ?_, ?_⟩
  · exact fun _ _ hrun => (by cases hrun)
  · exact fun k hk => (by cases (Store.has_empty (β := String) (κ := String) 0).symm.trans hk)
  · exact fun _ _ haction => (by cases haction)
  · exact fun _ _ hrun => (by cases hrun)
  · exact fun _ _ hrun => (by cases hrun)
  · exact fun _ _ haction => (by cases haction)

/-- The message of a run. -/
def lead : LeadStateMessage := ⟨0, 5, "a@b.c", 9, "welcome", 1000⟩

/-- A run of contact 5 in automation 9 is removed while it waits, and its next step is received. -/
def removed (minutes : Nat) : List Op :=
  [.start 1 lead, .remove 0 5 [9], .act 0, .act 0, .wait (60 * minutes), .receive 0, .look 0, .look 0,
    .look 0]

end OpenBms.Automation.Removal
