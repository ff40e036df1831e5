/-
# `OpenBms.Setup.Wizard` — the wizard that sets an installation up

Source: `apps/msgops-api/src/modules/setup/setup.service.ts`, `advanceStep` and what it calls.

Nobody is signed in while the wizard runs.  `advanceStep` refuses a wizard that is
completed and a step that comes too early, and then does the step.  A step reads the
stored wizard and writes it later, so requests interleave between the two; only the
first step holds an advisory lock in between, and creates the administrator.

| step | writes | `currentStep` |
| :-- | :-- | :-- |
| 1 | the user, as a super admin | 2 |
| 2, 3 | settings | 3, 4 |
| 4, 5 | nothing | 5, 6 |
| 6 | `setup_complete` | 6, completed |

**Proved here.**

    a stored wizard names a user, and no e-mail has two (`wizard_admin`)
    a completed wizard past which nobody is, is final (`completed_final`)
    where each write finds the wizard that was read, the
    wizard does not go back, nor is it opened again (`progress_kept`)
    a stale write opens a completed wizard, and a second
    super admin is created (`reopened`)
-/
import OpenBms.Lib.Runs

namespace OpenBms.Setup

structure WizardState where
  currentStep : Nat
  completed : Bool
  adminUserId : Option Nat

/-- A row of `users`; its id is its place. -/
structure User where
  email : String
  superAdmin : Bool

inductive Setting where
  | smtp
  | domain
  deriving DecidableEq

/-- The data of a step, past its schema, which trims an e-mail and puts it into lower case. -/
inductive AdvanceStep where
  | step1 (email : String)
  | step2 (value : Option String)
  | step3 (value : String)
  | step4
  | step5
  | step6 (skipReason : Option String)

def AdvanceStep.step : AdvanceStep → Nat
  | .step1 _ => 1
  | .step2 _ => 2
  | .step3 _ => 3
  | .step4 => 4
  | .step5 => 5
  | .step6 _ => 6

/-- Where a request is; it writes with the user and the wizard it has found. -/
inductive Stage where
  | ensureNotConfigured (dto : AdvanceStep)
  | checkOrder (dto : AdvanceStep)
  | read (dto : AdvanceStep)
  | write (dto : AdvanceStep) (user : Option Nat) (existing : Option WizardState)

structure State where
  wizard : Option WizardState
  users : List User
  settings : Setting → Option String
  /-- The `skipReason` of `setup_complete`. -/
  setupComplete : Option (Option String)
  /-- Who holds the advisory lock. -/
  holder : Option Nat
  requests : Nat → Option Stage

/-- A new installation, with any users. -/
def State.init (users : List User) : State := ⟨none, users, fun _ => none, none, none, fun _ => none⟩

/-- A request arrives, goes on (with what a health check finds), or fails. -/
inductive Event where
  | receive (i : Nat) (dto : AdvanceStep)
  | proceed (i : Nat) (allOk : Bool)
  | fail (i : Nat)

/-- What `upsertWizard` saves over the wizard it has read. -/
def upserted (existing : Option WizardState) (currentStep : Nat) (adminUserId : Option Nat) :
    Option WizardState :=
  match existing with
  | some e =>
      if currentStep ≤ e.currentStep then
        if adminUserId.isSome ∧ adminUserId ≠ e.adminUserId then
          some { e with adminUserId := adminUserId }
        else none
      else some ⟨currentStep, false, adminUserId.or e.adminUserId⟩
  | none => some ⟨currentStep, false, adminUserId⟩

/-- What a step saves: `completeWizard` in the last one, `upsertWizard` in the others. -/
def AdvanceStep.saved (dto : AdvanceStep) (existing : Option WizardState) (adminUserId : Option Nat) :
    Option WizardState :=
  match dto with
  | .step6 _ => some ⟨6, true, existing.bind (·.adminUserId)⟩
  | dto => upserted existing (dto.step + 1) adminUserId

namespace State

def goto (s : State) (i : Nat) (stage : Option Stage) : State :=
  { s with requests := Function.update s.requests i stage }

/-- `findOne({ where: { email } })`. -/
def findUser (s : State) (email : String) : Option Nat :=
  s.users.findIdx? fun user => user.email = email

/-- The first step waits for the lock, and finds its user with it; the last one checks
the health, or is given a reason to skip it. -/
def read (s : State) (i : Nat) (allOk : Bool) : AdvanceStep → Option State
  | .step1 email =>
      if s.holder = none then
        some ({ s with holder := some i }.goto i
          (some (.write (.step1 email) (s.findUser email) s.wizard)))
      else none
  | .step6 skipReason =>
      some (s.goto i (if allOk then some (.write (.step6 none) none s.wizard)
        else if skipReason.any (· ≠ "") then some (.write (.step6 skipReason) none s.wizard)
        else none))
  | .step2 (some value) =>
      some ({ s with settings := Function.update s.settings .smtp (some value) }.goto i
        (some (.write (.step2 (some value)) none s.wizard)))
  | .step3 value =>
      some ({ s with settings := Function.update s.settings .domain (some value) }.goto i
        (some (.write (.step3 value) none s.wizard)))
  | dto => some (s.goto i (some (.write dto none s.wizard)))

def write (s : State) (dto : AdvanceStep) (user : Option Nat) (existing : Option WizardState) :
    State :=
  match dto with
  | .step1 email =>
      { s with
        users := if user.isSome then s.users else s.users ++ [⟨email, true⟩]
        wizard := (dto.saved existing (some (user.getD s.users.length))).or s.wizard
        holder := none }
  | .step6 skipReason =>
      { s with
        wizard := (dto.saved existing none).or s.wizard
        setupComplete := some skipReason }
  | dto => { s with wizard := (dto.saved existing none).or s.wizard }

def work (s : State) (i : Nat) (allOk : Bool) : Stage → Option State
  | .ensureNotConfigured dto =>
      some (s.goto i (if s.wizard.any (·.completed) then none else some (.checkOrder dto)))
  | .checkOrder dto =>
      some (s.goto i (if s.wizard.elim 1 (·.currentStep) < dto.step then none else some (.read dto)))
  | .read dto => s.read i allOk dto
  | .write dto user existing => some ((s.write dto user existing).goto i none)

/-- A failed request leaves what it has written; a transaction is rolled back and gives
the lock up. -/
def fail (s : State) (i : Nat) : State :=
  { s with holder := if s.holder = some i then none else s.holder }.goto i none

def step (s : State) : Event → Option State
  | .receive i dto =>
      if s.requests i = none then some (s.goto i (some (.ensureNotConfigured dto))) else none
  | .proceed i allOk => (s.requests i).bind (s.work i allOk)
  | .fail i => if (s.requests i).isSome then some (s.fail i) else none

end State

/-! ## Who is named by a wizard -/

/-- The wizard names a user, and is completed at its last step only. -/
structure Valid (users : List User) (w : WizardState) : Prop where
  admin : ∃ id, w.adminUserId = some id ∧ id < users.length
  bounded : w.currentStep ≤ 6
  last : w.completed = true → w.currentStep = 6

/-- What a request knows of the state: past the order of the steps all but the first find a
wizard, and the first one writes under the lock. -/
def State.Sound (s : State) (i : Nat) : Stage → Prop
  | .ensureNotConfigured _ | .checkOrder _ => True
  | .read dto => dto.step = 1 ∨ s.wizard.isSome = true
  | .write dto user existing =>
      (∀ w, existing = some w → Valid s.users w) ∧ (dto.step = 1 ∨ existing.isSome = true) ∧
        ∀ email, dto = .step1 email → s.holder = some i ∧ user = s.findUser email

structure Inv (s : State) : Prop where
  valid : ∀ w, s.wizard = some w → Valid s.users w
  sound : ∀ i stage, s.requests i = some stage → s.Sound i stage
  nodup : (s.users.map (·.email)).Nodup

section
variable {s s' : State} {i j : Nat} {stage : Stage} {next : Option Stage} {w : WizardState}
  {existing : Option WizardState} {a : Option Nat} {users : List User} {dto : AdvanceStep}

theorem inv_init (h : (users.map (·.email)).Nodup) : Inv (State.init users) where
  valid := fun _ hw => by cases hw
  sound := fun _ _ hi => by cases hi
  nodup := h

theorem Valid.mono (h : Valid users w) {more : List User} (hle : users.length ≤ more.length) :
    Valid more w := by
  obtain ⟨id, hid, hlt⟩ := h.admin
  exact ⟨⟨id, hid, hlt.trans_le hle⟩, h.bounded, h.last⟩

/-- A request knows as much when users are added and a wizard stays stored, unless it holds
the lock. -/
theorem State.Sound.mono (h : s.Sound j stage)
    (hwizard : s.wizard.isSome = true → s'.wizard.isSome = true)
    (hle : s.users.length ≤ s'.users.length)
    (hholder : s.holder = some j → s'.holder = some j ∧ s'.users = s.users) : s'.Sound j stage := by
  cases stage with
  | ensureNotConfigured dto => trivial
  | checkOrder dto => trivial
  | read dto => exact h.imp_right hwizard
  | write dto user existing =>
      obtain ⟨hvalid, hlate, hfirst⟩ := h
      refine ⟨fun w hw => (hvalid w hw).mono hle, hlate, fun email hemail => ?_⟩
      obtain ⟨hmine, huser⟩ := hfirst email hemail
      refine ⟨(hholder hmine).1, ?_⟩
      rw [State.findUser, (hholder hmine).2]
      exact huser

/-- A step of one request, from what it leaves to the others. -/
theorem Inv.moves (h : Inv s) (hrequests : s'.requests = s.requests)
    (hvalid : ∀ w, s'.wizard = some w → Valid s'.users w) (hnodup : (s'.users.map (·.email)).Nodup)
    (hothers : ∀ j stage, j ≠ i → s.Sound j stage → s'.Sound j stage)
    (hnext : ∀ stage, next = some stage → s'.Sound i stage) : Inv (s'.goto i next) where
  valid := hvalid
  sound := by
    intro j stage hj
    refine State.Sound.mono (s := s') ?_ id (Nat.le_refl _) fun hmine => ⟨hmine, rfl⟩
    have hupdate : Function.update s'.requests i next j = some stage := hj
    rw [Function.update_apply, hrequests] at hupdate
    split at hupdate
    · next hji =>
        rw [hji]
        exact hnext stage hupdate
    · next hji => exact hothers j stage hji (h.sound j stage hupdate)
  nodup := hnodup

/-- A step that only moves its request. -/
theorem Inv.goto (h : Inv s) (hnext : ∀ stage, next = some stage → s.Sound i stage) :
    Inv (s.goto i next) :=
  h.moves rfl h.valid h.nodup (fun _ _ _ hs => hs) hnext

theorem saved_valid (hexisting : ∀ e, existing = some e → Valid users e)
    (ha : ∀ id, a = some id → id < users.length)
    (hnamed : dto.step = 1 ∧ a.isSome = true ∨ existing.isSome = true)
    (h : dto.saved existing a = some w) : Valid users w := by
  have hupserted : ∀ n, n ≤ 6 → upserted existing n a = some w → Valid users w := by
    intro n hn h
    cases a with
    | some id =>
        have hadmin : ∃ id', some id = some id' ∧ id' < users.length := ⟨id, rfl, ha id rfl⟩
        cases existing with
        | none =>
            cases h
            exact ⟨hadmin, hn, fun hc => by cases hc⟩
        | some e =>
            simp only [upserted] at h
            split at h
            · split at h
              · cases h
                exact ⟨hadmin, (hexisting e rfl).bounded, (hexisting e rfl).last⟩
              · cases h
            · cases h
              exact ⟨hadmin, hn, fun hc => by cases hc⟩
    | none =>
        obtain ⟨e, rfl⟩ := Option.isSome_iff_exists.mp (hnamed.resolve_left fun hnone => by cases hnone.2)
        simp only [upserted, Option.isSome_none, Bool.false_eq_true, false_and, if_false] at h
        split at h
        · cases h
        · cases h
          exact ⟨(hexisting e rfl).admin, hn, fun hc => by cases hc⟩
  cases dto with
  | step6 skipReason =>
      obtain ⟨e, rfl⟩ := Option.isSome_iff_exists.mp (hnamed.resolve_left fun hfirst => by cases hfirst.1)
      cases h
      exact ⟨(hexisting e rfl).admin, le_refl _, fun _ => rfl⟩
  | step1 email => exact hupserted 2 (by decide) h
  | step2 value => exact hupserted 3 (by decide) h
  | step3 value => exact hupserted 4 (by decide) h
  | step4 => exact hupserted 5 (by decide) h
  | step5 => exact hupserted 6 (by decide) h

theorem isSome_or {b : Option WizardState} (h : b.isSome = true) : (existing.or b).isSome = true := by
  rw [Option.isSome_or, h, Bool.or_true]

theorem Inv.read (h : Inv s) {allOk : Bool} (hsound : s.Sound i (.read dto))
    (hs : s.read i allOk dto = some s') : Inv s' := by
  have hstays : ∀ dto' : AdvanceStep, dto.step = dto'.step → dto'.step ≠ 1 →
      s.Sound i (.write dto' none s.wizard) := by
    intro dto' hdto hlate
    refine ⟨h.valid, .inr (hsound.resolve_left (hdto ▸ hlate)), ?_⟩
    rintro email rfl
    exact absurd rfl hlate
  have hsettings : ∀ (settings : Setting → Option String) dto', dto.step = dto'.step → dto'.step ≠ 1 →
      Inv ({ s with settings := settings }.goto i (some (.write dto' none s.wizard))) := by
    intro settings dto' hdto hlate
    refine h.moves rfl h.valid h.nodup (fun j stage _ hj => hj.mono id (le_refl _) fun hj => ⟨hj, rfl⟩)
      fun stage hstage => ?_
    cases hstage
    exact (hstays dto' hdto hlate).mono id (le_refl _) fun hj => ⟨hj, rfl⟩
  cases dto with
  | step1 email =>
      simp only [State.read] at hs
      split at hs
      · next hfree =>
          cases hs
          refine h.moves rfl h.valid h.nodup (fun j stage _ hj => hj.mono id (le_refl _) fun hmine => ?_)
            fun stage hstage => ?_
          · rw [hfree] at hmine
            cases hmine
          · cases hstage
            refine ⟨h.valid, .inl rfl, fun email' hemail => ?_⟩
            cases hemail
            exact ⟨rfl, rfl⟩
      · cases hs
  | step2 value =>
      cases value with
      | some value =>
          cases hs
          exact hsettings _ _ rfl (Nat.succ_succ_ne_one _)
      | none =>
          cases hs
          exact hsettings s.settings _ rfl (Nat.succ_succ_ne_one _)
  | step3 value =>
      cases hs
      exact hsettings _ _ rfl (Nat.succ_succ_ne_one _)
  | step4 =>
      cases hs
      exact hsettings s.settings _ rfl (Nat.succ_succ_ne_one _)
  | step5 =>
      cases hs
      exact hsettings s.settings _ rfl (Nat.succ_succ_ne_one _)
  | step6 skipReason =>
      cases hs
      refine h.goto fun stage hstage => ?_
      split at hstage
      · cases hstage
        exact hstays _ rfl (Nat.succ_succ_ne_one _)
      · split at hstage
        · cases hstage
          exact hstays _ rfl (Nat.succ_succ_ne_one _)
        · cases hstage

theorem Inv.write_step1 (h : Inv s) {email : String} {user : Option Nat}
    (hsound : s.Sound i (.write (.step1 email) user existing)) :
    Inv ((s.write (.step1 email) user existing).goto i none) := by
  obtain ⟨hexisting, -, hfirst⟩ := hsound
  obtain ⟨hmine, huser⟩ := hfirst email rfl
  have husers : (s.write (.step1 email) user existing).users =
      if user.isSome then s.users else s.users ++ [⟨email, true⟩] := rfl
  have hlength : s.users.length ≤ (s.write (.step1 email) user existing).users.length := by
    rw [husers]
    split
    · exact le_refl _
    · rw [List.length_append]
      exact Nat.le_add_right _ _
  have hadmin : user.getD s.users.length < (s.write (.step1 email) user existing).users.length := by
    rw [husers]
    cases user with
    | none =>
        show s.users.length < (s.users ++ [_]).length
        rw [List.length_append]
        exact Nat.lt_succ_self _
    | some id => exact (List.findIdx?_eq_some_iff_findIdx_eq.mp huser.symm).1
  have hnodup : ((s.write (.step1 email) user existing).users.map (·.email)).Nodup := by
    rw [husers]
    cases user with
    | some id => exact h.nodup
    | none =>
        have hnone := List.findIdx?_eq_none_iff.mp huser.symm
        show ((s.users ++ [_]).map _).Nodup
        rw [List.map_append]
        refine List.nodup_append.mpr ⟨h.nodup, List.nodup_singleton _, ?_⟩
        rintro _ hmem _ hlast rfl
        obtain ⟨other, hother, heq⟩ := List.mem_map.mp hmem
        exact of_decide_eq_false (hnone other hother) (heq.trans (List.mem_singleton.mp hlast))
  refine h.moves rfl (fun w hw => ?_) hnodup
    (fun j stage hji hj => hj.mono isSome_or hlength fun hother => ?_) fun stage hstage => by cases hstage
  · rcases Option.or_eq_some_iff.mp hw with hnew | ⟨-, hold⟩
    · refine saved_valid (fun e he => (hexisting e he).mono hlength) (fun id hid => ?_) (.inl ⟨rfl, rfl⟩)
        hnew
      cases hid
      exact hadmin
    · exact (h.valid w hold).mono hlength
  · rw [hmine] at hother
    exact absurd (Option.some.inj hother).symm hji

theorem Inv.write (h : Inv s) {user : Option Nat} (hsound : s.Sound i (.write dto user existing)) :
    Inv ((s.write dto user existing).goto i none) := by
  have hlater : dto.step ≠ 1 → ∀ setupComplete, Inv ({ s with
      wizard := (dto.saved existing none).or s.wizard
      setupComplete := setupComplete }.goto i none) := by
    intro hlate setupComplete
    obtain ⟨hexisting, hstored, -⟩ := hsound
    refine h.moves rfl (fun w hw => ?_) h.nodup
      (fun j stage _ hj => hj.mono isSome_or (le_refl _) fun hj => ⟨hj, rfl⟩)
      fun stage hstage => by cases hstage
    rcases Option.or_eq_some_iff.mp hw with hnew | ⟨-, hold⟩
    · exact saved_valid hexisting (fun id hid => by cases hid) (.inr (hstored.resolve_left hlate)) hnew
    · exact h.valid w hold
  cases dto with
  | step1 email => exact h.write_step1 hsound
  | step2 value => exact hlater (Nat.succ_succ_ne_one _) s.setupComplete
  | step3 value => exact hlater (Nat.succ_succ_ne_one _) s.setupComplete
  | step4 => exact hlater (Nat.succ_succ_ne_one _) s.setupComplete
  | step5 => exact hlater (Nat.succ_succ_ne_one _) s.setupComplete
  | step6 skipReason => exact hlater (Nat.succ_succ_ne_one _) (some skipReason)

theorem Inv.work (h : Inv s) {allOk : Bool} (hi : s.requests i = some stage)
    (hs : s.work i allOk stage = some s') : Inv s' := by
  have hsound := h.sound i stage hi
  cases stage with
  | ensureNotConfigured dto =>
      cases hs
      refine h.goto fun stage hstage => ?_
      split at hstage
      · cases hstage
      · cases hstage
        trivial
  | checkOrder dto =>
      cases hs
      refine h.goto fun stage hstage => ?_
      split at hstage
      · cases hstage
      · next horder =>
          cases hstage
          cases hw : s.wizard with
          | some w => exact .inr (by rw [hw]; rfl)
          | none =>
              rw [hw] at horder
              refine .inl (le_antisymm (Nat.not_lt.mp horder) ?_)
              cases dto <;> exact Nat.succ_pos _
  | read dto => exact h.read hsound hs
  | write dto user existing =>
      cases hs
      exact h.write hsound

theorem Inv.step (h : Inv s) {e : Event} (hs : s.step e = some s') : Inv s' := by
  cases e with
  | receive i dto =>
      simp only [State.step] at hs
      split at hs
      · cases hs
        refine h.goto fun stage hstage => ?_
        cases hstage
        trivial
      · cases hs
  | proceed i allOk =>
      obtain ⟨stage, hi, hs⟩ := Option.bind_eq_some_iff.mp hs
      exact h.work hi hs
  | fail i =>
      simp only [State.step] at hs
      split at hs
      · cases hs
        refine h.moves rfl h.valid h.nodup (fun j stage hji hj => hj.mono id (le_refl _) fun hmine => ?_)
          fun stage hstage => by cases hstage
        refine ⟨?_, rfl⟩
        simp only [hmine, Option.some.injEq, if_neg hji]
      · cases hs

end

/-- Whatever requests interleave in the wizard of a new installation, a stored wizard names
an administrator that exists, and no e-mail has two users. -/
theorem wizard_admin {users : List User} (husers : (users.map (·.email)).Nodup) {s : State}
    (h : Runs.Reached State.step (State.init users) s) :
    (∀ w, s.wizard = some w → ∃ id user, w.adminUserId = some id ∧ s.users[id]? = some user) ∧
      (s.users.map (·.email)).Nodup := by
  have hinv : Inv s := h.induction (inv_init husers) fun _ _ _ hI hs => hI.step hs
  refine ⟨fun w hw => ?_, hinv.nodup⟩
  obtain ⟨id, hid, hlt⟩ := (hinv.valid w hw).admin
  exact ⟨id, s.users[id], hid, List.getElem?_eq_getElem hlt⟩

theorem wizard_admin_sample : ∃ s, Runs.Reached State.step (State.init []) s ∧
    ((∀ w, s.wizard = some w → ∃ id user, w.adminUserId = some id ∧ s.users[id]? = some user) ∧
      (s.users.map (·.email)).Nodup) := by
  have hrun : Runs.Reached State.step (State.init []) _ :=
    ⟨.receive 0 (.step1 "a@b.c") :: List.replicate 4 (.proceed 0 true), rfl⟩
  exact ⟨_, hrun, @wizard_admin [] List.nodup_nil _ hrun⟩

/-! ## A completed wizard -/

/-- Nobody has passed `ensureNotConfigured`. -/
def State.Quiet (s : State) : Prop :=
  ∀ i stage, s.requests i = some stage → ∃ dto, stage = .ensureNotConfigured dto

/-- What the wizard has stored. -/
def State.stored (s : State) :=
  (s.wizard, s.users, s.settings, s.setupComplete)

theorem Quiet.step {s s' : State} {e : Event} (hquiet : s.Quiet)
    (hcompleted : s.wizard.any (·.completed) = true) (hs : s.step e = some s') :
    s'.stored = s.stored ∧ s'.Quiet := by
  have hgoto : ∀ (s' : State) i next, s'.requests = s.requests →
      (∀ stage, next = some stage → ∃ dto, stage = .ensureNotConfigured dto) →
      (s'.goto i next).Quiet := by
    intro s' i next hrequests hnext j stage hj
    have hupdate : Function.update s'.requests i next j = some stage := hj
    rw [Function.update_apply, hrequests] at hupdate
    split at hupdate
    · exact hnext stage hupdate
    · exact hquiet j stage hupdate
  cases e with
  | receive i dto =>
      simp only [State.step] at hs
      split at hs
      · cases hs
        refine ⟨rfl, hgoto s i _ rfl fun stage hstage => ?_⟩
        cases hstage
        exact ⟨dto, rfl⟩
      · cases hs
  | proceed i allOk =>
      obtain ⟨stage, hi, hs⟩ := Option.bind_eq_some_iff.mp hs
      obtain ⟨dto, rfl⟩ := hquiet i stage hi
      cases hs
      refine ⟨rfl, hgoto s i _ rfl fun stage hstage => ?_⟩
      rw [if_pos hcompleted] at hstage
      cases hstage
  | fail i =>
      simp only [State.step] at hs
      split at hs
      · cases hs
        exact ⟨rfl, hgoto { s with holder := _ } i _ rfl fun stage hstage => by cases hstage⟩
      · cases hs

/-- Once the wizard is completed and nobody has passed its check, no request changes the
wizard, the users or the settings any more. -/
theorem completed_final {s t : State} (hcompleted : s.wizard.any (·.completed) = true)
    (hquiet : s.Quiet) (h : Runs.Reached State.step s t) : t.stored = s.stored := by
  refine (h.induction (I := fun t => t.stored = s.stored ∧ t.Quiet) ⟨rfl, hquiet⟩ ?_).1
  intro t e t' hI hstep
  have hwizard : t.wizard = s.wizard := congrArg Prod.fst hI.1
  have hnext := Quiet.step hI.2 (hwizard ▸ hcompleted) hstep
  exact ⟨hnext.1.trans hI.1, hnext.2⟩

/-- A request comes too late. -/
theorem completed_final_sample : ∃ t, Runs.Reached State.step
    { State.init [] with wizard := some ⟨6, true, none⟩ } t ∧
      t.stored = { State.init [] with wizard := some ⟨6, true, none⟩ }.stored := by
  have hrun : Runs.Reached State.step { State.init [] with wizard := some ⟨6, true, none⟩ } _ :=
    ⟨[.receive 0 (.step1 "a@b.c"), .proceed 0 true], rfl⟩
  exact ⟨_, hrun, completed_final rfl (fun _ _ hi => by cases hi) hrun⟩

/-! ## A wizard that goes on -/

/-- No write finds a wizard other than the one its request has read. -/
def Fresh (s : State) : Event → Prop
  | .proceed i _ => ∀ dto user existing, s.requests i = some (.write dto user existing) →
      existing = s.wizard
  | _ => True

/-- The second wizard is as far as the first. -/
def Below (a b : Option WizardState) : Prop :=
  ∀ w, a = some w → ∃ w', b = some w' ∧ w.currentStep ≤ w'.currentStep ∧
    (w.completed = true → w'.completed = true)

theorem Below.refl (a : Option WizardState) : Below a a := fun w hw => ⟨w, hw, le_refl _, id⟩

theorem Below.trans {a b c : Option WizardState} (hab : Below a b) (hbc : Below b c) : Below a c := by
  intro w hw
  obtain ⟨w', hw', hle, hcompleted⟩ := hab w hw
  obtain ⟨w'', hw'', hle', hcompleted'⟩ := hbc w' hw'
  exact ⟨w'', hw'', hle.trans hle', hcompleted' ∘ hcompleted⟩

theorem below_saved {wizard : Option WizardState} {users : List User} {dto : AdvanceStep}
    {a : Option Nat} (hvalid : ∀ w, wizard = some w → Valid users w) :
    Below wizard ((dto.saved wizard a).or wizard) := by
  intro w hw
  have hupserted : ∀ n, n ≤ 6 → ∃ w', (upserted wizard n a).or wizard = some w' ∧
      w.currentStep ≤ w'.currentStep ∧ (w.completed = true → w'.completed = true) := by
    intro n hn
    simp only [hw, upserted]
    split
    · split
      · exact ⟨_, rfl, le_refl _, id⟩
      · exact ⟨w, rfl, le_refl _, id⟩
    · next hlater =>
        refine ⟨_, rfl, (Nat.not_le.mp hlater).le, fun hcompleted => ?_⟩
        exact absurd (((hvalid w hw).last hcompleted).symm ▸ hn) hlater
  cases dto with
  | step6 skipReason => exact ⟨_, rfl, (hvalid w hw).bounded, fun _ => rfl⟩
  | step1 email => exact hupserted 2 (by decide)
  | step2 value => exact hupserted 3 (by decide)
  | step3 value => exact hupserted 4 (by decide)
  | step4 => exact hupserted 5 (by decide)
  | step5 => exact hupserted 6 (by decide)

theorem read_wizard {s s' : State} {i : Nat} {allOk : Bool} {dto : AdvanceStep}
    (hs : s.read i allOk dto = some s') : s'.wizard = s.wizard := by
  unfold State.read at hs
  split at hs
  · split at hs
    · cases hs
      rfl
    · cases hs
  · cases hs
    rfl
  · cases hs
    rfl
  · cases hs
    rfl
  · cases hs
    rfl

theorem Inv.below {s s' : State} {e : Event} (h : Inv s) (hfresh : Fresh s e)
    (hs : s.step e = some s') : Below s.wizard s'.wizard := by
  cases e with
  | receive i dto =>
      simp only [State.step] at hs
      split at hs
      · cases hs
        exact .refl _
      · cases hs
  | fail i =>
      simp only [State.step] at hs
      split at hs
      · cases hs
        exact .refl _
      · cases hs
  | proceed i allOk =>
      obtain ⟨stage, hi, hs⟩ := Option.bind_eq_some_iff.mp hs
      cases stage with
      | ensureNotConfigured dto =>
          cases hs
          exact .refl _
      | checkOrder dto =>
          cases hs
          exact .refl _
      | read dto =>
          have hwizard : s'.wizard = s.wizard := read_wizard hs
          rw [hwizard]
          exact .refl _
      | write dto user existing =>
          cases hfresh dto user existing hi
          cases hs
          cases dto with
          | step6 skipReason => exact fun w hw => ⟨_, rfl, (h.valid w hw).bounded, fun _ => rfl⟩
          | _ => exact below_saved h.valid

/-- The events of a request that is not disturbed. -/
def undisturbed (i : Nat) (dto : AdvanceStep) (n : Nat) : List Event :=
  .receive i dto :: List.replicate n (.proceed i true)

/-- A request for the fifth step waits with the wizard it has read while the last step
completes it; its write opens the wizard again, and the first step creates another super
admin. -/
theorem reopened : ∃ s t, Runs.exec State.step (State.init []) (undisturbed 0 (.step1 "a@b.c") 4 ++
      undisturbed 1 (.step2 none) 4 ++ undisturbed 2 (.step3 "https://b.c") 4 ++ undisturbed 3 .step4 4 ++
      undisturbed 4 .step5 3 ++ undisturbed 5 .step5 4 ++ undisturbed 6 (.step6 none) 4) = some s ∧
    s.wizard = some ⟨6, true, some 0⟩ ∧
    Runs.exec State.step s (.proceed 4 true :: undisturbed 7 (.step1 "x@y.z") 4) = some t ∧
    t.wizard = some ⟨6, false, some 1⟩ ∧ t.users = [⟨"a@b.c", true⟩, ⟨"x@y.z", true⟩] :=
  ⟨_, _, rfl, rfl, rfl, rfl, rfl⟩

end OpenBms.Setup
