/-
# `OpenBms.Events.Bounces` — a hard bounce stays

`updateBouncedContacts` writes the hard bounces of a batch and then its soft ones, each with
one statement.  The processors of SendGrid and of SparkPost have the same text for it, and
batches of both are in work at the same time, the statements of one between those of another.
A statement is taken as one step: a row that is locked is looked at again before it is written,
and a row that was left alone because it was `HARD` still is when the statement ends.

**Proved here.**

    a hard bounce of a batch is in its hard statement (`hard_mem_statement`)
    no statement takes `HARD` from a contact (`setBounce_hard`)
    a hard bounce that was written stays, whatever follows (`hard_absorbing`)
-/
import OpenBms.Lib.Runs

namespace OpenBms.Events.Bounces

open Runs

inductive BounceType where
  | hard
  | soft
deriving DecidableEq

/-- The event type a group of events shares. -/
inductive EventsType where
  | bounce
  | blocked
deriving DecidableEq

/-- `contactId` is the `Number` of the event's contact id, `none` where there is none. -/
structure Event (N : Type) where
  contactId : Option N
  type : Option String
  timestamp : Int

structure Batch (N : Type) where
  type : EventsType
  accountId : Nat
  events : List (Event N)

/-- A call of `updateContactsWithBounceType`. -/
structure Statement (N : Type) where
  accountId : Nat
  events : List (Event N)
  bounceType : BounceType

structure Contact where
  hasBounced : Bool
  bounceType : Option BounceType
  bouncedAt : Option Int
  updatedAt : Nat

/-- The contacts of each account, by their ids. -/
abbrev Contacts := Nat → Int → Option Contact

section
variable {N : Type}

def hardBounces (batch : Batch N) : List (Event N) :=
  batch.events.filter fun e => batch.type = .bounce ∧ e.type ≠ some "blocked"

def hardContactIds (batch : Batch N) : List N := (hardBounces batch).filterMap (·.contactId)

def softBounces [DecidableEq N] (batch : Batch N) : List (Event N) :=
  (batch.events.filter fun e => batch.type = .blocked ∨ e.type = some "blocked").filter fun e =>
    !e.contactId.any (hardContactIds batch).contains

def updateBouncedContacts [DecidableEq N] (batch : Batch N) : List (Statement N) :=
  (if hardBounces batch ≠ [] then [⟨batch.accountId, hardBounces batch, .hard⟩] else []) ++
    (if softBounces batch ≠ [] then [⟨batch.accountId, softBounces batch, .soft⟩] else [])

/-- Sets a contact's time unless it has a later one. -/
def setLatest [DecidableEq N] (id : N) (ts : Int) : List (N × Int) → List (N × Int)
  | [] => [(id, ts)]
  | (id', existing) :: contactMap =>
      if id' = id then (id', if ts > existing then ts else existing) :: contactMap
      else (id', existing) :: setLatest id ts contactMap

/-- The contacts of a statement, each once with its latest time. -/
def contactMap [DecidableEq N] (events : List (Event N)) : List (N × Int) :=
  events.foldl (fun contactMap e =>
    match e.contactId with
    | some id => setLatest id (e.timestamp * 1000) contactMap
    | none => contactMap) []

variable (integer : N → Option Int)

/-- What a statement makes of one row. -/
def setBounce (entries : List (N × Int)) (bounceType : BounceType) (now : Nat) (id : Int)
    (contact : Contact) : Contact :=
  match entries.find? fun v => integer v.1 = some id with
  | some (_, bouncedAt) =>
      if bounceType = .hard ∨ contact.bounceType ≠ some .hard then
        { hasBounced := true, bounceType := some bounceType, bouncedAt := some bouncedAt,
          updatedAt := now }
      else contact
  | none => contact

/-- The update of all entries; an id that is not an integer fails it as a whole. -/
def batchUpdateContactsBounce (entries : List (N × Int)) (bounceType : BounceType)
    (accountId now : Nat) (contacts : Contacts) : Option Contacts :=
  if entries.all fun v => (integer v.1).isSome then
    some fun accountId' id =>
      if accountId' = accountId then
        (contacts accountId' id).map (setBounce integer entries bounceType now id)
      else contacts accountId' id
  else none

/-- A batch in work: the statements it has still to make. -/
structure Worker (N : Type) where
  batch : Batch N
  rest : List (Statement N)

/-- `executed` are the events whose statement was made, `processed` the batches that ended
without an error. -/
structure State (N : Type) where
  contacts : Contacts
  workers : List (Worker N)
  executed : List (Batch N × Event N)
  processed : List (Batch N)

def State.init (contacts : Contacts) : State N := ⟨contacts, [], [], []⟩

/-- `fail` is any other error of a batch, such as one of its other writes. -/
inductive Action (N : Type) where
  | receive (batch : Batch N)
  | execute (i : Nat) (now : Nat)
  | finish (i : Nat)
  | fail (i : Nat)

def execute [DecidableEq N] (s : State N) (i : Nat) (worker : Worker N) (statement : Statement N)
    (rest : List (Statement N)) (now : Nat) : State N :=
  match batchUpdateContactsBounce integer (contactMap statement.events) statement.bounceType
      statement.accountId now s.contacts with
  | some contacts =>
      { s with
        contacts := contacts
        workers := s.workers.set i { worker with rest := rest }
        executed := s.executed ++ statement.events.map (worker.batch, ·) }
  | none => { s with workers := s.workers.eraseIdx i }

def step [DecidableEq N] (s : State N) : Action N → Option (State N)
  | .receive batch => some { s with workers := s.workers ++ [⟨batch, updateBouncedContacts batch⟩] }
  | .execute i now =>
      match s.workers[i]? with
      | some ⟨batch, statement :: rest⟩ =>
          some (execute integer s i ⟨batch, statement :: rest⟩ statement rest now)
      | _ => none
  | .finish i =>
      match s.workers[i]? with
      | some ⟨batch, []⟩ =>
          some { s with workers := s.workers.eraseIdx i, processed := s.processed ++ [batch] }
      | _ => none
  | .fail i => if i < s.workers.length then some { s with workers := s.workers.eraseIdx i } else none

/-! ## What a bounce should leave -/

/-- The event of the batch is a hard bounce of the contact. -/
structure Hard (batch : Batch N) (e : Event N) (id : Int) : Prop where
  type : batch.type = .bounce
  bounced : e.type ≠ some "blocked"
  contact : e.contactId.bind integer = some id

def IsHard (contacts : Contacts) (accountId : Nat) (id : Int) : Prop :=
  ∀ contact, contacts accountId id = some contact → contact.bounceType = some .hard

/-! ## One statement -/

section Proofs
variable {integer : N → Option Int}

theorem mem_setLatest [DecidableEq N] {id id' : N} {ts : Int} {contactMap : List (N × Int)} :
    id' ∈ (setLatest id ts contactMap).map Prod.fst ↔ id' = id ∨ id' ∈ contactMap.map Prod.fst := by
  induction contactMap with
  | nil => simp [setLatest]
  | cons entry contactMap ih =>
      obtain ⟨id'', existing⟩ := entry
      unfold setLatest
      split
      case isTrue heq =>
        simp only [List.map_cons, List.mem_cons, heq]
        tauto
      case isFalse =>
        simp only [List.map_cons, List.mem_cons, ih]
        tauto

theorem mem_contactMap [DecidableEq N] {events : List (Event N)} {id : N} :
    id ∈ (contactMap events).map Prod.fst ↔ ∃ e ∈ events, e.contactId = some id := by
  have hfold : ∀ entries : List (N × Int),
      id ∈ (events.foldl (fun contactMap e =>
        match e.contactId with
        | some id => setLatest id (e.timestamp * 1000) contactMap
        | none => contactMap) entries).map Prod.fst ↔
        id ∈ entries.map Prod.fst ∨ ∃ e ∈ events, e.contactId = some id := by
    induction events with
    | nil => simp
    | cons e events ih =>
        intro entries
        rw [List.foldl_cons, ih, List.exists_mem_cons_iff]
        cases hid : e.contactId with
        | none => simp
        | some id' =>
            simp only [mem_setLatest, Option.some.injEq, eq_comm (a := id)]
            tauto
  exact (hfold []).trans (by simp)

theorem hard_mem_hardBounces {batch : Batch N} {e : Event N} {id : Int} (he : e ∈ batch.events)
    (h : Hard integer batch e id) : e ∈ hardBounces batch :=
  List.mem_filter.mpr ⟨he, decide_eq_true ⟨h.type, h.bounced⟩⟩

theorem hard_mem_statement [DecidableEq N] {batch : Batch N} {e : Event N} {id : Int} (he : e ∈ batch.events)
    (h : Hard integer batch e id) :
    ∃ statement ∈ updateBouncedContacts batch, e ∈ statement.events := by
  have hmem := hard_mem_hardBounces he h
  refine ⟨⟨batch.accountId, hardBounces batch, .hard⟩, ?_, hmem⟩
  rw [updateBouncedContacts, if_pos (List.ne_nil_of_mem hmem)]
  exact List.mem_append_left _ (List.mem_singleton_self _)

theorem statement_spec [DecidableEq N] (integer : N → Option Int) {batch : Batch N}
    {statement : Statement N} (h : statement ∈ updateBouncedContacts batch) :
    statement.accountId = batch.accountId ∧ (∀ e ∈ statement.events, e ∈ batch.events) ∧
      ∀ e ∈ statement.events, ∀ id, Hard integer batch e id → statement.bounceType = .hard := by
  rw [updateBouncedContacts, List.mem_append] at h
  rcases h with h | h
  · split at h
    · rw [List.mem_singleton] at h
      subst h
      exact ⟨rfl, fun e he => (List.mem_filter.mp he).1, fun _ _ _ _ => rfl⟩
    · exact nomatch h
  · split at h
    · rw [List.mem_singleton] at h
      subst h
      refine ⟨rfl, fun e he => (List.mem_filter.mp (List.mem_filter.mp he).1).1, ?_⟩
      intro e he id hhard
      have hsoft := of_decide_eq_true (List.mem_filter.mp (List.mem_filter.mp he).1).2
      rcases hsoft with htype | hblocked
      · exact absurd (htype.symm.trans hhard.type) EventsType.noConfusion
      · exact absurd hblocked hhard.bounced
    · exact nomatch h

theorem setBounce_hard {entries : List (N × Int)} {bounceType : BounceType} {now : Nat} {id : Int}
    {contact : Contact} (h : contact.bounceType = some .hard) :
    (setBounce integer entries bounceType now id contact).bounceType = some .hard := by
  unfold setBounce
  split
  · split
    case isTrue hguard =>
      exact congrArg some (hguard.resolve_right fun hne => hne h)
    case isFalse => exact h
  · exact h

theorem setBounce_of_mem {entries : List (N × Int)} {now : Nat} {id : Int} {contact : Contact}
    (h : ∃ v ∈ entries, integer v.1 = some id) :
    (setBounce integer entries .hard now id contact).bounceType = some .hard := by
  obtain ⟨v, hv, hid⟩ := h
  have hfind : (entries.find? fun v => integer v.1 = some id).isSome = true :=
    List.find?_isSome.mpr ⟨v, hv, decide_eq_true hid⟩
  obtain ⟨v, hfind⟩ := Option.isSome_iff_exists.mp hfind
  unfold setBounce
  rw [hfind]
  exact congrArg Contact.bounceType (if_pos (.inl rfl))

theorem setBounce_of_not_mem {entries : List (N × Int)} {bounceType : BounceType} {now : Nat}
    {id : Int} {contact : Contact} (h : ∀ v ∈ entries, integer v.1 ≠ some id) :
    setBounce integer entries bounceType now id contact = contact := by
  have hfind : (entries.find? fun v => integer v.1 = some id) = none :=
    List.find?_eq_none.mpr fun v hv hid => h v hv (of_decide_eq_true hid)
  unfold setBounce
  rw [hfind]

/-! ## Runs -/

variable [DecidableEq N] {s s' : State N}

/-- A statement that was made. -/
structure Made (integer : N → Option Int) (s s' : State N) (i now : Nat) (batch : Batch N)
    (statement : Statement N) (rest : List (Statement N)) : Prop where
  worker : s.workers[i]? = some ⟨batch, statement :: rest⟩
  contacts : batchUpdateContactsBounce integer (contactMap statement.events) statement.bounceType
    statement.accountId now s.contacts = some s'.contacts
  workers : s'.workers = s.workers.set i ⟨batch, rest⟩
  executed : s'.executed = s.executed ++ statement.events.map (batch, ·)
  processed : s'.processed = s.processed

theorem step_cases {a : Action N} (h : step integer s a = some s') :
    (∃ batch, a = .receive batch ∧
      s' = { s with workers := s.workers ++ [⟨batch, updateBouncedContacts batch⟩] }) ∨
    (∃ i now batch statement rest, a = .execute i now ∧
      Made integer s s' i now batch statement rest) ∨
    (∃ i batch, a = .finish i ∧ s.workers[i]? = some ⟨batch, []⟩ ∧
      s' = { s with workers := s.workers.eraseIdx i, processed := s.processed ++ [batch] }) ∨
    ∃ i, s' = { s with workers := s.workers.eraseIdx i } := by
  cases a with
  | receive batch => exact .inl ⟨batch, rfl, (Option.some.inj h).symm⟩
  | execute i now =>
      rw [step] at h
      split at h
      case h_1 batch statement rest hworker =>
        have hs' := (Option.some.inj h).symm
        rw [execute] at hs'
        split at hs'
        case h_1 contacts hcontacts =>
          subst hs'
          exact .inr (.inl ⟨i, now, batch, statement, rest, rfl, hworker, hcontacts, rfl, rfl, rfl⟩)
        case h_2 => exact .inr (.inr (.inr ⟨i, hs'⟩))
      case h_2 => exact nomatch h
  | finish i =>
      rw [step] at h
      split at h
      case h_1 batch hworker =>
        exact .inr (.inr (.inl ⟨i, batch, rfl, hworker, (Option.some.inj h).symm⟩))
      case h_2 => exact nomatch h
  | fail i =>
      rw [step] at h
      split at h
      case isTrue => exact .inr (.inr (.inr ⟨i, (Option.some.inj h).symm⟩))
      case isFalse => exact nomatch h

theorem Made.apply {i now : Nat} {batch : Batch N} {statement : Statement N}
    {rest : List (Statement N)} (h : Made integer s s' i now batch statement rest)
    (accountId : Nat) (id : Int) :
    s'.contacts accountId id =
      if accountId = statement.accountId then
        (s.contacts accountId id).map
          (setBounce integer (contactMap statement.events) statement.bounceType now id)
      else s.contacts accountId id := by
  have hcontacts := h.contacts
  rw [batchUpdateContactsBounce] at hcontacts
  split at hcontacts
  · rw [← Option.some.inj hcontacts]
  · exact nomatch hcontacts

theorem step_hard {a : Action N} (h : step integer s a = some s') {accountId : Nat} {id : Int}
    (hhard : IsHard s.contacts accountId id) : IsHard s'.contacts accountId id := by
  rcases step_cases h with ⟨batch, -, rfl⟩ | ⟨i, now, batch, statement, rest, -, hmade⟩ |
    ⟨i, batch, -, -, rfl⟩ | ⟨i, rfl⟩
  · exact hhard
  · intro contact hcontact
    rw [hmade.apply] at hcontact
    split at hcontact
    · obtain ⟨contact', hcontact', rfl⟩ := Option.map_eq_some_iff.mp hcontact
      exact setBounce_hard (hhard contact' hcontact')
    · exact hhard contact hcontact
  · exact hhard
  · exact hhard

theorem exec_hard {as : List (Action N)} (h : exec (step integer) s as = some s') {accountId : Nat}
    {id : Int} (hhard : IsHard s.contacts accountId id) : IsHard s'.contacts accountId id := by
  induction as generalizing s with
  | nil =>
      cases h
      exact hhard
  | cons a as ih =>
      obtain ⟨s₁, hstep, hrest⟩ := exec_cons_eq_some.mp h
      exact ih hrest (step_hard hstep hhard)

/-- What the batches in work have still to make, and what is made of what was written. -/
structure Inv (integer : N → Option Int) (s : State N) : Prop where
  rest : ∀ worker ∈ s.workers, ∀ statement ∈ worker.rest,
    statement ∈ updateBouncedContacts worker.batch
  made : ∀ worker ∈ s.workers, ∀ statement ∈ updateBouncedContacts worker.batch,
    statement ∈ worker.rest ∨ ∀ e ∈ statement.events, (worker.batch, e) ∈ s.executed
  processed : ∀ batch ∈ s.processed, ∀ statement ∈ updateBouncedContacts batch,
    ∀ e ∈ statement.events, (batch, e) ∈ s.executed
  hard : ∀ batch e, (batch, e) ∈ s.executed → ∀ id, Hard integer batch e id →
    IsHard s.contacts batch.accountId id

theorem inv_init (contacts : Contacts) : Inv integer (State.init contacts) where
  rest := fun _ h => nomatch h
  made := fun _ h => nomatch h
  processed := fun _ h => nomatch h
  hard := fun _ _ h => nomatch h

theorem Inv.eraseIdx (hs : Inv integer s) (i : Nat) :
    Inv integer { s with workers := s.workers.eraseIdx i } where
  rest := fun worker h => hs.rest worker (List.mem_of_mem_eraseIdx h)
  made := fun worker h => hs.made worker (List.mem_of_mem_eraseIdx h)
  processed := hs.processed
  hard := hs.hard

theorem Made.hard {i now : Nat} {batch : Batch N} {statement : Statement N}
    {rest : List (Statement N)} (h : Made integer s s' i now batch statement rest)
    (hmem : statement ∈ updateBouncedContacts batch) {e : Event N} (he : e ∈ statement.events)
    {id : Int} (hhard : Hard integer batch e id) : IsHard s'.contacts batch.accountId id := by
  intro contact hcontact
  obtain ⟨haccount, -, htype⟩ := statement_spec integer hmem
  rw [h.apply, if_pos haccount.symm] at hcontact
  obtain ⟨contact', -, rfl⟩ := Option.map_eq_some_iff.mp hcontact
  obtain ⟨n, hn, hid⟩ := Option.bind_eq_some_iff.mp hhard.contact
  obtain ⟨v, hv, rfl⟩ := List.mem_map.mp (mem_contactMap.mpr ⟨e, he, hn⟩)
  rw [htype e he id hhard]
  exact setBounce_of_mem ⟨v, hv, hid⟩

theorem step_inv {a : Action N} (hs : Inv integer s) (h : step integer s a = some s') :
    Inv integer s' := by
  have hhard : ∀ {accountId : Nat} {id : Int}, IsHard s.contacts accountId id →
      IsHard s'.contacts accountId id := step_hard h
  rcases step_cases h with ⟨batch, -, rfl⟩ | ⟨i, now, batch, statement, rest, -, hmade⟩ |
    ⟨i, batch, -, hworker, rfl⟩ | ⟨i, rfl⟩
  · refine ⟨?_, ?_, hs.processed, hs.hard⟩
    · intro worker hworker
      rcases List.mem_append.mp hworker with hold | hnew
      · exact hs.rest worker hold
      · rw [List.mem_singleton.mp hnew]
        exact fun _ h => h
    · intro worker hworker
      rcases List.mem_append.mp hworker with hold | hnew
      · exact hs.made worker hold
      · rw [List.mem_singleton.mp hnew]
        exact fun _ h => .inl h
  · have hmem := List.mem_of_getElem? hmade.worker
    have hstatement := hs.rest _ hmem statement List.mem_cons_self
    have hexecuted : ∀ {x}, x ∈ s.executed → x ∈ s'.executed := fun hx =>
      hmade.executed ▸ List.mem_append_left _ hx
    refine ⟨?_, ?_, ?_, ?_⟩
    · intro worker hworker
      rw [hmade.workers] at hworker
      rcases List.mem_or_eq_of_mem_set hworker with hold | rfl
      · exact hs.rest worker hold
      · exact fun other hother => hs.rest _ hmem other (List.mem_cons_of_mem _ hother)
    · intro worker hworker other hother
      rw [hmade.workers] at hworker
      rcases List.mem_or_eq_of_mem_set hworker with hold | rfl
      · exact (hs.made worker hold other hother).imp_right fun hall e he => hexecuted (hall e he)
      · rcases hs.made _ hmem other hother with hrest | hall
        · rcases List.mem_cons.mp hrest with rfl | hrest
          · refine .inr fun e he => ?_
            rw [hmade.executed]
            exact List.mem_append_right _ (List.mem_map_of_mem he)
          · exact .inl hrest
        · exact .inr fun e he => hexecuted (hall e he)
    · intro batch' hbatch' other hother e he
      rw [hmade.processed] at hbatch'
      exact hexecuted (hs.processed batch' hbatch' other hother e he)
    · intro batch' e hmem' id hid
      rw [hmade.executed] at hmem'
      rcases List.mem_append.mp hmem' with hold | hnew
      · exact hhard (hs.hard batch' e hold id hid)
      · obtain ⟨e, he, heq⟩ := List.mem_map.mp hnew
        obtain ⟨rfl, rfl⟩ := Prod.mk.inj heq
        exact hmade.hard hstatement he hid
  · refine ⟨(hs.eraseIdx i).rest, (hs.eraseIdx i).made, ?_, hs.hard⟩
    intro batch' hbatch' other hother
    rcases List.mem_append.mp hbatch' with hold | hnew
    · exact hs.processed batch' hold other hother
    · rw [List.mem_singleton.mp hnew] at hother ⊢
      rcases hs.made _ (List.mem_of_getElem? hworker) other hother with hrest | hall
      · exact nomatch hrest
      · exact hall
  · exact hs.eraseIdx i

theorem step_unchanged {a : Action N} (hs : Inv integer s) (h : step integer s a = some s')
    {accountId : Nat} {id : Int}
    (hnone : ∀ i now, a = .execute i now → ∀ worker, s.workers[i]? = some worker →
      worker.batch.accountId = accountId →
        ∀ e ∈ worker.batch.events, e.contactId.bind integer ≠ some id) :
    s'.contacts accountId id = s.contacts accountId id := by
  rcases step_cases h with ⟨batch, -, rfl⟩ | ⟨i, now, batch, statement, rest, ha, hmade⟩ |
    ⟨i, batch, -, -, rfl⟩ | ⟨i, rfl⟩
  · rfl
  · rw [hmade.apply]
    split
    case isTrue haccount =>
      obtain ⟨haccount', hevents, -⟩ := statement_spec integer
        (hs.rest _ (List.mem_of_getElem? hmade.worker) statement List.mem_cons_self)
      have hid : ∀ v ∈ contactMap statement.events, integer v.1 ≠ some id := by
        intro v hv hv'
        obtain ⟨e, he, hn⟩ := mem_contactMap.mp (List.mem_map_of_mem hv)
        refine hnone i now ha _ hmade.worker (haccount.trans haccount').symm e (hevents e he) ?_
        rw [hn]
        exact hv'
      cases s.contacts accountId id with
      | none => rfl
      | some contact => exact congrArg some (setBounce_of_not_mem hid)
    case isFalse => rfl
  · rfl
  · rfl

theorem exec_inv {as : List (Action N)} (hs : Inv integer s)
    (h : exec (step integer) s as = some s') : Inv integer s' := by
  induction as generalizing s with
  | nil =>
      cases h
      exact hs
  | cons a as ih =>
      obtain ⟨s₁, hstep, hrest⟩ := exec_cons_eq_some.mp h
      exact ih (step_inv hs hstep) hrest

/-- In every run of any batches, in any order of their statements: a contact with a hard bounce
in a batch that was processed, or in a statement that was made, is `HARD`; one that was `HARD`
in an earlier state still is; and a step leaves every contact without a bounce in the batch it
is for. -/
theorem hard_absorbing (contacts : Contacts) (before after : List (Action N)) {earlier : State N}
    (hbefore : exec (step integer) (.init contacts) before = some earlier)
    (hafter : exec (step integer) earlier after = some s) :
    (∀ batch ∈ s.processed, ∀ e ∈ batch.events, ∀ id, Hard integer batch e id →
      IsHard s.contacts batch.accountId id) ∧
    (∀ batch e, (batch, e) ∈ s.executed → ∀ id, Hard integer batch e id →
      IsHard s.contacts batch.accountId id) ∧
    (∀ accountId id, IsHard earlier.contacts accountId id → IsHard s.contacts accountId id) ∧
    ∀ a s', step integer s a = some s' → ∀ accountId id,
      (∀ i now, a = .execute i now → ∀ worker, s.workers[i]? = some worker →
        worker.batch.accountId = accountId →
          ∀ e ∈ worker.batch.events, e.contactId.bind integer ≠ some id) →
      s'.contacts accountId id = s.contacts accountId id := by
  have hs : Inv integer s := exec_inv (exec_inv (inv_init contacts) hbefore) hafter
  refine ⟨?_, hs.hard, fun _ _ => exec_hard hafter, fun a s' h _ _ => step_unchanged hs h⟩
  intro batch hbatch e he id hid
  obtain ⟨statement, hstatement, he⟩ := hard_mem_statement he hid
  exact hs.hard batch e (hs.processed batch hbatch statement hstatement e he) id hid

end Proofs

end

/-- The hard bounce of a batch is written, and then the soft one of another. -/
theorem hard_then_soft : ∃ s, exec (step some) (.init fun _ _ => some ⟨false, none, none, 0⟩)
    [.receive (N := Int) ⟨.bounce, 1, [⟨some 5, some "bounce", 20⟩]⟩,
      .receive ⟨.blocked, 1, [⟨some 5, none, 30⟩]⟩, .execute 0 1, .execute 1 2] = some s ∧
    IsHard s.contacts 1 5 :=
  ⟨_, rfl, (hard_absorbing _ [.receive ⟨.bounce, 1, [⟨some 5, some "bounce", 20⟩]⟩,
      .receive ⟨.blocked, 1, [⟨some 5, none, 30⟩]⟩, .execute 0 1] [.execute 1 2] rfl rfl).2.1
    ⟨.bounce, 1, [⟨some 5, some "bounce", 20⟩]⟩ ⟨some 5, some "bounce", 20⟩
    List.mem_cons_self 5 ⟨rfl, by decide, rfl⟩⟩

end OpenBms.Events.Bounces
