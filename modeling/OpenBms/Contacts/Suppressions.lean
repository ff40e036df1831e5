/-
# `OpenBms.Contacts.Suppressions` — the list of suppressed e-mails

`bulkUnsubscribe` and `bulkResubscribe` write the flags of an account's contacts, the
row of the e-mail in `suppressions`, and after the commit a key in Redis.  The flags and
the key belong to an account; the row is shared by all of them.

| request | the row of an e-mail |
| :-- | :-- |
| unsubscribe | `is_unsubscribed` is set, `is_blocked` stays |
| block | `is_blocked` is set, `is_unsubscribed` cleared |
| resubscribe | deleted, if `is_unsubscribed` |
| unblock | deleted, if `is_blocked` |

**Proved here.**

    a request leaves the contacts and the keys an account has
    blocked blocked, unless it is that account's own unblock (`step_isBlocked`, `step_blockedKey`)
    what was blocked once stays so over a run without it (`blocked_stays`)
    the rows of all that is blocked stay blocked over a run, iff
    nothing blocked is resubscribed while both flags are set, or
    unblocked by one account while another blocks it (`suppressed_iff`)
    an unsubscribe and a resubscribe lift a block (`block_lifted`)
-/
import OpenBms.Lib.Runs

namespace OpenBms.Contacts.Suppressions

/-- The flags of a contact, or of a suppression. -/
structure Flags where
  isUnsubscribed : Bool
  unsubscribedAt : Option Nat
  isBlocked : Bool
  blockedAt : Option Nat
  deriving DecidableEq

/-- A row of `contacts`. -/
structure Contact where
  accountId : Nat
  email : String
  flags : Flags
  deriving DecidableEq

/-- The rows of `contacts`, those of `suppressions` in the only group by their e-mail, and
the keys `${accountId}:blocked:${email}` and `${accountId}:unsubscribed:${email}`. -/
structure State where
  contacts : List Contact
  suppressions : String → Option Flags
  blocked : Nat → String → Bool
  unsubscribed : Nat → String → Bool

def State.empty : State := ⟨[], fun _ => none, fun _ _ => false, fun _ _ => false⟩

inductive Action where
  | bulkUnsubscribe
  | bulkResubscribe
  deriving DecidableEq

/-- A request.  `commits` tells whether its transaction does, and `executed` how many
commands reach Redis after it. -/
structure Request where
  action : Action
  accountId : Nat
  emails : List String
  block : Bool
  date : Nat
  commits : Bool
  executed : Nat

/-- Without e-mails a request returns at once, without an account it is refused, and when
its transaction fails it is rolled back. -/
def Request.Works (r : Request) : Prop :=
  r.emails ≠ [] ∧ r.accountId ≠ 0 ∧ r.commits = true

instance (r : Request) : Decidable r.Works :=
  inferInstanceAs (Decidable (_ ∧ _ ∧ _))

/-- What `bulkUnsubscribe` sets in the contacts. -/
def Flags.suppress (flags : Flags) (block : Bool) (date : Nat) : Flags :=
  if block then { flags with isBlocked := true, blockedAt := some date }
  else { flags with isUnsubscribed := true, unsubscribedAt := some date }

/-- What `bulkResubscribe` sets in the contacts. -/
def Flags.clear (flags : Flags) (block : Bool) : Flags :=
  if block then { flags with isBlocked := false, blockedAt := none }
  else { flags with isUnsubscribed := false, unsubscribedAt := none }

/-- The row that is inserted; the columns without a value have their defaults. -/
def inserted (block : Bool) (date : Nat) : Flags :=
  if block then ⟨false, none, true, some date⟩ else ⟨true, some date, false, none⟩

/-- The row after the conflict: the columns with a value are overwritten. -/
def Flags.overwrite (flags : Flags) (block : Bool) (date : Nat) : Flags :=
  if block then ⟨false, none, true, some date⟩
  else { flags with isUnsubscribed := true, unsubscribedAt := some date }

namespace State

/-- `UPDATE contacts … WHERE email IN (…) AND account_id = …`. -/
def updateContacts (s : State) (accountId : Nat) (emails : List String) (set : Flags → Flags) :
    State :=
  { s with
    contacts := s.contacts.map fun contact =>
      if contact.email ∈ emails ∧ contact.accountId = accountId then
        { contact with flags := set contact.flags }
      else contact }

/-- `upsert(SuppressionEntity, contacts, ['email', 'groupId'])`. -/
def upsert (s : State) (emails : List String) (block : Bool) (date : Nat) : State :=
  { s with
    suppressions := fun email =>
      if email ∈ emails then
        some ((s.suppressions email).elim (inserted block date) (·.overwrite block date))
      else s.suppressions email }

/-- `DELETE FROM suppressions … AND is_blocked = TRUE`, or `AND is_unsubscribed = TRUE`. -/
def deleteSuppressions (s : State) (emails : List String) (block : Bool) : State :=
  { s with
    suppressions := fun email =>
      if email ∈ emails then
        (s.suppressions email).filter fun row => !(if block then row.isBlocked else row.isUnsubscribed)
      else s.suppressions email }

/-- The keys of the e-mails are set, or deleted. -/
def writeKeys (s : State) (accountId : Nat) (emails : List String) (block value : Bool) : State :=
  let write (keys : Nat → String → Bool) : Nat → String → Bool := fun account email =>
    if account = accountId ∧ email ∈ emails then value else keys account email
  if block then { s with blocked := write s.blocked }
  else { s with unsubscribed := write s.unsubscribed }

/-- One `SET` for each e-mail, in a pipeline. -/
def bulkUnsubscribe (s : State) (r : Request) : State :=
  ((s.updateContacts r.accountId r.emails (·.suppress r.block r.date)).upsert r.emails r.block
    r.date).writeKeys r.accountId (r.emails.take r.executed) r.block true

/-- One `DEL` for all e-mails. -/
def bulkResubscribe (s : State) (r : Request) : State :=
  ((s.updateContacts r.accountId r.emails (·.clear r.block)).deleteSuppressions r.emails
    r.block).writeKeys r.accountId (if r.executed = 0 then [] else r.emails) r.block false

def step (s : State) (r : Request) : State :=
  if r.Works then
    match r.action with
    | .bulkUnsubscribe => s.bulkUnsubscribe r
    | .bulkResubscribe => s.bulkResubscribe r
  else s

end State

/-! ## What a request leaves blocked -/

/-- The request is the account's, and unblocks the e-mail. -/
def Request.Unblocks (r : Request) (account : Nat) (email : String) : Prop :=
  r.action = .bulkResubscribe ∧ r.block = true ∧ r.accountId = account ∧ email ∈ r.emails

instance (r : Request) (account : Nat) (email : String) : Decidable (r.Unblocks account email) :=
  inferInstanceAs (Decidable (_ ∧ _ ∧ _ ∧ _))

section
variable {s : State} {r : Request} {account : Nat} {email : String} {row : Flags}

theorem step_bulkUnsubscribe (hworks : r.Works) (haction : r.action = .bulkUnsubscribe) :
    s.step r = s.bulkUnsubscribe r := by
  rw [State.step, if_pos hworks, haction]

theorem step_bulkResubscribe (hworks : r.Works) (haction : r.action = .bulkResubscribe) :
    s.step r = s.bulkResubscribe r := by
  rw [State.step, if_pos hworks, haction]

theorem step_of_not_works (hworks : ¬ r.Works) : s.step r = s := if_neg hworks

theorem suppress_isBlocked {flags : Flags} {block : Bool} {date : Nat}
    (h : flags.isBlocked = true) : (flags.suppress block date).isBlocked = true := by
  cases block with
  | true => rfl
  | false => exact h

theorem clear_isBlocked {flags : Flags} (h : flags.isBlocked = true) :
    (flags.clear false).isBlocked = true := h

@[simp] theorem writeKeys_contacts {emails : List String} {block value : Bool} :
    (s.writeKeys account emails block value).contacts = s.contacts := by
  cases block <;> rfl

@[simp] theorem writeKeys_suppressions {emails : List String} {block value : Bool} :
    (s.writeKeys account emails block value).suppressions = s.suppressions := by
  cases block <;> rfl

theorem bulkUnsubscribe_contacts : (s.bulkUnsubscribe r).contacts =
    (s.updateContacts r.accountId r.emails (·.suppress r.block r.date)).contacts :=
  writeKeys_contacts

theorem bulkResubscribe_contacts : (s.bulkResubscribe r).contacts =
    (s.updateContacts r.accountId r.emails (·.clear r.block)).contacts :=
  writeKeys_contacts

/-- A blocked contact stays blocked unless its own account unblocks it. -/
theorem step_isBlocked {i : Nat} {contact : Contact} (hi : s.contacts[i]? = some contact)
    (hblocked : contact.flags.isBlocked = true)
    (hnot : ¬ r.Unblocks contact.accountId contact.email) :
    ∃ contact', (s.step r).contacts[i]? = some contact' ∧ contact'.accountId = contact.accountId ∧
      contact'.email = contact.email ∧ contact'.flags.isBlocked = true := by
  by_cases hworks : r.Works
  · have hset : ∀ set : Flags → Flags, (r.accountId = contact.accountId → contact.email ∈ r.emails →
        (set contact.flags).isBlocked = true) →
        ∃ contact', (s.updateContacts r.accountId r.emails set).contacts[i]? = some contact' ∧
          contact'.accountId = contact.accountId ∧ contact'.email = contact.email ∧
          contact'.flags.isBlocked = true := by
      intro set hset
      simp only [State.updateContacts, List.getElem?_map, hi, Option.map_some, Option.some_inj,
        exists_eq_left']
      split
      · rename_i hmine
        exact ⟨rfl, rfl, hset hmine.2.symm hmine.1⟩
      · exact ⟨rfl, rfl, hblocked⟩
    cases haction : r.action with
    | bulkUnsubscribe =>
        rw [step_bulkUnsubscribe hworks haction, bulkUnsubscribe_contacts]
        exact hset (·.suppress r.block r.date) fun _ _ => suppress_isBlocked hblocked
    | bulkResubscribe =>
        rw [step_bulkResubscribe hworks haction, bulkResubscribe_contacts]
        refine hset (·.clear r.block) fun haccount hemail => ?_
        cases hblock : r.block with
        | true => exact absurd ⟨haction, hblock, haccount, hemail⟩ hnot
        | false => exact clear_isBlocked hblocked
  · rw [step_of_not_works hworks]
    exact ⟨contact, hi, rfl, rfl, hblocked⟩

theorem run_isBlocked {i : Nat} {contact : Contact} (requests : List Request)
    (hi : s.contacts[i]? = some contact) (hblocked : contact.flags.isBlocked = true)
    (hnot : ∀ r ∈ requests, ¬ r.Unblocks contact.accountId contact.email) :
    ∃ contact', (requests.foldl State.step s).contacts[i]? = some contact' ∧
      contact'.email = contact.email ∧ contact'.flags.isBlocked = true := by
  induction requests generalizing s contact with
  | nil => exact ⟨contact, hi, rfl, hblocked⟩
  | cons r requests ih =>
      obtain ⟨next, hnext, haccount, hemail, hstays⟩ :=
        step_isBlocked hi hblocked (hnot r List.mem_cons_self)
      obtain ⟨last, hlast, hsame, hend⟩ := ih hnext hstays fun r' hmem => by
        rw [haccount, hemail]
        exact hnot r' (List.mem_cons_of_mem r hmem)
      exact ⟨last, hlast, hsame.trans hemail, hend⟩

/-- After a block that commits, whatever of it reaches Redis, the row stays blocked over
any requests that are not its own account's unblock. -/
theorem blocked_stays {i : Nat} {contact : Contact} (requests : List Request)
    (hi : s.contacts[i]? = some contact) (hworks : r.Works)
    (haction : r.action = .bulkUnsubscribe) (hblock : r.block = true)
    (haccount : contact.accountId = r.accountId) (hemail : contact.email ∈ r.emails)
    (hnot : ∀ r' ∈ requests, ¬ r'.Unblocks contact.accountId contact.email) :
    ∃ contact', (requests.foldl State.step (s.step r)).contacts[i]? = some contact' ∧
      contact'.email = contact.email ∧ contact'.flags.isBlocked = true := by
  have hrow : (s.step r).contacts[i]? =
      some { contact with flags := contact.flags.suppress true r.date } := by
    rw [step_bulkUnsubscribe hworks haction, bulkUnsubscribe_contacts]
    simp only [State.updateContacts, List.getElem?_map, hi, Option.map_some, hemail, haccount,
      hblock, and_self, if_true]
  obtain ⟨last, hlast, hsame, hend⟩ := run_isBlocked requests hrow rfl hnot
  exact ⟨last, hlast, hsame, hend⟩

def sampleContact : Contact := ⟨1, "ana@example.com", ⟨false, none, false, none⟩⟩

/-- A request of an account about the contact's address, cut off from Redis. -/
def sampleRequest (action : Action) (accountId : Nat) : Request :=
  ⟨action, accountId, ["ana@example.com"], true, 7, true, 0⟩

/-- Account 1 blocks an address; account 2 blocks and unblocks the same one. -/
theorem blocked_stays_sample : ∃ contact',
    ([sampleRequest .bulkUnsubscribe 2, sampleRequest .bulkResubscribe 2].foldl State.step
      (State.step { State.empty with contacts := [sampleContact] }
        (sampleRequest .bulkUnsubscribe 1))).contacts[0]? = some contact' ∧
      contact'.email = "ana@example.com" ∧ contact'.flags.isBlocked = true := by
  have hworks : (sampleRequest .bulkUnsubscribe 1).Works := by decide
  have hmem : sampleContact.email ∈ (sampleRequest .bulkUnsubscribe 1).emails := by decide
  have hnot : ∀ r ∈ [sampleRequest .bulkUnsubscribe 2, sampleRequest .bulkResubscribe 2],
      ¬ r.Unblocks sampleContact.accountId sampleContact.email := by decide
  exact blocked_stays _ rfl hworks rfl rfl rfl hmem hnot

theorem step_blockedKey (hkey : s.blocked account email = true)
    (hnot : ¬ r.Unblocks account email) : (s.step r).blocked account email = true := by
  by_cases hworks : r.Works
  · cases haction : r.action with
    | bulkUnsubscribe =>
        rw [step_bulkUnsubscribe hworks haction, State.bulkUnsubscribe, State.writeKeys]
        cases r.block with
        | true =>
            simp only [if_true]
            split
            · rfl
            · exact hkey
        | false => exact hkey
    | bulkResubscribe =>
        rw [step_bulkResubscribe hworks haction, State.bulkResubscribe, State.writeKeys]
        cases hblock : r.block with
        | true =>
            simp only [if_true]
            rw [if_neg]
            · exact hkey
            · rintro ⟨haccount, hemail⟩
              refine hnot ⟨haction, hblock, haccount.symm, ?_⟩
              split at hemail
              · cases hemail
              · exact hemail
        | false => exact hkey
  · rw [step_of_not_works hworks]
    exact hkey

/-! ## The shared row -/

/-- The row of an e-mail is there and blocks it. -/
def State.Suppresses (s : State) (email : String) : Prop :=
  ∃ row, s.suppressions email = some row ∧ row.isBlocked = true

theorem overwrite_isBlocked {date : Nat} (h : row.isBlocked = true) {block : Bool} :
    (row.overwrite block date).isBlocked = true := by
  cases block with
  | true => rfl
  | false => exact h

theorem bulkUnsubscribe_suppressions : (s.bulkUnsubscribe r).suppressions email =
    if email ∈ r.emails then
      some ((s.suppressions email).elim (inserted r.block r.date) (·.overwrite r.block r.date))
    else s.suppressions email := by
  rw [State.bulkUnsubscribe, writeKeys_suppressions]
  rfl

theorem bulkResubscribe_suppressions : (s.bulkResubscribe r).suppressions email =
    if email ∈ r.emails then
      (s.suppressions email).filter fun row => !(if r.block then row.isBlocked else row.isUnsubscribed)
    else s.suppressions email := by
  rw [State.bulkResubscribe, writeKeys_suppressions]
  rfl

/-- No upsert lifts a block. -/
theorem bulkUnsubscribe_suppresses (h : s.Suppresses email) :
    (s.bulkUnsubscribe r).Suppresses email := by
  obtain ⟨row, hrow, hblocked⟩ := h
  rw [State.Suppresses, bulkUnsubscribe_suppressions, hrow]
  split
  · exact ⟨_, rfl, overwrite_isBlocked hblocked⟩
  · exact ⟨row, rfl, hblocked⟩

/-- An upsert with the option blocks. -/
theorem bulkUnsubscribe_blocks (hblock : r.block = true) (hemail : email ∈ r.emails) :
    (s.bulkUnsubscribe r).Suppresses email := by
  rw [State.Suppresses, bulkUnsubscribe_suppressions, if_pos hemail, hblock]
  refine ⟨_, rfl, ?_⟩
  cases s.suppressions email with
  | none => rfl
  | some row => rfl

theorem bulkResubscribe_suppresses (h : s.Suppresses email) :
    (s.bulkResubscribe r).Suppresses email ↔
      (email ∈ r.emails → r.block = false ∧
        ∀ row, s.suppressions email = some row → row.isUnsubscribed = false) := by
  obtain ⟨row, hrow, hblocked⟩ := h
  rw [State.Suppresses, bulkResubscribe_suppressions, hrow]
  by_cases hemail : email ∈ r.emails
  · rw [if_pos hemail]
    simp only [hemail, true_imp_iff, Option.some_inj, forall_eq', Option.filter_eq_some_iff]
    cases hblock : r.block with
    | true =>
        simp only [if_true, Bool.true_eq_false, false_and, iff_false, not_exists, not_and]
        rintro _ ⟨rfl, hkept⟩
        rw [hblocked] at hkept
        cases hkept
    | false =>
        simp only [Bool.false_eq_true, if_false, true_and]
        constructor
        · rintro ⟨_, ⟨rfl, hkept⟩, -⟩
          exact (Bool.not_eq_true' _).mp hkept
        · intro hsub
          exact ⟨row, ⟨rfl, (Bool.not_eq_true' _).mpr hsub⟩, hblocked⟩
  · rw [if_neg hemail]
    exact ⟨fun _ hmem => absurd hmem hemail, fun _ => ⟨row, rfl, hblocked⟩⟩

end

/-! ## Runs -/

/-- What is stored, and which e-mails an account has blocked and not unblocked since. -/
structure History where
  stored : State
  blocks : Nat → String → Bool

/-- Before the first request nobody has blocked anything; the tables hold any rows. -/
def History.start (stored : State) : History := ⟨stored, fun _ _ => false⟩

def History.step (h : History) (r : Request) : History where
  stored := h.stored.step r
  blocks account email :=
    if r.Works ∧ r.block = true ∧ r.accountId = account ∧ email ∈ r.emails then
      r.action = .bulkUnsubscribe
    else h.blocks account email

/-- Whatever an account has blocked is suppressed. -/
def History.Safe (h : History) : Prop :=
  ∀ account email, h.blocks account email = true → h.stored.Suppresses email

/-- The request lifts no block: it resubscribes no blocked e-mail whose row is unsubscribed
too, and unblocks none that another account blocks. -/
def Guarded (h : History) (r : Request) : Prop :=
  r.Works → r.action = .bulkResubscribe → ∀ email ∈ r.emails, ∀ account,
    h.blocks account email = true →
      if r.block then account = r.accountId
      else ∀ row, h.stored.suppressions email = some row → row.isUnsubscribed = false

section
variable {h : History} {r : Request}

theorem step_blocks {account : Nat} {email : String} : (h.step r).blocks account email =
    if r.Works ∧ r.block = true ∧ r.accountId = account ∧ email ∈ r.emails then
      decide (r.action = .bulkUnsubscribe)
    else h.blocks account email := rfl

/-- What one request keeps, and when. -/
theorem History.Safe.step_iff (hsafe : h.Safe) : (h.step r).Safe ↔ Guarded h r := by
  by_cases hworks : r.Works
  swap
  · have hstored : (h.step r).stored = h.stored := step_of_not_works hworks
    refine ⟨fun _ hwork => absurd hwork hworks, fun _ account email hblocks => ?_⟩
    rw [hstored]
    refine hsafe account email ?_
    rwa [step_blocks, if_neg fun hr => hworks hr.1] at hblocks
  cases haction : r.action with
  | bulkUnsubscribe =>
      have hstored : (h.step r).stored = h.stored.bulkUnsubscribe r :=
        step_bulkUnsubscribe hworks haction
      refine ⟨fun _ _ hother => ?_, fun _ account email hblocks => ?_⟩
      · rw [haction] at hother
        cases hother
      · rw [hstored]
        by_cases hmine : r.block = true ∧ r.accountId = account ∧ email ∈ r.emails
        · exact bulkUnsubscribe_blocks hmine.1 hmine.2.2
        · rw [step_blocks, if_neg fun hr => hmine hr.2] at hblocks
          exact bulkUnsubscribe_suppresses (hsafe account email hblocks)
  | bulkResubscribe =>
      have hstored : (h.step r).stored = h.stored.bulkResubscribe r :=
        step_bulkResubscribe hworks haction
      have hblocks : ∀ account email, (h.step r).blocks account email = true ↔
          h.blocks account email = true ∧
            ¬ (r.block = true ∧ r.accountId = account ∧ email ∈ r.emails) := by
        intro account email
        rw [step_blocks]
        simp only [hworks, true_and, haction]
        split
        · rename_i hmine
          simp only [reduceCtorEq, decide_false, Bool.false_eq_true, false_iff]
          exact fun hr => hr.2 hmine
        · rename_i hmine
          exact ⟨fun hr => ⟨hr, hmine⟩, fun hr => hr.1⟩
      constructor
      · intro hsafe' _ _ email hemail account hheld
        have hsuppresses := hsafe account email hheld
        cases hblock : r.block with
        | true =>
            simp only [if_true]
            by_contra hother
            have hkept := hsafe' account email ((hblocks account email).mpr
              ⟨hheld, fun hr => hother hr.2.1.symm⟩)
            rw [hstored, bulkResubscribe_suppresses hsuppresses, hblock] at hkept
            cases (hkept hemail).1
        | false =>
            simp only [Bool.false_eq_true, if_false]
            have hkept := hsafe' account email ((hblocks account email).mpr
              ⟨hheld, fun hr => by rw [hblock] at hr; cases hr.1⟩)
            rw [hstored, bulkResubscribe_suppresses hsuppresses] at hkept
            exact (hkept hemail).2
      · intro hguard account email hheld
        obtain ⟨hheld, hother⟩ := (hblocks account email).mp hheld
        rw [hstored, bulkResubscribe_suppresses (hsafe account email hheld)]
        intro hemail
        have hrow := hguard hworks haction email hemail account hheld
        cases hblock : r.block with
        | true =>
            rw [hblock, if_pos rfl] at hrow
            exact absurd ⟨hblock, hrow.symm, hemail⟩ hother
        | false =>
            rw [hblock, if_neg Bool.false_ne_true] at hrow
            exact ⟨rfl, hrow⟩

end

/-- In the states of a run the e-mails an account has blocked and not unblocked are
suppressed, exactly when no request of the run lifts a block. -/
theorem suppressed_iff (stored : State) (rs : List Request) :
    (∀ before after, rs = before ++ after →
      (before.foldl History.step (History.start stored)).Safe) ↔
    Runs.Meets (fun h r => some (h.step r)) Guarded (History.start stored) rs := by
  refine Runs.always_iff (fun h r hsafe => hsafe.step_iff) ?_ rs
  intro _ _ hblocks
  cases hblocks

/-- No row is left after an account blocks, unsubscribes and resubscribes an e-mail, nor
after a second account blocks and unblocks it. -/
theorem block_lifted :
    (∃ rs : List Request, (∀ r ∈ rs, ¬ r.Unblocks 1 "x@y.z") ∧ (∀ r ∈ rs, r.accountId = 1) ∧
      ¬ (rs.foldl History.step (History.start State.empty)).Safe) ∧
    ∃ rs : List Request, (∀ r ∈ rs, ¬ r.Unblocks 1 "x@y.z") ∧
      ¬ (rs.foldl History.step (History.start State.empty)).Safe := by
  refine ⟨⟨[⟨.bulkUnsubscribe, 1, ["x@y.z"], true, 0, true, 1⟩,
    ⟨.bulkUnsubscribe, 1, ["x@y.z"], false, 1, true, 1⟩,
    ⟨.bulkResubscribe, 1, ["x@y.z"], false, 2, true, 1⟩], by decide, by decide, fun hsafe => ?_⟩,
    [⟨.bulkUnsubscribe, 1, ["x@y.z"], true, 0, true, 1⟩,
    ⟨.bulkUnsubscribe, 2, ["x@y.z"], true, 1, true, 1⟩,
    ⟨.bulkResubscribe, 2, ["x@y.z"], true, 2, true, 1⟩], by decide, fun hsafe => ?_⟩
  · obtain ⟨row, hrow, -⟩ := hsafe 1 "x@y.z" (by decide)
    exact absurd hrow (by rintro ⟨⟩)
  · obtain ⟨row, hrow, -⟩ := hsafe 1 "x@y.z" (by decide)
    exact absurd hrow (by rintro ⟨⟩)

end OpenBms.Contacts.Suppressions
