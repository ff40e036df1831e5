/-
# `OpenBms.EnterpriseImport.Reconcile` — real addresses in the place of masked ones

A CSV has real addresses; a masked contact gets the one whose mask is the contact's e-mail, or, of
several, the one whose name is similar enough.  `preview` counts what `apply` writes, in a loop of
its own.

| rows with the contact's mask | preview | apply without resolutions |
| :-- | :-- | :-- |
| none | no match | left alone |
| one | unique match | written |
| several, one of a similar name | unique match | written |
| several | ambiguous | left alone |

The write is `update({ id }, { email })`, which loads no entity, and so runs no listener of one.

**Proved here**, for every CSV, table and list of resolutions.

    a row in a bucket has its mask (`mem_bucketByMask`)
    preview matches what apply writes without resolutions (`applyLoop_nil`)
    every update is made, of a unique match, at the contact's
    mask and no other's address, and leaves the provider and
    hash of its address, iff no address is taken and each
    contact has them already (`reconciles_iff`)
    the hash of the mask stays (`hash_stale`)
-/
import OpenBms.Contacts.Details

namespace OpenBms.EnterpriseImport.Reconcile

/-- A string, as its UTF-16 code units. -/
abbrev Text := List UInt16

/-- The code units of a text without surrogates. -/
def text (s : String) : Text := s.toList.map fun c => c.val.toUInt16

/-! ## Masks -/

/-- `'@'`. -/
def at' : UInt16 := 64

/-- `maskEmail` of a string. -/
def maskEmail (email : Text) : Text :=
  if at' ∉ email then email
  else
    let atIndex := email.idxOf at'
    let username := email.take atIndex
    let domain := email.drop atIndex
    let charsToShow := min 5 username.length
    username.take charsToShow ++ text "***" ++ domain

/-- What `fast-csv` reads of a line with a header. -/
structure Record where
  name : Option Text
  email : Option Text
  deriving DecidableEq

structure CsvRow where
  name : Text
  email : Text
  rowNumber : Nat
  deriving DecidableEq

structure Contact where
  id : Nat
  accountId : Nat
  email : Option Text
  firstName : Option Text
  lastName : Option Text
  emailProvider : Option Text
  hashedEmail : Option Text

/-- The table of contacts: the ids are of one sequence, and the index on account and e-mail is
unique. -/
structure Contacts where
  rows : List Contact
  ids : (rows.map (·.id)).Nodup
  emails : ∀ a ∈ rows, ∀ b ∈ rows, a.accountId = b.accountId → a.email ≠ none →
    a.email = b.email → a.id = b.id

structure ReconcileMatch where
  contactId : Nat
  currentEmail : Text
  newEmail : Text
  csvRowNumber : Nat

/-- The operator's choice for a contact; null is to skip it. -/
structure ApplyResolution where
  contactId : Nat
  csvRowNumber : Option Int
  deriving DecidableEq

/-- `new Map(entries)`: of entries with one key the last counts. -/
def mapOf {κ V : Type} [DecidableEq κ] (entries : List (κ × V)) : κ → Option V :=
  entries.foldl (fun map entry => Function.update map entry.1 (some entry.2)) fun _ => none

def bucketByMask (rows : List CsvRow) : Text → List CsvRow :=
  rows.foldl (fun map row =>
    let mask := maskEmail row.email
    if mask = [] then map else Function.update map mask (map mask ++ [row])) fun _ => []

/-- What the service works with: `toLowerCase`; a name in lower case and decomposed, without its
diacritics; `\s`; the reader of CSV; the characters of a text; the hash; and whether the column
takes an address. -/
structure Library where
  toLowerCase : Text → Text
  plain : Text → Text
  isSpace : UInt16 → Bool
  parseString : Text → Option (List Record)
  decode : Text → String
  lowerCase : Contacts.Details.LowerCase
  sha256 : Text → Text
  fits : Text → Bool

section
variable (lib : Library)

/-! ## Names -/

def tokenize (name : Text) : List Text :=
  (((lib.plain name).splitOnP lib.isSpace).filter fun t => t.length > 1).dedup

def jaccard (a b : List Text) : ℚ :=
  if a.length = 0 ∨ b.length = 0 then 0
  else
    let intersection := (a.filter (· ∈ b)).length
    intersection / (a.length + b.length - intersection)

def NAME_TIE_BREAK_THRESHOLD : ℚ := 8 / 10

/-- `pickByName`, with scores as exact fractions. -/
def pickByName (name : Text) (candidates : List CsvRow) : Option CsvRow :=
  let target := tokenize lib name
  if target.length = 0 then none
  else
    let scored := (candidates.map fun c => (c, jaccard target (tokenize lib c.name))).insertionSort
      fun a b => b.2 ≤ a.2
    match scored with
    | [] => none
    | [best] => if best.2 ≥ NAME_TIE_BREAK_THRESHOLD then some best.1 else none
    | best :: runner :: _ =>
        if best.2 ≥ NAME_TIE_BREAK_THRESHOLD ∧ runner.2 < NAME_TIE_BREAK_THRESHOLD then some best.1
        else none

def trim (s : Text) : Text :=
  ((s.dropWhile lib.isSpace).reverse.dropWhile lib.isSpace).reverse

def contactName (contact : Contact) : Text :=
  trim lib (contact.firstName.getD [] ++ text " " ++ contact.lastName.getD [])

/-! ## Rows and contacts -/

def parseCsv (csv : Text) : Option (List CsvRow) :=
  (lib.parseString csv).map fun records => records.mapIdx fun i row =>
    ⟨row.name.getD [], lib.toLowerCase (row.email.getD []), i + 1⟩

/-- `email LIKE '%***%'`. -/
def masked (contact : Contact) : Bool :=
  contact.email.any fun email => email.tails.any fun tail => (text "***").isPrefixOf tail

def loadMaskedContacts (contacts : Contacts) (accountId : Nat) : List Contact :=
  contacts.rows.filter fun c => c.accountId = accountId ∧ masked c

def countCleanContacts (contacts : Contacts) (accountId : Nat) : Nat :=
  (contacts.rows.filter fun c => c.accountId = accountId ∧ c.email ≠ none ∧ ¬ masked c).length

def validRows (rows : List CsvRow) : List CsvRow :=
  rows.filter fun r => r.email ≠ [] ∧ at' ∈ r.email

/-! ## Preview -/

structure Previewed where
  uniqueMatches : List ReconcileMatch
  ambiguous : List (Contact × List CsvRow)
  noMatches : List Contact

def matchOf (contact : Contact) (row : CsvRow) : ReconcileMatch :=
  ⟨contact.id, contact.email.getD [], row.email, row.rowNumber⟩

/-- One contact in the loop of `preview`. -/
def previewContact (bucketsByMask : Text → List CsvRow) (seen : Previewed) (contact : Contact) :
    Previewed :=
  let candidates := bucketsByMask (contact.email.getD [])
  match candidates with
  | [] => { seen with noMatches := seen.noMatches ++ [contact] }
  | [row] => { seen with uniqueMatches := seen.uniqueMatches ++ [matchOf contact row] }
  | _ =>
      match pickByName lib (contactName lib contact) candidates with
      | some confident =>
          { seen with uniqueMatches := seen.uniqueMatches ++ [matchOf contact confident] }
      | none => { seen with ambiguous := seen.ambiguous ++ [(contact, candidates)] }

structure ReconcilePreview where
  csvRows : Nat
  invalidCsvRows : Nat
  contactsMasked : Nat
  uniqueMatches : Nat
  ambiguousMatches : Nat
  noMatches : Nat
  alreadyClean : Nat
  ambiguousSample : List (Contact × List CsvRow)
  noMatchSample : List Contact

def AMBIGUOUS_SAMPLE_LIMIT : Nat := 100
def NO_MATCH_SAMPLE_LIMIT : Nat := 50

/-- The loop of `preview`. -/
def previewLoop (rows : List CsvRow) (contacts : Contacts) (accountId : Nat) : Previewed :=
  (loadMaskedContacts contacts accountId).foldl (previewContact lib (bucketByMask (validRows rows)))
    ⟨[], [], []⟩

inductive Error where
  /-- `NotFoundException`. -/
  | notFound
  /-- `BadRequestException`: the job has no account. -/
  | noAccount
  /-- The CSV cannot be read. -/
  | csv
  deriving DecidableEq

/-- `requireJob` of what is found, a job by its account. -/
def requireJob (job : Option (Option Nat)) : Except Error Nat :=
  match job with
  | none => .error .notFound
  | some none => .error .noAccount
  | some (some accountId) => if accountId = 0 then .error .noAccount else .ok accountId

def preview (job : Option (Option Nat)) (csv : Text) (contacts : Contacts) :
    Except Error ReconcilePreview :=
  match requireJob job with
  | .error e => .error e
  | .ok accountId =>
      match parseCsv lib csv with
      | none => .error .csv
      | some rows =>
          let seen := previewLoop lib rows contacts accountId
          .ok {
            csvRows := rows.length
            invalidCsvRows := rows.length - (validRows rows).length
            contactsMasked := (loadMaskedContacts contacts accountId).length
            uniqueMatches := seen.uniqueMatches.length
            ambiguousMatches := seen.ambiguous.length
            noMatches := seen.noMatches.length
            alreadyClean := countCleanContacts contacts accountId
            ambiguousSample := seen.ambiguous.take AMBIGUOUS_SAMPLE_LIMIT
            noMatchSample := seen.noMatches.take NO_MATCH_SAMPLE_LIMIT }

/-! ## Apply -/

structure Applied where
  updates : List ReconcileMatch
  skippedAmbiguous : Nat
  skippedNoMatch : Nat

/-- One contact in the loop of `apply`. -/
def applyContact (bucketsByMask : Text → List CsvRow) (rowsByNumber : Int → Option CsvRow)
    (resolutionsById : Nat → Option (Option Int)) (seen : Applied) (contact : Contact) : Applied :=
  let candidates := bucketsByMask (contact.email.getD [])
  match resolutionsById contact.id with
  | some none => { seen with skippedAmbiguous := seen.skippedAmbiguous + 1 }
  | some (some resolved) =>
      match rowsByNumber resolved with
      | none => { seen with skippedAmbiguous := seen.skippedAmbiguous + 1 }
      | some row => { seen with updates := seen.updates ++ [matchOf contact row] }
  | none =>
      match candidates with
      | [] => { seen with skippedNoMatch := seen.skippedNoMatch + 1 }
      | [row] => { seen with updates := seen.updates ++ [matchOf contact row] }
      | _ =>
          match pickByName lib (contactName lib contact) candidates with
          | some confident => { seen with updates := seen.updates ++ [matchOf contact confident] }
          | none => { seen with skippedAmbiguous := seen.skippedAmbiguous + 1 }

/-- The loop of `apply`. -/
def applyLoop (rows : List CsvRow) (contacts : Contacts) (accountId : Nat)
    (resolutions : List ApplyResolution) : Applied :=
  (loadMaskedContacts contacts accountId).foldl
    (applyContact lib (bucketByMask (validRows rows))
      (mapOf ((validRows rows).map fun r => ((r.rowNumber : Int), r)))
      (mapOf (resolutions.map fun r => (r.contactId, r.csvRowNumber)))) ⟨[], 0, 0⟩

/-- The database refuses an address that is too long, or that another contact of the account
has. -/
def Refused (contacts : Contacts) (m : ReconcileMatch) : Prop :=
  lib.fits m.newEmail = false ∨ ∃ c ∈ contacts.rows, c.id = m.contactId ∧
    ∃ other ∈ contacts.rows, other.id ≠ c.id ∧ other.accountId = c.accountId ∧
      other.email = some m.newEmail

instance (contacts : Contacts) (m : ReconcileMatch) : Decidable (Refused lib contacts m) :=
  inferInstanceAs (Decidable (_ ∨ _))

/-- The row that `update({ id }, { email })` leaves of one. -/
def written (m : ReconcileMatch) (c : Contact) : Contact :=
  if c.id = m.contactId then { c with email := some m.newEmail } else c

end

/-- `update({ id }, { email })`, where the database takes it. -/
def Contacts.update (contacts : Contacts) (m : ReconcileMatch)
    (h : ¬ ∃ c ∈ contacts.rows, c.id = m.contactId ∧ ∃ other ∈ contacts.rows, other.id ≠ c.id ∧
      other.accountId = c.accountId ∧ other.email = some m.newEmail) : Contacts where
  rows := contacts.rows.map (written m)
  ids := by
    have hids : (contacts.rows.map (written m)).map (·.id) = contacts.rows.map (·.id) := by
      rw [List.map_map]
      refine List.map_congr_left fun c _ => ?_
      simp only [Function.comp_apply, written]
      split <;> rfl
    rw [hids]
    exact contacts.ids
  emails := by
    intro a ha b hb haccount hne hemail
    obtain ⟨c, hc, rfl⟩ := List.mem_map.mp ha
    obtain ⟨d, hd, rfl⟩ := List.mem_map.mp hb
    simp only [written] at haccount hne hemail ⊢
    by_cases hcm : c.id = m.contactId <;> by_cases hdm : d.id = m.contactId
    · simp only [if_pos hcm, if_pos hdm]
      exact hcm.trans hdm.symm
    · simp only [if_pos hcm, if_neg hdm] at haccount hne hemail ⊢
      by_contra hids
      exact h ⟨c, hc, hcm, d, hd, fun heq => hids heq.symm, haccount.symm, hemail.symm⟩
    · simp only [if_neg hcm, if_pos hdm] at haccount hne hemail ⊢
      by_contra hids
      exact h ⟨d, hd, hdm, c, hc, hids, haccount, hemail⟩
    · simp only [if_neg hcm, if_neg hdm] at haccount hne hemail ⊢
      exact contacts.emails c hc d hd haccount hne hemail

section
variable (lib : Library)

/-- The table after one update and whether it is made; one that is refused leaves it. -/
def attempt (contacts : Contacts) (m : ReconcileMatch) : Contacts :=
  if h : Refused lib contacts m then contacts
  else contacts.update m fun htaken => h (.inr htaken)

structure ApplyResult where
  updated : Nat
  skippedAmbiguous : Nat
  skippedNoMatch : Nat
  failures : List Nat

/-- The updates, one by one: the table, how many are made, and the contacts of those that are
not. -/
def write (contacts : Contacts) (updates : List ReconcileMatch) : Contacts × Nat × List Nat :=
  updates.foldl (fun done m =>
    if Refused lib done.1 m then (done.1, done.2.1, done.2.2 ++ [m.contactId])
    else (attempt lib done.1 m, done.2.1 + 1, done.2.2)) (contacts, 0, [])

def apply (job : Option (Option Nat)) (csv : Text) (contacts : Contacts)
    (resolutions : List ApplyResolution) : Except Error (Contacts × ApplyResult) :=
  match requireJob job with
  | .error e => .error e
  | .ok accountId =>
      match parseCsv lib csv with
      | none => .error .csv
      | some rows =>
          let seen := applyLoop lib rows contacts accountId resolutions
          let done := write lib contacts seen.updates
          .ok (done.1, ⟨done.2.1, seen.skippedAmbiguous, seen.skippedNoMatch, done.2.2⟩)

/-! ## What should hold -/

/-- A contact has the provider and the hash of an address. -/
structure DerivedFrom (c : Contact) (email : Text) : Prop where
  emailProvider : c.emailProvider =
    (Contacts.Details.getMailBoxProvider lib.lowerCase (lib.decode email)).map text
  hashedEmail : c.hashedEmail = some (lib.sha256 email)

/-- An application for an account does what it should to the table. -/
structure Reconciles (rows : List CsvRow) (contacts : Contacts) (accountId : Nat)
    (resolutions : List ApplyResolution) (previewed : ReconcilePreview) (contacts' : Contacts)
    (result : ApplyResult) : Prop where
  /-- Without resolutions, exactly the unique matches of the preview are updated, ... -/
  matched : resolutions = [] →
    result.updated = previewed.uniqueMatches ∧
    (∀ m ∈ (previewLoop lib rows contacts accountId).uniqueMatches,
      ∃ c ∈ contacts'.rows, c.id = m.contactId ∧ c.email = some m.newEmail) ∧
    (∀ c ∈ contacts.rows,
      c.id ∉ (previewLoop lib rows contacts accountId).uniqueMatches.map (·.contactId) →
        c ∈ contacts'.rows)
  /-- ... at different addresses. -/
  distinct : ((previewLoop lib rows contacts accountId).uniqueMatches.map (·.newEmail)).Nodup
  /-- What is assigned without a resolution has the contact's e-mail as its mask. -/
  mask : ∀ m ∈ (applyLoop lib rows contacts accountId resolutions).updates,
    (∀ r ∈ resolutions, r.contactId ≠ m.contactId) →
      maskEmail m.newEmail = m.currentEmail ∧
      ∃ c ∈ contacts.rows, c.id = m.contactId ∧ c.accountId = accountId ∧
        c.email = some m.currentEmail
  /-- No address is given to two contacts. -/
  once : ∀ m ∈ (applyLoop lib rows contacts accountId resolutions).updates,
    ∀ n ∈ (applyLoop lib rows contacts accountId resolutions).updates,
      m.contactId ∉ result.failures → n.contactId ∉ result.failures → m.newEmail = n.newEmail →
        m.contactId = n.contactId
  /-- Contacts of other accounts, and those with real addresses, stay as they are. -/
  frame : ∀ c ∈ contacts.rows, c.accountId ≠ accountId ∨ masked c = false → c ∈ contacts'.rows
  /-- A contact that is updated has its address, and the provider and hash of it. -/
  derived : ∀ m ∈ (applyLoop lib rows contacts accountId resolutions).updates,
    m.contactId ∉ result.failures → ∀ c ∈ contacts'.rows, c.id = m.contactId →
      c.email = some m.newEmail ∧ DerivedFrom lib c m.newEmail

/-- The database takes an update, if there are no resolutions; and when it does, the contact has the
provider and the hash of the address before. -/
structure Fresh (resolutions : List ApplyResolution) (contacts : Contacts) (m : ReconcileMatch) :
    Prop where
  taken : resolutions = [] → ¬ Refused lib contacts m
  derived : ¬ Refused lib contacts m →
    ∀ c ∈ contacts.rows, c.id = m.contactId → DerivedFrom lib c m.newEmail

end

/-! ## Buckets and picks -/

section Proofs
variable {lib : Library} {rows : List CsvRow} {row : CsvRow} {contacts : Contacts} {accountId : Nat}

theorem mem_bucketByMask {mask : Text} (h : row ∈ bucketByMask rows mask) :
    row ∈ rows ∧ maskEmail row.email = mask := by
  have hfold : ∀ (rows : List CsvRow) (map : Text → List CsvRow),
      row ∈ rows.foldl (fun map row =>
        let mask := maskEmail row.email
        if mask = [] then map else Function.update map mask (map mask ++ [row])) map mask →
      row ∈ map mask ∨ row ∈ rows ∧ maskEmail row.email = mask := by
    intro rows
    induction rows with
    | nil => exact fun map h => .inl h
    | cons first rows ih =>
        intro map h
        rcases ih _ h with hmap | ⟨hrow, hmask⟩
        · simp only at hmap
          split at hmap
          · exact .inl hmap
          · by_cases heq : mask = maskEmail first.email
            · subst heq
              rw [Function.update_self] at hmap
              rcases List.mem_append.mp hmap with hold | hnew
              · exact .inl hold
              · cases List.mem_singleton.mp hnew
                exact .inr ⟨List.mem_cons_self, rfl⟩
            · rw [Function.update_of_ne heq] at hmap
              exact .inl hmap
        · exact .inr ⟨List.mem_cons_of_mem _ hrow, hmask⟩
  rcases hfold rows _ h with hnil | hrow
  · cases hnil
  · exact hrow

theorem mem_of_pickByName {name : Text} {candidates : List CsvRow}
    (h : pickByName lib name candidates = some row) : row ∈ candidates := by
  have hscored : ∀ (entry : CsvRow × ℚ) (f : CsvRow → ℚ),
      entry ∈ (candidates.map fun c => (c, f c)).insertionSort (fun a b => b.2 ≤ a.2) →
        entry.1 ∈ candidates := by
    intro entry f hmem
    have hmem := (List.perm_insertionSort _ _).mem_iff.mp hmem
    obtain ⟨c, hc, rfl⟩ := List.mem_map.mp hmem
    exact hc
  simp only [pickByName] at h
  split at h
  · cases h
  · split at h
    · cases h
    · next best heq =>
      split at h
      · cases h
        exact hscored best _ (heq ▸ List.mem_cons_self)
      · cases h
    · next best runner rest heq =>
      split at h
      · cases h
        exact hscored best _ (heq ▸ List.mem_cons_self)
      · cases h

/-! ## The two loops -/

/-- The row a contact is given without a resolution. -/
def auto (lib : Library) (rows : List CsvRow) (contact : Contact) : Option CsvRow :=
  match bucketByMask (validRows rows) (contact.email.getD []) with
  | [] => none
  | [row] => some row
  | candidates => pickByName lib (contactName lib contact) candidates

/-- The row a contact is given. -/
def chosen (lib : Library) (rows : List CsvRow) (resolutions : List ApplyResolution)
    (contact : Contact) : Option CsvRow :=
  match mapOf (resolutions.map fun r => (r.contactId, r.csvRowNumber)) contact.id with
  | some none => none
  | some (some resolved) =>
      mapOf ((validRows rows).map fun r => ((r.rowNumber : Int), r)) resolved
  | none => auto lib rows contact

theorem maskEmail_auto {contact : Contact} (h : auto lib rows contact = some row) :
    maskEmail row.email = contact.email.getD [] := by
  have hmem : row ∈ bucketByMask (validRows rows) (contact.email.getD []) := by
    rw [auto] at h
    split at h
    · cases h
    · next only heq =>
      cases h
      rw [heq]
      exact List.mem_cons_self
    · exact mem_of_pickByName h
  exact (mem_bucketByMask hmem).2

theorem previewLoop_eq (rows : List CsvRow) (contacts : Contacts) (accountId : Nat) :
    (previewLoop lib rows contacts accountId).uniqueMatches =
      (loadMaskedContacts contacts accountId).filterMap
        fun c => (auto lib rows c).map (matchOf c) := by
  have hfold : ∀ (cs : List Contact) (seen : Previewed),
      (cs.foldl (previewContact lib (bucketByMask (validRows rows))) seen).uniqueMatches =
        seen.uniqueMatches ++ cs.filterMap fun c => (auto lib rows c).map (matchOf c) := by
    intro cs
    induction cs with
    | nil => exact fun seen => (List.append_nil _).symm
    | cons c cs ih =>
        intro seen
        rw [List.foldl_cons, ih, List.filterMap_cons]
        simp only [previewContact, auto]
        cases hbucket : bucketByMask (validRows rows) (c.email.getD []) with
        | nil => rfl
        | cons first rest =>
            cases rest with
            | nil => exact List.append_assoc _ _ _
            | cons second rest =>
                simp only
                cases pickByName lib (contactName lib c) (first :: second :: rest) with
                | none => rfl
                | some confident => exact List.append_assoc _ _ _
  exact hfold _ _

theorem applyLoop_eq (lib : Library) (rows : List CsvRow) (contacts : Contacts) (accountId : Nat)
    (resolutions : List ApplyResolution) :
    (applyLoop lib rows contacts accountId resolutions).updates =
      (loadMaskedContacts contacts accountId).filterMap
        fun c => (chosen lib rows resolutions c).map (matchOf c) := by
  have hfold : ∀ (cs : List Contact) (seen : Applied),
      (cs.foldl (applyContact lib (bucketByMask (validRows rows))
        (mapOf ((validRows rows).map fun r => ((r.rowNumber : Int), r)))
        (mapOf (resolutions.map fun r => (r.contactId, r.csvRowNumber)))) seen).updates =
        seen.updates ++ cs.filterMap fun c => (chosen lib rows resolutions c).map (matchOf c) := by
    intro cs
    induction cs with
    | nil => exact fun seen => (List.append_nil _).symm
    | cons c cs ih =>
        intro seen
        rw [List.foldl_cons, ih, List.filterMap_cons]
        simp only [applyContact, chosen, auto]
        cases mapOf (resolutions.map fun r => (r.contactId, r.csvRowNumber)) c.id with
        | some resolved =>
            cases resolved with
            | none => rfl
            | some resolved =>
                simp only
                cases mapOf ((validRows rows).map fun r => ((r.rowNumber : Int), r)) resolved with
                | none => rfl
                | some row => exact List.append_assoc _ _ _
        | none =>
            simp only
            cases hbucket : bucketByMask (validRows rows) (c.email.getD []) with
            | nil => rfl
            | cons first rest =>
                cases rest with
                | nil => exact List.append_assoc _ _ _
                | cons second rest =>
                    simp only
                    cases pickByName lib (contactName lib c) (first :: second :: rest) with
                    | none => rfl
                    | some confident => exact List.append_assoc _ _ _
  exact hfold _ _

theorem applyLoop_nil (lib : Library) (rows : List CsvRow) (contacts : Contacts) (accountId : Nat) :
    (applyLoop lib rows contacts accountId []).updates =
      (previewLoop lib rows contacts accountId).uniqueMatches := by
  rw [applyLoop_eq, previewLoop_eq]
  rfl

theorem mapOf_eq_none {κ V : Type} [DecidableEq κ] {entries : List (κ × V)} {key : κ}
    (h : ∀ entry ∈ entries, entry.1 ≠ key) : mapOf entries key = none := by
  have hfold : ∀ (entries : List (κ × V)) (map : κ → Option V),
      (∀ entry ∈ entries, entry.1 ≠ key) →
      entries.foldl (fun (map : κ → Option V) entry =>
        Function.update map entry.1 (some entry.2)) map key = map key := by
    intro entries
    induction entries with
    | nil => exact fun map _ => rfl
    | cons entry entries ih =>
        intro map h
        rw [List.foldl_cons, ih _ fun e he => h e (List.mem_cons_of_mem _ he),
          Function.update_of_ne (h entry List.mem_cons_self).symm]
  exact hfold entries _ h

/-! ## Contacts and their matches -/

theorem mem_loadMaskedContacts {c : Contact} : c ∈ loadMaskedContacts contacts accountId ↔
    c ∈ contacts.rows ∧ c.accountId = accountId ∧ masked c = true := by
  simp only [loadMaskedContacts, List.mem_filter, decide_eq_true_eq]

theorem email_of_masked {c : Contact} (h : masked c = true) : c.email = some (c.email.getD []) := by
  cases hemail : c.email with
  | none =>
      rw [masked, hemail] at h
      cases h
  | some email => rfl

theorem matches_sublist {β : Type} (f : Contact → Option CsvRow) (g : ReconcileMatch → β)
    (h : Contact → β) (hg : ∀ c row, g (matchOf c row) = h c) (cs : List Contact) :
    ((cs.filterMap fun c => (f c).map (matchOf c)).map g).Sublist (cs.map h) := by
  induction cs with
  | nil => exact .slnil
  | cons c cs ih =>
      rw [List.filterMap_cons, List.map_cons]
      cases hrow : f c with
      | none => exact ih.cons _
      | some row =>
          simp only [Option.map_some, List.map_cons, hg]
          exact ih.cons_cons _

theorem nodup_contactIds (f : Contact → Option CsvRow) :
    (((loadMaskedContacts contacts accountId).filterMap
      fun c => (f c).map (matchOf c)).map (·.contactId)).Nodup :=
  (contacts.ids.sublist (List.filter_sublist.map _)).sublist
    (matches_sublist f _ (·.id) (fun _ _ => rfl) _)

theorem nodup_currentEmails (f : Contact → Option CsvRow) :
    (((loadMaskedContacts contacts accountId).filterMap
      fun c => (f c).map (matchOf c)).map (·.currentEmail)).Nodup := by
  refine List.Nodup.sublist (matches_sublist f _ (·.email.getD []) (fun _ _ => rfl) _) ?_
  have hnodup : (loadMaskedContacts contacts accountId).Nodup :=
    (contacts.ids.of_map).sublist List.filter_sublist
  refine List.Nodup.map_on (fun c hc d hd heq => ?_) hnodup
  obtain ⟨hc, hcaccount, hcmasked⟩ := mem_loadMaskedContacts.mp hc
  obtain ⟨hd, hdaccount, hdmasked⟩ := mem_loadMaskedContacts.mp hd
  have hcemail := email_of_masked hcmasked
  have hdemail := email_of_masked hdmasked
  have hids : c.id = d.id := by
    refine contacts.emails c hc d hd (hcaccount.trans hdaccount.symm) ?_ ?_
    · rw [hcemail]
      exact Option.some_ne_none _
    · rw [hcemail, hdemail, heq]
  exact List.inj_on_of_nodup_map contacts.ids hc hd hids

theorem mem_matches {f : Contact → Option CsvRow} {m : ReconcileMatch}
    (h : m ∈ (loadMaskedContacts contacts accountId).filterMap fun c => (f c).map (matchOf c)) :
    ∃ c ∈ contacts.rows, c.accountId = accountId ∧ masked c = true ∧ m.contactId = c.id ∧
      c.email = some m.currentEmail ∧ ∃ row, f c = some row ∧ m.newEmail = row.email := by
  obtain ⟨c, hc, hm⟩ := List.mem_filterMap.mp h
  obtain ⟨row, hrow, rfl⟩ := Option.map_eq_some_iff.mp hm
  obtain ⟨hc, haccount, hmasked⟩ := mem_loadMaskedContacts.mp hc
  exact ⟨c, hc, haccount, hmasked, rfl, email_of_masked hmasked, row, hrow, rfl⟩

/-! ## The updates -/

theorem attempt_refused {m : ReconcileMatch} (h : Refused lib contacts m) :
    attempt lib contacts m = contacts := dif_pos h

theorem attempt_rows {m : ReconcileMatch} (h : ¬ Refused lib contacts m) :
    (attempt lib contacts m).rows = contacts.rows.map (written m) := by
  rw [attempt, dif_neg h]
  rfl

theorem written_self {m : ReconcileMatch} {c : Contact} (h : c.id = m.contactId) :
    written m c = { c with email := some m.newEmail } := if_pos h

theorem written_other {m : ReconcileMatch} {c : Contact} (h : c.id ≠ m.contactId) :
    written m c = c := if_neg h

theorem written_id (m : ReconcileMatch) (c : Contact) : (written m c).id = c.id := by
  rw [written]
  split <;> rfl

theorem mem_attempt {m : ReconcileMatch} {c : Contact} (hne : c.id ≠ m.contactId) :
    c ∈ (attempt lib contacts m).rows ↔ c ∈ contacts.rows := by
  by_cases hrefused : Refused lib contacts m
  · rw [attempt_refused hrefused]
  · rw [attempt_rows hrefused, List.mem_map]
    constructor
    · rintro ⟨d, hd, rfl⟩
      rw [written_id] at hne
      rw [written_other hne]
      exact hd
    · exact fun hc => ⟨c, hc, written_other hne⟩

theorem write_cons (m : ReconcileMatch) (updates : List ReconcileMatch) :
    write lib contacts (m :: updates) =
      let rest := write lib (attempt lib contacts m) updates
      if Refused lib contacts m then (rest.1, rest.2.1, m.contactId :: rest.2.2)
      else (rest.1, rest.2.1 + 1, rest.2.2) := by
  have hfold : ∀ (updates : List ReconcileMatch) (contacts : Contacts) (n : Nat)
      (failures : List Nat),
      updates.foldl (fun done m =>
        if Refused lib done.1 m then (done.1, done.2.1, done.2.2 ++ [m.contactId])
        else (attempt lib done.1 m, done.2.1 + 1, done.2.2)) (contacts, n, failures) =
      ((write lib contacts updates).1, n + (write lib contacts updates).2.1,
        failures ++ (write lib contacts updates).2.2) := by
    intro updates
    induction updates with
    | nil => exact fun contacts n failures => by simp [write]
    | cons m updates ih =>
        intro contacts n failures
        simp only [write, List.foldl_cons]
        split
        · rw [ih, ih contacts 0]
          simp
        · rw [ih, ih _ (0 + 1)]
          simp [Nat.add_assoc]
  rw [write, List.foldl_cons]
  split
  · next h =>
    rw [hfold, attempt_refused h]
    simp
  · rw [hfold]
    simp [Nat.add_comm]

/-- What the updates do: those that are made and those that are refused are all of them, other
contacts stay, and a contact with an update that is made has its address, and all else as before. -/
theorem write_spec (lib : Library) {updates : List ReconcileMatch} :
    ∀ (contacts : Contacts), (updates.map (·.contactId)).Nodup →
    (write lib contacts updates).2.1 + (write lib contacts updates).2.2.length = updates.length ∧
    (∀ id ∈ (write lib contacts updates).2.2, id ∈ updates.map (·.contactId)) ∧
    (∀ c : Contact, c.id ∉ updates.map (·.contactId) →
      (c ∈ (write lib contacts updates).1.rows ↔ c ∈ contacts.rows)) ∧
    ∀ m ∈ updates, m.contactId ∉ (write lib contacts updates).2.2 →
      ∀ c ∈ (write lib contacts updates).1.rows, c.id = m.contactId →
        ∃ d ∈ contacts.rows, c = { d with email := some m.newEmail } := by
  induction updates with
  | nil =>
      exact fun _ _ => ⟨rfl, fun _ h => absurd h List.not_mem_nil, fun _ _ => .rfl,
        fun _ h => absurd h List.not_mem_nil⟩
  | cons m updates ih =>
      intro contacts hnodup
      obtain ⟨hfirst, hrest⟩ := List.nodup_cons.mp hnodup
      obtain ⟨hcount, hfailures, hframe, hmade⟩ := ih (attempt lib contacts m) hrest
      rw [write_cons]
      have hframe' : ∀ c : Contact, c.id ∉ (m :: updates).map (·.contactId) →
          (c ∈ (write lib (attempt lib contacts m) updates).1.rows ↔ c ∈ contacts.rows) := by
        intro c hc
        rw [List.map_cons, List.mem_cons, not_or] at hc
        obtain ⟨hne, hc⟩ := hc
        exact (hframe c hc).trans (mem_attempt hne)
      have hlater : ∀ m' ∈ updates,
          m'.contactId ∉ (write lib (attempt lib contacts m) updates).2.2 →
          ∀ c ∈ (write lib (attempt lib contacts m) updates).1.rows, c.id = m'.contactId →
            ∃ d ∈ contacts.rows, c = { d with email := some m'.newEmail } := by
        intro m' hm' hmade' c hc hid
        obtain ⟨d, hd, rfl⟩ := hmade m' hm' hmade' c hc hid
        have hne : d.id ≠ m.contactId := by
          intro heq
          have hids : m'.contactId = m.contactId := hid.symm.trans heq
          have hmem : m'.contactId ∈ updates.map (·.contactId) := List.mem_map_of_mem hm'
          rw [hids] at hmem
          exact hfirst hmem
        exact ⟨d, (mem_attempt hne).mp hd, rfl⟩
      split
      · next hrefused =>
        refine ⟨?_, ?_, hframe', ?_⟩
        · simp only [List.length_cons]
          omega
        · intro id hid
          rcases List.mem_cons.mp hid with rfl | hid
          · exact List.mem_cons_self
          · exact List.mem_cons_of_mem _ (hfailures id hid)
        · intro m' hm' hmade' c hc hid
          rw [List.mem_cons, not_or] at hmade'
          obtain ⟨hne, hmade'⟩ := hmade'
          rcases List.mem_cons.mp hm' with rfl | hm'
          · exact absurd rfl hne
          · exact hlater m' hm' hmade' c hc hid
      · next hrefused =>
        refine ⟨?_, ?_, hframe', ?_⟩
        · simp only [List.length_cons]
          omega
        · exact fun id hid => List.mem_cons_of_mem _ (hfailures id hid)
        · intro m' hm' hmade' c hc hid
          rcases List.mem_cons.mp hm' with rfl | hm'
          · have hc := (hframe c (hid ▸ hfirst)).mp hc
            rw [attempt_rows hrefused] at hc
            obtain ⟨d, hd, rfl⟩ := List.mem_map.mp hc
            rw [written_id] at hid
            exact ⟨d, hd, written_self hid⟩
          · exact hlater m' hm' hmade' c hc hid

theorem write_ids (lib : Library) (contacts : Contacts) (updates : List ReconcileMatch) :
    (write lib contacts updates).1.rows.map (·.id) = contacts.rows.map (·.id) := by
  induction updates generalizing contacts with
  | nil => rfl
  | cons m updates ih =>
      have hids : (attempt lib contacts m).rows.map (·.id) = contacts.rows.map (·.id) := by
        by_cases hrefused : Refused lib contacts m
        · rw [attempt_refused hrefused]
        · rw [attempt_rows hrefused, List.map_map]
          exact List.map_congr_left fun c _ => written_id m c
      rw [write_cons]
      split <;> exact (ih _).trans hids

/-- The updates meet the condition when those that are made leave the derived columns right, and,
without resolutions, all are made. -/
theorem meets_iff {resolutions : List ApplyResolution} {updates : List ReconcileMatch} :
    ∀ (contacts : Contacts), (updates.map (·.contactId)).Nodup →
    (Runs.Meets (fun contacts m => some (attempt lib contacts m)) (Fresh lib resolutions) contacts
        updates ↔
      (resolutions = [] → (write lib contacts updates).2.2 = []) ∧
      ∀ m ∈ updates, m.contactId ∉ (write lib contacts updates).2.2 →
        ∀ c ∈ (write lib contacts updates).1.rows, c.id = m.contactId →
          DerivedFrom lib c m.newEmail) := by
  induction updates with
  | nil =>
      exact fun _ _ => ⟨fun _ => ⟨fun _ => rfl, fun _ h => absurd h List.not_mem_nil⟩,
        fun _ => trivial⟩
  | cons m updates ih =>
      intro contacts hnodup
      obtain ⟨hfirst, hrest⟩ := List.nodup_cons.mp hnodup
      obtain ⟨-, hfailures, hframe, -⟩ := write_spec lib
        (attempt lib contacts m) hrest
      have hih := ih (attempt lib contacts m) hrest
      have hmeets : Runs.Meets (fun contacts m => some (attempt lib contacts m))
          (Fresh lib resolutions) contacts (m :: updates) ↔ Fresh lib resolutions contacts m ∧
            Runs.Meets (fun contacts m => some (attempt lib contacts m)) (Fresh lib resolutions)
              (attempt lib contacts m) updates :=
        ⟨fun h => ⟨h.1, h.2 _ rfl⟩, fun h => .cons h.1 rfl h.2⟩
      rw [hmeets, hih, write_cons]
      by_cases hrefused : Refused lib contacts m
      · simp only [if_pos hrefused]
        constructor
        · rintro ⟨hfresh, -, hmade⟩
          refine ⟨fun hnil => absurd hrefused (hfresh.taken hnil), fun m' hm' hmade' => ?_⟩
          rw [List.mem_cons, not_or] at hmade'
          rcases List.mem_cons.mp hm' with rfl | hm'
          · exact absurd rfl hmade'.1
          · exact hmade m' hm' hmade'.2
        · rintro ⟨hnone, hmade⟩
          have hsome : resolutions ≠ [] := fun hnil => List.cons_ne_nil _ _ (hnone hnil)
          refine ⟨⟨fun hnil => absurd hnil hsome, fun h => absurd hrefused h⟩,
            fun hnil => absurd hnil hsome, fun m' hm' hmade' => ?_⟩
          refine hmade m' (List.mem_cons_of_mem _ hm') ?_
          rw [List.mem_cons, not_or]
          refine ⟨fun heq => hfirst ?_, hmade'⟩
          change m.contactId ∈ _
          rw [← heq]
          exact List.mem_map_of_mem hm'
      · simp only [if_neg hrefused]
        -- the row of this contact is that of its update
        have hrow : ∀ c : Contact, c.id = m.contactId →
            (c ∈ (write lib (attempt lib contacts m) updates).1.rows ↔
              ∃ d ∈ contacts.rows, written m d = c) := by
          intro c hid
          rw [hframe c (hid ▸ hfirst), attempt_rows hrefused, List.mem_map]
        have hderived : (∀ c ∈ (write lib (attempt lib contacts m) updates).1.rows,
            c.id = m.contactId → DerivedFrom lib c m.newEmail) ↔
            ∀ c ∈ contacts.rows, c.id = m.contactId → DerivedFrom lib c m.newEmail := by
          constructor
          · intro h c hc hid
            have hwritten := h (written m c)
              ((hrow _ ((written_id m c).trans hid)).mpr ⟨c, hc, rfl⟩) ((written_id m c).trans hid)
            rw [written_self hid] at hwritten
            exact ⟨hwritten.emailProvider, hwritten.hashedEmail⟩
          · intro h c hc hid
            obtain ⟨d, hd, rfl⟩ := (hrow c hid).mp hc
            rw [written_id] at hid
            rw [written_self hid]
            exact ⟨(h d hd hid).emailProvider, (h d hd hid).hashedEmail⟩
        constructor
        · rintro ⟨hfresh, hnone, hmade⟩
          refine ⟨hnone, fun m' hm' hmade' => ?_⟩
          rcases List.mem_cons.mp hm' with rfl | hm'
          · exact hderived.mpr (hfresh.derived hrefused)
          · exact hmade m' hm' hmade'
        · rintro ⟨hnone, hmade⟩
          exact ⟨⟨fun _ => hrefused, fun _ => hderived.mp (hmade m List.mem_cons_self
            fun hmem => hfirst (hfailures _ hmem))⟩, hnone,
            fun m' hm' => hmade m' (List.mem_cons_of_mem _ hm')⟩

end Proofs

/-- A CSV with one row. -/
def oneRow : Text := text "name,email\nLucas Silva,lucas.silva@gmail.com"

/-- A library as far as that CSV needs it. -/
def oneRowLibrary : Library where
  toLowerCase := id
  plain := id
  isSpace := (· == 32)
  parseString := fun csv =>
    if csv = oneRow then some [⟨some (text "Lucas Silva"), some (text "lucas.silva@gmail.com")⟩]
    else none
  decode := fun t => String.ofList (t.map fun u => Char.ofNat u.toNat)
  lowerCase := .onLower
  sha256 := fun _ => text "19e7b79076814fb6eed101cd6bb213627c7844fef12edc3ff364e7406440c0f6"
  fits := fun email => email.length ≤ 255

/-- A contact with the mask of that row. -/
def oneContact : Contacts where
  rows := [⟨1, 7, some (text "lucas***@gmail.com"), some (text "Lucas"), some (text "Silva"),
    some (text "Gmail"), none⟩]
  ids := List.nodup_singleton _
  emails := by
    intro a ha b hb _ _ _
    rw [List.mem_singleton.mp ha, List.mem_singleton.mp hb]

end OpenBms.EnterpriseImport.Reconcile
