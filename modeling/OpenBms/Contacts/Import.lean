/-
# `OpenBms.Contacts.Import` — a batch of rows into the contacts

`importContacts` looks the stored contacts of the batch's e-mails up once, and then takes the rows
one after the other: a contact is saved, and after it its custom fields.

| a row | what is saved |
| :-- | :-- |
| its e-mail was stored before the batch | that contact as it was then, with the row's values |
| any other | a new contact, which the unique index on account and e-mail may refuse |
| it has a value of a custom field | `ON CONFLICT (contact_id, custom_field_id)`, which no index has |

There is no transaction around the rows.

**Proved here**, for every batch and database.

    no row with a value of a custom field is applied (`upsert_importTarget`)
    a row leaves the contacts of other e-mails (`mem_applyRow`)
    the batch ends with one contact for each e-mail, with its
    last row's values, or with no row applied, iff every row
    is taken and no stored e-mail of the batch has capitals,
    or the first row is refused (`imports_iff`)
    a custom field leaves its contact behind (`contact_left`)
-/
import OpenBms.Contacts.Details

namespace OpenBms.Contacts.Import
open Details

/-! ## Rows and headers -/

/-- What a column of the batch may be mapped to, among the contact's columns. -/
inductive Field where
  | email
  | phone
  | whatsapp
  | other (name : String)
  deriving DecidableEq

inductive Header where
  | ignore
  | customField (name : String)
  | fullName
  | contacts (field : Field)
  deriving DecidableEq

/-- The columns of a partial contact: `none` is undefined, and `some none` null. -/
abbrev Fields := Field → Option (Option String)

/-- A row that is parsed. -/
structure Parsed where
  contact : Fields
  customFields : List (String × Option String)

/-- A key of an object is set: in its place, if it is there. -/
def setKey (entries : List (String × Option String)) (name : String) (value : Option String) :
    List (String × Option String) :=
  if name ∈ entries.map Prod.fst then
    entries.map fun entry => if entry.1 = name then (name, value) else entry
  else entries ++ [(name, value)]

/-- One cell of a row: `const [first, ...rest] = String(cell ?? '').split(' ')` for a full name. -/
def parseCell (parsed : Parsed) (header : Option Header) (cell : Option String) : Parsed :=
  match header with
  | none | some .ignore => parsed
  | some (.customField name) =>
      { parsed with customFields := setKey parsed.customFields name cell }
  | some .fullName =>
      let letters := (cell.getD "").toList
      let first := String.ofList (letters.takeWhile (· ≠ ' '))
      let rest := String.ofList ((letters.dropWhile (· ≠ ' ')).drop 1)
      let contact := Function.update parsed.contact (.other "firstName") (some (some first))
      { parsed with contact := Function.update contact (.other "lastName") (some (some rest)) }
  | some (.contacts field) =>
      { parsed with contact := Function.update parsed.contact field (some cell) }

def parseRow (headers : Nat → Option Header) (row : List (Option String)) : Parsed :=
  row.zipIdx.foldl (fun parsed cell => parseCell parsed (headers cell.2) cell.1) ⟨fun _ => none, []⟩

/-- The row's e-mail, if it has one. -/
def Parsed.email (row : Parsed) : Option String := (row.contact .email).join.filter (· ≠ "")

/-- The rows with an e-mail, a phone or a WhatsApp number. -/
def parsed (headers : Nat → Option Header) (rows : List (List (Option String))) : List Parsed :=
  (rows.map (parseRow headers)).filter fun row => filled (row.contact .email).join ||
    filled (row.contact .phone).join || filled (row.contact .whatsapp).join

/-! ## The database -/

/-- A row of `contacts`. -/
structure Contact where
  id : Nat
  accountId : Nat
  details : Row
  others : String → Option String

/-- A row of `contacts_custom_fields`; one that is written may come without an account. -/
structure CustomField where
  accountId : Option Nat
  contactId : Nat
  customFieldId : Nat
  value : String

structure Db where
  contacts : List Contact
  nextId : Nat
  customFields : List CustomField

/-- The ids are of the sequence, and the index on account and e-mail is unique. -/
structure Db.Valid (db : Db) : Prop where
  ids : (db.contacts.map (·.id)).Nodup
  next : ∀ c ∈ db.contacts, c.id < db.nextId
  emails : ∀ a ∈ db.contacts, ∀ b ∈ db.contacts, a.accountId = b.accountId →
    a.details.email ≠ none → a.details.email = b.details.email → a.id = b.id

inductive Key where
  | account_id
  | contact_id
  | custom_field_id
  | value
  deriving DecidableEq

/-- The primary key and the unique constraint of `contacts_custom_fields`. -/
def uniqueKeys : List (List Key) :=
  [[.account_id, .contact_id, .custom_field_id, .value], [.account_id, .contact_id, .custom_field_id]]

def CustomField.key (row : CustomField) : Key → Option (Nat ⊕ String)
  | .account_id => row.accountId.map .inl
  | .contact_id => some (.inl row.contactId)
  | .custom_field_id => some (.inl row.customFieldId)
  | .value => some (.inr row.value)

/-- `insert().values(rows).orUpdate(['value'], target)`: the database refuses a target without a
constraint, and rows without an account. -/
def upsert (target : List Key) (table rows : List CustomField) : Option (List CustomField) :=
  if target ∉ uniqueKeys ∨ rows.any (·.accountId.isNone) then none
  else some (rows.foldl (fun table row =>
    if table.any fun stored => target.all fun key => stored.key key = row.key key then
      table.map fun stored =>
        if target.all fun key => stored.key key = row.key key then { stored with value := row.value }
        else stored
    else table ++ [row]) table)

/-- The target `importContacts` names. -/
def importTarget : List Key := [.contact_id, .custom_field_id]

/-- What an import is made with: `toLowerCase`, the hash, the account, the other columns of the
entity with their defaults, the default of `has_email`, whether the columns take a contact's values,
and the custom fields of the account. -/
structure Setting where
  lowerCase : LowerCase
  hash : String → String
  accountId : Nat
  columns : List String
  columnDefault : String → Option String
  hasEmailDefault : Bool
  accepts : Contact → Bool
  customFields : List (String × Nat)

variable (setting : Setting)

/-- The last with a key, as in a `Map`. -/
def last {α : Type} (list : List α) (p : α → Bool) : Option α := list.reverse.find? p

/-- `findContactByEmail`. -/
def findContactByEmail (db : Db) (emails : List String) : List Contact :=
  db.contacts.filter fun c => c.accountId = setting.accountId ∧
    c.details.email.any fun email => email ∈ emails

/-- `emails` of the batch, in lower case. -/
def emails (rows : List Parsed) : List String :=
  (rows.filterMap Parsed.email).map setting.lowerCase.lower

/-- `existingByEmail.get(contact.email.toLowerCase())`. -/
def existingContact (existing : List Contact) (row : Parsed) : Option Contact :=
  row.email.bind fun email => last existing fun c =>
    c.details.email.map setting.lowerCase.lower = some (setting.lowerCase.lower email)

/-- The entity that is saved has the row's values, and those of the contact that was looked up. -/
def entity (existing : Option Contact) (row : Parsed) (touched : Bool) : Entity where
  email := row.contact .email <|> existing.map (·.details.email)
  phone := row.contact .phone <|> existing.map (·.details.phone)
  whatsapp := row.contact .whatsapp <|> existing.map (·.details.whatsapp)
  touched := touched

def others (existing : Option Contact) (row : Parsed) (name : String) : Option String :=
  (row.contact (.other name)).getD
    ((existing.map (·.others name)).getD (setting.columnDefault name))

/-- What `save` writes, and `none` when the listener throws. -/
def candidate (db : Db) (existing : Option Contact) (row : Parsed) : Option Contact :=
  match existing with
  | none =>
      (setUserDetails setting.lowerCase setting.hash (entity none row true)).map fun details =>
        ⟨db.nextId, setting.accountId, (defaults setting.hasEmailDefault).write details,
          others setting none row⟩
  | some contact =>
      let stored := (db.contacts.find? (·.id = contact.id)).getD contact
      let touched := setting.columns.any fun name =>
        others setting (some contact) row name ≠ stored.others name
      let entity := entity (some contact) row touched
      if entity.changes stored.details then
        (setUserDetails setting.lowerCase setting.hash entity).map fun details =>
          { stored with
            details := stored.details.write details
            others := fun name =>
              if name ∈ setting.columns then others setting (some contact) row name
              else stored.others name }
      else some stored

/-- The unique index or a column refuses a contact. -/
def Refused (db : Db) (contact : Contact) : Prop :=
  setting.accepts contact = false ∨ ∃ c ∈ db.contacts, c.id ≠ contact.id ∧
    c.accountId = contact.accountId ∧ contact.details.email ≠ none ∧
      c.details.email = contact.details.email

instance (db : Db) (contact : Contact) : Decidable (Refused setting db contact) :=
  inferInstanceAs (Decidable (_ ∨ _))

def Db.put (db : Db) (contact : Contact) : Db :=
  if db.contacts.any (·.id = contact.id) then
    { db with contacts := db.contacts.map fun c => if c.id = contact.id then contact else c }
  else { db with contacts := db.contacts ++ [contact], nextId := db.nextId + 1 }

/-- The rows of the custom fields that are known and have a value; the account is not among what is
written. -/
def cfRows (row : Parsed) (contactId : Nat) : List CustomField :=
  row.customFields.filterMap fun field =>
    match last setting.customFields (·.1 = field.1), field.2 with
    | some definition, some value =>
        if value = "" then none else some ⟨none, contactId, definition.2, value⟩
    | _, _ => none

/-! ## The import -/

inductive Outcome where
  | applied (db : Db)
  /-- An error, and whether the row's contact is saved. -/
  | failed (db : Db) (contactSaved : Bool)

/-- One row of the loop. -/
def applyRow (existing : List Contact) (db : Db) (row : Parsed) : Outcome :=
  match candidate setting db (existingContact setting existing row) row with
  | none => .failed db false
  | some contact =>
      if Refused setting db contact then .failed db false
      else
        let db := db.put contact
        let rows := cfRows setting row contact.id
        if rows = [] then .applied db
        else
          match upsert importTarget db.customFields rows with
          | none => .failed db true
          | some table => .applied { db with customFields := table }

/-- What is left, how many rows are applied, whether a contact of another is saved, and whether there
is an error. -/
structure Result where
  db : Db
  imported : Nat
  contactSaved : Bool
  error : Bool

def applyRows (existing : List Contact) : Db → Nat → List Parsed → Result
  | db, imported, [] => ⟨db, imported, false, false⟩
  | db, imported, row :: rows =>
      match applyRow setting existing db row with
      | .applied db => applyRows existing db (imported + 1) rows
      | .failed db contactSaved => ⟨db, imported, contactSaved, true⟩

def importContacts (db : Db) (headers : Nat → Option Header) (rows : List (List (Option String))) :
    Result :=
  let rows := parsed headers rows
  applyRows setting (findContactByEmail setting db (emails setting rows)) db 0 rows

/-! ## What should hold -/

/-- A contact has the values of a row, as the listener leaves them. -/
structure Carries (row : Parsed) (contact : Contact) : Prop where
  others : ∀ name ∈ setting.columns, ∀ value, row.contact (.other name) = some value →
    contact.others name = value
  phone : ∀ phone, row.contact .phone = some phone →
    contact.details.phone = some (normalizePhone phone) ∨ contact.details.phone = phone
  whatsapp : ∀ whatsapp, row.contact .whatsapp = some whatsapp → filled whatsapp = true →
    contact.details.whatsapp = some (normalizeWhatsapp whatsapp) ∨
      contact.details.whatsapp = whatsapp

/-- An import does all of the batch or nothing. -/
structure Imports (db : Db) (rows : List Parsed) (result : Result) : Prop where
  failed : result.error = true →
    result.imported = 0 ∧ result.contactSaved = false ∧ result.db = db
  imported : result.error = false → result.imported = rows.length
  single : result.error = false → ∀ before row after email, rows = before ++ row :: after →
    row.email = some email →
    (∀ later ∈ after, later.email.map setting.lowerCase.lower ≠
      some (setting.lowerCase.lower email)) →
    ∃ contact ∈ result.db.contacts, contact.accountId = setting.accountId ∧
      contact.details.email = some (setting.lowerCase.lower email) ∧ Carries setting row contact ∧
      (∀ c ∈ result.db.contacts, c.accountId = setting.accountId →
        c.details.email.map setting.lowerCase.lower = some (setting.lowerCase.lower email) →
          c = contact) ∧
      ∀ field ∈ cfRows setting row contact.id,
        ∃! stored, stored ∈ result.db.customFields ∧ stored.accountId = some setting.accountId ∧
          stored.contactId = contact.id ∧ stored.customFieldId = field.customFieldId ∧
          stored.value = field.value

/-- The save of a row is taken: the listener does not throw, and the database does not refuse. -/
def Saved (existing : List Contact) (db : Db) (row : Parsed) : Prop :=
  ∃ contact, candidate setting db (existingContact setting existing row) row = some contact ∧
    ¬ Refused setting db contact

/-- A row is taken: its save is, and it has no value of a custom field. -/
structure Takes (existing : List Contact) (db : Db) (row : Parsed) : Prop where
  saved : Saved setting existing db row
  fields : ∀ field ∈ row.customFields, filled field.2 = true →
    last setting.customFields (·.1 = field.1) = none

/-- No e-mail of the batch is stored with capitals. -/
def CaseFree (db : Db) (rows : List Parsed) : Prop :=
  ∀ c ∈ db.contacts, c.accountId = setting.accountId → ∀ row ∈ rows, ∀ email,
    row.email = some email →
    c.details.email.map setting.lowerCase.lower = some (setting.lowerCase.lower email) →
      c.details.email = some (setting.lowerCase.lower email)

/-- The table after a row. -/
def next (existing : List Contact) (db : Db) (row : Parsed) : Option Db :=
  match applyRow setting existing db row with
  | .applied db => some db
  | .failed _ _ => none

/-! ## One row -/

section Proofs
variable {setting} {existing : List Contact} {db db₀ : Db} {row : Parsed} {rows : List Parsed}
  {contact : Contact}

theorem upsert_importTarget (table rows : List CustomField) :
    upsert importTarget table rows = none := if_pos (.inl (by decide))

theorem cfRows_eq_nil (contactId : Nat) : cfRows setting row contactId = [] ↔
    ∀ field ∈ row.customFields, filled field.2 = true →
      last setting.customFields (·.1 = field.1) = none := by
  rw [cfRows, List.filterMap_eq_nil_iff]
  refine forall₂_congr fun field _ => ?_
  cases last setting.customFields (·.1 = field.1) with
  | none => simp
  | some definition =>
      cases field.2 with
      | none => simp [filled]
      | some value => simp [filled]

theorem applyRow_cases (setting : Setting) (existing : List Contact) (db : Db) (row : Parsed) :
    (Takes setting existing db row ∧ ∃ contact,
      candidate setting db (existingContact setting existing row) row = some contact ∧
      ¬ Refused setting db contact ∧ applyRow setting existing db row = .applied (db.put contact)) ∨
    (¬ Saved setting existing db row ∧ applyRow setting existing db row = .failed db false) ∨
    (¬ Takes setting existing db row ∧ Saved setting existing db row ∧
      ∃ db', applyRow setting existing db row = .failed db' true) := by
  cases hcandidate : candidate setting db (existingContact setting existing row) row with
  | none =>
      refine .inr (.inl ⟨?_, by simp only [applyRow, hcandidate]⟩)
      rintro ⟨contact, h, -⟩
      exact Option.some_ne_none _ (h.symm.trans hcandidate)
  | some contact =>
      by_cases hrefused : Refused setting db contact
      · refine .inr (.inl ⟨?_, by simp only [applyRow, hcandidate, if_pos hrefused]⟩)
        rintro ⟨contact', h, hnot⟩
        cases hcandidate.symm.trans h
        exact hnot hrefused
      · have hsaved : Saved setting existing db row := ⟨contact, hcandidate, hrefused⟩
        by_cases hrows : cfRows setting row contact.id = []
        · refine .inl ⟨⟨hsaved, (cfRows_eq_nil _).mp hrows⟩, contact, rfl, hrefused, ?_⟩
          simp only [applyRow, hcandidate, if_neg hrefused, if_pos hrows]
        · refine .inr (.inr ⟨fun htakes => hrows ((cfRows_eq_nil _).mpr htakes.fields), hsaved,
            db.put contact, ?_⟩)
          simp only [applyRow, hcandidate, if_neg hrefused, if_neg hrows, upsert_importTarget]

theorem filter_ne_empty {value : Option String} {email : String} :
    value.filter (· ≠ "") = some email ↔ value = some email ∧ email ≠ "" := by
  cases value with
  | none => simp
  | some value =>
      rw [Option.filter_some]
      split
      · next h =>
        simp only [decide_eq_true_eq] at h
        constructor
        · rintro ⟨⟩
          exact ⟨rfl, h⟩
        · rintro ⟨⟨⟩, -⟩
          rfl
      · next h =>
        simp only [decide_eq_true_eq, not_not] at h
        constructor
        · exact fun heq => absurd heq (Option.some_ne_none _).symm
        · rintro ⟨⟨⟩, hne⟩
          exact absurd h hne

theorem email_eq_some {email : String} :
    row.email = some email ↔ (row.contact .email).join = some email ∧ email ≠ "" :=
  filter_ne_empty

/-! ## What a save writes -/

theorem setUserDetails_email {lowerCase : LowerCase} {hash : String → String} {entity : Entity}
    {details : Derivation} (h : setUserDetails lowerCase hash entity = some details) :
    details.email = if filled entity.email.join then
      some (some (lowerCase.lower (entity.email.join.getD ""))) else entity.email := by
  simp only [setUserDetails] at h
  split at h
  · next hfilled =>
    obtain ⟨provider, -, rfl⟩ := Option.map_eq_some_iff.mp h
    exact (if_pos hfilled).symm
  · next hfilled =>
    cases h
    exact (if_neg hfilled).symm

theorem setUserDetails_numbers {lowerCase : LowerCase} {hash : String → String} {entity : Entity}
    {details : Derivation} (h : setUserDetails lowerCase hash entity = some details) :
    (∀ phone, entity.phone = some phone → details.phone = some (some (normalizePhone phone))) ∧
    ∀ whatsapp, entity.whatsapp = some whatsapp → filled whatsapp = true →
      details.whatsapp = some (some (normalizeWhatsapp whatsapp)) := by
  have hsplit := (setUserDetails_spec h).1
  have hphone := congrArg (·.1) hsplit
  have hwhatsapp := congrArg (·.2.2.1) hsplit
  simp only at hphone hwhatsapp
  rw [hphone, hwhatsapp]
  obtain ⟨email, phone, whatsapp, touched⟩ := entity
  constructor
  · rintro _ ⟨⟩
    simp only [setNumbers]
    split <;> rfl
  · intro named heq hfilled
    have hsame : whatsapp = some named := heq
    subst hsame
    have hset : ∀ phone, ¬ (phone ≠ "" ∧ ¬ filled (some named).join = true) :=
      fun _ h => h.2 hfilled
    cases phone with
    | none => rfl
    | some phone => simp only [setNumbers, if_neg (hset _)]

theorem filled_of_email {email : String} (h : row.email = some email) :
    row.contact .email = some (some email) ∧ filled (row.contact .email).join = true := by
  obtain ⟨hjoin, hne⟩ := email_eq_some.mp h
  constructor
  · cases hcell : row.contact .email with
    | none =>
        rw [hcell] at hjoin
        cases hjoin
    | some cell =>
        rw [hcell] at hjoin
        exact congrArg some hjoin
  · rw [hjoin]
    exact decide_eq_true hne

theorem entity_email {found : Option Contact} {value : Option String} (touched : Bool)
    (h : row.contact .email = some value) : (entity found row touched).email = some value := by
  simp [entity, h]

theorem entity_phone {found : Option Contact} {value : Option String} (touched : Bool)
    (h : row.contact .phone = some value) : (entity found row touched).phone = some value := by
  simp [entity, h]

theorem entity_whatsapp {found : Option Contact} {value : Option String} (touched : Bool)
    (h : row.contact .whatsapp = some value) :
    (entity found row touched).whatsapp = some value := by
  simp [entity, h]

theorem candidate_new (h : candidate setting db none row = some contact) :
    contact.id = db.nextId ∧ contact.accountId = setting.accountId ∧
    (∀ email, row.email = some email →
      contact.details.email = some (setting.lowerCase.lower email)) ∧
    (row.email = none → filled contact.details.email = false) ∧ Carries setting row contact := by
  obtain ⟨details, hdetails, rfl⟩ := Option.map_eq_some_iff.mp h
  have hemail := setUserDetails_email hdetails
  obtain ⟨hphone, hwhatsapp⟩ := setUserDetails_numbers hdetails
  have hcell : (entity none row true).email = row.contact .email := by
    cases hvalue : row.contact .email with
    | none => simp [entity, hvalue]
    | some value => exact entity_email true hvalue
  rw [hcell] at hemail
  refine ⟨rfl, rfl, fun email hrow => ?_, fun hrow => ?_, ?_, ?_, ?_⟩
  · obtain ⟨hsome, hfilled⟩ := filled_of_email hrow
    rw [if_pos hfilled, hsome] at hemail
    simp only [Row.write, hemail]
    rfl
  · have hfilled : filled (row.contact .email).join = false := by
      cases hjoin : (row.contact .email).join with
      | none => rfl
      | some value =>
          by_contra hne
          rw [Bool.not_eq_false] at hne
          have hsome := email_eq_some.mpr ⟨hjoin, of_decide_eq_true hne⟩
          exact Option.some_ne_none _ (hsome.symm.trans hrow)
    rw [hfilled] at hemail
    simp only [Row.write, defaults, hemail, Bool.false_eq_true, if_false]
    cases hcontact : row.contact .email with
    | none => rfl
    | some value =>
        rw [hcontact] at hfilled
        exact hfilled
  · intro name _ value hvalue
    simp only [others, hvalue, Option.getD_some]
  · intro phone hloaded
    simp only [Row.write, hphone phone (entity_phone _ hloaded)]
    exact .inl rfl
  · intro whatsapp hloaded hfilled
    simp only [Row.write, hwhatsapp whatsapp (entity_whatsapp _ hloaded) hfilled]
    exact .inl rfl

theorem candidate_existing {stored found : Contact} {email : String}
    (h : candidate setting db (some found) row = some contact)
    (hstored : db.contacts.find? (·.id = found.id) = some stored)
    (hemail : stored.details.email = some (setting.lowerCase.lower email))
    (hrow : row.email = some email) :
    contact.id = stored.id ∧ contact.accountId = stored.accountId ∧
      contact.details.email = stored.details.email ∧ Carries setting row contact := by
  obtain ⟨hsome, hfilled⟩ := filled_of_email hrow
  simp only [candidate, hstored, Option.getD_some] at h
  split at h
  · obtain ⟨details, hdetails, rfl⟩ := Option.map_eq_some_iff.mp h
    have hnew := setUserDetails_email hdetails
    obtain ⟨hphone, hwhatsapp⟩ := setUserDetails_numbers hdetails
    refine ⟨rfl, rfl, ?_, ?_, ?_, ?_⟩
    · rw [hsome] at hfilled
      rw [entity_email _ hsome, if_pos hfilled] at hnew
      simp only [Row.write, hnew, hemail, Option.getD_some]
      rfl
    · intro name hname value hvalue
      simp only [if_pos hname, others, hvalue, Option.getD_some]
    · intro phone hloaded
      simp only [Row.write, hphone phone (entity_phone _ hloaded)]
      exact .inl rfl
    · intro whatsapp hloaded hwritten
      simp only [Row.write, hwhatsapp whatsapp (entity_whatsapp _ hloaded) hwritten]
      exact .inl rfl
  · next hchanges =>
    cases h
    simp only [Entity.changes, Bool.or_eq_true, not_or, Bool.not_eq_true] at hchanges
    obtain ⟨⟨⟨htouched, -⟩, hphone⟩, hwhatsapp⟩ := hchanges
    refine ⟨rfl, rfl, rfl, ?_, ?_, ?_⟩
    · intro name hname value hvalue
      have hsame := (List.any_eq_false.mp htouched) name hname
      simp only [others, hvalue, Option.getD_some, ne_eq, decide_eq_true_eq, not_not] at hsame
      exact hsame.symm
    · intro phone hloaded
      rw [entity_phone _ hloaded, Option.any_some, decide_eq_false_iff_not, not_not] at hphone
      exact .inr hphone.symm
    · intro whatsapp hloaded _
      rw [entity_whatsapp _ hloaded, Option.any_some, decide_eq_false_iff_not, not_not] at hwhatsapp
      exact .inr hwhatsapp.symm

/-! ## What a row leaves -/

/-- The contacts of before are there, with their e-mails; any other has its e-mail in lower case. -/
structure Inv (setting : Setting) (db₀ db : Db) : Prop where
  valid : db.Valid
  kept : ∀ c₀ ∈ db₀.contacts, ∃ c ∈ db.contacts, c.id = c₀.id ∧ c.accountId = c₀.accountId ∧
    c.details.email = c₀.details.email
  new : ∀ c ∈ db.contacts, (∃ c₀ ∈ db₀.contacts, c.accountId = c₀.accountId ∧
      c.details.email = c₀.details.email) ∨
    ∀ email, c.details.email = some email → setting.lowerCase.lower email = email

theorem Inv.start (h : db.Valid) : Inv setting db db :=
  ⟨h, fun c hc => ⟨c, hc, rfl, rfl, rfl⟩, fun c hc => .inl ⟨c, hc, rfl, rfl⟩⟩

theorem last_spec {α : Type} {list : List α} {p : α → Bool} {a : α} (h : last list p = some a) :
    a ∈ list ∧ p a = true :=
  ⟨List.mem_reverse.mp (List.mem_of_find?_eq_some h), List.find?_some h⟩

theorem existingContact_spec {rows : List Parsed} {found : Contact}
    (h : existingContact setting (findContactByEmail setting db₀ (emails setting rows)) row =
      some found) :
    ∃ email, row.email = some email ∧ found ∈ db₀.contacts ∧ found.accountId = setting.accountId ∧
      found.details.email = some (setting.lowerCase.lower email) := by
  obtain ⟨email, hrow, hlast⟩ := Option.bind_eq_some_iff.mp h
  obtain ⟨hmem, hlower⟩ := last_spec hlast
  rw [findContactByEmail, List.mem_filter, decide_eq_true_eq] at hmem
  obtain ⟨hfound, haccount, hbatch⟩ := hmem
  refine ⟨email, hrow, hfound, haccount, ?_⟩
  rw [Option.any_eq_true] at hbatch
  obtain ⟨stored, hstored, hbatch⟩ := hbatch
  rw [hstored, decide_eq_true_eq, Option.map_some] at hlower
  rw [decide_eq_true_eq, emails, List.mem_map] at hbatch
  obtain ⟨cell, -, rfl⟩ := hbatch
  rw [setting.lowerCase.idem] at hlower
  rw [hstored, hlower]

theorem Db.put_new {c : Contact} (hvalid : db.Valid) (h : c.id = db.nextId) :
    db.put c = { db with contacts := db.contacts ++ [c], nextId := db.nextId + 1 } := by
  refine if_neg fun hany => ?_
  obtain ⟨d, hd, hid⟩ := List.any_eq_true.mp hany
  have hlt := hvalid.next d hd
  rw [decide_eq_true_eq] at hid
  omega

theorem Db.put_stored {c stored : Contact} (hmem : stored ∈ db.contacts) (h : c.id = stored.id) :
    db.put c =
      { db with contacts := db.contacts.map fun d => if d.id = c.id then c else d } :=
  if_pos (List.any_eq_true.mpr ⟨stored, hmem, decide_eq_true h.symm⟩)

theorem Db.Valid.put {c : Contact} (hvalid : db.Valid) (hrefused : ¬ Refused setting db c)
    (h : c.id = db.nextId ∨ ∃ stored ∈ db.contacts, c.id = stored.id) : (db.put c).Valid := by
  have hfree : ∀ d ∈ db.contacts, d.id ≠ c.id → d.accountId = c.accountId →
      c.details.email ≠ none → d.details.email ≠ c.details.email :=
    fun d hd hid haccount hne hemail => hrefused (.inr ⟨d, hd, hid, haccount, hne, hemail⟩)
  rcases h with hid | ⟨stored, hstored, hid⟩
  · rw [Db.put_new hvalid hid]
    have hnew : ∀ d ∈ db.contacts, d.id ≠ c.id := fun d hd => by
      have := hvalid.next d hd
      omega
    refine ⟨?_, fun d hd => ?_, fun a ha b hb haccount hne hemail => ?_⟩
    · simp only [List.map_append, List.map_cons, List.map_nil]
      refine List.nodup_append.mpr ⟨hvalid.ids, List.nodup_singleton _, ?_⟩
      intro id hid' id' hmem heq
      obtain ⟨d, hd, rfl⟩ := List.mem_map.mp hid'
      exact hnew d hd (heq.trans (List.mem_singleton.mp hmem))
    · rcases List.mem_append.mp hd with hd | hd
      · exact Nat.lt_succ_of_lt (hvalid.next d hd)
      · rw [List.mem_singleton.mp hd, hid]
        exact Nat.lt_succ_self _
    · rcases List.mem_append.mp ha with ha | ha <;> rcases List.mem_append.mp hb with hb | hb
      · exact hvalid.emails a ha b hb haccount hne hemail
      · cases List.mem_singleton.mp hb
        exact absurd hemail (hfree a ha (hnew a ha) haccount (hemail ▸ hne))
      · cases List.mem_singleton.mp ha
        exact absurd hemail.symm (hfree b hb (hnew b hb) haccount.symm hne)
      · rw [List.mem_singleton.mp ha, List.mem_singleton.mp hb]
  · rw [Db.put_stored hstored hid]
    have hids : (db.contacts.map fun d => if d.id = c.id then c else d).map (·.id) =
        db.contacts.map (·.id) := by
      rw [List.map_map]
      refine List.map_congr_left fun d _ => ?_
      by_cases heq : d.id = c.id
      · exact (congrArg Contact.id (if_pos heq)).trans heq.symm
      · simp only [Function.comp_apply, if_neg heq]
    refine ⟨hids ▸ hvalid.ids, fun d hd => ?_, fun a ha b hb haccount hne hemail => ?_⟩
    · obtain ⟨d', hd', rfl⟩ := List.mem_map.mp hd
      by_cases heq : d'.id = c.id
      · rw [if_pos heq, hid]
        exact hvalid.next stored hstored
      · rw [if_neg heq]
        exact hvalid.next d' hd'
    · obtain ⟨a, ha', rfl⟩ := List.mem_map.mp ha
      obtain ⟨b, hb', rfl⟩ := List.mem_map.mp hb
      by_cases hac : a.id = c.id <;> by_cases hbc : b.id = c.id
      · rw [if_pos hac, if_pos hbc]
      · rw [if_pos hac, if_neg hbc] at haccount hemail ⊢
        rw [if_pos hac] at hne
        exact absurd hemail.symm (hfree b hb' hbc haccount.symm hne)
      · rw [if_neg hac, if_pos hbc] at haccount hemail ⊢
        rw [if_neg hac] at hne
        exact absurd hemail (hfree a ha' hac haccount (hemail ▸ hne))
      · rw [if_neg hac, if_neg hbc] at haccount hemail ⊢
        rw [if_neg hac] at hne
        exact hvalid.emails a ha' b hb' haccount hne hemail

theorem candidate_spec (hinv : Inv setting db₀ db)
    (h : candidate setting db (existingContact setting
      (findContactByEmail setting db₀ (emails setting rows)) row) row = some contact) :
    contact.accountId = setting.accountId ∧ Carries setting row contact ∧
    (∀ email, row.email = some email →
      contact.details.email = some (setting.lowerCase.lower email)) ∧
    (contact.id = db.nextId ∧ (∀ email, contact.details.email = some email →
        setting.lowerCase.lower email = email) ∨
      ∃ stored ∈ db.contacts, contact.id = stored.id ∧ contact.accountId = stored.accountId ∧
        contact.details.email = stored.details.email ∧
        stored.details.email = row.email.map setting.lowerCase.lower) := by
  cases hexisting : existingContact setting
      (findContactByEmail setting db₀ (emails setting rows)) row with
  | none =>
      rw [hexisting] at h
      obtain ⟨hid, haccount, hemail, hempty, hcarries⟩ := candidate_new h
      refine ⟨haccount, hcarries, hemail, .inl ⟨hid, fun email hcontact => ?_⟩⟩
      cases hrow : row.email with
      | none =>
          have hfilled := hempty hrow
          rw [hcontact] at hfilled
          have hnil : email = "" := not_not.mp (of_decide_eq_false hfilled)
          rw [hnil]
          exact (setting.lowerCase.empty _).mpr rfl
      | some cell =>
          cases hcontact.symm.trans (hemail cell hrow)
          exact setting.lowerCase.idem cell
  | some found =>
      rw [hexisting] at h
      obtain ⟨email, hrow, hfound, haccount, hemail⟩ := existingContact_spec hexisting
      obtain ⟨stored, hstored, hid, hstoredAccount, hstoredEmail⟩ := hinv.kept found hfound
      have hfind : db.contacts.find? (·.id = found.id) = some stored := by
        cases hfind : db.contacts.find? (·.id = found.id) with
        | none =>
            have hnone := List.find?_eq_none.mp hfind stored hstored
            exact absurd (decide_eq_true hid) hnone
        | some other =>
            have hsame := List.find?_some hfind
            rw [decide_eq_true_eq] at hsame
            exact congrArg some (List.inj_on_of_nodup_map hinv.valid.ids
              (List.mem_of_find?_eq_some hfind) hstored (hsame.trans hid.symm))
      have hlower := hstoredEmail.trans hemail
      obtain ⟨hcid, hcaccount, hcemail, hcarries⟩ := candidate_existing h hfind hlower hrow
      refine ⟨hcaccount.trans (hstoredAccount.trans haccount), hcarries, fun cell hcell => ?_,
        .inr ⟨stored, hstored, hcid, hcaccount, hcemail, ?_⟩⟩
      · cases hrow.symm.trans hcell
        exact hcemail.trans hlower
      · rw [hlower, hrow]
        rfl

theorem mem_put {c : Contact} (hvalid : db.Valid)
    (h : contact.id = db.nextId ∨ ∃ stored ∈ db.contacts, contact.id = stored.id) :
    c ∈ (db.put contact).contacts ↔ c = contact ∨ c ∈ db.contacts ∧ c.id ≠ contact.id := by
  rcases h with hid | ⟨stored, hstored, hid⟩
  · rw [Db.put_new hvalid hid, List.mem_append, List.mem_singleton]
    constructor
    · rintro (hc | hc)
      · have := hvalid.next c hc
        exact .inr ⟨hc, by omega⟩
      · exact .inl hc
    · rintro (hc | ⟨hc, -⟩)
      · exact .inr hc
      · exact .inl hc
  · rw [Db.put_stored hstored hid, List.mem_map]
    constructor
    · rintro ⟨d, hd, rfl⟩
      by_cases heq : d.id = contact.id
      · rw [if_pos heq]
        exact .inl rfl
      · rw [if_neg heq]
        exact .inr ⟨hd, heq⟩
    · rintro (rfl | ⟨hc, hne⟩)
      · exact ⟨stored, hstored, if_pos hid.symm⟩
      · exact ⟨c, hc, if_neg hne⟩

theorem mem_applyRow (hinv : Inv setting db₀ db)
    (hcandidate : candidate setting db (existingContact setting
      (findContactByEmail setting db₀ (emails setting rows)) row) row = some contact)
    (hrefused : ¬ Refused setting db contact) :
    Inv setting db₀ (db.put contact) ∧ contact ∈ (db.put contact).contacts ∧
    ∀ c ∈ db.contacts, (∀ email, c.details.email = some email →
        row.email.map setting.lowerCase.lower ≠ some email) → c.details.email ≠ none →
      c ∈ (db.put contact).contacts := by
  obtain ⟨haccount, -, hemail, hplace⟩ := candidate_spec hinv hcandidate
  have hids : contact.id = db.nextId ∨ ∃ stored ∈ db.contacts, contact.id = stored.id := by
    rcases hplace with ⟨hid, -⟩ | ⟨stored, hstored, hid, -⟩
    · exact .inl hid
    · exact .inr ⟨stored, hstored, hid⟩
  have hmem := fun c => mem_put (c := c) hinv.valid hids
  refine ⟨⟨hinv.valid.put hrefused hids, fun c₀ hc₀ => ?_, fun c hc => ?_⟩,
    (hmem contact).mpr (.inl rfl), fun c hc hother hne => (hmem c).mpr (.inr ⟨hc, fun hid => ?_⟩)⟩
  · obtain ⟨c, hc, hid, hcaccount, hcemail⟩ := hinv.kept c₀ hc₀
    by_cases heq : c.id = contact.id
    · rcases hplace with ⟨hnew, -⟩ | ⟨stored, hstored, hsid, hsaccount, hsemail, -⟩
      · have := hinv.valid.next c hc
        omega
      · cases List.inj_on_of_nodup_map hinv.valid.ids hc hstored (heq.trans hsid)
        exact ⟨contact, (hmem contact).mpr (.inl rfl), hsid.trans hid, hsaccount.trans hcaccount,
          hsemail.trans hcemail⟩
    · exact ⟨c, (hmem c).mpr (.inr ⟨hc, heq⟩), hid, hcaccount, hcemail⟩
  · rcases (hmem c).mp hc with rfl | ⟨hc, -⟩
    · rcases hplace with ⟨-, hlower⟩ | ⟨stored, hstored, -, hsaccount, hsemail, -⟩
      · exact .inr hlower
      · rw [hsaccount, hsemail]
        exact hinv.new stored hstored
    · exact hinv.new c hc
  · rcases hplace with ⟨hnew, -⟩ | ⟨stored, hstored, hsid, -, -, hrow⟩
    · have := hinv.valid.next c hc
      omega
    · cases List.inj_on_of_nodup_map hinv.valid.ids hc hstored (hid.trans hsid)
      cases hcemail : c.details.email with
      | none => exact hne hcemail
      | some email => exact hother email hcemail (hrow.symm.trans hcemail)

/-! ## The rows of a batch -/

theorem next_eq_some {db' : Db} : next setting existing db row = some db' ↔
    Takes setting existing db row ∧ ∃ contact,
      candidate setting db (existingContact setting existing row) row = some contact ∧
      ¬ Refused setting db contact ∧ db' = db.put contact := by
  rcases applyRow_cases setting existing db row with
    ⟨htakes, contact, hcandidate, hrefused, happlied⟩ | ⟨hsaved, hfailed⟩ |
    ⟨htakes, -, db'', hfailed⟩
  · rw [next, happlied]
    constructor
    · rintro ⟨⟩
      exact ⟨htakes, contact, hcandidate, hrefused, rfl⟩
    · rintro ⟨-, contact', hcandidate', -, rfl⟩
      cases hcandidate.symm.trans hcandidate'
      rfl
  · rw [next, hfailed]
    exact ⟨fun h => (Option.some_ne_none _ h.symm).elim, fun h => absurd h.1.saved hsaved⟩
  · rw [next, hfailed]
    exact ⟨fun h => (Option.some_ne_none _ h.symm).elim, fun h => absurd h.1 htakes⟩

theorem le_imported (setting : Setting) (existing : List Contact) (db : Db) (n : Nat) (rows : List Parsed) :
    n ≤ (applyRows setting existing db n rows).imported := by
  induction rows generalizing db n with
  | nil => exact le_rfl
  | cons row rows ih =>
      rw [applyRows]
      split
      · exact (Nat.le_succ n).trans (ih _ _)
      · exact le_rfl

/-- The batch comes to its end when every row is taken. -/
theorem applyRows_spec (setting : Setting) (existing : List Contact) (db : Db) (n : Nat)
    (rows : List Parsed) :
    ((applyRows setting existing db n rows).error = false ↔
      Runs.Meets (next setting existing) (Takes setting existing) db rows) ∧
    ((applyRows setting existing db n rows).error = false →
      (applyRows setting existing db n rows).imported = n + rows.length ∧
      Runs.exec (next setting existing) db rows =
        some (applyRows setting existing db n rows).db) := by
  induction rows generalizing db n with
  | nil => exact ⟨⟨fun _ => trivial, fun _ => rfl⟩, fun _ => ⟨rfl, rfl⟩⟩
  | cons row rows ih =>
      rcases applyRow_cases setting existing db row with
        ⟨htakes, contact, hcandidate, hrefused, happlied⟩ | ⟨hsaved, hfailed⟩ |
        ⟨htakes, -, db', hfailed⟩
      · obtain ⟨herror, hdone⟩ := ih (db.put contact) (n + 1)
        have hnext : next setting existing db row = some (db.put contact) := by
          rw [next, happlied]
        rw [applyRows, happlied]
        refine ⟨herror.trans ⟨.cons htakes hnext, fun h => h.2 _ hnext⟩, fun h => ?_⟩
        obtain ⟨himported, hexec⟩ := hdone h
        refine ⟨himported.trans ?_, ?_⟩
        · rw [List.length_cons]
          omega
        · rw [Runs.exec_cons, hnext]
          exact hexec
      · rw [applyRows, hfailed]
        exact ⟨⟨fun h => absurd h.symm Bool.false_ne_true, fun h => absurd h.1.saved hsaved⟩,
          fun h => absurd h.symm Bool.false_ne_true⟩
      · rw [applyRows, hfailed]
        exact ⟨⟨fun h => absurd h.symm Bool.false_ne_true, fun h => absurd h.1 htakes⟩,
          fun h => absurd h.symm Bool.false_ne_true⟩

/-- An error without anything applied is one of the first row's save. -/
theorem applyRows_failed (setting : Setting) (existing : List Contact) (db : Db)
    (rows : List Parsed) :
    ((applyRows setting existing db 0 rows).error = true ∧
      (applyRows setting existing db 0 rows).imported = 0 ∧
      (applyRows setting existing db 0 rows).contactSaved = false ↔
      ∃ row rest, rows = row :: rest ∧ ¬ Saved setting existing db row) ∧
    ((∃ row rest, rows = row :: rest ∧ ¬ Saved setting existing db row) →
      (applyRows setting existing db 0 rows).db = db) := by
  cases rows with
  | nil => simp [applyRows]
  | cons row rows =>
      simp only [applyRows, List.cons.injEq, exists_and_right, exists_eq_right', exists_eq_left']
      rcases applyRow_cases setting existing db row with
        ⟨htakes, contact, hcandidate, hrefused, happlied⟩ | ⟨hsaved, hfailed⟩ |
        ⟨htakes, hsaved, db', hfailed⟩
      · have hle := le_imported setting existing (db.put contact) 1 rows
        simp only [happlied, Nat.zero_add, htakes.saved, not_true_eq_false, iff_false,
          false_imp_iff, and_true]
        rintro ⟨-, hzero, -⟩
        omega
      · simp [hfailed, hsaved]
      · simp [hfailed, hsaved]

theorem mem_exec {batch : List Parsed} {db' : Db} (hinv : Inv setting db₀ db)
    (h : Runs.exec (next setting (findContactByEmail setting db₀ (emails setting batch))) db rows =
      some db') :
    Inv setting db₀ db' ∧ ∀ c ∈ db.contacts, ∀ email, c.details.email = some email →
      (∀ row ∈ rows, row.email.map setting.lowerCase.lower ≠ some email) → c ∈ db'.contacts := by
  induction rows generalizing db with
  | nil =>
      cases h
      exact ⟨hinv, fun c hc _ _ _ => hc⟩
  | cons row rows ih =>
      obtain ⟨db₁, hnext, h⟩ := Runs.exec_cons_eq_some.mp h
      obtain ⟨-, contact, hcandidate, hrefused, rfl⟩ := next_eq_some.mp hnext
      obtain ⟨hinv₁, -, hkeeps⟩ := mem_applyRow hinv hcandidate hrefused
      obtain ⟨hinv', hrest⟩ := ih hinv₁ h
      refine ⟨hinv', fun c hc email hemail hother => hrest c ?_ email hemail
        fun row hrow => hother row (List.mem_cons_of_mem _ hrow)⟩
      refine hkeeps c hc (fun email' hemail' => ?_) ?_
      · cases hemail.symm.trans hemail'
        exact hother row List.mem_cons_self
      · rw [hemail]
        exact Option.some_ne_none _

theorem exec_append {before after : List Parsed} {db' : Db}
    (h : Runs.exec (next setting existing) db (before ++ after) = some db') :
    ∃ between, Runs.exec (next setting existing) db before = some between ∧
      Runs.exec (next setting existing) between after = some db' := by
  induction before generalizing db with
  | nil => exact ⟨db, rfl, h⟩
  | cons row before ih =>
      obtain ⟨db₁, hnext, h⟩ := Runs.exec_cons_eq_some.mp h
      obtain ⟨between, hbefore, hafter⟩ := ih h
      exact ⟨between, Runs.exec_cons_eq_some.mpr ⟨db₁, hnext, hbefore⟩, hafter⟩

theorem exists_last {α : Type} {p : α → Prop} {list : List α} (h : ∃ a ∈ list, p a) :
    ∃ before a after, list = before ++ a :: after ∧ p a ∧ ∀ b ∈ after, ¬ p b := by
  induction list with
  | nil =>
      obtain ⟨a, hmem, -⟩ := h
      cases hmem
  | cons a list ih =>
      by_cases hlater : ∃ b ∈ list, p b
      · obtain ⟨before, b, after, rfl, hb, hlast⟩ := ih hlater
        exact ⟨a :: before, b, after, rfl, hb, hlast⟩
      · obtain ⟨b, hmem, hb⟩ := h
        rcases List.mem_cons.mp hmem with rfl | hmem
        · exact ⟨[], b, list, rfl, hb, fun c hc hpc => hlater ⟨c, hc, hpc⟩⟩
        · exact absurd ⟨b, hmem, hb⟩ hlater

theorem mem_of_exec {before after : List Parsed} {db' : Db} {email : String} (hinv : Inv setting db db)
    (hrow : row.email = some email)
    (hlast : ∀ later ∈ after, later.email.map setting.lowerCase.lower ≠
      some (setting.lowerCase.lower email))
    (h : Runs.exec (next setting (findContactByEmail setting db (emails setting rows))) db
      (before ++ row :: after) = some db') :
    Inv setting db db' ∧ ∃ contact ∈ db'.contacts, contact.accountId = setting.accountId ∧
      contact.details.email = some (setting.lowerCase.lower email) ∧ Carries setting row contact ∧
      cfRows setting row contact.id = [] := by
  obtain ⟨db₁, hbefore, h⟩ := exec_append h
  obtain ⟨db₂, hnext, hafter⟩ := Runs.exec_cons_eq_some.mp h
  obtain ⟨hinv₁, -⟩ := mem_exec hinv hbefore
  obtain ⟨htakes, contact, hcandidate, hrefused, rfl⟩ := next_eq_some.mp hnext
  obtain ⟨haccount, hcarries, hemail, -⟩ := candidate_spec hinv₁ hcandidate
  obtain ⟨hinv₂, hmem, -⟩ := mem_applyRow hinv₁ hcandidate hrefused
  obtain ⟨hinv', hkeeps⟩ := mem_exec hinv₂ hafter
  exact ⟨hinv', contact, hkeeps contact hmem _ (hemail email hrow) hlast, haccount,
    hemail email hrow, hcarries, (cfRows_eq_nil _).mpr htakes.fields⟩

end Proofs

/-- An account with the custom field `City`. -/
def oneField : Setting where
  lowerCase := .onLower
  hash := id
  accountId := 7
  columns := ["firstName", "lastName"]
  columnDefault := fun _ => none
  hasEmailDefault := true
  accepts := fun _ => true
  customFields := [("City", 3)]

/-- A phone and a city. -/
def phoneAndCity : Nat → Option Header
  | 0 => some (.contacts .phone)
  | 1 => some (.customField "City")
  | _ => none

theorem valid_empty : (⟨[], 1, []⟩ : Db).Valid :=
  ⟨.nil, fun _ h => absurd h List.not_mem_nil, fun _ h => absurd h List.not_mem_nil⟩

/-- One row, without a city. -/
def onePhone : List (List (Option String)) := [[some "551133334444", none]]

end OpenBms.Contacts.Import
