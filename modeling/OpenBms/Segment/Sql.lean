/-
# `OpenBms.Segment.Sql` — the statement a segment query is, and what it selects

The generators write one flat SQL text.  Here is the alphabet of that text
(`Tok`), how PostgreSQL groups it (`lex`, then `Infix.read` twice: once for
the set operators, once for each `WHERE` condition) and what the grouped
statement selects in a database (`Source.rows`, `Query.rows`).

    set operators   UNION, EXCEPT  loose    INTERSECT  tight
    conditions      OR             loose    AND        tight

Conditions have SQL's three truth values, `Option Bool` with `none` for
unknown; a row is selected when its condition is true.

An interpolated value is one lexical unit here: the generators' header
requires of their callers that no value closes its own quotes.
-/
import OpenBms.Lib.Infix
import OpenBms.Segment.Types

namespace OpenBms.Segment

open Js

/-! ## The alphabet -/

/-- The qualifier in front of a column name. -/
inductive Alias where
  | ct
  | ctd
  | bare
  deriving DecidableEq

/-- The right-hand side of a comparison. -/
inductive Scalar where
  /-- `(CURRENT_DATE AT TIME ZONE 'zone' - interval 'days day')` -/
  | daysAgo (zone : String) (days : Val)
  /-- `'text'` -/
  | quoted (text : String)
  /-- `true`, `false` -/
  | bool (b : Bool)
  deriving DecidableEq

/-- How `contacts_automations.created_at_date` is compared with a day. -/
inductive CreatedTest where
  /-- `= (...)::date` -/
  | onDay
  /-- `>= (...)` -/
  | since
  deriving DecidableEq

/-- The subquery of an `automation_state` step. -/
structure AutomationQuery where
  accountId : Int
  test : CreatedTest
  zone : String
  days : Val
  automationId : Option Val
  status : Option Val
  timesOperator : TimesOperator
  timesCount : Int
  deriving DecidableEq

/-- The atomic conditions. -/
inductive Pred where
  /-- `ct.account_id = n` -/
  | account (n : Int)
  /-- `ct.is_active` -/
  | active
  /-- `TRUE` -/
  | noop
  /-- `ct.col`, `NOT ct.col` -/
  | flag (negated : Bool) (col : String)
  /-- `a.col op rhs` -/
  | cmp (a : Alias) (col op : String) (rhs : Scalar)
  /-- `a.col is null`, `a.col is not null` -/
  | isNull (a : Alias) (col : String) (negated : Bool)
  /-- `ct.key IN (select col from table)` -/
  | inTable (key : String) (word : InWord) (table : String)
  /-- `ct.id IN ( SELECT contact_id from contacts_custom_fields ...)` -/
  | inCustomFields (accountId : Int) (fieldId : Val) (col op value : String)
  /-- `ct.id IN (SELECT contact_id FROM contacts_automations ...)` -/
  | inAutomations (q : AutomationQuery)
  deriving DecidableEq

/-- The tokens of a segment query. -/
inductive Tok where
  /-- `INSERT INTO segment_process (` -/
  | insertInto
  | lpar
  | rpar
  /-- `SELECT tagId, ct.id FROM contacts ct` -/
  | selectContacts (tagId : Int)
  /-- `#PUSH_JOIN_REPLACE#` -/
  | pushJoin
  /-- `INNER JOIN contacts_devices ctd ON ctd.contact_id = ct.id AND ...` -/
  | innerJoin
  | where_
  | pred (p : Pred)
  | AND
  | OR
  /-- A step's own connector. -/
  | conn (c : Connector)
  | union
  | intersect
  | except
  /-- `SELECT tagId, contact_id from contacts_tags WHERE account_id = ...` -/
  | selectTags (tagId accountId : Int) (ids : List Int)
  | limit (n : Nat)
  /-- `);` -/
  | finish
  | dropTable (table : String)
  deriving DecidableEq

/-! ## Grouping -/

/-- The tokens of a condition: `OR` loose, `AND` tight. -/
abbrev CondTok := Infix.Tok Pred Unit Unit

abbrev Cond := Infix.Expr Pred Unit Unit

inductive SetLo where
  | union
  | except
  deriving DecidableEq

/-- A contacts `SELECT`; `join` is the `INNER JOIN` on `contacts_devices`. -/
structure ContactsSelect where
  tagId : Int
  join : Bool := false
  whereToks : List CondTok := []
  deriving DecidableEq

/-- The operands of the set operators. -/
inductive Source where
  | contacts (s : ContactsSelect)
  | tags (tagId accountId : Int) (ids : List Int)
  deriving DecidableEq

abbrev SetTok := Infix.Tok Source SetLo Unit

abbrev SetExpr := Infix.Expr Source SetLo Unit

/-- The lexer's state: the set-level tokens so far, the contacts `SELECT` still
open with the depth of parentheses inside its condition, and what follows the
set expression. -/
structure Lex where
  toks : List SetTok := []
  cur : Option (ContactsSelect × Nat) := none
  limit : Option Nat := none
  finished : Bool := false
  drops : List String := []

def ContactsSelect.push (s : ContactsSelect) (t : CondTok) : ContactsSelect :=
  { s with whereToks := s.whereToks ++ [t] }

/-- A token that belongs to the open `SELECT`; a `)` does so only while a
parenthesis of the condition is open. -/
def selectStep (s : ContactsSelect) (d : Nat) : Tok → Option (ContactsSelect × Nat)
  | .innerJoin => some ({ s with join := true }, d)
  | .where_ => some (s, d)
  | .pred p => some (s.push (.leaf p), d)
  | .AND => some (s.push (.hi ()), d)
  | .OR => some (s.push (.lo ()), d)
  | .conn .and => some (s.push (.hi ()), d)
  | .conn .or => some (s.push (.lo ()), d)
  | .lpar => some (s.push .lpar, d + 1)
  | .rpar =>
      match d with
      | 0 => none
      | d + 1 => some (s.push .rpar, d)
  | _ => none

/-- A token outside any `SELECT`. -/
def baseStep (l : Lex) : Tok → Option Lex
  | .insertInto => some l
  | .lpar => some { l with toks := l.toks ++ [.lpar] }
  | .rpar => some { l with toks := l.toks ++ [.rpar] }
  | .selectContacts t => some { l with cur := some ({ tagId := t }, 0) }
  | .selectTags t a ids => some { l with toks := l.toks ++ [.leaf (.tags t a ids)] }
  | .union => some { l with toks := l.toks ++ [.lo .union] }
  | .except => some { l with toks := l.toks ++ [.lo .except] }
  | .intersect => some { l with toks := l.toks ++ [.hi ()] }
  | .limit n => some { l with limit := some n }
  | .finish => some { l with finished := true }
  | .dropTable t => if l.finished then some { l with drops := l.drops ++ [t] } else none
  | _ => none

/-- One token: the open `SELECT` takes it, or ends before it. -/
def lexStep (l : Lex) (t : Tok) : Option Lex :=
  match l.cur with
  | none => baseStep l t
  | some (s, d) =>
      match selectStep s d t with
      | some c => some { l with cur := some c }
      | none =>
          match d with
          | 0 => baseStep { l with toks := l.toks ++ [.leaf (.contacts s)], cur := none } t
          | _ + 1 => none

def lex : Lex → List Tok → Option Lex
  | l, [] => some l
  | l, t :: ts => (lexStep l t).bind fun l' => lex l' ts

theorem lex_append (l : Lex) (ts us : List Tok) :
    lex l (ts ++ us) = (lex l ts).bind fun l' => lex l' us := by
  induction ts generalizing l with
  | nil => rfl
  | cons t ts ih =>
      simp only [List.cons_append, lex]
      cases lexStep l t with
      | none => rfl
      | some l' => exact ih l'

/-- A grouped statement: the set expression inside `INSERT INTO ... ( );` and
its `LIMIT`. -/
structure Query where
  expr : SetExpr
  limit : Option Nat
  deriving DecidableEq

/-- An empty `IN ()` list is not SQL, and neither is an unreadable condition. -/
def Source.isSql : Source → Bool
  | .contacts s => (Infix.read s.whereToks).isSome
  | .tags _ _ ids => !ids.isEmpty

def isSqlTok : SetTok → Bool
  | .leaf s => s.isSql
  | _ => true

/-- The statement a text is, `none` where PostgreSQL reports a syntax error. -/
def parse (ts : List Tok) : Option Query :=
  match lex {} ts with
  | none => none
  | some l =>
      if l.toks.all isSqlTok then
        match Infix.read l.toks with
        | none => none
        | some e => some ⟨e, l.limit⟩
      else none

def contactsTok : SetTok → Option ContactsSelect
  | .leaf (.contacts s) => some s
  | _ => none

/-- The contacts `SELECT`s of a text, in order. -/
def contactsSelects (ts : List Tok) : List ContactsSelect :=
  match lex {} ts with
  | none => []
  | some l => l.toks.filterMap contactsTok

/-! ## Databases -/

inductive SqlVal where
  | null
  | bool (b : Bool)
  | int (n : Int)
  | text (s : String)
  /-- A date, as its day number. -/
  | date (day : Int)
  /-- A timestamp, in seconds. -/
  | time (sec : Int)
  deriving DecidableEq

structure Contact where
  id : Int
  accountId : Int
  isActive : Bool
  column : String → SqlVal

structure Device where
  contactId : Int
  accountId : Int
  column : String → SqlVal

structure ContactTag where
  contactId : Int
  tagId : Int
  accountId : Int
  isActive : Bool

structure ContactCustomField where
  contactId : Int
  accountId : Int
  customFieldId : Int
  column : String → SqlVal

structure ContactAutomation where
  contactId : Int
  accountId : Int
  automationId : Int
  status : String
  createdAtDate : Int

/-- The tables a segment query reads, the temporary tables filled from the
external queries, and the session: the current day, the shift of a time zone,
the cast of a literal to a column's type and the pattern match of `ILIKE`. -/
structure Db where
  contacts : List Contact := []
  /-- The primary key of `contacts`. -/
  contactsPkey : contacts.Pairwise fun a b => ¬ (a.accountId = b.accountId ∧ a.id = b.id) := by simp
  contactsDevices : List Device := []
  contactsTags : List ContactTag := []
  contactsCustomFields : List ContactCustomField := []
  contactsAutomations : List ContactAutomation := []
  temp : String → List SqlVal := fun _ => []
  currentDate : Int := 0
  zoneShift : String → Int := fun _ => 0
  castDate : String → SqlVal := fun _ => .null
  castNumber : String → SqlVal := fun _ => .null
  iLike : String → String → Bool := fun _ _ => false

def Contact.col (c : Contact) (name : String) : SqlVal :=
  if name = "id" then .int c.id
  else if name = "account_id" then .int c.accountId
  else if name = "is_active" then .bool c.isActive
  else c.column name

/-! ### Comparisons -/

def SqlVal.compare : SqlVal → SqlVal → Option Ordering
  | .bool a, .bool b => some (Ord.compare a b)
  | .int a, .int b => some (Ord.compare a b)
  | .text a, .text b => some (Ord.compare a b)
  | .date a, .date b => some (Ord.compare a b)
  | .time a, .time b => some (Ord.compare a b)
  | .date a, .time b => some (Ord.compare (a * 86400) b)
  | .time a, .date b => some (Ord.compare a (b * 86400))
  | _, _ => none

/-- `a op b`; unknown on `NULL`. -/
def Db.op (db : Db) (op : String) (a b : SqlVal) : Option Bool :=
  if op = "iLike" then
    match a, b with
    | .text s, .text p => some (db.iLike s p)
    | _, _ => none
  else
    match a.compare b with
    | none => none
    | some o =>
        if op = "=" then some (o = .eq)
        else if op = "!=" then some (o ≠ .eq)
        else if op = ">" then some (o = .gt)
        else if op = ">=" then some (o ≠ .lt)
        else if op = "<" then some (o = .lt)
        else if op = "<=" then some (o ≠ .gt)
        else none

/-- A quoted literal takes the type of the column it is compared with. -/
def Db.cast (db : Db) (like : SqlVal) (s : String) : SqlVal :=
  match like with
  | .text _ => .text s
  | .date _ | .time _ => db.castDate s
  | .int _ => db.castNumber s
  | .bool _ | .null => .null

/-- `CURRENT_DATE AT TIME ZONE 'zone' - interval 'days day'`, in seconds. -/
def Db.daysAgo (db : Db) (zone : String) (days : Val) : Option Int :=
  match days.parseInt with
  | none => none
  | some n => some (db.currentDate * 86400 + db.zoneShift zone - n * 86400)

def Db.scalar (db : Db) (like : SqlVal) : Scalar → SqlVal
  | .daysAgo zone days =>
      match db.daysAgo zone days with
      | none => .null
      | some t => .time t
  | .quoted s => db.cast like s
  | .bool b => .bool b

/-- `x IN (rows)`: unknown when a `NULL` row could have been the match. -/
def sqlIn (x : SqlVal) (rows : List SqlVal) : Option Bool :=
  if x = .null then none
  else if x ∈ rows then some true
  else if .null ∈ rows then none
  else some false

/-- The `contacts_automations` rows of one contact the subquery counts. -/
def Db.automationRows (db : Db) (q : AutomationQuery) (contactId : Int) :
    List ContactAutomation :=
  db.contactsAutomations.filter fun r =>
    r.contactId = contactId && r.accountId = q.accountId &&
    (match db.daysAgo q.zone q.days with
      | none => false
      | some t => match q.test with
          | .onDay => r.createdAtDate == t / 86400
          | .since => decide (t ≤ r.createdAtDate * 86400)) &&
    (match q.automationId with
      | none => true
      | some id => id == .num r.automationId) &&
    (match q.status with
      | none => true
      | some st => st.text == r.status)

/-- `GROUP BY contact_id HAVING COUNT(contact_id) op n` keeps the contact: a
contact without rows has no group. -/
def Db.inAutomations (db : Db) (q : AutomationQuery) (contactId : Int) : Bool :=
  let k := (db.automationRows q contactId).length
  k != 0 && q.timesOperator.holds k q.timesCount

def Db.inCustomFields (db : Db) (accountId : Int) (fieldId : Val) (col op value : String)
    (contactId : Int) : Bool :=
  db.contactsCustomFields.any fun r =>
    r.contactId = contactId && r.accountId = accountId && fieldId == .num r.customFieldId &&
    db.op op (r.column col) (db.cast (r.column col) value) == some true

/-- The column `a.col` on a joined row; without a device its columns are `NULL`. -/
def colOf (ct : Contact) (ctd : Option Device) (a : Alias) (col : String) : SqlVal :=
  match a with
  | .ct | .bare => ct.col col
  | .ctd => match ctd with
      | none => .null
      | some d => d.column col

/-- The truth of an atomic condition on a row. -/
def Db.pred (db : Db) (ct : Contact) (ctd : Option Device) : Pred → Option Bool
  | .account n => some (ct.accountId = n)
  | .active => some ct.isActive
  | .noop => some true
  | .flag negated col =>
      match ct.col col with
      | .bool b => some (b != negated)
      | _ => none
  | .cmp a col op rhs =>
      let v := colOf ct ctd a col
      db.op op v (db.scalar v rhs)
  | .isNull a col negated => some ((colOf ct ctd a col == .null) != negated)
  | .inTable key word table =>
      (sqlIn (ct.col key) (db.temp table)).map fun b => b != word.negated
  | .inCustomFields a f c o v => some (db.inCustomFields a f c o v ct.id)
  | .inAutomations q => some (db.inAutomations q ct.id)

/-! ### Conditions -/

def kleeneAnd : Option Bool → Option Bool → Option Bool
  | some false, _ | _, some false => some false
  | some true, some true => some true
  | _, _ => none

def kleeneOr : Option Bool → Option Bool → Option Bool
  | some true, _ | _, some true => some true
  | some false, some false => some false
  | _, _ => none

@[simp] theorem kleeneAnd_true {a b : Option Bool} :
    kleeneAnd a b = some true ↔ a = some true ∧ b = some true := by
  rcases a with _ | _ | _ <;> rcases b with _ | _ | _ <;> simp [kleeneAnd]

@[simp] theorem kleeneOr_true {a b : Option Bool} :
    kleeneOr a b = some true ↔ a = some true ∨ b = some true := by
  rcases a with _ | _ | _ <;> rcases b with _ | _ | _ <;> simp [kleeneOr]

/-- The truth of a condition on a row. -/
def Db.cond (db : Db) (ct : Contact) (ctd : Option Device) (φ : Cond) : Option Bool :=
  φ.eval (db.pred ct ctd) (fun _ => kleeneOr) (fun _ => kleeneAnd)

/-- The condition is true of the row. -/
def Db.Holds (db : Db) (ct : Contact) (ctd : Option Device) (φ : Cond) : Prop :=
  db.cond ct ctd φ = some true

instance decHolds (db : Db) (ct : Contact) (ctd : Option Device) (φ : Cond) :
    Decidable (db.Holds ct ctd φ) :=
  inferInstanceAs (Decidable (_ = _))

section
variable {db : Db} {ct : Contact} {ctd : Option Device}

@[simp] theorem holds_leaf {p : Pred} :
    db.Holds ct ctd (.leaf p) ↔ db.pred ct ctd p = some true := Iff.rfl

@[simp] theorem holds_and {φ ψ : Cond} {u : Unit} :
    db.Holds ct ctd (.hi u φ ψ) ↔ db.Holds ct ctd φ ∧ db.Holds ct ctd ψ :=
  kleeneAnd_true

@[simp] theorem holds_or {φ ψ : Cond} {u : Unit} :
    db.Holds ct ctd (.lo u φ ψ) ↔ db.Holds ct ctd φ ∨ db.Holds ct ctd ψ :=
  kleeneOr_true

end

/-! ### Rows -/

/-- The device rows `INNER JOIN contacts_devices` puts a contact with. -/
def Db.devicesOf (db : Db) (ct : Contact) : List Device :=
  db.contactsDevices.filter fun d => d.contactId = ct.id && d.accountId = ct.accountId

/-- The joined rows of a contact: itself, or one for each of its devices. -/
def Db.joined (db : Db) (join : Bool) (ct : Contact) : List (Option Device) :=
  if join then (db.devicesOf ct).map some else [none]

/-- The contact of each row a contacts `SELECT` returns: one for each joined row
its condition is true of.  An unreadable condition returns nothing. -/
def Db.selectContacts (db : Db) (s : ContactsSelect) : List Contact :=
  match Infix.read s.whereToks with
  | none => []
  | some φ => db.contacts.flatMap fun ct =>
      ((db.joined s.join ct).filter fun ctd => decide (db.Holds ct ctd φ)).map fun _ => ct

def Db.selectRows (db : Db) (s : ContactsSelect) : List Int :=
  (db.selectContacts s).map (·.id)

def Db.tagRows (db : Db) (accountId : Int) (ids : List Int) : List Int :=
  (db.contactsTags.filter fun r =>
    r.accountId = accountId && r.isActive && decide (r.tagId ∈ ids)).map (·.contactId)

def Db.sourceRows (db : Db) : Source → List Int
  | .contacts s => db.selectRows s
  | .tags _ a ids => db.tagRows a ids

/-- `UNION` and `EXCEPT` remove duplicates, as `INTERSECT` does. -/
def setLoRows : SetLo → List Int → List Int → List Int
  | .union, a, b => (a ++ b).dedup
  | .except, a, b => (a.filter fun i => decide (i ∉ b)).dedup

def intersectRows (a b : List Int) : List Int :=
  (a.filter fun i => decide (i ∈ b)).dedup

/-- The contact ids the set expression returns. -/
def Db.rows (db : Db) (e : SetExpr) : List Int :=
  e.eval db.sourceRows setLoRows (fun _ => intersectRows)

/-- `LIMIT n` without an order keeps any `n` of the rows. -/
def Db.Selects (db : Db) (q : Query) (rows : List Int) : Prop :=
  match q.limit with
  | none => rows.Perm (db.rows q.expr)
  | some n => rows.Subperm (db.rows q.expr) ∧ rows.length = min n (db.rows q.expr).length

end OpenBms.Segment
