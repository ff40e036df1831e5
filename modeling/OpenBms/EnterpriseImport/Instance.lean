/-
# `OpenBms.EnterpriseImport.Instance` — importing a whole installation

Source:

| | |
| :-- | :-- |
| the accounts one by one | `apps/enterprise-import/src/enterprise-import.processor.ts`, `process`, `runInstanceScope`, `runPipeline` |
| the steps | `pipeline.ts`, `importers/base.importer.ts`, `importers/*.importer.ts` |
| the insert that keeps ids | `raw-insert.util.ts`, `rawInsertPreservingPk` |
| what the source serves | `enterprise-client/enterprise.client.ts`; `apps/msgops-api/src/modules/accounts/accounts.controller.ts`, `getAllAccounts`, and the list handlers |

The importer walks over the accounts `/accounts/all` lists.  For each it inserts
the account and runs the ten steps; a step reads its list endpoint page by page
and writes the rows under the account of the moment.  The requests carry the
API key and nothing else, so every account is filled from the same list: the
rows of the key's own account.

The table a step fills is compared by a natural key before the insert, and the
insert itself skips what clashes with a unique constraint.  Which constraints
those are differs between deployments (the migrations give `contacts` the
primary key `id`, `schema.sql` gives it `account_id, id`), so `clash` is a
parameter.

Left out: the rows of `campaigns_messages`, which carry no account; the mapping
of ids, which instance scope does not use; progress, which is kept by step.
-/
import OpenBms.Lib.InsertIgnore
import OpenBms.Lib.Paging

namespace OpenBms.EnterpriseImport

open InsertIgnore

/-! ## Steps and rows -/

inductive Step
  | tags | customFields | labels | emailTemplates | contacts
  | contactTags | contactCustomFields | automations | campaigns | messages
  deriving DecidableEq

/-- `ImportPipeline.steps`. -/
def pipeline : List Step :=
  [.tags, .customFields, .labels, .emailTemplates, .contacts,
    .contactTags, .contactCustomFields, .automations, .campaigns, .messages]

theorem mem_pipeline (step : Step) : step ∈ pipeline := by
  cases step <;> decide

theorem nodup_pipeline : pipeline.Nodup := by decide

/-- What tells a row from the others of its table: its primary key, or for a
link the two ids it joins. -/
inductive Ident
  | id (n : Nat)
  | pair (contactId otherId : Nat)
  deriving DecidableEq

def Ident.text : Ident → String
  | .id n => toString n
  | .pair contactId otherId => toString contactId ++ ":" ++ toString otherId

/-- A row as its endpoint serves it: `key` is the property the importer names as
natural key, `columns` the other properties, `tags` the map a contact carries. -/
structure Src where
  ident : Ident
  accountId : Nat
  key : Option String
  columns : List (String × Option String)
  tags : List Nat

/-- A row as it is stored. -/
structure Row where
  ident : Ident
  accountId : Nat
  key : String
  columns : List (String × Option String)
  deriving DecidableEq

/-- What TypeORM's metadata says of a column. -/
structure Column where
  propertyName : String
  databaseName : String
  default : Option String

/-- The deployment that imports. -/
structure Target where
  columns : Step → List Column
  /-- The unique constraints of the step's table. -/
  clash : Step → Row → Row → Bool
  /-- `ENTERPRISE_IMPORT_BATCH_SIZE_CONTACTS`, 1000 by default. -/
  contactsBatch : Nat
  /-- `ENTERPRISE_IMPORT_BATCH_SIZE_MESSAGES`, 500 by default. -/
  messagesBatch : Nat
  contactsBatch_pos : 0 < contactsBatch
  messagesBatch_pos : 0 < messagesBatch

def Target.batchSize (target : Target) : Step → Nat
  | .contacts | .contactTags | .contactCustomFields => target.contactsBatch
  | .messages => target.messagesBatch
  | _ => 500

theorem Target.batchSize_pos (target : Target) (step : Step) : 0 < target.batchSize step := by
  cases step
  case contacts => exact target.contactsBatch_pos
  case contactTags => exact target.contactsBatch_pos
  case contactCustomFields => exact target.contactsBatch_pos
  case messages => exact target.messagesBatch_pos
  all_goals exact Nat.succ_pos 499

/-! ## The source -/

/-- The endpoint a step reads.  Links to tags come embedded in the contacts. -/
inductive Endpoint
  | tags | customFields | labels | emailTemplate | contacts | customFieldValues
  | automations | campaigns | messages
  deriving DecidableEq

def Step.endpoint : Step → Endpoint
  | .tags => .tags
  | .customFields => .customFields
  | .labels => .labels
  | .emailTemplates => .emailTemplate
  | .contacts => .contacts
  | .contactTags => .contacts
  | .contactCustomFields => .customFieldValues
  | .automations => .automations
  | .campaigns => .campaigns
  | .messages => .messages

/-- The links embedded in a contact. -/
def Src.links (contact : Src) : List Src :=
  match contact.ident with
  | .id n => contact.tags.map fun tagId =>
      { ident := .pair n tagId, accountId := contact.accountId, key := none, columns := [], tags := [] }
  | .pair _ _ => []

/-- The rows a step imports out of a page of its endpoint. -/
def Step.expand : Step → List Src → List Src
  | .contactTags, page => page.flatMap Src.links
  | _, page => page

/-- An installation to import from, whose every table keeps its primary key. -/
structure Source where
  /-- The account of the API key. -/
  keyAccount : Nat
  /-- The answer of `/accounts/all` to each page number. -/
  allAccounts : Nat → List Nat
  /-- The rows of all accounts, in the order they are served. -/
  list : Endpoint → List Src
  /-- Read to the first page that is not full, the accounts are listed once. -/
  listed_once : ∀ m, Paging.Short 50 allAccounts 1 m →
    (Paging.reads allAccounts 1 m).flatten.Nodup
  distinct : ∀ step : Step, ((step.expand (list step.endpoint)).map (·.ident)).Nodup

/-- The rows of a step's table in the source. -/
def Source.rows (src : Source) (step : Step) : List Src :=
  step.expand (src.list step.endpoint)

/-- A list endpoint answers with the rows of the key's account. -/
def Source.listing (src : Source) (endpoint : Endpoint) : List Src :=
  (src.list endpoint).filter (·.accountId == src.keyAccount)

def Source.fetchPage (src : Source) (target : Target) (step : Step) (page : Nat) : List Src :=
  Paging.page (target.batchSize step) (src.listing step.endpoint) page

/-! ## From a source row to a row -/

/-- `EmailTemplatesImporter.customize`: the id is written into the name. -/
def stableName (id name : String) : String :=
  let suffix := " #" ++ id
  if suffix.toList.isSuffixOf name.toList then name
  else String.ofList (name.toList.take (255 - suffix.length)) ++ suffix

/-- The natural key of a row; a row without one is skipped. -/
def naturalKey (step : Step) (src : Src) : Option String :=
  match step with
  | .contactTags | .contactCustomFields => some src.ident.text
  | .messages => some (src.key.getD ("msg-" ++ src.ident.text))
  | .emailTemplates => some (stableName src.ident.text (src.key.getD ""))
  | _ => match src.key with
    | none => none
    | some key => if key = "" then none else some key

/-- The property a key of the source lands in. -/
def propOf (columns : List Column) (key : String) : Option String :=
  if columns.any (·.propertyName == key) then some key
  else (columns.find? (·.databaseName == key)).map (·.propertyName)

def setColumn (row : List (String × Option String)) (prop value : String) :
    List (String × Option String) :=
  if row.any (·.1 == prop) then row.map fun c => if c.1 = prop then (prop, some value) else c
  else row ++ [(prop, some value)]

/-- The columns `buildRow` copies: a snake_case key does not overwrite, and a
null is dropped. -/
def buildColumns (columns : List Column) (src : Src) : List (String × Option String) :=
  src.columns.foldl (fun row c =>
    match propOf columns c.1 with
    | none => row
    | some prop =>
        if c.1 ≠ prop ∧ row.any (·.1 == prop) = true then row
        else match c.2 with
          | none => row
          | some value => setColumn row prop value) []

/-- `MessagesImporter` copies by property name alone. -/
def messageColumns (columns : List Column) (src : Src) : List (String × Option String) :=
  src.columns.foldl (fun row c =>
    if columns.any (·.propertyName == c.1) = true then
      match c.2 with
      | none => row
      | some value => setColumn row c.1 value
    else row) []

/-- `withColumnDefaults`. -/
def withColumnDefaults (columns : List Column) (row : List (String × Option String)) :
    List (String × Option String) :=
  columns.foldl (fun row c =>
    match c.default with
    | none => row
    | some value => if row.any (·.1 == c.propertyName) then row else setColumn row c.propertyName value) row

def rowColumns (columns : List Column) (step : Step) (src : Src) : List (String × Option String) :=
  match step with
  | .contactTags => []
  | .contactCustomFields => src.columns
  | .messages => withColumnDefaults columns (messageColumns columns src)
  | _ => withColumnDefaults columns (buildColumns columns src)

/-- `buildRow` in instance scope: the id of the source, the account of the
context. -/
def buildRow (target : Target) (accountId : Nat) (step : Step) (src : Src) : Option Row :=
  (naturalKey step src).map fun key =>
    { ident := src.ident, accountId, key, columns := rowColumns (target.columns step) step src }

/-- Of rows with one natural key on a page, the first. -/
@[grind =] def firsts : List String → List Row → List Row
  | _, [] => []
  | seen, r :: rows => if seen.contains r.key then firsts seen rows else r :: firsts (r.key :: seen) rows

/-! ## A page, a step, an account, an installation -/

/-- `rawInsertPreservingPk` writes the columns of its first row. -/
def written (step : Step) (rows : List Row) : List Row :=
  match step, rows with
  | .contactTags, rows => rows
  | .contactCustomFields, rows => rows
  | _, [] => []
  | _, r :: rest => (r :: rest).map fun row =>
      { row with columns := r.columns.map fun c => (c.1, (row.columns.lookup c.1).join) }

def existingKeys (accountId : Nat) (table : List Row) : List String :=
  (table.filter (·.accountId == accountId)).map (·.key)

/-- `ContactCustomFieldsImporter` writes the values of links that exist again. -/
def refresh (step : Step) (accountId : Nat) (existing : List String) (candidates table : List Row) :
    List Row :=
  match step with
  | .contactCustomFields => table.map fun row =>
      if row.accountId = accountId ∧ existing.contains row.key = true then
        match candidates.find? (·.key == row.key) with
        | some c => { row with columns := c.columns }
        | none => row
      else row
  | _ => table

/-- What one page of rows does to the step's table. -/
@[grind =] def processPage (target : Target) (accountId : Nat) (step : Step) (table : List Row)
    (page : List Src) : List Row :=
  let candidates := firsts [] (page.filterMap (buildRow target accountId step))
  let existing := existingKeys accountId table
  let toInsert := candidates.filter fun r => !existing.contains r.key
  refresh step accountId existing candidates
    (insertIgnore (target.clash step) table (written step toInsert))

structure Db where
  accounts : List Nat
  rows : Step → List Row

/-- An OSS installation nothing was put into yet. -/
def Db.virgin : Db where
  accounts := []
  rows := fun _ => []

/-- `ImporterStep.run`, in at most `fuel` pages. -/
def runStep (target : Target) (src : Source) (fuel accountId : Nat) (db : Db) (step : Step) :
    Option Db :=
  (Paging.loop (target.batchSize step) (src.fetchPage target step)
    (fun table page => processPage target accountId step table (step.expand page)) fuel 1
    (db.rows step)).map fun table => { db with rows := Function.update db.rows step table }

/-- One turn of the loop over the accounts. -/
def importAccount (target : Target) (src : Source) (fuel : Nat) (db : Db) (srcId : Nat) : Option Db :=
  pipeline.foldlM (runStep target src fuel srcId)
    { db with accounts := insertIgnore (· == ·) db.accounts [srcId] }

def runInstanceScope (target : Target) (src : Source) (fuel : Nat) (db : Db) : Option Db :=
  (Paging.loop 50 src.allAccounts
    (fun db page => db.bind ((page.mergeSort (· ≤ ·)).foldlM (importAccount target src fuel)))
    fuel 1 (some db)).join

/-- How a job ends: what the database holds, and the error of a job that failed. -/
structure Outcome where
  db : Db
  error : Option String

/-- `process` for a new job of instance scope; `none` while the job still runs. -/
def process (target : Target) (src : Source) (fuel : Nat) (db : Db) : Option Outcome :=
  if db.accounts.isEmpty then
    (runInstanceScope target src fuel db).map fun db => { db, error := none }
  else
    some { db, error := some ("Enterprise API 409: OSS já tem dados em accounts" ++
      " — scope=instance só é seguro em OSS virgem") }

end OpenBms.EnterpriseImport
