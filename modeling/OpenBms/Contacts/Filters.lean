/-
# `OpenBms.Contacts.Filters` — one request, three queries

Source: `apps/msgops-api/src/modules/contacts/contacts.service.ts`,
`findAllPaginated`, `generateParametrizedSelectQuery`, `exportInit`,
`exportContactsStream`, `generateUnsubscribeQuery`, `countUnsubscribe`,
`unsubscribe`; `dto/contactsPage.dto.ts`.

The filters of the contacts page are turned into SQL by hand three times.

| | list | count | export, page by page | export, streamed | its estimate | unsubscribe, and its count |
| :-- | :-- | :-- | :-- | :-- | :-- | :-- |
| title, tags, segments, dates | yes | yes | yes | yes | yes | yes |
| contacts | yes | no | yes | yes | yes | yes |
| the four flags | yes | yes | yes | no | no | no |
| e-mail not null | | | yes | yes | yes | |
| e-mail not empty | | | yes | yes | | |

The list asks for `contacts.id` as the second key of its order and loses it
again: `orderBy` replaces what `addOrderBy` added.  Contacts with one value of
the sort column are then in no order from one page to the next.

**Proved here**, for every request and every set of contacts.

    what each query selects (`listed_rows`, `exported_rows`, `unsubscribed_rows`)
    the order a page is read in (`order_lost`)
    when the seven are one set (`filters_agree_iff`)
    the operator lists the active contacts, and the
    inactive one is unsubscribed with them (`inactive_unsubscribed`)
-/
import OpenBms.Lib.Replace
import OpenBms.Lib.SortedPages

namespace OpenBms.Contacts.Filters

/-! ## Data -/

structure Contact where
  id : Nat
  accountId : Nat
  email : Option String
  /-- The day the contact was created. -/
  createdAtDate : Nat
  isUnsubscribed : Bool
  hasBounced : Bool
  isBlocked : Bool
  isActive : Bool
  deriving DecidableEq

/-- A row of `contacts_tags`. -/
structure ContactTag where
  contactId : Nat
  tagId : Nat
  accountId : Nat
  deriving DecidableEq

structure Db where
  contacts : List Contact
  contactsTags : List ContactTag
  /-- In an account an id is given once. -/
  primary : (contacts.map fun c => (c.accountId, c.id)).Nodup

inductive Order
  | asc | desc
  deriving DecidableEq

/-- The filters the DTO admits. -/
structure ContactsPageDto where
  title : Option String
  tags : Option (List Nat)
  segments : Option (List Nat)
  startDate : Option Nat
  endDate : Option Nat
  contacts : Option (List Nat)
  isUnsubscribed : Option Bool
  hasBounced : Option Bool
  isBlocked : Option Bool
  isActive : Option Bool
  countOnly : Option Bool
  itemsPerPage : Nat
  sortBy : Option String
  order : Option Order

/-- `if (params.title)`. -/
def ContactsPageDto.titleFilter (params : ContactsPageDto) : Option String :=
  params.title.filter (· ≠ "")

/-- `params.tags?.length`, after the segments were put behind the tags. -/
def ContactsPageDto.tagsFilter (params : ContactsPageDto) : Option (List Nat) :=
  (some (params.tags.getD [] ++ params.segments.getD [])).filter (!·.isEmpty)

/-- `if (params.startDate && params.endDate)`. -/
def ContactsPageDto.datesFilter (params : ContactsPageDto) : Option (Nat × Nat) :=
  params.startDate.bind fun startDate => params.endDate.map fun endDate => (startDate, endDate)

/-- `params.contacts && params.contacts.length`. -/
def ContactsPageDto.contactsFilter (params : ContactsPageDto) : Option (List Nat) :=
  params.contacts.filter (!·.isEmpty)

/-! ## Queries -/

/-- A query being built: its conditions and its order. -/
structure Query (ρ : Type) where
  wheres : List (ρ → Bool)
  orderBys : List (String × Order)

variable {ρ κ : Type}

def Query.new : Query ρ where
  wheres := []
  orderBys := []

def Query.andWhere (q : Query ρ) (cond : ρ → Bool) : Query ρ :=
  { q with wheres := q.wheres ++ [cond] }

/-- A condition that is added when its parameter is given. -/
def Query.given {α : Type} (q : Query ρ) (param : Option α) (cond : α → ρ → Bool) : Query ρ :=
  match param with
  | none => q
  | some a => q.andWhere (cond a)

def Query.addOrderBy (q : Query ρ) (sort : String) (order : Order) : Query ρ :=
  { q with orderBys := q.orderBys ++ [(sort, order)] }

/-- TypeORM's `orderBy` replaces the order there is. -/
def Query.orderBy (q : Query ρ) (sort : String) (order : Order) : Query ρ :=
  { q with orderBys := [(sort, order)] }

def Query.holds (q : Query ρ) (row : ρ) : Bool := q.wheres.all fun cond => cond row

def Query.rows (q : Query ρ) (table : List ρ) : List ρ := table.filter q.holds

/-- `getCount`: `COUNT(DISTINCT "contacts"."id")`. -/
def count (ids : List Nat) : Nat := ids.dedup.length

/-! ## The conditions -/

/-- `contacts.email LIKE '%title%'`. -/
def emailLike (title : String) (c : Contact) : Bool :=
  match c.email with
  | none => false
  | some email => Replace.like ('%' :: (title.toList ++ ['%'])) email.toList

/-- `EXISTS (SELECT 1 FROM contacts_tags ctg WHERE …)`. -/
def hasTag (db : Db) (accountId : Nat) (tags : List Nat) (c : Contact) : Bool :=
  db.contactsTags.any fun ctg =>
    ctg.accountId == accountId && ctg.contactId == c.id && tags.contains ctg.tagId

def createdBetween (dates : Nat × Nat) (c : Contact) : Bool :=
  decide (dates.1 ≤ c.createdAtDate) && decide (c.createdAtDate ≤ dates.2)

def isOneOf (ids : List Nat) (c : Contact) : Bool := ids.contains c.id

/-- `if (contact.email)`. -/
def hasEmail (c : Contact) : Bool :=
  match c.email with
  | none => false
  | some email => email ≠ ""

/-! ## The list, its count, and the export page by page -/

/-- `findAllPaginated`, up to the flags. -/
def listQuery (db : Db) (accountId : Nat) (params : ContactsPageDto) : Query Contact :=
  Query.new.andWhere (·.accountId == accountId)
    |>.given params.titleFilter emailLike
    |>.given params.tagsFilter (hasTag db accountId)
    |>.given params.datesFilter createdBetween
    |>.given params.isUnsubscribed (fun b c => c.isUnsubscribed == b)
    |>.given params.hasBounced (fun b c => c.hasBounced == b)
    |>.given params.isBlocked (fun b c => c.isBlocked == b)
    |>.given params.isActive (fun b c => c.isActive == b)

def ContactsPageDto.sortColumn (params : ContactsPageDto) : String :=
  params.sortBy.getD "created_at_date"

def ContactsPageDto.sortOrder (params : ContactsPageDto) : Order := params.order.getD .desc

/-- The query of a page of the list. -/
def pageQuery (db : Db) (accountId : Nat) (params : ContactsPageDto) : Query Contact :=
  let query := listQuery db accountId params
  let query := if params.sortColumn = "created_at_date" then query.addOrderBy "id" params.sortOrder
    else query
  (query.given params.contactsFilter isOneOf).orderBy params.sortColumn params.sortOrder

structure PaginationDto where
  results : List Contact
  total : Nat

/-- `findAllPaginated`; `answer` is what the database answers to the query of
each page.  A limit of zero is no limit. -/
def findAllPaginated (db : Db) (accountId : Nat) (answer : Nat → List Contact)
    (params : ContactsPageDto) (page : Nat) : PaginationDto :=
  if params.countOnly = some true then
    { results := []
      total := count (((listQuery db accountId params).rows db.contacts).map (·.id)) }
  else
    let results := if params.itemsPerPage = 0 then answer page
      else Paging.page params.itemsPerPage (answer page) page
    { results, total := results.length }

/-- The contacts in the file `findAllPaginated` makes of a page; one without
e-mail is `undefined` there and has no line. -/
def exportPage (db : Db) (accountId : Nat) (answer : Nat → List Contact) (params : ContactsPageDto)
    (page : Nat) : List Contact :=
  (findAllPaginated db accountId answer params page).results.filter hasEmail

/-! ## The streamed export -/

/-- `generateParametrizedSelectQuery`. -/
def generateParametrizedSelectQuery (db : Db) (accountId : Nat) (params : ContactsPageDto) :
    Query Contact :=
  (Query.new.andWhere (·.accountId == accountId)).andWhere (·.email.isSome)
    |>.given params.titleFilter emailLike
    |>.given params.tagsFilter (hasTag db accountId)
    |>.given params.datesFilter createdBetween
    |>.given params.contactsFilter isOneOf

/-- `estimatedTotal` of `exportInit`. -/
def exportInit (db : Db) (accountId : Nat) (params : ContactsPageDto) : Nat :=
  count (((generateParametrizedSelectQuery db accountId params).rows db.contacts).map (·.id))

/-- The contacts `exportContactsStream` writes. -/
def exportContactsStream (db : Db) (accountId : Nat) (params : ContactsPageDto) : List Contact :=
  ((generateParametrizedSelectQuery db accountId params).rows db.contacts).filter hasEmail

/-! ## The unsubscribe -/

/-- `generateUnsubscribeQuery`, the update. -/
def generateUnsubscribeQuery (db : Db) (accountId : Nat) (params : ContactsPageDto) : Query Contact :=
  Query.new.andWhere (·.accountId == accountId)
    |>.given params.titleFilter emailLike
    |>.given params.tagsFilter (hasTag db accountId)
    |>.given params.datesFilter createdBetween
    |>.given params.contactsFilter isOneOf

/-- `LEFT JOIN contacts_tags`, on the contact and its account. -/
def leftJoin (db : Db) (c : Contact) : List (Contact × Option ContactTag) :=
  let tags := db.contactsTags.filter fun ctg => ctg.contactId == c.id && ctg.accountId == c.accountId
  if tags.isEmpty then [(c, none)] else tags.map fun ctg => (c, some ctg)

/-- `generateUnsubscribeQuery`, the count: tags are joined in. -/
def countUnsubscribeQuery (accountId : Nat) (params : ContactsPageDto) :
    Query (Contact × Option ContactTag) :=
  Query.new.andWhere (fun row => row.1.accountId == accountId)
    |>.given params.titleFilter (fun title row => emailLike title row.1)
    |>.given params.tagsFilter (fun tags row =>
      row.2.any fun ctg => tags.contains ctg.tagId && ctg.accountId == accountId)
    |>.given params.datesFilter (fun dates row => createdBetween dates row.1)
    |>.given params.contactsFilter (fun ids row => isOneOf ids row.1)

def countUnsubscribe (db : Db) (accountId : Nat) (params : ContactsPageDto) : Nat :=
  let table := match params.tagsFilter with
    | none => db.contacts.map fun c => (c, none)
    | some _ => db.contacts.flatMap (leftJoin db)
  count (((countUnsubscribeQuery accountId params).rows table).map fun row => row.1.id)

/-- The contact after the update. -/
def unsubscribed (q : Query Contact) (c : Contact) : Contact :=
  if q.holds c then { c with isUnsubscribed := true } else c

theorem primary_unsubscribed (db : Db) (q : Query Contact) :
    ((db.contacts.map (unsubscribed q)).map fun c => (c.accountId, c.id)).Nodup := by
  have hkeys : (fun c : Contact => (c.accountId, c.id)) ∘ unsubscribed q
      = fun c => (c.accountId, c.id) := by
    funext c
    rw [Function.comp_apply, unsubscribed]
    split <;> rfl
  rw [List.map_map, hkeys]
  exact db.primary

/-- `unsubscribe`: the contacts afterwards, and those the update returned. -/
def unsubscribe (db : Db) (accountId : Nat) (params : ContactsPageDto) : Db × List Contact :=
  let query := generateUnsubscribeQuery db accountId params
  ({ db with contacts := db.contacts.map (unsubscribed query)
             primary := primary_unsubscribed db query },
    query.rows db.contacts)

/-! ## What is to agree -/

/-- The comparison `ORDER BY` makes. -/
def follows [LinearOrder κ] (column : String → Contact → κ) :
    List (String × Order) → Contact → Contact → Prop
  | [], _, _ => True
  | (sort, .asc) :: rest, c, d =>
      column sort c < column sort d ∨ column sort c = column sort d ∧ follows column rest c d
  | (sort, .desc) :: rest, c, d =>
      column sort d < column sort c ∨ column sort c = column sort d ∧ follows column rest c d

/-- What a database may answer to the query of each page: the rows, in an order
that is the one asked for, and may be another one for every page. -/
def Answers [LinearOrder κ] (column : String → Contact → κ) (q : Query Contact)
    (table : List Contact) (answer : Nat → List Contact) : Prop :=
  ∀ page, (answer page).Perm (q.rows table) ∧ (answer page).Pairwise (follows column q.orderBys)

/-- The set `ids` is what each of the requests is about. -/
structure Same [LinearOrder κ] (column : String → Contact → κ) (db : Db) (accountId : Nat)
    (params : ContactsPageDto) (ids : Finset Nat) : Prop where
  listed : ∀ answer, Answers column (pageQuery db accountId params) db.contacts answer → ∀ id,
    id ∈ ids ↔ ∃ page, ∃ c ∈ (findAllPaginated db accountId answer
      { params with countOnly := none } (page + 1)).results, c.id = id
  counted : ∀ answer page, (findAllPaginated db accountId answer
    { params with countOnly := some true } page).total = ids.card
  exported : ∀ answer, Answers column (pageQuery db accountId params) db.contacts answer → ∀ id,
    id ∈ ids ↔ ∃ page, ∃ c ∈ exportPage db accountId answer
      { params with countOnly := none } (page + 1), c.id = id
  streamed : ∀ id, id ∈ ids ↔ ∃ c ∈ exportContactsStream db accountId params, c.id = id
  estimated : exportInit db accountId params = ids.card
  unsubscribeCounted : countUnsubscribe db accountId params = ids.card
  unsubscribed : ∀ id, id ∈ ids ↔ ∃ c ∈ (unsubscribe db accountId params).2, c.id = id

/-! ## What each query selects -/

@[simp] theorem holds_new (row : ρ) : (Query.new : Query ρ).holds row = true := rfl

@[simp] theorem holds_andWhere (q : Query ρ) (cond : ρ → Bool) (row : ρ) :
    (q.andWhere cond).holds row = (q.holds row && cond row) := by
  rw [Query.holds, Query.andWhere, List.all_append, List.all_cons, List.all_nil, Bool.and_true]
  rfl

@[simp] theorem holds_given {α : Type} (q : Query ρ) (param : Option α) (cond : α → ρ → Bool)
    (row : ρ) : (q.given param cond).holds row = (q.holds row && param.all fun a => cond a row) := by
  cases param with
  | none => exact (Bool.and_true _).symm
  | some a => exact holds_andWhere q (cond a) row

@[simp] theorem holds_addOrderBy (q : Query ρ) (sort : String) (order : Order) (row : ρ) :
    (q.addOrderBy sort order).holds row = q.holds row := rfl

@[simp] theorem holds_orderBy (q : Query ρ) (sort : String) (order : Order) (row : ρ) :
    (q.orderBy sort order).holds row = q.holds row := rfl

/-- The filters all the queries share. -/
def shared (db : Db) (accountId : Nat) (params : ContactsPageDto) (c : Contact) : Bool :=
  c.accountId == accountId && (params.titleFilter.all fun title => emailLike title c) &&
    (params.tagsFilter.all fun tags => hasTag db accountId tags c) &&
    params.datesFilter.all fun dates => createdBetween dates c

/-- The four flags. -/
def flagged (params : ContactsPageDto) (c : Contact) : Bool :=
  (params.isUnsubscribed.all fun b => c.isUnsubscribed == b) &&
    (params.hasBounced.all fun b => c.hasBounced == b) &&
    (params.isBlocked.all fun b => c.isBlocked == b) && params.isActive.all fun b => c.isActive == b

/-- The ids asked for. -/
def named (params : ContactsPageDto) (c : Contact) : Bool :=
  params.contactsFilter.all fun ids => isOneOf ids c

theorem listQuery_holds (db : Db) (accountId : Nat) (params : ContactsPageDto) (c : Contact) :
    (listQuery db accountId params).holds c = (shared db accountId params c && flagged params c) := by
  simp only [listQuery, holds_given, holds_andWhere, holds_new, Bool.true_and, shared, flagged,
    Bool.and_assoc]

theorem pageQuery_holds (db : Db) (accountId : Nat) (params : ContactsPageDto) (c : Contact) :
    (pageQuery db accountId params).holds c
      = (shared db accountId params c && flagged params c && named params c) := by
  rw [pageQuery, holds_orderBy, holds_given, named, ← listQuery_holds]
  split <;> rfl

theorem generateParametrizedSelectQuery_holds (db : Db) (accountId : Nat)
    (params : ContactsPageDto) (c : Contact) :
    (generateParametrizedSelectQuery db accountId params).holds c
      = (shared db accountId params c && named params c && c.email.isSome) := by
  simp only [generateParametrizedSelectQuery, holds_given, holds_andWhere, holds_new, Bool.true_and,
    shared, named]
  cases c.email.isSome
  · simp only [Bool.and_false, Bool.false_and]
  · simp only [Bool.and_true]

theorem generateUnsubscribeQuery_holds (db : Db) (accountId : Nat) (params : ContactsPageDto)
    (c : Contact) : (generateUnsubscribeQuery db accountId params).holds c
      = (shared db accountId params c && named params c) := by
  simp only [generateUnsubscribeQuery, holds_given, holds_andWhere, holds_new, Bool.true_and, shared,
    named]

theorem order_lost (db : Db) (accountId : Nat) (params : ContactsPageDto) :
    (pageQuery db accountId params).orderBys = [(params.sortColumn, params.sortOrder)] := rfl

/-! ## Counting contacts -/

theorem id_inj {db : Db} {c d : Contact} (hc : c ∈ db.contacts) (hd : d ∈ db.contacts)
    (haccount : c.accountId = d.accountId) (hid : c.id = d.id) : c = d :=
  List.inj_on_of_nodup_map db.primary hc hd (Prod.ext haccount hid)

theorem accountId_of_shared {db : Db} {accountId : Nat} {params : ContactsPageDto} {c : Contact}
    (h : shared db accountId params c = true) : c.accountId = accountId := by
  simp only [shared, Bool.and_eq_true] at h
  exact beq_iff_eq.mp h.1.1.1

theorem nodup_contacts (db : Db) : db.contacts.Nodup := db.primary.of_map _

theorem nodup_ids {db : Db} {accountId : Nat} {p : Contact → Bool}
    (hp : ∀ c ∈ db.contacts, p c = true → c.accountId = accountId) :
    ((db.contacts.filter p).map (·.id)).Nodup := by
  refine List.Nodup.map_on ?_ ((nodup_contacts db).filter p)
  intro c hc d hd hid
  obtain ⟨hc, hpc⟩ := List.mem_filter.mp hc
  obtain ⟨hd, hpd⟩ := List.mem_filter.mp hd
  exact id_inj hc hd ((hp c hc hpc).trans (hp d hd hpd).symm) hid

theorem count_eq_length {db : Db} {accountId : Nat} {p : Contact → Bool}
    (hp : ∀ c ∈ db.contacts, p c = true → c.accountId = accountId) :
    count ((db.contacts.filter p).map (·.id)) = (db.contacts.filter p).length := by
  rw [count, (nodup_ids hp).dedup, List.length_map]

theorem mem_leftJoin_tags {db : Db} {accountId : Nat} {tags : List Nat} {c : Contact}
    (hc : c.accountId = accountId) :
    (∃ row ∈ leftJoin db c,
      (row.2.any fun ctg => tags.contains ctg.tagId && ctg.accountId == accountId) = true) ↔
      hasTag db accountId tags c = true := by
  rw [hasTag, List.any_eq_true]
  constructor
  · rintro ⟨row, hrow, hany⟩
    rw [leftJoin] at hrow
    split at hrow
    · obtain rfl := List.mem_singleton.mp hrow
      cases hany
    · obtain ⟨ctg, hctg, rfl⟩ := List.mem_map.mp hrow
      obtain ⟨hctg, hon⟩ := List.mem_filter.mp hctg
      simp only [Option.any_some, Bool.and_eq_true] at hany hon
      refine ⟨ctg, hctg, ?_⟩
      simp only [Bool.and_eq_true]
      exact ⟨⟨hany.2, hon.1⟩, hany.1⟩
  · rintro ⟨ctg, hctg, hcond⟩
    simp only [Bool.and_eq_true] at hcond
    obtain ⟨⟨haccount, hid⟩, htag⟩ := hcond
    have hon : ctg ∈ db.contactsTags.filter
        fun ctg => ctg.contactId == c.id && ctg.accountId == c.accountId := by
      refine List.mem_filter.mpr ⟨hctg, ?_⟩
      rw [hid, hc, haccount]
      rfl
    refine ⟨(c, some ctg), ?_, ?_⟩
    · rw [leftJoin, if_neg]
      · exact List.mem_map_of_mem hon
      · intro hempty
        rw [List.isEmpty_iff.mp hempty] at hon
        cases hon
    · rw [Option.any_some, htag, haccount]
      rfl

theorem fst_of_mem_leftJoin {db : Db} {c : Contact} {row : Contact × Option ContactTag}
    (h : row ∈ leftJoin db c) : row.1 = c := by
  rw [leftJoin] at h
  split at h
  · obtain rfl := List.mem_singleton.mp h
    rfl
  · obtain ⟨ctg, _, rfl⟩ := List.mem_map.mp h
    rfl

theorem count_congr {l l' : List Nat} (h : ∀ id, id ∈ l ↔ id ∈ l') : count l = count l' := by
  refine ((List.perm_ext_iff_of_nodup l.nodup_dedup l'.nodup_dedup).mpr fun id => ?_).length_eq
  rw [List.mem_dedup, List.mem_dedup]
  exact h id

/-- The rows a contact has in the table of the count. -/
def joined (db : Db) (params : ContactsPageDto) (c : Contact) : List (Contact × Option ContactTag) :=
  match params.tagsFilter with
  | none => [(c, none)]
  | some _ => leftJoin db c

theorem fst_of_mem_joined {db : Db} {params : ContactsPageDto} {c : Contact}
    {row : Contact × Option ContactTag} (h : row ∈ joined db params c) : row.1 = c := by
  rw [joined] at h
  split at h
  · rw [List.mem_singleton.mp h]
  · exact fst_of_mem_leftJoin h

theorem exists_joined_iff (db : Db) (accountId : Nat) (params : ContactsPageDto) (c : Contact) :
    (∃ row ∈ joined db params c, (countUnsubscribeQuery accountId params).holds row = true) ↔
      (shared db accountId params c && named params c) = true := by
  simp only [countUnsubscribeQuery, holds_given, holds_andWhere, holds_new, Bool.true_and, shared,
    named, Bool.and_eq_true, joined]
  cases htags : params.tagsFilter with
  | none =>
      simp only [Option.all_none, List.mem_singleton, exists_eq_left]
  | some tags =>
      simp only [Option.all_some]
      constructor
      · rintro ⟨row, hrow, ⟨⟨⟨haccount, htitle⟩, htag⟩, hdates⟩, hnamed⟩
        have hfst := fst_of_mem_leftJoin hrow
        rw [hfst] at haccount htitle hdates hnamed
        have hc := beq_iff_eq.mp haccount
        exact ⟨⟨⟨⟨haccount, htitle⟩, (mem_leftJoin_tags hc).mp ⟨row, hrow, htag⟩⟩, hdates⟩, hnamed⟩
      · rintro ⟨⟨⟨⟨haccount, htitle⟩, htag⟩, hdates⟩, hnamed⟩
        obtain ⟨row, hrow, hany⟩ := (mem_leftJoin_tags (beq_iff_eq.mp haccount)).mpr htag
        refine ⟨row, hrow, ?_⟩
        rw [fst_of_mem_leftJoin hrow]
        exact ⟨⟨⟨⟨haccount, htitle⟩, hany⟩, hdates⟩, hnamed⟩

theorem countUnsubscribe_eq (db : Db) (accountId : Nat) (params : ContactsPageDto) :
    countUnsubscribe db accountId params
      = count ((db.contacts.filter fun c => shared db accountId params c && named params c).map
          (·.id)) := by
  have htable : (match params.tagsFilter with
      | none => db.contacts.map fun c => (c, none)
      | some _ => db.contacts.flatMap (leftJoin db)) = db.contacts.flatMap (joined db params) := by
    unfold joined
    cases params.tagsFilter with
    | none => exact List.map_eq_flatMap
    | some tags => rfl
  rw [countUnsubscribe, htable]
  refine count_congr fun id => ?_
  simp only [Query.rows, List.mem_map, List.mem_filter, List.mem_flatMap]
  constructor
  · rintro ⟨row, ⟨⟨c, hc, hrow⟩, hholds⟩, rfl⟩
    refine ⟨c, ⟨hc, (exists_joined_iff db accountId params c).mp ⟨row, hrow, hholds⟩⟩, ?_⟩
    rw [fst_of_mem_joined hrow]
  · rintro ⟨c, ⟨hc, hholds⟩, rfl⟩
    obtain ⟨row, hrow, hjoined⟩ := (exists_joined_iff db accountId params c).mpr hholds
    refine ⟨row, ⟨⟨c, hc, hrow⟩, hjoined⟩, ?_⟩
    rw [fst_of_mem_joined hrow]

/-! ## The pages -/

section Pages

variable [LinearOrder κ] {column : String → Contact → κ}

/-- No tie of the sort column reaches over the end of a page. -/
def Unsplit (column : String → Contact → κ) (n : Nat) (sort : String) (order : Order)
    (l : List Contact) : Prop :=
  match order with
  | .asc => SortedPages.Unsplit (column sort) n l
  | .desc => SortedPages.Unsplit (fun c => OrderDual.toDual (column sort c)) n l

theorem follows_asc (sort : String) :
    follows column [(sort, .asc)] = fun c d => column sort c ≤ column sort d := by
  funext c d
  rw [follows, follows, and_true, le_iff_lt_or_eq]

theorem follows_desc (sort : String) : follows column [(sort, .desc)]
    = fun c d => OrderDual.toDual (column sort c) ≤ OrderDual.toDual (column sort d) := by
  funext c d
  rw [follows, follows, and_true, OrderDual.toDual_le_toDual, le_iff_lt_or_eq, eq_comm (a := column sort d)]

variable {db : Db} {accountId : Nat} {params : ContactsPageDto}

theorem answers_asc (h : params.sortOrder = .asc) {answer : Nat → List Contact} :
    Answers column (pageQuery db accountId params) db.contacts answer ↔
      SortedPages.Answers (column params.sortColumn)
        ((pageQuery db accountId params).rows db.contacts) answer := by
  rw [Answers, order_lost, h, follows_asc]
  rfl

theorem answers_desc (h : params.sortOrder = .desc) {answer : Nat → List Contact} :
    Answers column (pageQuery db accountId params) db.contacts answer ↔
      SortedPages.Answers (fun c => OrderDual.toDual (column params.sortColumn c))
        ((pageQuery db accountId params).rows db.contacts) answer := by
  rw [Answers, order_lost, h, follows_desc]
  rfl

/-- The contact is on a page of the list. -/
def Seen (db : Db) (accountId : Nat) (params : ContactsPageDto) (answer : Nat → List Contact)
    (c : Contact) : Prop :=
  ∃ page, c ∈ (findAllPaginated db accountId answer { params with countOnly := none } (page + 1)).results

theorem seen_zero (h : params.itemsPerPage = 0) {answer : Nat → List Contact} {c : Contact} :
    Seen db accountId params answer c ↔ ∃ page, c ∈ answer (page + 1) := by
  simp only [Seen, findAllPaginated, h, if_true, reduceCtorEq, if_false]

theorem seen_pos (h : 0 < params.itemsPerPage) {answer : Nat → List Contact} {c : Contact} :
    Seen db accountId params answer c ↔ SortedPages.Listed params.itemsPerPage answer c := by
  simp only [Seen, SortedPages.Listed, findAllPaginated, Nat.ne_of_gt h, reduceCtorEq, if_false]

theorem mem_of_seen {answer : Nat → List Contact}
    (hanswer : Answers column (pageQuery db accountId params) db.contacts answer) {c : Contact}
    (h : Seen db accountId params answer c) : c ∈ (pageQuery db accountId params).rows db.contacts := by
  rcases Nat.eq_zero_or_pos params.itemsPerPage with hn | hn
  · obtain ⟨page, hc⟩ := (seen_zero hn).mp h
    exact (hanswer (page + 1)).1.mem_iff.mp hc
  · obtain ⟨page, hc⟩ := (seen_pos hn).mp h
    rw [Paging.page] at hc
    exact (hanswer (page + 1)).1.mem_iff.mp (List.mem_of_mem_drop (List.mem_of_mem_take hc))

theorem nodup_rows (q : Query Contact) : (q.rows db.contacts).Nodup := (nodup_contacts db).filter _

/-- Some database shows every contact. -/
theorem exists_answers_seen (column : String → Contact → κ) (db : Db) (accountId : Nat)
    (params : ContactsPageDto) : ∃ answer,
    Answers column (pageQuery db accountId params) db.contacts answer ∧
      ∀ c ∈ (pageQuery db accountId params).rows db.contacts, Seen db accountId params answer c := by
  have hpos : 0 < max 1 params.itemsPerPage :=
    Nat.lt_of_lt_of_le Nat.one_pos (Nat.le_max_left 1 params.itemsPerPage)
  obtain ⟨answer, hanswer, hall⟩ : ∃ answer,
      Answers column (pageQuery db accountId params) db.contacts answer ∧
        ∀ c ∈ (pageQuery db accountId params).rows db.contacts,
          SortedPages.Listed (max 1 params.itemsPerPage) answer c := by
    cases horder : params.sortOrder with
    | asc =>
        simp only [answers_asc horder]
        exact SortedPages.exists_answers_listed hpos _
    | desc =>
        simp only [answers_desc horder]
        exact SortedPages.exists_answers_listed hpos _
  refine ⟨answer, hanswer, fun c hc => ?_⟩
  rcases Nat.eq_zero_or_pos params.itemsPerPage with hn | hn
  · exact (seen_zero hn).mpr ⟨0, (hanswer 1).1.mem_iff.mpr hc⟩
  · rw [seen_pos hn, ← Nat.max_eq_right hn]
    exact hall c hc

/-- Every database shows every contact exactly when no tie is split. -/
theorem forall_seen_iff :
    (∀ answer, Answers column (pageQuery db accountId params) db.contacts answer →
      ∀ c ∈ (pageQuery db accountId params).rows db.contacts, Seen db accountId params answer c) ↔
      Unsplit column params.itemsPerPage params.sortColumn params.sortOrder
        ((pageQuery db accountId params).rows db.contacts) := by
  rcases Nat.eq_zero_or_pos params.itemsPerPage with hn | hn
  · have hunsplit : Unsplit column params.itemsPerPage params.sortColumn params.sortOrder
        ((pageQuery db accountId params).rows db.contacts) := by
      rw [hn]
      unfold Unsplit
      split
      all_goals
        intro c _
        rw [Nat.div_zero, Nat.div_zero]
    refine ⟨fun _ => hunsplit, fun _ answer hanswer c hc => ?_⟩
    exact (seen_zero hn).mpr ⟨0, (hanswer 1).1.mem_iff.mpr hc⟩
  · simp only [seen_pos hn]
    unfold Unsplit
    cases horder : params.sortOrder with
    | asc =>
        simp only [answers_asc horder]
        exact SortedPages.forall_listed_iff hn (nodup_rows _)
    | desc =>
        simp only [answers_desc horder]
        exact SortedPages.forall_listed_iff hn (nodup_rows _)

end Pages

/-! ## When they agree -/

/-- The condition: what one of the queries leaves out of account decides nothing. -/
structure Alike [LinearOrder κ] (column : String → Contact → κ) (db : Db) (accountId : Nat)
    (params : ContactsPageDto) : Prop where
  /-- Whoever meets the other filters and the flags is among the contacts asked for. -/
  allNamed : ∀ c ∈ db.contacts, shared db accountId params c = true → flagged params c = true →
    named params c = true
  /-- Whoever is asked for and meets the other filters meets the flags. -/
  allFlagged : ∀ c ∈ db.contacts, shared db accountId params c = true → named params c = true →
    flagged params c = true
  /-- Whoever meets them all has an e-mail. -/
  allMailed : ∀ c ∈ db.contacts, shared db accountId params c = true → flagged params c = true →
    named params c = true → hasEmail c = true
  unsplit : Unsplit column params.itemsPerPage params.sortColumn params.sortOrder
    ((pageQuery db accountId params).rows db.contacts)

section Agree

variable [LinearOrder κ] {column : String → Contact → κ} {db : Db} {accountId : Nat}
  {params : ContactsPageDto}

theorem mem_page_rows {c : Contact} : c ∈ (pageQuery db accountId params).rows db.contacts ↔
    c ∈ db.contacts ∧ shared db accountId params c = true ∧ flagged params c = true ∧
      named params c = true := by
  rw [Query.rows, List.mem_filter, pageQuery_holds, Bool.and_eq_true, Bool.and_eq_true, and_assoc]

theorem eq_of_page_rows {c d : Contact} (hc : c ∈ (pageQuery db accountId params).rows db.contacts)
    (hd : d ∈ db.contacts) (hshared : shared db accountId params d = true) (hid : c.id = d.id) :
    c = d := by
  obtain ⟨hc, hsharedc, _⟩ := mem_page_rows.mp hc
  exact id_inj hc hd ((accountId_of_shared hsharedc).trans (accountId_of_shared hshared).symm) hid

/-- The set all requests are to be about. -/
def pageIds (db : Db) (accountId : Nat) (params : ContactsPageDto) : Finset Nat :=
  (((pageQuery db accountId params).rows db.contacts).map (·.id)).toFinset

theorem mem_pageIds {id : Nat} : id ∈ pageIds db accountId params ↔
    ∃ c ∈ (pageQuery db accountId params).rows db.contacts, c.id = id := by
  rw [pageIds, List.mem_toFinset, List.mem_map]

theorem card_pageIds : (pageIds db accountId params).card
    = count (((pageQuery db accountId params).rows db.contacts).map (·.id)) := rfl

/-- The list decides the set. -/
theorem Same.eq_pageIds {ids : Finset Nat} (h : Same column db accountId params ids) :
    ids = pageIds db accountId params := by
  obtain ⟨answer, hanswer, hall⟩ := exists_answers_seen column db accountId params
  ext id
  rw [h.listed answer hanswer id, mem_pageIds]
  constructor
  · rintro ⟨page, c, hc, rfl⟩
    exact ⟨c, mem_of_seen hanswer ⟨page, hc⟩, rfl⟩
  · rintro ⟨c, hc, rfl⟩
    obtain ⟨page, hc⟩ := hall c hc
    exact ⟨page, c, hc, rfl⟩

theorem mem_streamed {c : Contact} : c ∈ exportContactsStream db accountId params ↔
    c ∈ db.contacts ∧ shared db accountId params c = true ∧ named params c = true ∧
      hasEmail c = true := by
  have hsome : hasEmail c = true → c.email.isSome = true := by
    intro h
    rw [hasEmail] at h
    cases hmail : c.email with
    | none => rw [hmail] at h; cases h
    | some email => rfl
  rw [exportContactsStream, Query.rows, List.mem_filter, List.mem_filter,
    generateParametrizedSelectQuery_holds, Bool.and_eq_true, Bool.and_eq_true]
  exact ⟨fun ⟨⟨hc, ⟨hs, hn⟩, _⟩, hmail⟩ => ⟨hc, hs, hn, hmail⟩,
    fun ⟨hc, hs, hn, hmail⟩ => ⟨⟨hc, ⟨hs, hn⟩, hsome hmail⟩, hmail⟩⟩

theorem mem_unsubscribed {c : Contact} : c ∈ (unsubscribe db accountId params).2 ↔
    c ∈ db.contacts ∧ shared db accountId params c = true ∧ named params c = true := by
  rw [unsubscribe, Query.rows, List.mem_filter, generateUnsubscribeQuery_holds, Bool.and_eq_true]

/-- The requests agree exactly when what one of them leaves out decides nothing. -/
theorem alike_of_same {ids : Finset Nat} (h : Same column db accountId params ids) :
    Alike column db accountId params := by
  obtain rfl := h.eq_pageIds
  refine ⟨?_, fun c hc hshared hnamed => ?_, fun c hc hshared hflagged hnamed => ?_, ?_⟩
  · have hrows : (pageQuery db accountId params).rows db.contacts
        = ((listQuery db accountId params).rows db.contacts).filter (named params) := by
      rw [Query.rows, Query.rows, List.filter_filter]
      refine List.filter_congr fun c _ => ?_
      rw [pageQuery_holds, listQuery_holds, Bool.and_comm]
    have hcount := h.counted (fun _ => []) 1
    have haccount : ∀ c ∈ db.contacts, (listQuery db accountId params).holds c = true →
        c.accountId = accountId := fun c _ hc => by
      rw [listQuery_holds] at hc
      exact accountId_of_shared (Bool.and_eq_true_iff.mp hc).1
    have haccount' : ∀ c ∈ db.contacts, (pageQuery db accountId params).holds c = true →
        c.accountId = accountId := fun c hc hholds =>
      accountId_of_shared (mem_page_rows.mp (List.mem_filter.mpr ⟨hc, hholds⟩)).2.1
    have hlen : (((listQuery db accountId params).rows db.contacts).filter (named params)).length
        = ((listQuery db accountId params).rows db.contacts).length := by
      rw [← hrows]
      exact (count_eq_length haccount').symm.trans (hcount.symm.trans (count_eq_length haccount))
    intro c hc hshared hflagged
    refine List.length_filter_eq_length_iff.mp hlen c (List.mem_filter.mpr ⟨hc, ?_⟩)
    rw [listQuery_holds, hshared, hflagged]
    rfl
  · have hid := (h.unsubscribed c.id).mpr ⟨c, mem_unsubscribed.mpr ⟨hc, hshared, hnamed⟩, rfl⟩
    obtain ⟨d, hd, hdc⟩ := mem_pageIds.mp hid
    obtain rfl := eq_of_page_rows hd hc hshared hdc
    exact (mem_page_rows.mp hd).2.2.1
  · have hpage := mem_page_rows.mpr ⟨hc, hshared, hflagged, hnamed⟩
    obtain ⟨d, hd, hdc⟩ := (h.streamed c.id).mp (mem_pageIds.mpr ⟨c, hpage, rfl⟩)
    obtain ⟨hd, hsharedd, _, hmail⟩ := mem_streamed.mp hd
    obtain rfl := eq_of_page_rows hpage hd hsharedd hdc.symm
    exact hmail
  · refine forall_seen_iff.mp fun answer hanswer c hc => ?_
    obtain ⟨page, d, hd, hdc⟩ := (h.listed answer hanswer c.id).mp (mem_pageIds.mpr ⟨c, hc, rfl⟩)
    obtain ⟨hd', hsharedd, _⟩ := mem_page_rows.mp (mem_of_seen hanswer ⟨page, hd⟩)
    obtain rfl := eq_of_page_rows hc hd' hsharedd hdc.symm
    exact ⟨page, hd⟩

theorem same_of_alike (h : Alike column db accountId params) :
    Same column db accountId params (pageIds db accountId params) := by
  have hseen := forall_seen_iff.mpr h.unsplit
  have hmail : ∀ c ∈ (pageQuery db accountId params).rows db.contacts, hasEmail c = true := by
    intro c hc
    obtain ⟨hc, hshared, hflagged, hnamed⟩ := mem_page_rows.mp hc
    exact h.allMailed c hc hshared hflagged hnamed
  have hrows : ∀ q : Query Contact, (∀ c ∈ db.contacts,
      q.holds c = true ↔ (pageQuery db accountId params).holds c = true) →
      count ((q.rows db.contacts).map (·.id)) = (pageIds db accountId params).card := by
    intro q hq
    rw [card_pageIds, Query.rows, Query.rows]
    exact congrArg (fun l => count (l.map (·.id)))
      (List.filter_congr fun c hc => Bool.eq_iff_iff.mpr (hq c hc))
  refine ⟨fun answer hanswer id => ?_, fun answer page => ?_, fun answer hanswer id => ?_,
    fun id => ?_, ?_, ?_, fun id => ?_⟩
  · rw [mem_pageIds]
    constructor
    · rintro ⟨c, hc, rfl⟩
      obtain ⟨page, hpage⟩ := hseen answer hanswer c hc
      exact ⟨page, c, hpage, rfl⟩
    · rintro ⟨page, c, hc, rfl⟩
      exact ⟨c, mem_of_seen hanswer ⟨page, hc⟩, rfl⟩
  · refine hrows (listQuery db accountId params) fun c hc => ?_
    rw [listQuery_holds, pageQuery_holds]
    simp only [Bool.and_eq_true]
    exact ⟨fun ⟨hs, hf⟩ => ⟨⟨hs, hf⟩, h.allNamed c hc hs hf⟩, fun hall => hall.1⟩
  · rw [mem_pageIds]
    constructor
    · rintro ⟨c, hc, rfl⟩
      obtain ⟨page, hpage⟩ := hseen answer hanswer c hc
      exact ⟨page, c, List.mem_filter.mpr ⟨hpage, hmail c hc⟩, rfl⟩
    · rintro ⟨page, c, hc, rfl⟩
      exact ⟨c, mem_of_seen hanswer ⟨page, (List.mem_filter.mp hc).1⟩, rfl⟩
  · rw [mem_pageIds]
    constructor
    · rintro ⟨c, hc, rfl⟩
      obtain ⟨hin, hshared, _, hnamed⟩ := mem_page_rows.mp hc
      exact ⟨c, mem_streamed.mpr ⟨hin, hshared, hnamed, hmail c hc⟩, rfl⟩
    · rintro ⟨c, hc, rfl⟩
      obtain ⟨hin, hshared, hnamed, _⟩ := mem_streamed.mp hc
      exact ⟨c, mem_page_rows.mpr ⟨hin, hshared, h.allFlagged c hin hshared hnamed, hnamed⟩, rfl⟩
  · refine hrows (generateParametrizedSelectQuery db accountId params) fun c hc => ?_
    rw [generateParametrizedSelectQuery_holds, pageQuery_holds]
    simp only [Bool.and_eq_true]
    constructor
    · rintro ⟨⟨hs, hn⟩, _⟩
      exact ⟨⟨hs, h.allFlagged c hc hs hn⟩, hn⟩
    · rintro ⟨⟨hs, hf⟩, hn⟩
      have hstream := mem_streamed.mpr ⟨hc, hs, hn, h.allMailed c hc hs hf hn⟩
      have hholds := (List.mem_filter.mp (List.mem_filter.mp hstream).1).2
      rw [generateParametrizedSelectQuery_holds] at hholds
      simpa only [Bool.and_eq_true] using hholds
  · rw [countUnsubscribe_eq]
    refine (congrArg (fun p => count ((db.contacts.filter p).map (·.id))) ?_).trans
      (hrows (generateUnsubscribeQuery db accountId params) fun c hc => ?_)
    · exact funext fun c => (generateUnsubscribeQuery_holds db accountId params c).symm
    · rw [generateUnsubscribeQuery_holds, pageQuery_holds]
      simp only [Bool.and_eq_true]
      exact ⟨fun ⟨hs, hn⟩ => ⟨⟨hs, h.allFlagged c hc hs hn⟩, hn⟩, fun ⟨⟨hs, _⟩, hn⟩ => ⟨hs, hn⟩⟩
  · rw [mem_pageIds]
    constructor
    · rintro ⟨c, hc, rfl⟩
      obtain ⟨hin, hshared, _, hnamed⟩ := mem_page_rows.mp hc
      exact ⟨c, mem_unsubscribed.mpr ⟨hin, hshared, hnamed⟩, rfl⟩
    · rintro ⟨c, hc, rfl⟩
      obtain ⟨hin, hshared, hnamed⟩ := mem_unsubscribed.mp hc
      exact ⟨c, mem_page_rows.mpr ⟨hin, hshared, h.allFlagged c hin hshared hnamed, hnamed⟩, rfl⟩

end Agree

/-- The contacts of the pages, the count, the export in both forms, its estimate,
and the unsubscribe with its count are one set exactly under the condition. -/
theorem filters_agree_iff [LinearOrder κ] (column : String → Contact → κ) (db : Db)
    (accountId : Nat) (params : ContactsPageDto) :
    (∃ ids, Same column db accountId params ids) ↔ Alike column db accountId params :=
  ⟨fun ⟨_, h⟩ => alike_of_same h, fun h => ⟨_, same_of_alike h⟩⟩

/-! ## The operator lists the active contacts -/

/-- Two contacts, one of them inactive. -/
def twoContacts : Db where
  contacts := [⟨1, 7, some "ann@x.org", 0, false, false, false, true⟩,
    ⟨2, 7, some "bob@x.org", 0, false, false, false, false⟩]
  contactsTags := []
  primary := by decide

/-- `?isActive=true&itemsPerPage=50`. -/
def onlyActive : ContactsPageDto where
  title := none
  tags := none
  segments := none
  startDate := none
  endDate := none
  contacts := none
  isUnsubscribed := none
  hasBounced := none
  isBlocked := none
  isActive := some true
  countOnly := none
  itemsPerPage := 50
  sortBy := none
  order := none

theorem inactive_unsubscribed :
    ¬∀ (column : String → Contact → Nat) (db : Db) (accountId : Nat) (params : ContactsPageDto),
      ∃ ids, Same column db accountId params ids := by
  intro hall
  obtain ⟨ids, h⟩ := hall (fun _ c => c.createdAtDate) twoContacts 7 onlyActive
  have hcounted := h.counted (fun _ => []) 1
  have hunsubscribed := h.unsubscribeCounted
  have hone : (findAllPaginated twoContacts 7 (fun _ => [])
      { onlyActive with countOnly := some true } 1).total = 1 := by decide
  have htwo : countUnsubscribe twoContacts 7 onlyActive = 2 := by decide
  rw [hone] at hcounted
  rw [htwo, ← hcounted] at hunsubscribed
  cases hunsubscribed

end OpenBms.Contacts.Filters
