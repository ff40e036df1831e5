/-
# `OpenBms.EnterpriseImport.Values` — what an import stores in the columns of a page

A row of the source has its values under camel-case or snake-case keys, with nulls; `buildRow`
keeps those that are there, `withColumnDefaults` adds what the entity declares.  The page is then
written at once.  In account scope the query builder writes `DEFAULT` for what a row has not; in
instance scope `rawInsertPreservingPk` takes the columns of the first row for all of them.

| a row, against the first | a column only the first has | a column only the row has |
| :-- | :-- | :-- |
| account scope | the database's default | the row's value |
| instance scope | NULL | the database's default |

**Proved here**, for every page, importer and scope.

    what a row has for a column (`buildRow_eq`)
    every row inserted holds its own value, the entity's
    default or the database's in every column, iff in
    instance scope the rows are as the first, or the page is
    refused (`values_kept_iff`)
    a phone number the first contact has not (`phone_lost`)
-/
import OpenBms.Lib.Entries
import Mathlib

namespace OpenBms.EnterpriseImport.Values

/-- A column of an entity: its declared default, and the one of the database, where `none` is
NULL. -/
structure Column (V : Type) where
  propertyName : String
  databaseName : String
  default : Option V
  dbDefault : Option V
  notNull : Bool
  deriving DecidableEq

structure Metadata (V : Type) where
  columns : List (Column V)
  propertyNames : (columns.map (·.propertyName)).Nodup
  databaseNames : (columns.map (·.databaseName)).Nodup
  pkProp : String

variable {V : Type}

/-- A row as the source sends it; a value may be null. -/
structure Src (V : Type) where
  entries : List (String × Option V)
  nodup : (entries.map Prod.fst).Nodup

/-- `src?.[key]`, where null is as good as undefined. -/
def Src.value (src : Src V) (key : String) : Option V := (src.entries.lookup key).join

/-- A row to insert, by property names; what is not there is undefined. -/
abbrev Row (V : Type) := String → Option V

def Row.set (row : Row V) (prop : String) (value : Option V) : Row V := Function.update row prop value

inductive Scope where
  | accountScope
  | instanceScope
  deriving DecidableEq

structure Context (V : Type) where
  scope : Scope
  accountId : V
  /-- `idMapper.resolve` in account scope. -/
  resolve : String → V → Option V

/-- What the importers differ in. -/
structure Importer (V : Type) where
  metadata : Metadata V
  naturalKey : String
  scopedByAccount : Bool
  fkRemap : List (String × String)
  fks : (fkRemap.map Prod.fst).Nodup

def Metadata.isProperty (metadata : Metadata V) (key : String) : Bool :=
  metadata.columns.any fun c => c.propertyName = key

/-- `columnProps.has(key) ? key : propByDbName.get(key)`. -/
def Metadata.prop (metadata : Metadata V) (key : String) : Option String :=
  if metadata.isProperty key then some key
  else (metadata.columns.find? fun c => c.databaseName = key).map (·.propertyName)

/-- One turn of the loop over the keys of the source. -/
def copyKey (metadata : Metadata V) (row : Row V) (entry : String × Option V) : Row V :=
  match metadata.prop entry.1 with
  | none => row
  | some prop =>
      if entry.1 ≠ prop ∧ (row prop).isSome then row
      else match entry.2 with
        | none => row
        | some value => row.set prop (some value)

def copied (metadata : Metadata V) (src : Src V) : Row V :=
  src.entries.foldl (copyKey metadata) fun _ => none

/-- The loop over the foreign keys; a row whose key is not mapped is skipped. -/
def remap (ctx : Context V) (src : Src V) : List (String × String) → Row V → Option (Row V)
  | [], row => some row
  | (prop, mapEntity) :: rest, row =>
      match src.value prop with
      | none => remap ctx src rest row
      | some srcVal =>
          match ctx.scope with
          | .instanceScope => remap ctx src rest (row.set prop (some srcVal))
          | .accountScope =>
              match ctx.resolve mapEntity srcVal with
              | none => none
              | some resolved => remap ctx src rest (row.set prop (some resolved))

/-- `buildRow`, up to `customize`. -/
def buildRow (importer : Importer V) (ctx : Context V) (src : Src V) : Option (Row V) :=
  let pkProp := importer.metadata.pkProp
  let row := copied importer.metadata src
  let row := match ctx.scope with
    | .accountScope => row.set pkProp none
    | .instanceScope =>
        match src.value pkProp with
        | some value => row.set pkProp (some value)
        | none => row
  let row := if importer.scopedByAccount && importer.metadata.isProperty "accountId" then
      row.set "accountId" (some ctx.accountId)
    else row
  remap ctx src importer.fkRemap row

def withColumnDefaults (metadata : Metadata V) (row : Row V) : Row V := fun prop =>
  row prop <|> (metadata.columns.find? fun c => c.propertyName = prop).bind (·.default)

/-- The candidates of a page: rows with a natural key, the first of each. -/
def candidates (importer : Importer V) (ctx : Context V) (text : V → String) :
    List String → List (Src V) → List (Src V × Row V × String)
  | _, [] => []
  | seen, src :: rest =>
      match buildRow importer ctx src with
      | none => candidates importer ctx text seen rest
      | some row =>
          let nk := ((src.value importer.naturalKey <|> row importer.naturalKey).map text).getD ""
          if nk = "" ∨ nk ∈ seen then candidates importer ctx text seen rest
          else (src, row, nk) :: candidates importer ctx text (nk :: seen) rest

/-- `toInsert`: the candidates whose natural key is not there yet. -/
def toInsert (importer : Importer V) (ctx : Context V) (text : V → String) (existing : List String)
    (page : List (Src V)) : List (Src V × Row V) :=
  ((candidates importer ctx text [] page).filter fun c => c.2.2 ∉ existing).map
    fun c => (c.1, withColumnDefaults importer.metadata c.2.1)

/-- The rows of `MessagesImporter.run`: one for each name that is not there yet, with the keys that
are properties, the context's account, and the defaults of the columns but the id. -/
def messageRow (metadata : Metadata V) (ctx : Context V) (nameOf : Src V → V) (src : Src V) : Row V :=
  let row : Row V := fun prop =>
    if metadata.isProperty prop then if prop = "name" then some (nameOf src) else src.value prop
    else none
  let row := match ctx.scope with
    | .accountScope => row.set metadata.pkProp none
    | .instanceScope => row.set metadata.pkProp (src.value metadata.pkProp)
  let row := row.set "accountId" (some ctx.accountId)
  fun prop => row prop <|> (metadata.columns.find? fun c =>
    c.propertyName = prop ∧ c.propertyName ≠ metadata.pkProp).bind (·.default)

def firstOfName (nameOf : Src V → V) [DecidableEq V] : List V → List (Src V) → List (Src V)
  | _, [] => []
  | seen, m :: rest =>
      if nameOf m ∈ seen then firstOfName nameOf seen rest
      else m :: firstOfName nameOf (nameOf m :: seen) rest

def messagesToInsert [DecidableEq V] (metadata : Metadata V) (ctx : Context V) (nameOf : Src V → V)
    (existing : List V) (page : List (Src V)) : List (Src V × Row V) :=
  ((firstOfName nameOf [] page).filter fun m => nameOf m ∉ existing).map
    fun m => (m, messageRow metadata ctx nameOf m)

/-- What a row holds in each column. -/
abbrev Stored (V : Type) := Column V → Option V

/-- `rawInsertPreservingPk`. -/
def rawInsertPreservingPk (metadata : Metadata V) : List (Row V) → List (Stored V)
  | [] => []
  | first :: rest =>
      let props := metadata.columns.filter fun c => (first c.propertyName).isSome
      if props.isEmpty then []
      else (first :: rest).map fun row c =>
        if (first c.propertyName).isSome then row c.propertyName else c.dbDefault

/-- The insert of the query builder: `DEFAULT` for what is undefined. -/
def builderInsert (rows : List (Row V)) : List (Stored V) :=
  rows.map fun row c => row c.propertyName <|> c.dbDefault

/-- The rows as they are written, or nothing where one has NULL in a `NOT NULL` column. -/
def insertRows (metadata : Metadata V) (scope : Scope) (rows : List (Row V)) :
    Option (List (Stored V)) :=
  let stored := match scope with
    | .instanceScope => rawInsertPreservingPk metadata rows
    | .accountScope => builderInsert rows
  if stored.all fun values => metadata.columns.all fun c => !c.notNull || (values c).isSome then
    some stored
  else none

/-! ## What should be stored -/

/-- What the source has for a column: under the camel-case key, else under the snake-case one. -/
def named (metadata : Metadata V) (src : Src V) (c : Column V) : Option V :=
  src.value c.propertyName <|>
    if metadata.isProperty c.databaseName then none else src.value c.databaseName

/-- The same with the keys: a foreign key is mapped, the account is the context's, and an id is
not taken over in account scope. -/
def sourceValue (importer : Importer V) (ctx : Context V) (src : Src V) (c : Column V) : Option V :=
  match importer.fkRemap.lookup c.propertyName, src.value c.propertyName, ctx.scope with
  | some _, some srcVal, .instanceScope => some srcVal
  | some mapEntity, some srcVal, .accountScope => ctx.resolve mapEntity srcVal
  | _, _, _ =>
      if importer.scopedByAccount ∧ c.propertyName = "accountId" then some ctx.accountId
      else if ctx.scope = .accountScope ∧ c.propertyName = importer.metadata.pkProp then none
      else named importer.metadata src c

/-- What a message has for a column: these are read under camel-case keys only. -/
def messageValue (metadata : Metadata V) (ctx : Context V) (nameOf : Src V → V) (src : Src V)
    (c : Column V) : Option V :=
  if c.propertyName = "accountId" then some ctx.accountId
  else if c.propertyName = metadata.pkProp then
    if ctx.scope = .accountScope then none else src.value c.propertyName
  else (if c.propertyName = "name" then some (nameOf src) else src.value c.propertyName) <|> c.default

/-- Every row that is inserted holds in each column what it has of its own, else the database's
default. -/
def Kept (metadata : Metadata V) (scope : Scope) (own : Src V → Column V → Option V)
    (rows : List (Src V × Row V)) : Prop :=
  ∀ stored, insertRows metadata scope (rows.map Prod.snd) = some stored →
    ∀ (i : Nat) values src row, stored[i]? = some values → rows[i]? = some (src, row) →
      ∀ c ∈ metadata.columns, values c = (own src c <|> c.dbDefault)

/-- Beside the first row, a row has the same columns, up to what the database would put there. -/
def Even (metadata : Metadata V) (first row : Row V) : Prop :=
  ∀ c ∈ metadata.columns,
    ((first c.propertyName).isSome = true → row c.propertyName = none → c.dbDefault = none) ∧
      (first c.propertyName = none → ∀ v, row c.propertyName = some v → c.dbDefault = some v)

/-- With the columns of the first row, a `NOT NULL` column would be NULL. -/
def Refused (metadata : Metadata V) (first : Row V) (rows : List (Row V)) : Prop :=
  ∃ row ∈ rows, ∃ c ∈ metadata.columns, c.notNull = true ∧
    (if (first c.propertyName).isSome then row c.propertyName else c.dbDefault) = none

/-- The condition on the rows of a page. -/
def Uniform (metadata : Metadata V) : List (Row V) → Prop
  | [] => True
  | first :: rest =>
      (∃ c ∈ metadata.columns, (first c.propertyName).isSome = true) →
        Refused metadata first (first :: rest) ∨ ∀ row ∈ first :: rest, Even metadata first row

/-! ## The row of a source -/

section
variable {metadata : Metadata V} {src : Src V} {c : Column V}

theorem isProperty_of_mem (hc : c ∈ metadata.columns) : metadata.isProperty c.propertyName = true :=
  List.any_eq_true.mpr ⟨c, hc, decide_eq_true rfl⟩

theorem eq_of_propertyName {c' : Column V} (hc : c ∈ metadata.columns) (hc' : c' ∈ metadata.columns)
    (h : c.propertyName = c'.propertyName) : c = c' :=
  List.inj_on_of_nodup_map metadata.propertyNames hc hc' h

theorem eq_of_databaseName {c' : Column V} (hc : c ∈ metadata.columns) (hc' : c' ∈ metadata.columns)
    (h : c.databaseName = c'.databaseName) : c = c' :=
  List.inj_on_of_nodup_map metadata.databaseNames hc hc' h

theorem prop_eq_some (hc : c ∈ metadata.columns) {key : String} :
    metadata.prop key = some c.propertyName ↔
      key = c.propertyName ∨ metadata.isProperty key = false ∧ key = c.databaseName := by
  rw [Metadata.prop]
  by_cases hkey : metadata.isProperty key = true
  · rw [if_pos hkey, hkey]
    simp
  · have hfalse : metadata.isProperty key = false := Bool.eq_false_iff.mpr hkey
    have hne : key ≠ c.propertyName := by
      rintro rfl
      exact hkey (isProperty_of_mem hc)
    rw [if_neg hkey, hfalse, or_iff_right hne, and_iff_right rfl]
    constructor
    · intro h
      obtain ⟨c', hfind, hname⟩ := Option.map_eq_some_iff.mp h
      have hmem := List.mem_of_find?_eq_some hfind
      obtain rfl := eq_of_propertyName hmem hc hname
      exact (of_decide_eq_true (List.find?_some (p := fun c : Column V => decide (c.databaseName = key)) hfind)).symm
    · rintro rfl
      have hsome : (metadata.columns.find? fun c' => c'.databaseName = c.databaseName).isSome = true :=
        List.find?_isSome.mpr ⟨c, hc, decide_eq_true rfl⟩
      obtain ⟨c', hfind⟩ := Option.isSome_iff_exists.mp hsome
      have hname : c'.databaseName = c.databaseName := of_decide_eq_true
        (List.find?_some (p := fun c' : Column V => decide (c'.databaseName = c.databaseName)) hfind)
      rw [hfind, eq_of_databaseName (List.mem_of_find?_eq_some hfind) hc hname]
      rfl

theorem set_self (row : Row V) (prop : String) (value : Option V) : row.set prop value prop = value :=
  Function.update_self ..

theorem set_of_ne {row : Row V} {prop prop' : String} (h : prop' ≠ prop) (value : Option V) :
    row.set prop value prop' = row prop' :=
  Function.update_of_ne h ..

/-- The loop over the keys leaves in a column the camel-case value, else the snake-case one. -/
theorem copied_eq (metadata : Metadata V) (src : Src V) (hc : c ∈ metadata.columns) :
    copied metadata src c.propertyName = named metadata src c := by
  obtain ⟨entries, hnodup⟩ := src
  simp only [copied, named, Src.value]
  induction entries using List.reverseRecOn with
  | nil => cases metadata.isProperty c.databaseName <;> rfl
  | append_singleton entries last ih =>
      obtain ⟨key, value⟩ := last
      rw [List.map_append] at hnodup
      obtain ⟨hbefore, -, hapart⟩ := List.nodup_append.mp hnodup
      have hfresh : key ∉ entries.map Prod.fst :=
        fun hmem => hapart key hmem key (List.mem_singleton_self key) rfl
      specialize ih hbefore
      rw [List.foldl_append, List.foldl_cons, List.foldl_nil, Entries.lookup_concat hfresh,
        Entries.lookup_concat hfresh]
      generalize entries.foldl (copyKey metadata) (fun _ => none) = row at ih ⊢
      have hnone : (entries.lookup key).join = none := by rw [Entries.lookup_eq_none hfresh]; rfl
      by_cases hcamel : key = c.propertyName
      · subst hcamel
        have hprop : metadata.prop c.propertyName = some c.propertyName := (prop_eq_some hc).mpr (.inl rfl)
        have hsnake : (if metadata.isProperty c.databaseName then none
            else (if c.databaseName = c.propertyName then some value
              else entries.lookup c.databaseName).join) =
            if metadata.isProperty c.databaseName then none
              else (entries.lookup c.databaseName).join := by
          split
          · rfl
          · next hdb =>
            rw [if_neg]
            intro heq
            exact hdb (heq ▸ isProperty_of_mem hc)
        rw [hnone] at ih
        rw [hsnake, if_pos rfl, copyKey, hprop]
        simp only [ne_eq, not_true_eq_false, false_and, if_false]
        cases value with
        | none => exact ih
        | some v => exact set_self row c.propertyName (some v)
      · rw [if_neg (Ne.symm hcamel)]
        by_cases hsnake : metadata.isProperty key = false ∧ key = c.databaseName
        · obtain ⟨hdb, rfl⟩ := hsnake
          have hprop : metadata.prop c.databaseName = some c.propertyName :=
            (prop_eq_some hc).mpr (.inr ⟨hdb, rfl⟩)
          rw [hdb, hnone] at ih
          rw [copyKey, hprop, hdb]
          simp only [Bool.false_eq_true, if_false, if_true] at ih ⊢
          cases hold : (entries.lookup c.propertyName).join with
          | some v =>
              rw [hold] at ih
              have hrow : row c.propertyName = some v := ih
              rw [if_pos ⟨hcamel, by rw [hrow]; rfl⟩, hrow]
              rfl
          | none =>
              rw [hold] at ih
              have hrow : row c.propertyName = none := ih
              rw [if_neg (by rw [hrow]; simp)]
              cases value with
              | none => exact hrow
              | some v => exact set_self row c.propertyName (some v)
        · have hprop : metadata.prop key ≠ some c.propertyName := fun h =>
            ((prop_eq_some hc).mp h).elim hcamel hsnake
          have hdb : (if metadata.isProperty c.databaseName then none
              else (if c.databaseName = key then some value
                else entries.lookup c.databaseName).join) =
              if metadata.isProperty c.databaseName then none
                else (entries.lookup c.databaseName).join := by
            split
            · rfl
            · next hdb =>
              rw [if_neg]
              rintro rfl
              exact hsnake ⟨Bool.eq_false_iff.mpr hdb, rfl⟩
          rw [hdb, ← ih, copyKey]
          cases hread : metadata.prop key with
          | none => rfl
          | some prop =>
              have hne : c.propertyName ≠ prop := by
                rintro rfl
                exact hprop hread
              dsimp only
              split
              · rfl
              · cases value with
                | none => rfl
                | some v => exact set_of_ne hne (some v)

/-- The loop over the foreign keys sets those that the source has, and leaves the others. -/
theorem remap_eq {ctx : Context V} (prop : String) : ∀ {fks : List (String × String)}
    {row row' : Row V}, (fks.map Prod.fst).Nodup → remap ctx src fks row = some row' →
      row' prop = match fks.lookup prop, src.value prop, ctx.scope with
        | some _, some srcVal, .instanceScope => some srcVal
        | some mapEntity, some srcVal, .accountScope => ctx.resolve mapEntity srcVal
        | _, _, _ => row prop := by
  intro fks
  induction fks with
  | nil =>
      intro row row' _ h
      cases h
      rfl
  | cons fk fks ih =>
      intro row row' hnodup h
      obtain ⟨name, mapEntity⟩ := fk
      obtain ⟨hfresh, hrest⟩ := List.nodup_cons.mp hnodup
      rw [List.lookup_cons]
      by_cases hname : prop = name
      · subst hname
        have hnone : fks.lookup prop = none := Entries.lookup_eq_none hfresh
        rw [beq_self_eq_true]
        rw [remap] at h
        cases hvalue : src.value prop with
        | none =>
            rw [hvalue] at h
            have hrow := ih hrest h
            rw [hnone] at hrow
            exact hrow
        | some srcVal =>
            rw [hvalue] at h
            cases hscope : ctx.scope with
            | instanceScope =>
                rw [hscope] at h
                have hrow := ih hrest h
                rw [hnone, set_self] at hrow
                exact hrow
            | accountScope =>
                rw [hscope] at h
                dsimp only at h ⊢
                cases hresolve : ctx.resolve mapEntity srcVal with
                | none =>
                    rw [hresolve] at h
                    cases h
                | some resolved =>
                    rw [hresolve] at h
                    have hrow := ih hrest h
                    rw [hnone, set_self] at hrow
                    exact hrow
      · rw [beq_eq_false_iff_ne.mpr hname]
        rw [remap] at h
        cases hvalue : src.value name with
        | none =>
            rw [hvalue] at h
            exact ih hrest h
        | some srcVal =>
            rw [hvalue] at h
            cases hscope : ctx.scope with
            | instanceScope =>
                rw [hscope] at h
                have hrow := ih hrest h
                rw [set_of_ne hname, hscope] at hrow
                exact hrow
            | accountScope =>
                rw [hscope] at h
                dsimp only at h
                cases hresolve : ctx.resolve mapEntity srcVal with
                | none =>
                    rw [hresolve] at h
                    cases h
                | some resolved =>
                    rw [hresolve] at h
                    have hrow := ih hrest h
                    rw [set_of_ne hname, hscope] at hrow
                    exact hrow

theorem buildRow_eq {importer : Importer V} {ctx : Context V} {row : Row V}
    (h : buildRow importer ctx src = some row) (hc : c ∈ importer.metadata.columns) :
    row c.propertyName = sourceValue importer ctx src c := by
  have hremap := remap_eq c.propertyName importer.fks h
  rw [hremap, sourceValue]
  have hbase : (if importer.scopedByAccount && importer.metadata.isProperty "accountId" then
      Row.set (match ctx.scope with
        | .accountScope => (copied importer.metadata src).set importer.metadata.pkProp none
        | .instanceScope => match src.value importer.metadata.pkProp with
          | some value => (copied importer.metadata src).set importer.metadata.pkProp (some value)
          | none => copied importer.metadata src) "accountId" (some ctx.accountId)
      else match ctx.scope with
        | .accountScope => (copied importer.metadata src).set importer.metadata.pkProp none
        | .instanceScope => match src.value importer.metadata.pkProp with
          | some value => (copied importer.metadata src).set importer.metadata.pkProp (some value)
          | none => copied importer.metadata src) c.propertyName =
      if importer.scopedByAccount ∧ c.propertyName = "accountId" then some ctx.accountId
      else if ctx.scope = .accountScope ∧ c.propertyName = importer.metadata.pkProp then none
      else named importer.metadata src c := by
    have hinner : (match ctx.scope with
        | .accountScope => (copied importer.metadata src).set importer.metadata.pkProp none
        | .instanceScope => match src.value importer.metadata.pkProp with
          | some value => (copied importer.metadata src).set importer.metadata.pkProp (some value)
          | none => copied importer.metadata src) c.propertyName =
        if ctx.scope = .accountScope ∧ c.propertyName = importer.metadata.pkProp then none
        else named importer.metadata src c := by
      by_cases hpk : c.propertyName = importer.metadata.pkProp
      · rw [← hpk]
        cases ctx.scope with
        | accountScope => exact (set_self _ _ _).trans (if_pos ⟨rfl, rfl⟩).symm
        | instanceScope =>
            rw [if_neg (fun h => by cases h.1)]
            dsimp only
            cases hvalue : src.value c.propertyName with
            | none => exact copied_eq _ src hc
            | some value =>
                rw [named, hvalue]
                exact set_self _ _ _
      · rw [if_neg (fun h => hpk h.2), ← copied_eq _ src hc]
        cases ctx.scope with
        | accountScope => exact set_of_ne hpk _
        | instanceScope =>
            dsimp only
            cases src.value importer.metadata.pkProp with
            | none => rfl
            | some value => exact set_of_ne hpk _
    by_cases haccount : c.propertyName = "accountId"
    · have hproperty : importer.metadata.isProperty "accountId" = true := haccount ▸ isProperty_of_mem hc
      rw [hproperty, Bool.and_true]
      by_cases hscoped : importer.scopedByAccount = true
      · rw [if_pos hscoped, if_pos ⟨hscoped, haccount⟩, haccount]
        exact set_self _ _ _
      · rw [if_neg hscoped, if_neg (fun h => hscoped h.1)]
        exact hinner
    · rw [if_neg (c := importer.scopedByAccount ∧ c.propertyName = "accountId") (fun h => haccount h.2),
        ← hinner]
      by_cases hset : (importer.scopedByAccount && importer.metadata.isProperty "accountId") = true
      · rw [if_pos hset]
        exact set_of_ne haccount _
      · rw [if_neg hset]
  rw [← hbase]

end

/-! ## The page -/

section
variable {importer : Importer V} {ctx : Context V} {text : V → String}

theorem buildRow_of_mem_candidates {seen : List String} {page : List (Src V)} {src : Src V}
    {row : Row V} {nk : String} (h : (src, row, nk) ∈ candidates importer ctx text seen page) :
    src ∈ page ∧ buildRow importer ctx src = some row := by
  induction page generalizing seen with
  | nil => cases h
  | cons first page ih =>
      rw [candidates] at h
      split at h
      · exact (ih h).imp_left (List.mem_cons_of_mem first)
      · next built hbuilt =>
        dsimp only at h
        split at h
        · exact (ih h).imp_left (List.mem_cons_of_mem first)
        · rcases List.mem_cons.mp h with heq | h
          · cases heq
            exact ⟨List.mem_cons_self, hbuilt⟩
          · exact (ih h).imp_left (List.mem_cons_of_mem first)

theorem withColumnDefaults_eq {metadata : Metadata V} {c : Column V} (hc : c ∈ metadata.columns)
    (row : Row V) : withColumnDefaults metadata row c.propertyName =
      (row c.propertyName <|> c.default) := by
  have hsome : (metadata.columns.find? fun c' => c'.propertyName = c.propertyName).isSome = true :=
    List.find?_isSome.mpr ⟨c, hc, decide_eq_true rfl⟩
  obtain ⟨c', hfind⟩ := Option.isSome_iff_exists.mp hsome
  have hname : c'.propertyName = c.propertyName := of_decide_eq_true
    (List.find?_some (p := fun c' : Column V => decide (c'.propertyName = c.propertyName)) hfind)
  rw [withColumnDefaults, hfind, eq_of_propertyName (List.mem_of_find?_eq_some hfind) hc hname]
  rfl

theorem row_of_mem_toInsert {existing : List String} {page : List (Src V)} {src : Src V} {row : Row V}
    (h : (src, row) ∈ toInsert importer ctx text existing page) {c : Column V}
    (hc : c ∈ importer.metadata.columns) :
    src ∈ page ∧ row c.propertyName = (sourceValue importer ctx src c <|> c.default) := by
  obtain ⟨⟨src', row', nk⟩, hmem, heq⟩ := List.mem_map.mp h
  cases heq
  obtain ⟨hsrc, hbuilt⟩ := buildRow_of_mem_candidates (List.mem_filter.mp hmem).1
  refine ⟨hsrc, (withColumnDefaults_eq hc row').trans ?_⟩
  rw [buildRow_eq hbuilt hc]

theorem insertRows_instance {metadata : Metadata V} {first : Row V} {rest : List (Row V)}
    (hprops : ∃ c ∈ metadata.columns, (first c.propertyName).isSome = true) {stored : List (Stored V)} :
    insertRows metadata .instanceScope (first :: rest) = some stored ↔
      ¬ Refused metadata first (first :: rest) ∧ stored = (first :: rest).map fun row c =>
        if (first c.propertyName).isSome then row c.propertyName else c.dbDefault := by
  have hraw : rawInsertPreservingPk metadata (first :: rest) = (first :: rest).map fun row c =>
      if (first c.propertyName).isSome then row c.propertyName else c.dbDefault := by
    obtain ⟨c, hc, hsome⟩ := hprops
    rw [rawInsertPreservingPk, if_neg]
    rw [List.isEmpty_iff]
    exact List.ne_nil_of_mem (List.mem_filter.mpr ⟨hc, hsome⟩)
  have haccepted : (((first :: rest).map fun row (c : Column V) =>
      if (first c.propertyName).isSome then row c.propertyName else c.dbDefault).all fun values =>
        metadata.columns.all fun c => !c.notNull || (values c).isSome) = true ↔
        ¬ Refused metadata first (first :: rest) := by
    rw [List.all_map, List.all_eq_true]
    simp only [Function.comp_apply, List.all_eq_true, Bool.or_eq_true, Bool.not_eq_true',
      Refused, not_exists, not_and]
    refine forall₄_congr fun row _ c _ => ?_
    generalize (if (first c.propertyName).isSome then row c.propertyName else c.dbDefault) = value
    cases c.notNull <;> cases value <;> simp
  simp only [insertRows, hraw]
  split
  · next hall => rw [Option.some.injEq, and_iff_right (haccepted.mp hall), eq_comm]
  · next hsome => exact iff_of_false (fun h => by cases h) fun h => hsome (haccepted.mpr h.1)

theorem even_iff {metadata : Metadata V} {first row : Row V} : Even metadata first row ↔
    ∀ c ∈ metadata.columns,
      (if (first c.propertyName).isSome then row c.propertyName else c.dbDefault) =
        (row c.propertyName <|> c.dbDefault) := by
  refine forall₂_congr fun c _ => ?_
  cases first c.propertyName <;> cases row c.propertyName <;> simp [eq_comm]

theorem kept_iff {metadata : Metadata V} {scope : Scope} {own : Src V → Column V → Option V}
    {rows : List (Src V × Row V)}
    (hrows : ∀ src row, (src, row) ∈ rows → ∀ c ∈ metadata.columns, row c.propertyName = own src c) :
    Kept metadata scope own rows ↔
      (scope = .instanceScope → Uniform metadata (rows.map Prod.snd)) := by
  have hexpected : ∀ {src row}, (src, row) ∈ rows → ∀ c ∈ metadata.columns,
      (row c.propertyName <|> c.dbDefault) = (own src c <|> c.dbDefault) := by
    intro src row hmem c hc
    rw [hrows src row hmem c hc]
  unfold Kept
  cases scope with
  | accountScope =>
      refine iff_of_true ?_ fun h => by cases h
      intro stored hstored i values src row hvalues hrow c hc
      have heq : stored = builderInsert (rows.map Prod.snd) := by
        simp only [insertRows] at hstored
        split at hstored
        · exact (Option.some.inj hstored).symm
        · cases hstored
      rw [heq, builderInsert, List.map_map, List.getElem?_map, hrow] at hvalues
      cases hvalues
      exact hexpected (List.mem_of_getElem? hrow) c hc
  | instanceScope =>
      rw [forall_prop_of_true rfl]
      cases hcases : rows with
      | nil =>
          refine iff_of_true (fun stored _ i values src row _ hrow => ?_) trivial
          cases hrow
      | cons head rest =>
          obtain ⟨src₀, first⟩ := head
          rw [hcases] at hexpected
          constructor
          · intro hkept hprops
            refine or_iff_not_imp_left.mpr fun hrefused row hrow => even_iff.mpr fun c hc => ?_
            obtain ⟨i, hi⟩ := List.mem_iff_getElem?.mp hrow
            obtain ⟨⟨src, row'⟩, hpair, rfl⟩ : ∃ pair, ((src₀, first) :: rest)[i]? = some pair ∧
                pair.2 = row := by
              rw [← List.map_cons (f := Prod.snd), List.getElem?_map] at hi
              exact Option.map_eq_some_iff.mp hi
            have hindex : ((first :: rest.map Prod.snd).map fun row (c : Column V) =>
                if (first c.propertyName).isSome then row c.propertyName else c.dbDefault)[i]? =
                some fun c =>
                  if (first c.propertyName).isSome then row' c.propertyName else c.dbDefault := by
              rw [List.getElem?_map, hi]
              rfl
            have hvalues := hkept _ ((insertRows_instance hprops).mpr ⟨hrefused, rfl⟩) i _ src row'
              hindex hpair c hc
            exact hvalues.trans (hexpected (List.mem_of_getElem? hpair) c hc).symm
          · intro huniform stored hstored i values src row hvalues hrow c hc
            by_cases hprops : ∃ c ∈ metadata.columns, (first c.propertyName).isSome = true
            · obtain ⟨hrefused, rfl⟩ := (insertRows_instance hprops).mp hstored
              have heven := (huniform hprops).resolve_left hrefused row
                (List.mem_map_of_mem (List.mem_of_getElem? hrow))
              have hi : (first :: rest.map Prod.snd)[i]? = some row := by
                show (((src₀, first) :: rest).map Prod.snd)[i]? = some row
                rw [List.getElem?_map, hrow]
                rfl
              rw [List.getElem?_map, hi] at hvalues
              cases hvalues
              exact (even_iff.mp heven c hc).trans (hexpected (List.mem_of_getElem? hrow) c hc)
            · -- the first row has no column, and nothing is written
              have hempty : (metadata.columns.filter fun c =>
                  (first c.propertyName).isSome).isEmpty = true := by
                rw [List.isEmpty_iff, List.filter_eq_nil_iff]
                exact fun c hc hsome => hprops ⟨c, hc, hsome⟩
              have hnil : stored = [] := by
                simp only [insertRows, List.map_cons, rawInsertPreservingPk, hempty, if_true,
                  List.all_nil, Option.some.injEq] at hstored
                exact hstored.symm
              rw [hnil] at hvalues
              cases hvalues

theorem messageRow_eq {metadata : Metadata V} (nameOf : Src V → V) (src : Src V) {c : Column V}
    (hc : c ∈ metadata.columns) :
    messageRow metadata ctx nameOf src c.propertyName = messageValue metadata ctx nameOf src c := by
  have hdefault : ((metadata.columns.find? fun c' =>
      c'.propertyName = c.propertyName ∧ c'.propertyName ≠ metadata.pkProp).bind (·.default)) =
      if c.propertyName = metadata.pkProp then none else c.default := by
    by_cases hpk : c.propertyName = metadata.pkProp
    · rw [if_pos hpk, List.find?_eq_none.mpr]
      · rfl
      · intro c' _ h
        obtain ⟨hname, hne⟩ := of_decide_eq_true h
        exact hne (hname.trans hpk)
    · have hsome : (metadata.columns.find? fun c' =>
          c'.propertyName = c.propertyName ∧ c'.propertyName ≠ metadata.pkProp).isSome = true :=
        List.find?_isSome.mpr ⟨c, hc, decide_eq_true ⟨rfl, hpk⟩⟩
      obtain ⟨c', hfind⟩ := Option.isSome_iff_exists.mp hsome
      have hname : c'.propertyName = c.propertyName := (of_decide_eq_true
        (List.find?_some (p := fun c' : Column V => decide (c'.propertyName = c.propertyName ∧
          c'.propertyName ≠ metadata.pkProp)) hfind)).1
      rw [if_neg hpk, hfind, eq_of_propertyName (List.mem_of_find?_eq_some hfind) hc hname]
      rfl
  simp only [messageRow, messageValue, hdefault]
  by_cases haccount : c.propertyName = "accountId"
  · rw [if_pos haccount, haccount, set_self]
    rfl
  · rw [if_neg haccount, set_of_ne haccount]
    by_cases hpk : c.propertyName = metadata.pkProp
    · rw [if_pos hpk, if_pos hpk, hpk]
      cases ctx.scope with
      | accountScope => exact congrArg (· <|> none) (set_self _ _ _)
      | instanceScope =>
          dsimp only
          rw [set_self]
          cases src.value metadata.pkProp <;> rfl
    · rw [if_neg hpk, if_neg hpk]
      cases ctx.scope with
      | accountScope =>
          dsimp only
          rw [set_of_ne hpk, isProperty_of_mem hc, if_pos rfl]
      | instanceScope =>
          dsimp only
          rw [set_of_ne hpk, isProperty_of_mem hc, if_pos rfl]

/-- For every page, of a step of the base importer or of messages: each row inserted holds in every
column its own source's value, or the entity's default, or the database's, whatever the rest of the
page, if and only if the import is in account scope, or no row differs from the first in the columns
it has (up to what the database would put there), or the page is refused as a whole. -/
theorem values_kept_iff [DecidableEq V] (ctx : Context V) (page : List (Src V)) :
    (∀ (importer : Importer V) (text : V → String) (existing : List String),
      Kept importer.metadata ctx.scope
          (fun src c => sourceValue importer ctx src c <|> c.default)
          (toInsert importer ctx text existing page) ↔
        (ctx.scope = .instanceScope → Uniform importer.metadata
          ((toInsert importer ctx text existing page).map Prod.snd))) ∧
    ∀ (metadata : Metadata V) (nameOf : Src V → V) (existing : List V),
      Kept metadata ctx.scope (messageValue metadata ctx nameOf)
          (messagesToInsert metadata ctx nameOf existing page) ↔
        (ctx.scope = .instanceScope → Uniform metadata
          ((messagesToInsert metadata ctx nameOf existing page).map Prod.snd)) := by
  refine ⟨fun importer text existing => kept_iff fun _ _ hmem _ hc => (row_of_mem_toInsert hmem hc).2,
    fun metadata nameOf existing => kept_iff fun src row hmem c hc => ?_⟩
  obtain ⟨m, -, heq⟩ := List.mem_map.mp hmem
  cases heq
  exact messageRow_eq nameOf src hc

end

/-! ## Two contacts -/

/-- The importer of contacts, with three of its columns. -/
def contacts : Importer Nat where
  metadata :=
    { columns := [⟨"id", "id", none, none, true⟩, ⟨"uuid", "uuid", none, none, false⟩,
        ⟨"phone", "phone", none, none, false⟩]
      propertyNames := by decide
      databaseNames := by decide
      pkProp := "id" }
  naturalKey := "uuid"
  scopedByAccount := true
  fkRemap := []
  fks := by decide

/-- The first contact has no phone number: that of the second one is not stored. -/
theorem phone_lost : ∃ page : List (Src Nat),
    ¬ Kept contacts.metadata .instanceScope
      (fun src c => sourceValue contacts ⟨.instanceScope, 7, fun _ _ => none⟩ src c <|> c.default)
      (toInsert contacts ⟨.instanceScope, 7, fun _ _ => none⟩ toString [] page) := by
  refine ⟨[⟨[("id", some 1), ("uuid", some 11), ("phone", none)], by decide⟩,
    ⟨[("id", some 2), ("uuid", some 12), ("phone", some 99)], by decide⟩], fun h => ?_⟩
  have hphone := h _ rfl 1 _ _ _ rfl rfl ⟨"phone", "phone", none, none, false⟩ (by decide)
  exact absurd hphone (by decide)

end OpenBms.EnterpriseImport.Values
