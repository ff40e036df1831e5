/-
# `OpenBms.Events.Inserts` — the rows of `events_logs` in one statement

`prepareQuery` makes one list of columns for all rows of an insert.  A column is spelled in
snake case in the statement; its values are read from each row under the spelling that came
first, of whichever row.

**Proved here**, for every list of rows.

    the columns, and the key each is read under (`mem_keysMap`)
    every value is in its column, and NULL stands only for
    what a row has in no spelling, iff no row has a value
    of a column only under another spelling than the first (`preserves_iff`)
    a row in camel case and one in snake case (`value_lost`)
-/
import OpenBms.Lib.Entries
import Mathlib

namespace OpenBms.Events.Inserts

/-! ## Snake case -/

def isUpper (c : Char) : Bool := 'A' ≤ c && c ≤ 'Z'

def isLower (c : Char) : Bool := 'a' ≤ c && c ≤ 'z'

/-- `.replace(/([A-Z])([A-Z][a-z])/g, '$1_$2')`. -/
def splitAcronyms : List Char → List Char
  | a :: b :: c :: s =>
      if isUpper a && isUpper b && isLower c then a :: '_' :: b :: c :: splitAcronyms s
      else a :: splitAcronyms (b :: c :: s)
  | s => s

/-- `.replace(/([a-z])([A-Z])/g, '$1_$2')`. -/
def splitCamel : List Char → List Char
  | a :: b :: s =>
      if isLower a && isUpper b then a :: '_' :: b :: splitCamel s
      else a :: splitCamel (b :: s)
  | s => s

section
variable (toLowerCase : List Char → List Char)

def toSnakeCase (str : List Char) : List Char := toLowerCase (splitCamel (splitAcronyms str))

/-! ## The statement -/

/-- A row: its keys in order, each with its value, which may be `null` or `undefined`. -/
structure Row (V : Type) where
  entries : List (List Char × Option V)
  nodup : (entries.map Prod.fst).Nodup

variable {V : Type}

def Row.keys (row : Row V) : List (List Char) := row.entries.map Prod.fst

/-- `item[key] ?? null`. -/
def Row.value (row : Row V) (key : List Char) : Option V := (row.entries.lookup key).join

structure Statement (V : Type) where
  keys : List (List Char)
  values : List (List (Option V))

/-- Fields that are no columns. -/
def EXCLUDED_COLUMNS : List (List Char) := ["delivered_id".toList, "traits".toList]

/-- `keysMap.set(snakeKey, key)`, if there is none yet. -/
def addKey (keysMap : List (List Char × List Char)) (key : List Char) :
    List (List Char × List Char) :=
  let snakeKey := toSnakeCase toLowerCase key
  if !(keysMap.map Prod.fst).contains snakeKey && !EXCLUDED_COLUMNS.contains snakeKey then
    keysMap ++ [(snakeKey, key)]
  else keysMap

def keysMap (array : List (Row V)) : List (List Char × List Char) :=
  array.foldl (fun keysMap item => item.keys.foldl (addKey toLowerCase) keysMap) []

def prepareQuery (array : List (Row V)) : Statement V :=
  if array = [] then ⟨[], []⟩
  else
    let keysMap := keysMap toLowerCase array
    let originalKeys := keysMap.map Prod.snd
    ⟨keysMap.map Prod.fst, array.map fun item => originalKeys.map item.value⟩

/-! ## What the statement should hold -/

/-- A cell has the value of its row for the column in some spelling, or NULL if it has none. -/
def Holds (row : Row V) (column : List Char) : Option V → Prop
  | some v => ∃ key, toSnakeCase toLowerCase key = column ∧ row.value key = some v
  | none => ∀ key, toSnakeCase toLowerCase key = column → row.value key = none

/-- One tuple for each row, as wide as the columns; every key that is not excluded has its column,
once, and every cell holds what it should. -/
structure Preserves (array : List (Row V)) (statement : Statement V) : Prop where
  tuples : statement.values.length = array.length
  width : ∀ tuple ∈ statement.values, tuple.length = statement.keys.length
  nodup : statement.keys.Nodup
  columns : ∀ row ∈ array, ∀ key ∈ row.keys, toSnakeCase toLowerCase key ∉ EXCLUDED_COLUMNS →
    toSnakeCase toLowerCase key ∈ statement.keys
  cells : ∀ (i j : Nat) row column tuple cell, array[i]? = some row →
    statement.keys[j]? = some column → statement.values[i]? = some tuple → tuple[j]? = some cell →
      Holds toLowerCase row column cell

/-- The spelling of a column that comes first in the rows. -/
def firstSpelling (array : List (Row V)) (column : List Char) : Option (List Char) :=
  (array.flatMap Row.keys).find? fun key => toSnakeCase toLowerCase key = column

/-- A row with a value of a column has one under the first spelling of the column. -/
def Alike (array : List (Row V)) : Prop :=
  ∀ row ∈ array, ∀ key ∈ row.keys, toSnakeCase toLowerCase key ∉ EXCLUDED_COLUMNS →
    (row.value key).isSome = true →
      ∃ first, firstSpelling toLowerCase array (toSnakeCase toLowerCase key) = some first ∧
        (row.value first).isSome = true

end

/-! ## The columns -/

section Proofs
variable {toLowerCase : List Char → List Char} {V : Type} {array : List (Row V)}

theorem Row.mem_keys_of_value {row : Row V} {key : List Char} {v : V} (h : row.value key = some v) :
    key ∈ row.keys := by
  have hlookup : row.entries.lookup key = some (some v) := Option.join_eq_some_iff.mp h
  exact List.mem_map_of_mem (Entries.mem_of_lookup hlookup)

theorem keysMap_eq (array : List (Row V)) :
    keysMap toLowerCase array = (array.flatMap Row.keys).foldl (addKey toLowerCase) [] := by
  rw [keysMap, List.foldl_flatMap]

theorem addKey_eq (keysMap : List (List Char × List Char)) (key : List Char) :
    addKey toLowerCase keysMap key =
      if ¬ toSnakeCase toLowerCase key ∈ keysMap.map Prod.fst ∧
          ¬ toSnakeCase toLowerCase key ∈ EXCLUDED_COLUMNS then
        keysMap ++ [(toSnakeCase toLowerCase key, key)]
      else keysMap := by
  rw [addKey]
  simp only [Bool.and_eq_true, Bool.not_eq_true', Bool.eq_false_iff, ne_eq, List.contains_iff_mem]

theorem mem_foldl_addKey (keys : List (List Char)) (column key : List Char) :
    (column, key) ∈ keys.foldl (addKey toLowerCase) [] ↔
      column ∉ EXCLUDED_COLUMNS ∧
        (keys.find? fun key => toSnakeCase toLowerCase key = column) = some key := by
  induction keys using List.reverseRecOn generalizing column key with
  | nil => exact iff_of_false List.not_mem_nil fun h => by cases h.2
  | append_singleton keys last ih =>
      have hknown : ∀ {column}, column ∈ (keys.foldl (addKey toLowerCase) []).map Prod.fst ↔
          column ∉ EXCLUDED_COLUMNS ∧
            ∃ first, (keys.find? fun key => toSnakeCase toLowerCase key = column) = some first := by
        intro column
        constructor
        · intro hmem
          obtain ⟨entry, hentry, rfl⟩ := List.mem_map.mp hmem
          obtain ⟨hcolumn, hfirst⟩ := (ih entry.1 entry.2).mp hentry
          exact ⟨hcolumn, _, hfirst⟩
        · rintro ⟨hcolumn, first, hfirst⟩
          exact List.mem_map_of_mem ((ih column first).mpr ⟨hcolumn, hfirst⟩)
      rw [List.foldl_append, List.foldl_cons, List.foldl_nil, addKey_eq, List.find?_append]
      by_cases hlast : toSnakeCase toLowerCase last = column
      · subst hlast
        have hsingle : ([last].find? fun key => toSnakeCase toLowerCase key =
            toSnakeCase toLowerCase last) = some last := by
          rw [List.find?_cons, decide_eq_true rfl]
        rw [hsingle]
        cases hfirst : keys.find? fun key =>
            toSnakeCase toLowerCase key = toSnakeCase toLowerCase last with
        | some first =>
            have hiff := ih (toSnakeCase toLowerCase last) key
            rw [hfirst] at hiff
            split
            · next hnew =>
              have hcolumn : toSnakeCase toLowerCase last ∈ EXCLUDED_COLUMNS := by
                by_contra hcolumn
                exact hnew.1 (hknown.mpr ⟨hcolumn, first, hfirst⟩)
              exact absurd hcolumn hnew.2
            · exact hiff
        | none =>
            have hnot : ∀ key, (toSnakeCase toLowerCase last, key) ∉
                keys.foldl (addKey toLowerCase) [] := fun key hmem => by
              have hsome := ((ih _ key).mp hmem).2
              rw [hfirst] at hsome
              cases hsome
            rw [Option.none_or, Option.some.injEq]
            split
            · next hnew =>
              rw [List.mem_append, List.mem_singleton, Prod.mk.injEq, or_iff_right (hnot key)]
              exact ⟨fun h => ⟨hnew.2, h.2.symm⟩, fun h => ⟨rfl, h.2.symm⟩⟩
            · next hold =>
              refine iff_of_false (hnot key) fun h => hold ⟨fun hmem => ?_, h.1⟩
              obtain ⟨first, hsome⟩ := (hknown.mp hmem).2
              rw [hfirst] at hsome
              cases hsome
      · have hsingle : ([last].find? fun key => toSnakeCase toLowerCase key = column) = none := by
          rw [List.find?_cons, decide_eq_false hlast, List.find?_nil]
        rw [hsingle, Option.or_none, ← ih]
        split
        · rw [List.mem_append, List.mem_singleton, Prod.mk.injEq]
          exact or_iff_left fun h => hlast h.1.symm
        · rfl

theorem nodup_foldl_addKey (keys : List (List Char)) :
    ((keys.foldl (addKey toLowerCase) []).map Prod.fst).Nodup := by
  induction keys using List.reverseRecOn with
  | nil => exact List.nodup_nil
  | append_singleton keys last ih =>
      rw [List.foldl_append, List.foldl_cons, List.foldl_nil, addKey_eq]
      split
      · next hnew =>
        rw [List.map_append]
        refine List.nodup_append.mpr ⟨ih, List.nodup_singleton _, fun column hmem column' hmem' heq => ?_⟩
        have hlast : column' = toSnakeCase toLowerCase last := List.mem_singleton.mp hmem'
        rw [heq, hlast] at hmem
        exact hnew.1 hmem
      · exact ih

theorem mem_keysMap (array : List (Row V)) (column key : List Char) :
    (column, key) ∈ keysMap toLowerCase array ↔
      column ∉ EXCLUDED_COLUMNS ∧ firstSpelling toLowerCase array column = some key := by
  rw [keysMap_eq, mem_foldl_addKey, firstSpelling]

theorem prepareQuery_eq (array : List (Row V)) : prepareQuery toLowerCase array =
    ⟨(keysMap toLowerCase array).map Prod.fst,
      array.map fun item => ((keysMap toLowerCase array).map Prod.snd).map item.value⟩ := by
  rw [prepareQuery]
  split
  · next hnil =>
    subst hnil
    rfl
  · rfl

theorem firstSpelling_isSome (toLowerCase : List Char → List Char) {row : Row V} (hrow : row ∈ array) {key : List Char}
    (hkey : key ∈ row.keys) :
    ∃ first, firstSpelling toLowerCase array (toSnakeCase toLowerCase key) = some first :=
  Option.isSome_iff_exists.mp (List.find?_isSome.mpr
    ⟨key, List.mem_flatMap.mpr ⟨row, hrow, hkey⟩, decide_eq_true rfl⟩)

theorem cell_eq {i j : Nat} {row : Row V} {column : List Char} {tuple : List (Option V)}
    {cell : Option V} (hrow : array[i]? = some row)
    (hcolumn : (prepareQuery toLowerCase array).keys[j]? = some column)
    (htuple : (prepareQuery toLowerCase array).values[i]? = some tuple) (hcell : tuple[j]? = some cell) :
    column ∉ EXCLUDED_COLUMNS ∧ ∃ first, firstSpelling toLowerCase array column = some first ∧
      cell = row.value first := by
  rw [prepareQuery_eq] at hcolumn htuple
  rw [List.getElem?_map] at hcolumn htuple
  rw [hrow] at htuple
  obtain rfl := Option.some.inj htuple
  rw [List.getElem?_map, List.getElem?_map] at hcell
  cases hentry : (keysMap toLowerCase array)[j]? with
  | none =>
      rw [hentry] at hcolumn
      cases hcolumn
  | some entry =>
      rw [hentry] at hcolumn hcell
      obtain rfl := Option.some.inj hcolumn
      obtain ⟨hexcluded, hfirst⟩ := (mem_keysMap array entry.1 entry.2).mp (List.mem_of_getElem? hentry)
      exact ⟨hexcluded, entry.2, hfirst, (Option.some.inj hcell).symm⟩

theorem mem_keys_prepareQuery {row : Row V} (hrow : row ∈ array) {key : List Char}
    (hkey : key ∈ row.keys) (hcolumn : toSnakeCase toLowerCase key ∉ EXCLUDED_COLUMNS) :
    toSnakeCase toLowerCase key ∈ (prepareQuery toLowerCase array).keys := by
  obtain ⟨first, hfirst⟩ := firstSpelling_isSome toLowerCase hrow hkey
  rw [prepareQuery_eq]
  exact List.mem_map_of_mem ((mem_keysMap array _ first).mpr ⟨hcolumn, hfirst⟩)

theorem firstSpelling_spec {column first : List Char}
    (h : firstSpelling toLowerCase array column = some first) :
    toSnakeCase toLowerCase first = column :=
  of_decide_eq_true (List.find?_some (p := fun key => decide (toSnakeCase toLowerCase key = column)) h)

/-- Every row's values are in their columns, with NULL only for what a row has in no spelling, if
and only if no row has a value of a column only under a spelling that is not the first. -/
theorem preserves_iff (toLowerCase : List Char → List Char) (array : List (Row V)) :
    Preserves toLowerCase array (prepareQuery toLowerCase array) ↔ Alike toLowerCase array := by
  constructor
  · intro h row hrow key hkey hcolumn hvalue
    obtain ⟨first, hfirst⟩ := firstSpelling_isSome toLowerCase hrow hkey
    refine ⟨first, hfirst, ?_⟩
    obtain ⟨i, hi⟩ := List.mem_iff_getElem?.mp hrow
    obtain ⟨j, hj⟩ := List.mem_iff_getElem?.mp ((mem_keysMap array _ first).mpr ⟨hcolumn, hfirst⟩)
    have hholds := h.cells i j row (toSnakeCase toLowerCase key)
      (((keysMap toLowerCase array).map Prod.snd).map row.value) (row.value first) hi
      (by rw [prepareQuery_eq, List.getElem?_map, hj]; rfl)
      (by rw [prepareQuery_eq, List.getElem?_map, hi]; rfl)
      (by rw [List.getElem?_map, List.getElem?_map, hj]; rfl)
    cases hcell : row.value first with
    | some v => rfl
    | none =>
        rw [hcell] at hholds
        rw [hholds key rfl] at hvalue
        exact absurd hvalue Bool.false_ne_true
  · intro h
    refine ⟨?_, ?_, ?_, fun row hrow key hkey => mem_keys_prepareQuery hrow hkey, ?_⟩
    · rw [prepareQuery_eq, List.length_map]
    · rw [prepareQuery_eq]
      intro tuple htuple
      obtain ⟨row, -, rfl⟩ := List.mem_map.mp htuple
      rw [List.length_map, List.length_map, List.length_map]
    · rw [prepareQuery_eq, keysMap_eq]
      exact nodup_foldl_addKey _
    · intro i j row column tuple cell hrow hcolumn htuple hcell
      obtain ⟨hexcluded, first, hfirst, rfl⟩ := cell_eq hrow hcolumn htuple hcell
      cases hvalue : row.value first with
      | some v => exact ⟨first, firstSpelling_spec hfirst, hvalue⟩
      | none =>
          intro key hkey
          cases hother : row.value key with
          | none => rfl
          | some v =>
              obtain ⟨first', hfirst', hsome⟩ := h row (List.mem_of_getElem? hrow) key
                (Row.mem_keys_of_value hother) (hkey ▸ hexcluded) (by rw [hother]; rfl)
              rw [hkey, hfirst] at hfirst'
              obtain rfl := Option.some.inj hfirst'
              rw [hvalue] at hsome
              exact absurd hsome Bool.false_ne_true

end Proofs

/-- The second row has its account in the other spelling: its column holds NULL. -/
theorem value_lost : ∃ array : List (Row Nat),
    ¬ Preserves (List.map Char.toLower) array (prepareQuery (List.map Char.toLower) array) := by
  refine ⟨[⟨[("accountId".toList, some 7)], by decide⟩, ⟨[("account_id".toList, some 8)], by decide⟩],
    fun h => ?_⟩
  have hholds := h.cells 1 0 _ "account_id".toList [none] none rfl (by decide) (by decide) rfl
  have hnull := hholds "account_id".toList (by decide)
  exact absurd hnull (by decide)

end OpenBms.Events.Inserts
