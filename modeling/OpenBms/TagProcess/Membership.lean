/-
# `OpenBms.TagProcess.Membership` — the members of a segment, in the tables of all

`contacts_tags` has the members of every tag of every account, `segment_process` the
contacts the queries of all running segments have selected.  The statements of a run name
its tag and its account.

    DELETE FROM contacts_tags   of the tag, NOT IN segment_process of the tag
    INSERT INTO contacts_tags   from segment_process of the tag, NOT IN contacts_tags
    DELETE FROM segment_process of the tag

**Proved here.**

    for one tag the statements are those of `Transaction` (`processSegment_store`)
    between two runs `segment_process` is empty (`Reachable.empty`)
    a committed run leaves the members its query selected and
    the other tags alone, and reports who entered and who left (`processSegment_members`)
-/
import OpenBms.TagProcess.Transaction

namespace OpenBms.TagProcess

/-! ## The tables -/

structure ContactTag where
  contactId : Int
  tagId : Int
  accountId : Int
  deriving DecidableEq

structure SegmentProcess where
  tagId : Int
  contactId : Int
  deriving DecidableEq

structure Tables where
  contactsTags : List ContactTag
  /-- The constraint on contact, tag and account. -/
  unique : contactsTags.Nodup
  segmentProcess : List SegmentProcess

/-- A row of the tag in the account. -/
def ContactTag.of (tagId accountId : Int) (row : ContactTag) : Bool :=
  row.tagId == tagId && row.accountId == accountId

namespace Tables

variable (tagId accountId : Int) (t : Tables)

/-- `SELECT contact_id FROM contacts_tags WHERE tag_id = .. AND account_id = ..`. -/
def members : List Int := (t.contactsTags.filter (ContactTag.of tagId accountId)).map (·.contactId)

/-- `SELECT contact_id FROM segment_process WHERE tag_id = ..`. -/
def process : List Int := (t.segmentProcess.filter (·.tagId == tagId)).map (·.contactId)

/-- The rows of the tag whose contact was not selected. -/
def leaving (row : ContactTag) : Bool :=
  row.of tagId accountId && !(t.process tagId).contains row.contactId

def deleteQuery : List Int × Tables :=
  ((t.contactsTags.filter (t.leaving tagId accountId)).map (·.contactId),
    { t with
      contactsTags := t.contactsTags.filter fun row => !t.leaving tagId accountId row
      unique := t.unique.filter _ })

def entering : List Int := (t.process tagId).filter (· ∉ t.members tagId accountId)

/-- The rows of the contacts that enter. -/
def newRows : List ContactTag := (t.entering tagId accountId).map fun i => ⟨i, tagId, accountId⟩

theorem disjoint_newRows : t.contactsTags.Disjoint (t.newRows tagId accountId) := by
  intro row hmem hnew
  obtain ⟨i, hi, rfl⟩ := List.mem_map.mp hnew
  rw [entering, List.mem_filter, decide_eq_true_eq] at hi
  refine hi.2 (List.mem_map.mpr ⟨_, List.mem_filter.mpr ⟨hmem, ?_⟩, rfl⟩)
  rw [ContactTag.of, beq_self_eq_true, beq_self_eq_true, Bool.and_self]

/-- A contact that enters twice breaks the constraint. -/
def insertQuery : Option (List Int × Tables) :=
  if h : (t.newRows tagId accountId).Nodup then
    some (t.entering tagId accountId,
      { t with
        contactsTags := t.contactsTags ++ t.newRows tagId accountId
        unique := t.unique.append h (t.disjoint_newRows tagId accountId) })
  else none

def clearProcess : Tables :=
  { t with segmentProcess := t.segmentProcess.filter fun row => !(row.tagId == tagId) }

/-- `delete(ContactTagEntity, { tagId, accountId })`. -/
def deleteTags : Tables :=
  { t with
    contactsTags := t.contactsTags.filter fun row => !row.of tagId accountId
    unique := t.unique.filter _ }

/-- The main query. -/
def select (p : Payload) : Tables :=
  { t with segmentProcess := t.segmentProcess ++ p.selected.map fun i => ⟨tagId, i⟩ }

/-- The statements of a run, when no call fails. -/
def transaction (query : Option Payload) : Option (Tables × Ids) :=
  match query with
  | none => some (t.deleteTags tagId accountId, ⟨none, none⟩)
  | some p =>
      let (deleteIds, t) := (t.select tagId p).deleteQuery tagId accountId
      match t.insertQuery tagId accountId with
      | none => none
      | some (insertIds, t) => some (t.clearProcess tagId, ⟨some deleteIds, some insertIds⟩)

end Tables

/-- A run on the tables. -/
structure TableRun where
  tables : Tables
  ended : Ended
  ids : Ids

/-- `processSegment`: where a call fails the tables are as before. -/
def Tables.processSegment (t : Tables) (f : Call → Bool) (query : Option Payload)
    (tagId accountId : Int) : TableRun :=
  if f .connect || f .startTransaction then ⟨t, .notStarted, ⟨none, none⟩⟩
  else if (calls query).any f || f .commit then ⟨t, .rolledBack, ⟨none, none⟩⟩
  else
    match t.transaction tagId accountId query with
    | none => ⟨t, .rolledBack, ⟨none, none⟩⟩
    | some (t', ids) => ⟨t', .committed, ids⟩

/-- What the runs of `Transaction` see of the tables. -/
def Tables.store (t : Tables) (tagId accountId : Int) : Store where
  members := t.members tagId accountId
  unique := by
    refine (t.unique.filter _).map_on ?_
    rintro ⟨i, tag, account⟩ hx ⟨j, tag', account'⟩ hy hij
    simp only [List.mem_filter, ContactTag.of, Bool.and_eq_true, beq_iff_eq] at hx hy
    obtain ⟨-, rfl, rfl⟩ := hx
    obtain ⟨-, rfl, rfl⟩ := hy
    cases hij
    rfl
  process := t.process tagId

/-- What a committed run with a query has to leave and to report. -/
structure Replaces (t : Tables) (p : Payload) (tagId accountId : Int) (r : TableRun) : Prop where
  members : ∀ i, i ∈ r.tables.members tagId accountId ↔ i ∈ p.selected
  inserted : ∀ i, i ∈ r.ids.insertIds.getD [] ↔ i ∈ p.selected ∧ i ∉ t.members tagId accountId
  deleted : ∀ i, i ∈ r.ids.deleteIds.getD [] ↔ i ∈ t.members tagId accountId ∧ i ∉ p.selected
  once : (r.ids.insertIds.getD []).Nodup ∧ (r.ids.deleteIds.getD []).Nodup
  others : r.tables.contactsTags.filter (fun row => !row.of tagId accountId) =
    t.contactsTags.filter fun row => !row.of tagId accountId

/-! ## The statements -/

namespace Tables

variable {tagId accountId : Int} {t : Tables} {i : Int}

theorem process_select (p : Payload) :
    (t.select tagId p).process tagId = t.process tagId ++ p.selected := by
  have hselected : ((p.selected.map fun i => (⟨tagId, i⟩ : SegmentProcess)).filter
      (·.tagId == tagId)).map (·.contactId) = p.selected := by
    rw [List.filter_eq_self.mpr, List.map_map]
    · exact List.map_id p.selected
    · intro row hrow
      obtain ⟨i, -, rfl⟩ := List.mem_map.mp hrow
      exact beq_self_eq_true tagId
  rw [process, select, List.filter_append, List.map_append, hselected, process]

theorem map_filter_of (rows : List ContactTag) (out : Int → Bool) :
    ((rows.filter fun row => !(row.of tagId accountId && out row.contactId)).filter
        (ContactTag.of tagId accountId)).map (·.contactId) =
      ((rows.filter (ContactTag.of tagId accountId)).map (·.contactId)).filter (!out ·) := by
  rw [List.filter_map, List.filter_filter, List.filter_filter]
  refine congrArg (List.map _) (List.filter_congr fun row _ => ?_)
  cases row.of tagId accountId <;> simp

theorem others_filter (rows : List ContactTag) (out : ContactTag → Bool)
    (hout : ∀ row, out row = true → row.of tagId accountId = true) :
    (rows.filter fun row => !out row).filter (fun row => !row.of tagId accountId) =
      rows.filter fun row => !row.of tagId accountId := by
  rw [List.filter_filter]
  refine List.filter_congr fun row _ => ?_
  cases hrow : out row with
  | false => rw [Bool.not_false, Bool.and_true]
  | true => rw [hout row hrow, Bool.not_true, Bool.and_self]

theorem others_newRows : (t.newRows tagId accountId).filter (fun row => !row.of tagId accountId) =
    [] := by
  rw [List.filter_eq_nil_iff]
  intro row hrow
  obtain ⟨i, -, rfl⟩ := List.mem_map.mp hrow
  rw [ContactTag.of, beq_self_eq_true, beq_self_eq_true]
  exact Bool.false_ne_true

theorem nodup_newRows : (t.newRows tagId accountId).Nodup ↔ (t.entering tagId accountId).Nodup :=
  List.nodup_map_iff fun _ _ h => (ContactTag.mk.inj h).1

/-- The statements are those on the members of the tag alone. -/
theorem store_select (p : Payload) :
    (t.select tagId p).store tagId accountId = (t.store tagId accountId).select p := by
  rw [store, Store.select]
  congr 1
  exact process_select p

theorem entering_eq : t.entering tagId accountId = (t.store tagId accountId).entering := rfl

theorem deleteQuery_fst :
    (t.deleteQuery tagId accountId).1 = (t.store tagId accountId).deleteQuery.1 := by
  have hstore : (t.store tagId accountId).deleteQuery.1 =
      (t.members tagId accountId).filter (· ∉ t.process tagId) := rfl
  rw [hstore, deleteQuery, members, List.filter_map, List.filter_filter]
  refine congrArg (List.map _) (List.filter_congr fun row _ => ?_)
  rw [leaving, Bool.and_comm]
  simp only [Function.comp, List.contains_eq_mem, decide_not]

theorem members_deleteQuery : (t.deleteQuery tagId accountId).2.members tagId accountId =
    (t.store tagId accountId).deleteQuery.2.members := by
  have hleft : (t.deleteQuery tagId accountId).2.members tagId accountId =
      ((t.contactsTags.filter fun row => !t.leaving tagId accountId row).filter
        (ContactTag.of tagId accountId)).map (·.contactId) := rfl
  have hright : (t.store tagId accountId).deleteQuery.2.members =
      (t.members tagId accountId).filter (· ∈ t.process tagId) := rfl
  have hrows := @map_filter_of tagId accountId t.contactsTags
    fun i => !(t.process tagId).contains i
  rw [hleft, hright, members]
  simpa only [leaving, Bool.not_not, List.contains_eq_mem] using hrows

theorem store_deleteQuery : (t.deleteQuery tagId accountId).2.store tagId accountId =
    (t.store tagId accountId).deleteQuery.2 := by
  rw [store, Store.deleteQuery]
  congr 1
  exact members_deleteQuery

theorem others_deleteQuery :
    (t.deleteQuery tagId accountId).2.contactsTags.filter (fun row => !row.of tagId accountId) =
      t.contactsTags.filter fun row => !row.of tagId accountId := by
  refine others_filter _ _ fun row hrow => ?_
  rw [leaving, Bool.and_eq_true] at hrow
  exact hrow.1

theorem members_newRows (h : ∀ i, ContactTag.of tagId accountId ⟨i, tagId, accountId⟩ = true) :
    ((t.newRows tagId accountId).filter (ContactTag.of tagId accountId)).map (·.contactId) =
      t.entering tagId accountId := by
  rw [List.filter_eq_self.mpr, newRows, List.map_map]
  · exact List.map_id _
  · intro row hrow
    obtain ⟨i, -, rfl⟩ := List.mem_map.mp hrow
    exact h i

theorem insertQuery_spec {ids : List Int} {t' : Tables}
    (h : t.insertQuery tagId accountId = some (ids, t')) :
    (t.entering tagId accountId).Nodup ∧ ids = t.entering tagId accountId ∧
      t'.members tagId accountId = t.members tagId accountId ++ t.entering tagId accountId ∧
      t'.contactsTags.filter (fun row => !row.of tagId accountId) =
        t.contactsTags.filter (fun row => !row.of tagId accountId) := by
  rw [insertQuery] at h
  split at h
  · next hnodup =>
    cases h
    refine ⟨nodup_newRows.mp hnodup, rfl, ?_, ?_⟩
    · rw [members, List.filter_append, List.map_append, members_newRows fun i => ?_, ← members]
      rw [ContactTag.of, beq_self_eq_true, beq_self_eq_true, Bool.and_self]
    · rw [List.filter_append, others_newRows, List.append_nil]
  · cases h

theorem transaction_spec {p : Payload} {t' : Tables} {ids : Ids}
    (h : t.transaction tagId accountId (some p) = some (t', ids)) :
    ((t.store tagId accountId).select p).entering.Nodup ∧
      ids = ⟨some ((t.store tagId accountId).select p).deleteQuery.1,
        some ((t.store tagId accountId).select p).entering⟩ ∧
      t'.members tagId accountId =
        ((t.store tagId accountId).select p).deleteQuery.2.members ++
          ((t.store tagId accountId).select p).entering ∧
      t'.contactsTags.filter (fun row => !row.of tagId accountId) =
        t.contactsTags.filter (fun row => !row.of tagId accountId) := by
  rw [transaction] at h
  simp only at h
  split at h
  · cases h
  · next insertIds t'' hinsert =>
    cases h
    obtain ⟨hnodup, rfl, hmembers, hothers⟩ := insertQuery_spec hinsert
    have hentering : ((t.select tagId p).deleteQuery tagId accountId).2.entering tagId accountId =
        ((t.store tagId accountId).select p).entering := by
      rw [entering_eq, store_deleteQuery, entering_deleteQuery, store_select]
    have hkept : ((t.select tagId p).deleteQuery tagId accountId).2.members tagId accountId =
        ((t.store tagId accountId).select p).deleteQuery.2.members := by
      rw [members_deleteQuery, store_select]
    rw [hentering] at hnodup hmembers ⊢
    rw [hkept] at hmembers
    refine ⟨hnodup, ?_, hmembers, ?_⟩
    · rw [deleteQuery_fst, store_select]
    · exact hothers.trans others_deleteQuery

theorem transaction_isSome {p : Payload}
    (h : ((t.store tagId accountId).select p).entering.Nodup) :
    ∃ t' ids, t.transaction tagId accountId (some p) = some (t', ids) := by
  have hnodup : (((t.select tagId p).deleteQuery tagId accountId).2.newRows tagId
      accountId).Nodup := by
    rw [nodup_newRows, entering_eq, store_deleteQuery, entering_deleteQuery, store_select]
    exact h
  simp only [transaction, insertQuery, dif_pos hnodup]
  exact ⟨_, _, rfl⟩

theorem members_deleteTags : (t.deleteTags tagId accountId).members tagId accountId = [] := by
  rw [members, deleteTags, List.filter_filter, List.filter_eq_nil_iff.mpr, List.map_nil]
  intro row _
  cases row.of tagId accountId <;> simp

end Tables

/-! ## Runs -/

section
variable {t : Tables} {f : Call → Bool} {query : Option Payload} {p : Payload}
  {tagId accountId : Int}

/-- On the tag's members a run is one of `Transaction`. -/
theorem processSegment_store (t : Tables) (f : Call → Bool) (query : Option Payload)
    (tagId accountId : Int) :
    (t.processSegment f query tagId accountId).ended =
        (processSegment f query (t.store tagId accountId)).ended ∧
      (t.processSegment f query tagId accountId).tables.members tagId accountId =
        (processSegment f query (t.store tagId accountId)).store.members ∧
      ∀ ids, (processSegment f query (t.store tagId accountId)).ended = .committed →
        (processSegment f query (t.store tagId accountId)).result = .ok ids →
        (t.processSegment f query tagId accountId).ids = ids := by
  rw [Tables.processSegment, processSegment]
  by_cases hstart : (f .connect || f .startTransaction) = true
  · rw [if_pos hstart, if_pos hstart]
    exact ⟨rfl, rfl, fun ids h => by cases h⟩
  · rw [if_neg hstart, if_neg hstart]
    cases hrun : tryCommit f query (t.store tagId accountId) with
    | ok v =>
        have hcommits : Commits f query (t.store tagId accountId) := tryCommit_ok_iff.mp ⟨v, hrun⟩
        have hcalls : ((calls query).any f || f .commit) = false := by
          rw [hcommits.commit, Bool.or_false, List.any_eq_false]
          intro c hc
          rw [hcommits.calls c hc]
          exact Bool.false_ne_true
        have hbody := tryCommit_tryBody hrun
        rw [hcalls]
        simp only [Bool.false_eq_true, if_false]
        cases query with
        | none =>
            obtain ⟨-, rfl⟩ := tryBody_none.mp hbody
            refine ⟨rfl, Tables.members_deleteTags, fun ids _ hids => ?_⟩
            rw [finallyReturn] at hids
            split at hids
            · cases hids
            · exact Except.ok.inj hids
        | some p =>
            obtain ⟨-, hnodup, hmoved⟩ := tryBody_some hbody
            obtain ⟨t', ids, htransaction⟩ := Tables.transaction_isSome hnodup
            obtain ⟨-, rfl, hmembers, -⟩ := Tables.transaction_spec htransaction
            rw [htransaction]
            refine ⟨rfl, hmembers.trans hmoved.members.symm, fun ids _ hids => ?_⟩
            simp only [finallyReturn, hmoved.deleteIds, hmoved.insertIds] at hids
            split at hids
            · cases hids
            · exact Except.ok.inj hids
    | error v =>
        have hno : ¬ Commits f query (t.store tagId accountId) := by
          rw [← tryCommit_ok_iff, hrun]
          rintro ⟨_, h⟩
          cases h
        by_cases hcalls : ((calls query).any f || f .commit) = true
        · rw [if_pos hcalls]
          exact ⟨rfl, rfl, fun ids h => by cases h⟩
        · rw [if_neg hcalls]
          rw [Bool.not_eq_true, Bool.or_eq_false_iff, List.any_eq_false] at hcalls
          have hnone : t.transaction tagId accountId query = none := by
            rw [Option.eq_none_iff_forall_ne_some]
            rintro ⟨t', ids⟩ htransaction
            refine hno ⟨fun c hc => Bool.eq_false_iff.mpr (hcalls.1 c hc), hcalls.2, ?_⟩
            rintro p rfl
            exact (Tables.transaction_spec htransaction).1
          rw [hnone]
          exact ⟨rfl, rfl, fun ids h => by cases h⟩

theorem committed_spec (h : (t.processSegment f query tagId accountId).ended = .committed) :
    t.transaction tagId accountId query =
      some ((t.processSegment f query tagId accountId).tables,
        (t.processSegment f query tagId accountId).ids) := by
  rw [Tables.processSegment] at h ⊢
  split at h
  · cases h
  · next hstart =>
    split at h
    · cases h
    · next hcalls =>
      rw [if_neg hstart, if_neg hcalls]
      split at h
      · cases h
      · next htransaction => rw [htransaction]

/-- A run that does not commit leaves the tables. -/
theorem tables_of_not_committed (h : (t.processSegment f query tagId accountId).ended ≠ .committed) :
    (t.processSegment f query tagId accountId).tables = t := by
  rw [Tables.processSegment] at h ⊢
  split
  · rfl
  · next hstart =>
    split
    · rfl
    · next hcalls =>
      rw [if_neg hstart, if_neg hcalls] at h
      split
      · rfl
      · next htransaction =>
        rw [htransaction] at h
        exact absurd rfl h

theorem segmentProcess_transaction {t' : Tables} {ids : Ids}
    (h : t.transaction tagId accountId query = some (t', ids)) (hempty : t.segmentProcess = []) :
    t'.segmentProcess = [] := by
  cases query with
  | none =>
      cases h
      exact hempty
  | some p =>
      rw [Tables.transaction] at h
      simp only at h
      split at h
      · cases h
      · next hinsert =>
        cases h
        rw [Tables.insertQuery] at hinsert
        split at hinsert
        · cases hinsert
          rw [Tables.clearProcess, List.filter_eq_nil_iff]
          intro row hrow
          have hselected : row ∈ t.segmentProcess ++ p.selected.map fun i => ⟨tagId, i⟩ := hrow
          rw [hempty, List.nil_append] at hselected
          obtain ⟨i, -, rfl⟩ := List.mem_map.mp hselected
          rw [beq_self_eq_true]
          exact Bool.false_ne_true
        · cases hinsert

end

/-- The tables as they can be: runs of segments, whichever of their calls fail, and whatever else
changes the members of the tags. -/
inductive Reachable : Tables → Prop where
  | created (contactsTags : List ContactTag) (h : contactsTags.Nodup) : Reachable ⟨contactsTags, h, []⟩
  | changed {t : Tables} (contactsTags : List ContactTag) (h : contactsTags.Nodup) :
      Reachable t → Reachable { t with contactsTags := contactsTags, unique := h }
  | run {t : Tables} (f : Call → Bool) (query : Option Payload) (tagId accountId : Int) :
      Reachable t → Reachable (t.processSegment f query tagId accountId).tables

section
variable {t : Tables} {f : Call → Bool} {p : Payload} {tagId accountId : Int}

theorem Reachable.empty (h : Reachable t) : t.segmentProcess = [] := by
  induction h with
  | created _ _ => rfl
  | changed _ _ _ ih => exact ih
  | @run t f query tagId accountId _ ih =>
      by_cases hcommitted : (t.processSegment f query tagId accountId).ended = .committed
      · exact segmentProcess_transaction (committed_spec hcommitted) ih
      · rw [tables_of_not_committed hcommitted]
        exact ih

/-- A committed run with a query leaves the contacts of its result, and tells who entered and who
left. -/
theorem processSegment_members (h : Reachable t)
    (hcommitted : (t.processSegment f (some p) tagId accountId).ended = .committed) :
    Replaces t p tagId accountId (t.processSegment f (some p) tagId accountId) := by
  obtain ⟨hnodup, hids, hmembers, hothers⟩ := Tables.transaction_spec (committed_spec hcommitted)
  have hprocess : ((t.store tagId accountId).select p).process = p.selected := by
    rw [Store.select, Tables.store, Tables.process, h.empty]
    rfl
  have hprior : ((t.store tagId accountId).select p).members = t.members tagId accountId := rfl
  refine ⟨fun i => ?_, fun i => ?_, fun i => ?_, ?_, hothers⟩
  · rw [hmembers, List.mem_append, Store.mem_kept, Store.mem_entering, hprocess]
    tauto
  · rw [hids, Option.getD_some, Store.mem_entering, hprocess, hprior]
  · rw [hids, Option.getD_some, Store.mem_deleted, hprocess, hprior]
  · rw [hids]
    exact ⟨hnodup, ((t.store tagId accountId).select p).unique.filter _⟩

end

/-- Contacts 1 and 2 are in the segment, contact 1 has another tag, and the query selects 2
twice and 3. -/
def twoTags : Tables := ⟨[⟨1, 7, 1⟩, ⟨2, 7, 1⟩, ⟨1, 8, 1⟩], by decide, []⟩

theorem processSegment_members_twoTags :
    Replaces twoTags { selected := [2, 2, 3] } 7 1
      (twoTags.processSegment (fun _ => false) (some { selected := [2, 2, 3] }) 7 1) :=
  processSegment_members (.created _ _) rfl

end OpenBms.TagProcess
