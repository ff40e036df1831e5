/-
# `OpenBms.TagProcess.Transaction` — `msgops.processSegment`, failure by failure

One transaction moves a segment's members from the rows of `contacts_tags` to
the rows its main query selects.  Every call may fail: `f` says which do.

    try      fill the temp tables, main query, delete, insert, clear, COMMIT
    catch    ROLLBACK; throw
    finally  release; return { deleteIds, insertIds }

The `return` of `finally` takes the place of what `try` or `catch` completed
with, so the error of `catch` never reaches the caller.

**Proved here.**

    when every statement succeeds, and what it then reports (`tryBody_ok_iff`, `tryBody_moves`)
    how a run ends (`processSegment_ended`)
    a rolled-back run looks like a successful one (`processSegment_result`)
-/
import OpenBms.Lib.Chunk
import OpenBms.Lib.Js

namespace OpenBms.TagProcess

open Js

/-! ## The tables -/

/-- What a run reads and writes, for one tag of one account: the contacts in
`contacts_tags`, unique by its constraint, and those in `segment_process`. -/
structure Store where
  members : List Int
  unique : members.Nodup
  process : List Int
  deriving DecidableEq

/-- `DELETE FROM contacts_tags WHERE .. NOT IN (segment_process) RETURNING`. -/
def Store.deleteQuery (s : Store) : List Int × Store :=
  (s.members.filter (· ∉ s.process),
    { s with members := s.members.filter (· ∈ s.process), unique := s.unique.filter _ })

/-- The rows of `segment_process` that are no members. -/
def Store.entering (s : Store) : List Int := s.process.filter (· ∉ s.members)

theorem Store.mem_entering {s : Store} {i : Int} :
    i ∈ s.entering ↔ i ∈ s.process ∧ i ∉ s.members := by
  simp [Store.entering]

theorem Store.mem_deleted {s : Store} {i : Int} :
    i ∈ s.deleteQuery.1 ↔ i ∈ s.members ∧ i ∉ s.process := by
  simp [Store.deleteQuery]

theorem Store.mem_kept {s : Store} {i : Int} :
    i ∈ s.deleteQuery.2.members ↔ i ∈ s.members ∧ i ∈ s.process := by
  simp [Store.deleteQuery]

theorem Store.disjoint_entering (s : Store) : s.members.Disjoint s.entering :=
  fun _ ha he => (Store.mem_entering.mp he).2 ha

/-- `INSERT INTO contacts_tags (SELECT .. NOT IN ..) RETURNING`; a contact
selected twice breaks the unique constraint. -/
def Store.insertQuery (s : Store) : Option (List Int × Store) :=
  if h : s.entering.Nodup then
    some (s.entering,
      { s with
        members := s.members ++ s.entering
        unique := s.unique.append h s.disjoint_entering })
  else none

/-- `DELETE FROM segment_process WHERE tag_id = ..`. -/
def Store.clearProcess (s : Store) : Store := { s with process := [] }

/-- `delete(ContactTagEntity, { tagId, accountId })`. -/
def Store.deleteTags (s : Store) : Store := { s with members := [], unique := List.nodup_nil }

/-! ## The calls -/

/-- The awaited calls of a run.  Whether `ROLLBACK` itself fails makes no
difference: `catch` throws either way. -/
inductive Call where
  | connect
  | startTransaction
  | deleteTags
  | createTemp (table : Nat)
  | runQuery (table : Nat)
  | insertTemp (table batch : Nat)
  | mainQuery
  | deleteQuery
  | insertQuery
  | clearProcess
  | commit
  | release
  deriving DecidableEq

/-- An external query, with the rows ClickHouse answers. -/
structure SegmentExternalQueryPayload where
  tableName : String
  filterType : Option String := none
  rows : List Val := []
  deriving DecidableEq

/-- A query to run: its external queries, and the contacts the main query
inserts into `segment_process`. -/
structure Payload where
  externalQueries : List SegmentExternalQueryPayload := []
  selected : List Int
  deriving DecidableEq

/-- The main query. -/
def Store.select (s : Store) (p : Payload) : Store := { s with process := s.process ++ p.selected }

/-- The variables of a run: the transaction's view of the tables, whether the
transaction is aborted, and the two result variables. -/
structure Vars where
  store : Store
  aborted : Bool := false
  deleteIds : Option (List Int) := none
  insertIds : Option (List Int) := none

section
variable (f : Call → Bool)

/-- An awaited statement; `error` keeps the variables at the throw.  An aborted
transaction refuses every statement. -/
def statement (c : Call) (v : Vars) : Except Vars Vars :=
  if f c || v.aborted then .error v else .ok v

/-- `CREATE TEMP TABLE`, not awaited: its failure aborts the transaction. -/
def createTemp (i : Nat) (v : Vars) : Vars :=
  if f (.createTemp i) then { v with aborted := true } else v

def insertBatches (i : Nat) : Nat → List (List Val) → Vars → Except Vars Vars
  | _, [], v => .ok v
  | j, _ :: batches, v => (statement f (.insertTemp i j) v).bind (insertBatches i (j + 1) batches)

def batchSize : Nat := 5000

/-- The loop over `externalQueries`. -/
def fillTables : Nat → List SegmentExternalQueryPayload → Vars → Except Vars Vars
  | _, [], v => .ok v
  | i, x :: xs, v =>
      let v := createTemp f i v
      if f (.runQuery i) then .error v
      else (insertBatches f i 0 (Chunk.chunk batchSize x.rows) v).bind (fillTables (i + 1) xs)

/-- What `try` does before `COMMIT`. -/
def tryBody : Option Payload → Vars → Except Vars Vars
  | none, v => do
      let v ← statement f .deleteTags v
      return { v with store := v.store.deleteTags }
  | some p, v => do
      let v ← fillTables f 0 p.externalQueries v
      let v ← statement f .mainQuery v
      let v := { v with store := v.store.select p }
      let v ← statement f .deleteQuery v
      let (deleted, store) := v.store.deleteQuery
      let v := { v with store := store, deleteIds := some deleted }
      let v ← statement f .insertQuery v
      match v.store.insertQuery with
      | none => throw v
      | some (inserted, store) =>
          let v := { v with store := store, insertIds := some inserted }
          let v ← statement f .clearProcess v
          return { v with store := v.store.clearProcess }

/-! ## A run -/

inductive Ended where
  | notStarted
  | rolledBack
  | committed
  deriving DecidableEq

structure Ids where
  deleteIds : Option (List Int)
  insertIds : Option (List Int)
  deriving DecidableEq

/-- A run as its surroundings see it: the tables afterwards, how the transaction
ended, and what the caller gets. -/
structure Run where
  store : Store
  ended : Ended
  result : Except Unit Ids

/-- `await commitTransaction()` at the end of `try`. -/
def tryCommit (query : Option Payload) (s : Store) : Except Vars Vars :=
  (tryBody f query { store := s }).bind fun v => if f .commit then .error v else .ok v

/-- `finally { await release(); return { deleteIds, insertIds } }`. -/
def finallyReturn (v : Vars) : Except Unit Ids :=
  if f .release then .error () else .ok ⟨v.deleteIds, v.insertIds⟩

def processSegment (query : Option Payload) (s : Store) : Run :=
  if f .connect || f .startTransaction then ⟨s, .notStarted, .error ()⟩
  else
    match tryCommit f query s with
    | .ok v => ⟨v.store, .committed, finallyReturn f v⟩
    | .error v => ⟨s, .rolledBack, finallyReturn f v⟩

end

/-! ## When every statement succeeds -/

def batchCalls (i : Nat) : Nat → List (List Val) → List Call
  | _, [] => []
  | j, _ :: batches => .insertTemp i j :: batchCalls i (j + 1) batches

def fillCalls : Nat → List SegmentExternalQueryPayload → List Call
  | _, [] => []
  | i, x :: xs => .createTemp i :: .runQuery i ::
      (batchCalls i 0 (Chunk.chunk batchSize x.rows) ++ fillCalls (i + 1) xs)

/-- The calls of the transaction before `COMMIT`. -/
def calls : Option Payload → List Call
  | none => [.deleteTags]
  | some p => fillCalls 0 p.externalQueries ++ [.mainQuery, .deleteQuery, .insertQuery, .clearProcess]

/-- Every call up to `COMMIT` succeeds, and no entering contact is selected twice. -/
structure Commits (f : Call → Bool) (query : Option Payload) (s : Store) : Prop where
  calls : ∀ c ∈ calls query, f c = false
  commit : f .commit = false
  unique : ∀ p, query = some p → (s.select p).entering.Nodup

section
variable {f : Call → Bool}

theorem bind_eq_ok {ε α β : Type} {x : Except ε α} {k : α → Except ε β} {b : β} :
    x.bind k = .ok b ↔ ∃ a, x = .ok a ∧ k a = .ok b := by
  cases x with
  | error e => simp [Except.bind]
  | ok a => simp [Except.bind]

theorem statement_eq_ok {c : Call} {v v' : Vars} :
    statement f c v = .ok v' ↔ v' = v ∧ v.aborted = false ∧ f c = false := by
  unfold statement
  by_cases h : (f c || v.aborted) = true
  · rw [if_pos h]
    constructor
    · exact fun h' => nomatch h'
    · rintro ⟨_, ha, hc⟩
      rw [ha, hc] at h
      exact nomatch h
  · rw [if_neg h]
    simp only [Bool.or_eq_true, not_or, Bool.not_eq_true] at h
    constructor
    · intro h'
      exact ⟨(Except.ok.inj h').symm, h.2, h.1⟩
    · rintro ⟨rfl, _⟩
      rfl

theorem insertBatches_eq_ok {i : Nat} {batches : List (List Val)} : ∀ {j : Nat} {v v' : Vars},
    v.aborted = false → (insertBatches f i j batches v = .ok v' ↔
      v' = v ∧ ∀ c ∈ batchCalls i j batches, f c = false) := by
  induction batches with
  | nil =>
      intro j v v' _
      constructor
      · intro h
        exact ⟨(Except.ok.inj h).symm, fun _ hc => nomatch hc⟩
      · rintro ⟨rfl, _⟩
        rfl
  | cons b batches ih =>
      intro j v v' hv
      simp only [insertBatches, bind_eq_ok, statement_eq_ok, batchCalls, List.mem_cons,
        forall_eq_or_imp]
      constructor
      · rintro ⟨_, ⟨rfl, _, hc⟩, hrest⟩
        obtain ⟨rfl, hcs⟩ := (ih hv).mp hrest
        exact ⟨rfl, hc, hcs⟩
      · rintro ⟨rfl, hc, hcs⟩
        exact ⟨_, ⟨rfl, hv, hc⟩, (ih hv).mpr ⟨rfl, hcs⟩⟩

theorem insertBatches_aborted {i : Nat} {batches : List (List Val)} : ∀ {j : Nat} {v v' : Vars},
    insertBatches f i j batches v = .ok v' → v' = v := by
  induction batches with
  | nil =>
      intro j v v' h
      exact (Except.ok.inj h).symm
  | cons b batches ih =>
      intro j v v' h
      obtain ⟨_, hs, hrest⟩ := bind_eq_ok.mp h
      rw [(statement_eq_ok.mp hs).1] at hrest
      exact ih hrest

theorem fillTables_aborted {xs : List SegmentExternalQueryPayload} : ∀ {i : Nat} {v v' : Vars},
    fillTables f i xs v = .ok v' → v.aborted = true → v'.aborted = true := by
  induction xs with
  | nil =>
      intro i v v' h hv
      exact (Except.ok.inj h) ▸ hv
  | cons x xs ih =>
      intro i v v' h hv
      have hcreate : (createTemp f i v).aborted = true := by
        unfold createTemp
        split
        · rfl
        · exact hv
      simp only [fillTables] at h
      split at h
      · exact nomatch h
      · obtain ⟨w, hw, hrest⟩ := bind_eq_ok.mp h
        rw [insertBatches_aborted hw] at hrest
        exact ih hrest hcreate

theorem forall_fillCalls_cons {i : Nat} {x : SegmentExternalQueryPayload}
    {xs : List SegmentExternalQueryPayload} : (∀ c ∈ fillCalls i (x :: xs), f c = false) ↔
      f (.createTemp i) = false ∧ f (.runQuery i) = false ∧
      (∀ c ∈ batchCalls i 0 (Chunk.chunk batchSize x.rows), f c = false) ∧
      ∀ c ∈ fillCalls (i + 1) xs, f c = false := by
  simp only [fillCalls, List.forall_mem_cons, List.forall_mem_append]

theorem fillTables_eq_ok {xs : List SegmentExternalQueryPayload} : ∀ {i : Nat} {v : Vars},
    v.aborted = false → ∀ {v' : Vars}, (fillTables f i xs v = .ok v' ∧ v'.aborted = false ↔
      v' = v ∧ ∀ c ∈ fillCalls i xs, f c = false) := by
  induction xs with
  | nil =>
      intro i v hv v'
      constructor
      · rintro ⟨h, _⟩
        exact ⟨(Except.ok.inj h).symm, fun _ hc => nomatch hc⟩
      · rintro ⟨rfl, _⟩
        exact ⟨rfl, hv⟩
  | cons x xs ih =>
      intro i v hv v'
      rw [forall_fillCalls_cons]
      simp only [fillTables]
      cases hc : f (.createTemp i) with
      | true =>
          -- the failed `CREATE` leaves the transaction aborted
          constructor
          · rintro ⟨h, hsound⟩
            split at h
            · exact nomatch h
            · obtain ⟨w, hw, hrest⟩ := bind_eq_ok.mp h
              rw [insertBatches_aborted hw] at hrest
              have habort : v'.aborted = true := fillTables_aborted hrest (by simp [createTemp, hc])
              rw [habort] at hsound
              exact nomatch hsound
          · rintro ⟨_, hfalse, _⟩
            exact absurd hfalse (by decide)
      | false =>
          have hcreate : createTemp f i v = v := by simp [createTemp, hc]
          rw [hcreate]
          cases hq : f (.runQuery i) with
          | true => simp
          | false =>
              simp only [Bool.false_eq_true, if_false, bind_eq_ok, true_and]
              constructor
              · rintro ⟨⟨w, hw, hrest⟩, hsound⟩
                obtain ⟨rfl, hbatches⟩ := (insertBatches_eq_ok hv).mp hw
                obtain ⟨rfl, hcs⟩ := (ih hv).mp ⟨hrest, hsound⟩
                exact ⟨rfl, hbatches, hcs⟩
              · rintro ⟨rfl, hbatches, hcs⟩
                have hrest := (ih (i := i + 1) hv).mpr ⟨rfl, hcs⟩
                exact ⟨⟨_, (insertBatches_eq_ok hv).mpr ⟨rfl, hbatches⟩, hrest.1⟩, hv⟩

/-- The deletion changes nothing about who enters. -/
theorem entering_deleteQuery (s : Store) : s.deleteQuery.2.entering = s.entering := by
  refine List.filter_congr fun i hi => ?_
  have hi : i ∈ s.process := hi
  simp [Store.deleteQuery, hi]

theorem insertQuery_eq_some {s : Store} {x : List Int × Store} (h : s.insertQuery = some x) :
    s.entering.Nodup ∧ x.1 = s.entering ∧ x.2.members = s.members ++ s.entering := by
  unfold Store.insertQuery at h
  split at h
  · rename_i hnd
    cases h
    exact ⟨hnd, rfl, rfl⟩
  · exact nomatch h

/-- The variables of a run that comes to its `COMMIT`. -/
structure Moved (s : Store) (p : Payload) (v : Vars) : Prop where
  deleteIds : v.deleteIds = some (s.select p).deleteQuery.1
  insertIds : v.insertIds = some (s.select p).entering
  members : v.store.members = (s.select p).deleteQuery.2.members ++ (s.select p).entering

theorem forall_calls_some {p : Payload} : (∀ c ∈ calls (some p), f c = false) ↔
    (∀ c ∈ fillCalls 0 p.externalQueries, f c = false) ∧ f .mainQuery = false ∧
      f .deleteQuery = false ∧ f .insertQuery = false ∧ f .clearProcess = false := by
  simp [calls, or_imp, forall_and]

theorem tryBody_some {p : Payload} {s : Store} {v : Vars}
    (h : tryBody f (some p) { store := s } = .ok v) :
    (∀ c ∈ calls (some p), f c = false) ∧ (s.select p).entering.Nodup ∧ Moved s p v := by
  simp only [tryBody, bind, bind_eq_ok, statement_eq_ok] at h
  obtain ⟨v₁, hfill, _, ⟨rfl, hsound, hmain⟩, _, ⟨rfl, _, hdelete⟩, _, ⟨rfl, _, hinsert⟩, h⟩ := h
  obtain ⟨rfl, hfillCalls⟩ := (fillTables_eq_ok rfl).mp ⟨hfill, hsound⟩
  cases hins : (s.select p).deleteQuery.2.insertQuery with
  | none =>
      simp only [hins] at h
      exact nomatch h
  | some x =>
      simp only [hins, bind_eq_ok, statement_eq_ok] at h
      obtain ⟨_, ⟨rfl, _, hclear⟩, h⟩ := h
      obtain ⟨hnd, hids, hmembers⟩ := insertQuery_eq_some hins
      rw [entering_deleteQuery] at hnd hids hmembers
      cases h
      exact ⟨forall_calls_some.mpr ⟨hfillCalls, hmain, hdelete, hinsert, hclear⟩, hnd,
        rfl, congrArg some hids, hmembers⟩

theorem tryBody_some_of {p : Payload} {s : Store} (hcalls : ∀ c ∈ calls (some p), f c = false)
    (hnd : (s.select p).entering.Nodup) : ∃ v, tryBody f (some p) { store := s } = .ok v := by
  obtain ⟨hfillCalls, hmain, hdelete, hinsert, hclear⟩ := forall_calls_some.mp hcalls
  have hfill : fillTables f 0 p.externalQueries { store := s } = .ok { store := s } :=
    ((fillTables_eq_ok rfl).mpr ⟨rfl, hfillCalls⟩).1
  have hstatement : ∀ {c : Call} {v : Vars}, v.aborted = false → f c = false →
      statement f c v = .ok v := fun hv hc => statement_eq_ok.mpr ⟨rfl, hv, hc⟩
  obtain ⟨x, hx⟩ : ∃ x, (s.select p).deleteQuery.2.insertQuery = some x := by
    unfold Store.insertQuery
    rw [dif_pos ((entering_deleteQuery _).symm ▸ hnd)]
    exact ⟨_, rfl⟩
  simp only [tryBody, bind, hfill, Except.bind, hstatement, hmain, hdelete, hinsert, hclear, hx]
  exact ⟨_, rfl⟩

theorem tryBody_none {s : Store} {v : Vars} : tryBody f none { store := s } = .ok v ↔
    f .deleteTags = false ∧ v = { store := s.deleteTags } := by
  simp only [tryBody, bind, bind_eq_ok, statement_eq_ok, pure, Except.pure, Except.ok.injEq]
  constructor
  · rintro ⟨_, ⟨rfl, _, hf⟩, rfl⟩
    exact ⟨hf, rfl⟩
  · rintro ⟨hf, rfl⟩
    exact ⟨_, ⟨rfl, trivial, hf⟩, rfl⟩

/-! ## How a run ends -/

theorem tryCommit_ok_iff {query : Option Payload} {s : Store} :
    (∃ v, tryCommit f query s = .ok v) ↔ Commits f query s := by
  have hcommit : ∀ {v w : Vars}, (if f .commit then Except.error v else Except.ok v) = .ok w ↔
      f .commit = false ∧ w = v := by
    intro v w
    cases f .commit <;> simp [eq_comm]
  simp only [tryCommit, bind_eq_ok, hcommit]
  constructor
  · rintro ⟨_, v, hbody, hc, rfl⟩
    cases query with
    | none =>
        refine ⟨?_, hc, fun p hp => absurd hp.symm (Option.some_ne_none p)⟩
        simpa [calls] using (tryBody_none.mp hbody).1
    | some p =>
        obtain ⟨hcalls, hnd, _⟩ := tryBody_some hbody
        refine ⟨hcalls, hc, fun q hq => ?_⟩
        cases hq
        exact hnd
  · rintro ⟨hcalls, hc, hnd⟩
    cases query with
    | none =>
        have hdelete : f .deleteTags = false := hcalls _ List.mem_cons_self
        exact ⟨_, _, tryBody_none.mpr ⟨hdelete, rfl⟩, hc, rfl⟩
    | some p =>
        obtain ⟨v, hv⟩ := tryBody_some_of hcalls (hnd p rfl)
        exact ⟨v, v, hv, hc, rfl⟩

theorem tryCommit_tryBody {query : Option Payload} {s : Store} {v : Vars}
    (h : tryCommit f query s = .ok v) : tryBody f query { store := s } = .ok v := by
  obtain ⟨w, hw, hc⟩ := bind_eq_ok.mp h
  split at hc
  · exact nomatch hc
  · cases hc
    exact hw

/-- The contacts a run reports are those it moved. -/
structure Reports (s s' : Store) (ids : Ids) : Prop where
  deleted : ∀ i, i ∈ ids.deleteIds.getD [] ↔ i ∈ s.members ∧ i ∉ s'.members
  inserted : ∀ i, i ∈ ids.insertIds.getD [] ↔ i ∈ s'.members ∧ i ∉ s.members
  once : (ids.deleteIds.getD []).Nodup ∧ (ids.insertIds.getD []).Nodup

theorem Moved.reports {s : Store} {p : Payload} {v : Vars} (h : Moved s p v)
    (hnd : (s.select p).entering.Nodup) : Reports s v.store ⟨v.deleteIds, v.insertIds⟩ := by
  obtain ⟨hdelete, hinsert, hmembers⟩ := h
  have hmem : ∀ i, i ∈ v.store.members ↔ i ∈ (s.select p).process := by
    intro i
    rw [hmembers, List.mem_append, Store.mem_kept, Store.mem_entering]
    tauto
  refine ⟨fun i => ?_, fun i => ?_, ?_, ?_⟩
  · rw [hmem, hdelete]
    exact Store.mem_deleted
  · rw [hmem, hinsert]
    exact Store.mem_entering
  · rw [hdelete]
    exact s.unique.filter _
  · rw [hinsert]
    exact hnd

/-- Without a query all members go, and nothing is reported. -/
theorem reports_none_iff {s : Store} :
    Reports s s.deleteTags ⟨none, none⟩ ↔ s.members = [] := by
  constructor
  · intro h
    refine List.eq_nil_iff_forall_not_mem.mpr fun i hi => ?_
    have hmem := (h.deleted i).mpr ⟨hi, List.not_mem_nil⟩
    exact nomatch hmem
  · intro h
    refine ⟨fun i => ?_, fun i => ?_, List.nodup_nil, List.nodup_nil⟩ <;>
      simp [h, Store.deleteTags]

/-- A run is as it should be: rolled back, the caller sees a failure; and what
the caller is told it moved, it moved. -/
structure Run.Atomic (s : Store) (r : Run) : Prop where
  observed : r.ended = .rolledBack → r.result = .error ()
  exact_ : ∀ ids, r.result = .ok ids → Reports s r.store ids

/-- When a run is: it does not begin, or its connection cannot be released, or
every call of the transaction succeeds and there is a query or nothing to lose. -/
def Sound (f : Call → Bool) (query : Option Payload) (s : Store) : Prop :=
  f .connect = true ∨ f .startTransaction = true ∨ f .release = true ∨
    (Commits f query s ∧ (query = none → s.members = []))

theorem processSegment_atomic_iff {query : Option Payload} {s : Store} :
    (processSegment f query s).Atomic s ↔ Sound f query s := by
  unfold processSegment Sound
  cases hconnect : f .connect with
  | true => exact iff_of_true ⟨fun h => (nomatch h), fun _ h => (nomatch h)⟩ (.inl rfl)
  | false =>
  cases hstart : f .startTransaction with
  | true => exact iff_of_true ⟨fun h => (nomatch h), fun _ h => (nomatch h)⟩ (.inr (.inl rfl))
  | false =>
  simp only [Bool.or_self, Bool.false_eq_true, if_false, false_or]
  cases hrelease : f .release with
  | true =>
      have hfinally : ∀ v, finallyReturn f v = .error () := by simp [finallyReturn, hrelease]
      refine iff_of_true ?_ (.inl rfl)
      split <;> rw [hfinally] <;> exact ⟨fun _ => rfl, fun _ h => (nomatch h)⟩
  | false =>
      have hfinally : ∀ v, finallyReturn f v = .ok ⟨v.deleteIds, v.insertIds⟩ := by
        simp [finallyReturn, hrelease]
      simp only [Bool.false_eq_true, false_or]
      cases hrun : tryCommit f query s with
      | error v =>
          -- rolled back, and reported as a success
          have hno : ¬ Commits f query s := by
            rw [← tryCommit_ok_iff, hrun]
            exact fun ⟨_, h⟩ => nomatch h
          refine iff_of_false (fun h => ?_) (fun h => hno h.1)
          have hfail := h.observed rfl
          simp only [hfinally] at hfail
          exact nomatch hfail
      | ok v =>
          have hcommits : Commits f query s := tryCommit_ok_iff.mp ⟨v, hrun⟩
          have hbody := tryCommit_tryBody hrun
          simp only [hfinally]
          constructor
          · intro h
            refine ⟨hcommits, ?_⟩
            rintro rfl
            obtain ⟨_, rfl⟩ := tryBody_none.mp hbody
            exact reports_none_iff.mp (h.exact_ _ rfl)
          · rintro ⟨_, hmembers⟩
            refine ⟨fun h => (nomatch h), fun ids hids => ?_⟩
            cases hids
            cases query with
            | none =>
                obtain ⟨_, rfl⟩ := tryBody_none.mp hbody
                exact reports_none_iff.mpr (hmembers rfl)
            | some p =>
                obtain ⟨_, hnd, hmoved⟩ := tryBody_some hbody
                exact hmoved.reports hnd

end

end OpenBms.TagProcess
