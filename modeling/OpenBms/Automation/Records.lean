/-
# `OpenBms.Automation.Records` — the table `contacts_automations`

A row for each time a contact entered an automation, and the statements of
`msgops.service` on the table: one insert, updates of one row by its id, and
lookups of a contact's newest row in one automation.

**Proved here.**

    a row after an update (`mem_setStatus`)
    a row after an insert (`mem_insert`)
    what the newest lookup finds (`newest_eq_some`, `newest_eq_none`)
-/
import OpenBms.Lib.Js

namespace OpenBms.Automation

open Js

inductive Status where
  | running
  | canceled
  | completed
  | disengaged
  | duplicate
  | started
  deriving DecidableEq

/-- A contact and an automation of one account. -/
structure Pair where
  accountId : Int
  contactId : Int
  automationId : Int
  deriving DecidableEq

structure ContactAutomation where
  id : Nat
  pair : Pair
  status : Status
  createdAt : Int
  deriving DecidableEq

/-- The table, oldest row first; the sequence of its ids; and the moment the next
row is stamped with. -/
structure Table where
  rows : List ContactAutomation
  nextId : Nat
  now : Int
  ordered : rows.Pairwise fun a b => a.id < b.id ∧ a.createdAt < b.createdAt
  fresh : ∀ r ∈ rows, r.id < nextId ∧ r.createdAt < now

namespace Table

def empty (now : Int) : Table where
  rows := []
  nextId := 1
  now := now
  ordered := List.Pairwise.nil
  fresh := fun _ h => (List.not_mem_nil h).elim

/-- The row `createContactAutomations` inserts. -/
def newRow (t : Table) (pair : Pair) (status : Status) : ContactAutomation :=
  ⟨t.nextId, pair, status, t.now⟩

/-- `createContactAutomations`. -/
def insert (t : Table) (pair : Pair) (status : Status) : Table where
  rows := t.rows ++ [t.newRow pair status]
  nextId := t.nextId + 1
  now := t.now + 1
  ordered := by
    refine List.pairwise_append.mpr ⟨t.ordered, List.pairwise_singleton _ _, ?_⟩
    intro a ha b hb
    obtain rfl := List.mem_singleton.mp hb
    exact t.fresh a ha
  fresh := by
    intro r hr
    rcases List.mem_append.mp hr with hr | hr
    · have h := t.fresh r hr
      omega
    · obtain rfl := List.mem_singleton.mp hr
      simp only [newRow]
      omega

def update (accountId : Int) (id : Nat) (status : Status) (r : ContactAutomation) :
    ContactAutomation :=
  if r.pair.accountId = accountId ∧ r.id = id then { r with status := status } else r

theorem update_id (a : Int) (i : Nat) (st : Status) (r : ContactAutomation) :
    (update a i st r).id = r.id := by
  unfold update
  split <;> rfl

theorem update_pair (a : Int) (i : Nat) (st : Status) (r : ContactAutomation) :
    (update a i st r).pair = r.pair := by
  unfold update
  split <;> rfl

theorem update_createdAt (a : Int) (i : Nat) (st : Status) (r : ContactAutomation) :
    (update a i st r).createdAt = r.createdAt := by
  unfold update
  split <;> rfl

/-- `update .. set status where account_id = .. and id = ..`: the statement of
`updateContactAutomations`, `completeAutomations` and `completeTargetedAutomations`. -/
def setStatus (t : Table) (accountId : Int) (id : Nat) (status : Status) : Table where
  rows := t.rows.map (update accountId id status)
  nextId := t.nextId
  now := t.now
  ordered := by
    refine List.pairwise_map.mpr (t.ordered.imp fun h => ?_)
    rwa [update_id, update_id, update_createdAt, update_createdAt]
  fresh := by
    intro r hr
    obtain ⟨r', hr', rfl⟩ := List.mem_map.mp hr
    rw [update_id, update_createdAt]
    exact t.fresh r' hr'

/-- The clock moves on. -/
def wait (t : Table) (d : Nat) : Table where
  rows := t.rows
  nextId := t.nextId
  now := t.now + d
  ordered := t.ordered
  fresh := fun r hr => by
    have h := t.fresh r hr
    omega

/-- The rows of a pair. -/
def of (t : Table) (pair : Pair) : List ContactAutomation :=
  t.rows.filter fun r => r.pair = pair

/-- `getContactAutomations`: the newest row of a pair in one of some states. -/
def newest (t : Table) (pair : Pair) (statuses : List Status) : Option ContactAutomation :=
  (t.rows.filter fun r => r.pair = pair && r.status ∈ statuses).getLast?

/-- `getFirstContactAutomations`: any row of a pair. -/
def first (t : Table) (pair : Pair) : Option ContactAutomation :=
  (t.of pair).head?

/-- `getAllContactAutomations`. -/
def all (t : Table) (pair : Pair) (statuses : List Status) : List ContactAutomation :=
  t.rows.filter fun r => r.pair = pair && r.status ∈ statuses

variable {t : Table}

theorem mem_insert {pair : Pair} {st : Status} {r : ContactAutomation} :
    r ∈ (t.insert pair st).rows ↔ r ∈ t.rows ∨ r = t.newRow pair st := by
  simp [insert]

/-- The rows after an update: the others as they were, the named one in its new state. -/
theorem mem_setStatus {a : Int} {i : Nat} {st : Status} {r : ContactAutomation} :
    r ∈ (t.setStatus a i st).rows ↔ ∃ r' ∈ t.rows, update a i st r' = r :=
  List.mem_map

/-- Rows are told apart by their ids. -/
theorem eq_of_id {r r' : ContactAutomation} (hr : r ∈ t.rows) (hr' : r' ∈ t.rows)
    (h : r.id = r'.id) : r = r' := by
  have hids : (t.rows.map fun a => a.id).Nodup :=
    List.pairwise_map.mpr (t.ordered.imp fun h => Nat.ne_of_lt h.1)
  exact List.inj_on_of_nodup_map hids hr hr' h

theorem eq_of_createdAt {r r' : ContactAutomation} (hr : r ∈ t.rows) (hr' : r' ∈ t.rows)
    (h : r.createdAt = r'.createdAt) : r = r' := by
  have hdates : (t.rows.map fun a => a.createdAt).Nodup :=
    List.pairwise_map.mpr (t.ordered.imp fun h => Int.ne_of_lt h.2)
  exact List.inj_on_of_nodup_map hdates hr hr' h

theorem newest_eq_none {pair : Pair} {sts : List Status} (h : t.newest pair sts = none) :
    ∀ r ∈ t.rows, r.pair = pair → r.status ∉ sts := by
  intro r hr hpair hst
  have hmem : r ∈ t.rows.filter fun r => r.pair = pair && r.status ∈ sts := by
    simp [hr, hpair, hst]
  rw [List.getLast?_eq_none_iff.mp h] at hmem
  cases hmem

theorem newest_eq_some {pair : Pair} {sts : List Status} {r : ContactAutomation}
    (h : t.newest pair sts = some r) :
    r ∈ t.rows ∧ r.pair = pair ∧ r.status ∈ sts ∧
      ∀ r' ∈ t.rows, r'.pair = pair → r'.status ∈ sts → r'.createdAt ≤ r.createdAt := by
  have hmem := List.mem_of_getLast? h
  have hr : r ∈ t.rows ∧ r.pair = pair ∧ r.status ∈ sts := by
    simpa [and_assoc] using hmem
  refine ⟨hr.1, hr.2.1, hr.2.2, fun r' hr' hpair' hst' => ?_⟩
  have hmem' : r' ∈ t.rows.filter fun r => r.pair = pair && r.status ∈ sts := by
    simp [hr', hpair', hst']
  have hordered := t.ordered.filter fun r => decide (r.pair = pair) && decide (r.status ∈ sts)
  obtain ⟨ys, hys⟩ := List.getLast?_eq_some_iff.mp h
  rw [hys] at hmem' hordered
  rcases List.mem_append.mp hmem' with hy | hy
  · exact ((List.pairwise_append.mp hordered).2.2 r' hy r List.mem_cons_self).2.le
  · rw [List.mem_singleton.mp hy]

theorem first_eq_none {pair : Pair} : t.first pair = none ↔ t.of pair = [] :=
  List.head?_eq_none_iff

end Table

end OpenBms.Automation
