/-
# `OpenBms.Contacts.Inactive` — the batches of inactive contacts and the connection pool

`deactivateInactiveContacts` sends `BEGIN`, its statements and `COMMIT` or `ROLLBACK` one by one
through the repository.  Each is served by a connection of the pool of its own, which others are
served by as well: on a connection without a transaction a statement is committed at once, on one
with another's transaction it becomes part of that.

**Proved here**, for every assignment of connections, every failure and any other users.

    in a run in which a connection that serves a `BEGIN` serves
    the whole batch and nobody else meanwhile, every batch has
    all of its effects or none, and no transaction is left open (`batches_atomic`)
    the tags are deleted, the contacts stay active, and a
    transaction is left open (`half_committed`)
-/
import OpenBms.Lib.Runs

namespace OpenBms.Contacts.Inactive

/-! ## The pool -/

/-- The three statements of a batch that write. -/
inductive Write where
  | contactsTags
  | contactsAutomations
  | contacts
  deriving DecidableEq

/-- What a statement changes: a batch by its number, or something of another user. -/
inductive Effect where
  | batch (number : Nat) (write : Write)
  | other (n : Nat)
  deriving DecidableEq

inductive Owner where
  | batch
  | other
  deriving DecidableEq

/-- An open transaction; one with a failed statement is aborted. -/
structure Transaction where
  owner : Owner
  aborted : Bool
  pending : List Effect
  deriving DecidableEq

structure Pool where
  connections : Nat → Option Transaction
  committed : List Effect

inductive Statement where
  | begin
  | read
  | write (effect : Effect)
  | commit
  | rollback
  deriving DecidableEq

/-- A statement may be refused by the server, or its connection may be lost. -/
inductive Fate where
  | ok
  | error
  | lost
  deriving DecidableEq

namespace Pool

def set (pool : Pool) (connection : Nat) (transaction : Option Transaction) : Pool :=
  { pool with connections := Function.update pool.connections connection transaction }

def commits (pool : Pool) (effects : List Effect) : Pool :=
  { pool with committed := pool.committed ++ effects }

/-- A statement that fails aborts the transaction of its connection, if there is one. -/
def abort (pool : Pool) (connection : Nat) : Pool :=
  pool.set connection ((pool.connections connection).map ({ · with aborted := true }))

/-- One statement on a connection, and whether it succeeds.  A transaction ends with its
connection, and with a `COMMIT` or `ROLLBACK` that fails. -/
def query (pool : Pool) (owner : Owner) (connection : Nat) (statement : Statement) (fate : Fate) :
    Pool × Bool :=
  match fate, statement, pool.connections connection with
  | .lost, _, _ => (pool.set connection none, false)
  | .error, .commit, _ | .error, .rollback, _ => (pool.set connection none, false)
  | .error, _, _ => (pool.abort connection, false)
  | .ok, .begin, none => (pool.set connection (some ⟨owner, false, []⟩), true)
  | .ok, .begin, some _ => (pool, true)
  | .ok, .read, none => (pool, true)
  | .ok, .read, some transaction => (pool, !transaction.aborted)
  | .ok, .write effect, none => (pool.commits [effect], true)
  | .ok, .write effect, some transaction =>
      if transaction.aborted then (pool, false)
      else
        (pool.set connection (some { transaction with pending := transaction.pending ++ [effect] }),
          true)
  | .ok, .commit, none | .ok, .rollback, none => (pool, true)
  | .ok, .commit, some transaction =>
      -- the `COMMIT` of an aborted transaction rolls it back, and is no error
      if transaction.aborted then (pool.set connection none, true)
      else ((pool.commits transaction.pending).set connection none, true)
  | .ok, .rollback, some _ => (pool.set connection none, true)

end Pool

/-! ## The call -/

/-- The next statement of a batch. -/
inductive Point where
  | begin
  | select
  | deleteTags
  | deleteAutomations
  | updateContacts
  | commit
  | rollback
  deriving DecidableEq

/-- The accounts that are left, the first one being processed; how many batches have ended; the
next statement, the connection that served the last `BEGIN`, and whether the batch has contacts. -/
structure State where
  pool : Pool
  accounts : List Nat
  batch : Nat
  point : Point
  serving : Nat
  found : Bool

def State.init (pool : Pool) (accounts : List Nat) : State := ⟨pool, accounts, 0, .begin, 0, false⟩

/-- The next statement of the call is served by a connection, or one of another user is. -/
inductive Action where
  | statement (connection : Nat) (fate : Fate) (found : Bool)
  | other (connection : Nat) (statement : Statement) (fate : Fate)
  deriving DecidableEq

def State.statement (s : State) : Statement :=
  match s.point with
  | .begin => .begin
  | .select => .read
  | .deleteTags => .write (.batch s.batch .contactsTags)
  | .deleteAutomations => .write (.batch s.batch .contactsAutomations)
  | .updateContacts => .write (.batch s.batch .contacts)
  | .commit => .commit
  | .rollback => .rollback

/-- After a statement that succeeded. -/
def State.advance (s : State) (found : Bool) : State :=
  match s.point with
  | .begin => { s with point := .select }
  | .select => { s with point := if found then .deleteTags else .commit, found := found }
  | .deleteTags => { s with point := .deleteAutomations }
  | .deleteAutomations => { s with point := .updateContacts }
  | .updateContacts => { s with point := .commit }
  | .commit =>
      { s with
        point := .begin, batch := s.batch + 1
        accounts := if s.found then s.accounts else s.accounts.tail }
  | .rollback => { s with point := .begin, batch := s.batch + 1, accounts := s.accounts.tail }

/-- After one that failed: the batch is rolled back, and when that fails the call throws. -/
def State.fail (s : State) : State :=
  match s.point with
  | .rollback => { s with point := .begin, batch := s.batch + 1, accounts := [] }
  | _ => { s with point := .rollback }

def step (s : State) : Action → Option State
  | .other connection statement fate =>
      some { s with pool := (s.pool.query .other connection statement fate).1 }
  | .statement connection fate found =>
      if s.accounts = [] then none
      else
        let result := s.pool.query .batch connection s.statement fate
        let s' := { s with
          pool := result.1
          serving := if s.point = Point.begin then connection else s.serving }
        some (if result.2 then s'.advance found else s'.fail)

/-! ## What should hold -/

/-- Every batch that ended has all of its effects or none, and between the batches, as after the
call, no connection is in a transaction of one, nor has effects of one pending. -/
structure Atomic (s : State) : Prop where
  whole : ∀ number < s.batch, (∀ write, .batch number write ∈ s.pool.committed) ∨
    ∀ write, .batch number write ∉ s.pool.committed
  closed : s.point = .begin → ∀ connection transaction,
    s.pool.connections connection = some transaction →
      transaction.owner = .other ∧ ∀ number write, .batch number write ∉ transaction.pending

/-- A `BEGIN` is served by a connection without a transaction; the rest of its batch is served by
the same, and others are not while the batch lasts. A write of another user is its own. -/
def Serves (s : State) : Action → Prop
  | .statement connection _ _ =>
      if s.point = .begin then s.pool.connections connection = none else connection = s.serving
  | .other connection statement _ =>
      (s.point = .begin ∨ connection ≠ s.serving) ∧
        ∀ number write, statement ≠ .write (.batch number write)

/-- A transaction of another user, without effects of a batch. -/
def Transaction.Foreign (transaction : Transaction) : Prop :=
  transaction.owner = .other ∧ ∀ number write, .batch number write ∉ transaction.pending

/-- The pool before the call. -/
structure Pool.Foreign (pool : Pool) : Prop where
  committed : ∀ number write, .batch number write ∉ pool.committed
  transactions : ∀ connection transaction, pool.connections connection = some transaction →
    transaction.Foreign

/-! ## The invariant -/

/-- What the batch has written when a statement of it is next. -/
def written (number : Nat) (found : Bool) : Point → List Effect
  | .begin | .select | .deleteTags => []
  | .deleteAutomations => [.batch number .contactsTags]
  | .updateContacts => [.batch number .contactsTags, .batch number .contactsAutomations]
  | .commit =>
      if found then [.batch number .contactsTags, .batch number .contactsAutomations,
        .batch number .contacts] else []
  | .rollback => []

/-- While a batch lasts, its connection has its transaction with what it has written, or, before
a `ROLLBACK`, anything; all others are foreign, and nothing of the batch is committed. -/
structure Inv (s : State) : Prop where
  whole : ∀ number < s.batch, (∀ write, .batch number write ∈ s.pool.committed) ∨
    ∀ write, .batch number write ∉ s.pool.committed
  fresh : ∀ number, s.batch ≤ number → ∀ write, .batch number write ∉ s.pool.committed
  foreign : ∀ connection transaction, s.pool.connections connection = some transaction →
    s.point = .begin ∨ connection ≠ s.serving → transaction.Foreign
  serving : s.point ≠ .begin → s.point ≠ .rollback →
    s.pool.connections s.serving = some ⟨.batch, false, written s.batch s.found s.point⟩
  found : s.point = .deleteTags ∨ s.point = .deleteAutomations ∨ s.point = .updateContacts →
    s.found = true

section Pool
variable {pool : Pool} {owner : Owner} {connection : Nat} {fate : Fate}

@[simp] theorem set_connections_self (pool : Pool) (connection : Nat)
    (transaction : Option Transaction) :
    (pool.set connection transaction).connections connection = transaction :=
  Function.update_self ..

@[simp] theorem set_committed (pool : Pool) (connection : Nat) (transaction : Option Transaction) :
    (pool.set connection transaction).committed = pool.committed := rfl

theorem set_connections_of_ne {other : Nat} (h : other ≠ connection)
    (transaction : Option Transaction) :
    (pool.set connection transaction).connections other = pool.connections other :=
  Function.update_of_ne h ..

theorem query_connections_of_ne (pool : Pool) (owner : Owner) (fate : Fate) (statement : Statement)
    {other : Nat} (h : other ≠ connection) :
    (pool.query owner connection statement fate).1.connections other = pool.connections other := by
  unfold Pool.query
  split
  all_goals first
    | rfl
    | exact set_connections_of_ne h _
    | (split <;> first | rfl | exact set_connections_of_ne h _)

theorem query_other (pool : Pool) (connection : Nat) (fate : Fate) (statement : Statement)
    (hforeign : ∀ transaction, pool.connections connection = some transaction → transaction.Foreign)
    (hstatement : ∀ number write, statement ≠ .write (.batch number write)) :
    (∀ transaction, (pool.query .other connection statement fate).1.connections connection =
      some transaction → transaction.Foreign) ∧
    ∀ number write, .batch number write ∈ (pool.query .other connection statement fate).1.committed ↔
      .batch number write ∈ pool.committed := by
  have hnone : ∀ pool : Pool, ∀ transaction,
      (pool.set connection none).connections connection = some transaction → transaction.Foreign := by
    intro pool transaction h
    rw [set_connections_self] at h
    cases h
  have habort : ∀ transaction, (pool.abort connection).connections connection = some transaction →
      transaction.Foreign := by
    intro transaction h
    rw [Pool.abort, set_connections_self] at h
    obtain ⟨old, hold, rfl⟩ := Option.map_eq_some_iff.mp h
    exact hforeign old hold
  unfold Pool.query
  split
  · exact ⟨hnone pool, fun _ _ => .rfl⟩
  · exact ⟨hnone pool, fun _ _ => .rfl⟩
  · exact ⟨hnone pool, fun _ _ => .rfl⟩
  · exact ⟨habort, fun _ _ => .rfl⟩
  · refine ⟨fun transaction h => ?_, fun _ _ => .rfl⟩
    rw [set_connections_self] at h
    cases h
    exact ⟨rfl, fun _ _ => List.not_mem_nil⟩
  · exact ⟨hforeign, fun _ _ => .rfl⟩
  · exact ⟨hforeign, fun _ _ => .rfl⟩
  · exact ⟨hforeign, fun _ _ => .rfl⟩
  · next effect _ =>
    refine ⟨hforeign, fun number write => ?_⟩
    rw [Pool.commits, List.mem_append, List.mem_singleton]
    exact or_iff_left fun h => hstatement number write (congrArg Statement.write h.symm)
  · next effect transaction htransaction =>
    split
    · exact ⟨hforeign, fun _ _ => .rfl⟩
    · refine ⟨fun transaction' h => ?_, fun _ _ => .rfl⟩
      rw [set_connections_self] at h
      cases h
      obtain ⟨howner, hpending⟩ := hforeign transaction htransaction
      refine ⟨howner, fun number write hmem => ?_⟩
      rcases List.mem_append.mp hmem with hmem | hmem
      · exact hpending number write hmem
      · exact hstatement number write (congrArg Statement.write (List.mem_singleton.mp hmem).symm)
  · exact ⟨hforeign, fun _ _ => .rfl⟩
  · exact ⟨hforeign, fun _ _ => .rfl⟩
  · next transaction htransaction =>
    split
    · exact ⟨hnone pool, fun _ _ => .rfl⟩
    · refine ⟨hnone _, fun number write => ?_⟩
      rw [set_committed, Pool.commits, List.mem_append]
      exact or_iff_left ((hforeign transaction htransaction).2 number write)
  · exact ⟨hnone pool, fun _ _ => .rfl⟩

theorem query_begin (fate : Fate) (h : pool.connections connection = none) :
    (pool.query .batch connection .begin fate).1.committed = pool.committed ∧
      ((pool.query .batch connection .begin fate).2 = true →
        (pool.query .batch connection .begin fate).1.connections connection =
          some ⟨.batch, false, []⟩) := by
  cases fate with
  | ok =>
      unfold Pool.query
      simp only [h]
      exact ⟨rfl, fun _ => set_connections_self ..⟩
  | error => exact ⟨rfl, fun h => absurd h Bool.false_ne_true⟩
  | lost => exact ⟨rfl, fun h => absurd h Bool.false_ne_true⟩

/-- The effects a statement adds to its transaction. -/
def Statement.effects : Statement → List Effect
  | .write effect => [effect]
  | _ => []

/-- A statement within the batch's own transaction changes nothing outside, and when it succeeds
its effects are added. -/
theorem query_within (fate : Fate) {statement : Statement} {pending : List Effect}
    (h : pool.connections connection = some ⟨.batch, false, pending⟩)
    (hstatement : statement = .read ∨ ∃ effect, statement = .write effect) :
    (pool.query .batch connection statement fate).1.committed = pool.committed ∧
      ((pool.query .batch connection statement fate).2 = true →
        (pool.query .batch connection statement fate).1.connections connection =
          some ⟨.batch, false, pending ++ statement.effects⟩) := by
  cases fate with
  | ok =>
      rcases hstatement with rfl | ⟨effect, rfl⟩
      · unfold Pool.query
        simp only [h]
        refine ⟨trivial, fun _ => ?_⟩
        show some _ = some (Transaction.mk .batch false (pending ++ []))
        rw [List.append_nil]
      · unfold Pool.query
        simp only [h]
        exact ⟨rfl, fun _ => set_connections_self ..⟩
  | error =>
      rcases hstatement with rfl | ⟨effect, rfl⟩
      · exact ⟨rfl, fun h => absurd h Bool.false_ne_true⟩
      · exact ⟨rfl, fun h => absurd h Bool.false_ne_true⟩
  | lost => exact ⟨rfl, fun h => absurd h Bool.false_ne_true⟩

theorem query_commit (fate : Fate) {pending : List Effect}
    (h : pool.connections connection = some ⟨.batch, false, pending⟩) :
    (pool.query .batch connection .commit fate).1.connections connection = none ∧
      (pool.query .batch connection .commit fate).1.committed =
        if (pool.query .batch connection .commit fate).2 then pool.committed ++ pending
        else pool.committed := by
  cases fate with
  | ok =>
      unfold Pool.query
      simp only [h]
      exact ⟨set_connections_self .., rfl⟩
  | error => exact ⟨set_connections_self .., rfl⟩
  | lost => exact ⟨set_connections_self .., rfl⟩

theorem query_rollback (pool : Pool) (connection : Nat) (fate : Fate) :
    (pool.query .batch connection .rollback fate).1.connections connection = none ∧
      (pool.query .batch connection .rollback fate).1.committed = pool.committed := by
  cases fate with
  | ok =>
      cases h : pool.connections connection with
      | none =>
          unfold Pool.query
          simp only [h]
          exact ⟨trivial, trivial⟩
      | some transaction =>
          unfold Pool.query
          simp only [h]
          exact ⟨set_connections_self .., rfl⟩
  | error => exact ⟨set_connections_self .., rfl⟩
  | lost => exact ⟨set_connections_self .., rfl⟩

end Pool

/-! ## The steps -/

variable {s s' : State}

theorem Inv.init {pool : Pool} (h : pool.Foreign) (accounts : List Nat) :
    Inv (State.init pool accounts) where
  whole := fun _ hlt => absurd hlt (Nat.not_lt_zero _)
  fresh := fun number _ => h.committed number
  foreign := fun connection transaction htransaction _ => h.transactions connection transaction htransaction
  serving := fun hpoint => absurd rfl hpoint
  found := fun hpoint => by rcases hpoint with h | h | h <;> cases h

theorem Inv.atomic (h : Inv s) : Atomic s where
  whole := h.whole
  closed := fun hpoint connection transaction htransaction =>
    h.foreign connection transaction htransaction (.inl hpoint)

theorem Inv.within (h : Inv s) {pool : Pool} {serving : Nat} {point : Point} {found : Bool}
    (hserving : s.point = .begin ∨ serving = s.serving)
    (hcommitted : pool.committed = s.pool.committed)
    (hframe : ∀ connection, connection ≠ serving →
      pool.connections connection = s.pool.connections connection)
    (hpoint : point ≠ .begin)
    (hwritten : point ≠ .rollback →
      pool.connections serving = some ⟨.batch, false, written s.batch found point⟩)
    (hfound : point = .deleteTags ∨ point = .deleteAutomations ∨ point = .updateContacts →
      found = true) :
    Inv { s with pool := pool, serving := serving, point := point, found := found } where
  whole := by
    show ∀ number < s.batch, (∀ write, .batch number write ∈ pool.committed) ∨
      ∀ write, .batch number write ∉ pool.committed
    rw [hcommitted]
    exact h.whole
  fresh := by
    show ∀ number, s.batch ≤ number → ∀ write, .batch number write ∉ pool.committed
    rw [hcommitted]
    exact h.fresh
  foreign := by
    intro connection transaction htransaction hother
    have hne : connection ≠ serving := hother.resolve_left hpoint
    have hold : s.pool.connections connection = some transaction :=
      (hframe connection hne).symm.trans htransaction
    refine h.foreign connection transaction hold (hserving.imp_right fun heq => ?_)
    exact heq ▸ hne
  serving := fun _ hrollback => hwritten hrollback
  found := hfound


theorem Inv.ended (h : Inv s) {pool : Pool} (accounts : List Nat)
    (committed : List Effect)
    (hcommitted : pool.committed = s.pool.committed ++ committed)
    (hwhole : (∀ write, .batch s.batch write ∈ committed) ∨ committed = [])
    (hown : ∀ number write, .batch number write ∈ committed → number = s.batch)
    (hclosed : pool.connections s.serving = none)
    (hframe : ∀ connection, connection ≠ s.serving →
      pool.connections connection = s.pool.connections connection) :
    Inv { s with pool := pool, point := .begin, batch := s.batch + 1, accounts := accounts } := by
  have hmem : ∀ number, number ≠ s.batch → ∀ write,
      .batch number write ∈ pool.committed ↔ .batch number write ∈ s.pool.committed := by
    intro number hne write
    rw [hcommitted, List.mem_append]
    exact or_iff_left fun hmem => hne (hown number write hmem)
  refine ⟨fun number hlt => ?_, fun number hle write => ?_, ?_, fun h => absurd rfl h, fun h => ?_⟩
  · show (∀ write, .batch number write ∈ pool.committed) ∨ ∀ write, .batch number write ∉ pool.committed
    rcases Nat.lt_succ_iff_lt_or_eq.mp hlt with hlt | rfl
    · simp only [hmem number (Nat.ne_of_lt hlt)]
      exact h.whole number hlt
    · rw [hcommitted]
      rcases hwhole with hall | rfl
      · exact .inl fun write => List.mem_append_right _ (hall write)
      · rw [List.append_nil]
        exact .inr (h.fresh _ (Nat.le_refl _))
  · rw [hmem number (Nat.ne_of_gt hle)]
    exact h.fresh number (Nat.le_of_succ_le hle) write
  · intro connection transaction htransaction _
    by_cases hne : connection = s.serving
    · subst hne
      rw [hclosed] at htransaction
      cases htransaction
    · exact h.foreign connection transaction ((hframe connection hne).symm.trans htransaction) (.inr hne)
  · rcases h with h | h | h <;> cases h

theorem Inv.other (h : Inv s) {connection : Nat} {statement : Statement} {fate : Fate}
    (hserves : Serves s (.other connection statement fate)) :
    Inv { s with pool := (s.pool.query .other connection statement fate).1 } := by
  obtain ⟨hconnection, hstatement⟩ := hserves
  obtain ⟨hown, hmem⟩ := query_other s.pool connection fate statement
    (fun transaction htransaction => h.foreign connection transaction htransaction hconnection) hstatement
  have hframe := fun {other : Nat} (hne : other ≠ connection) =>
    query_connections_of_ne s.pool .other fate statement hne
  refine ⟨?_, ?_, ?_, fun hbegin hrollback => ?_, h.found⟩
  · simp only [hmem]
    exact h.whole
  · simp only [hmem]
    exact h.fresh
  · intro other transaction htransaction hother
    by_cases hne : other = connection
    · subst hne
      exact hown transaction htransaction
    · exact h.foreign other transaction ((hframe hne).symm.trans htransaction) hother
  · have hne : s.serving ≠ connection := (hconnection.resolve_left hbegin).symm
    exact (hframe hne).trans (h.serving hbegin hrollback)

theorem Inv.inner (h : Inv s) (fate : Fate) (point : Point) (found : Bool)
    (hbegin : s.point ≠ .begin) (hrollback : s.point ≠ .rollback)
    (hstatement : s.statement = .read ∨ ∃ effect, s.statement = .write effect)
    (hpoint : point ≠ .begin)
    (hwritten : point ≠ .rollback →
      written s.batch s.found s.point ++ s.statement.effects = written s.batch found point)
    (hfound : point = .deleteTags ∨ point = .deleteAutomations ∨ point = .updateContacts →
      found = true) :
    Inv (if (s.pool.query .batch s.serving s.statement fate).2 then
      { s with
        pool := (s.pool.query .batch s.serving s.statement fate).1, point := point, found := found }
      else { s with
        pool := (s.pool.query .batch s.serving s.statement fate).1, point := .rollback }) := by
  obtain ⟨hcommitted, hadded⟩ := query_within fate (h.serving hbegin hrollback) hstatement
  have hframe := fun connection (hne : connection ≠ s.serving) =>
    query_connections_of_ne s.pool .batch fate s.statement hne
  split
  · next hok =>
    refine h.within (.inr rfl) hcommitted hframe hpoint (fun hpoint' => ?_) hfound
    rw [hadded hok, hwritten hpoint']
  · refine h.within (.inr rfl) hcommitted hframe (by decide) (fun hpoint' => absurd rfl hpoint') ?_
    intro hpoint'
    rcases hpoint' with h | h | h <;> cases h

theorem Inv.step (h : Inv s) {action : Action} (hserves : Serves s action)
    (hstep : step s action = some s') : Inv s' := by
  cases action with
  | other connection statement fate =>
      cases hstep
      exact h.other hserves
  | statement connection fate found =>
      rw [Inactive.step] at hstep
      split at hstep
      case isTrue => cases hstep
      case isFalse =>
        cases hstep
        have hframe := fun (statement : Statement) other (hne : other ≠ connection) =>
          query_connections_of_ne s.pool .batch fate statement hne
        by_cases hbegin : s.point = .begin
        · have hnone : s.pool.connections connection = none := by
            simpa only [Serves, hbegin, if_true] using hserves
          obtain ⟨hcommitted, hopened⟩ := query_begin fate hnone
          simp only [State.statement, State.advance, State.fail, hbegin, if_true]
          split
          · next hok =>
            refine h.within (.inl hbegin) hcommitted (hframe .begin) (by decide) (fun _ => hopened hok) ?_
            intro hpoint
            rcases hpoint with h | h | h <;> cases h
          · refine h.within (.inl hbegin) hcommitted (hframe .begin) (by decide)
              (fun hpoint => absurd rfl hpoint) fun hpoint => ?_
            rcases hpoint with h | h | h <;> cases h
        · have hconnection : connection = s.serving := by
            simpa only [Serves, hbegin, if_false] using hserves
          subst hconnection
          simp only [hbegin, if_false]
          cases hpoint : s.point with
          | begin => exact absurd hpoint hbegin
          | select =>
              have hinner := h.inner fate
                (if found then .deleteTags else .commit) found hbegin (by rw [hpoint]; decide)
                (.inl (by rw [State.statement, hpoint])) (by cases found <;> decide)
                (by rw [State.statement, hpoint]; cases found <;> exact fun _ => rfl)
                (by cases found <;> decide)
              simpa only [State.advance, State.fail, hpoint] using hinner
          | deleteTags =>
              have hfound := h.found (.inl hpoint)
              have hinner := h.inner fate .deleteAutomations s.found
                hbegin (by rw [hpoint]; decide) (.inr ⟨_, by rw [State.statement, hpoint]⟩) (by decide)
                (by rw [State.statement, hpoint]; exact fun _ => rfl) fun _ => hfound
              simpa only [State.advance, State.fail, hpoint] using hinner
          | deleteAutomations =>
              have hfound := h.found (.inr (.inl hpoint))
              have hinner := h.inner fate .updateContacts s.found
                hbegin (by rw [hpoint]; decide) (.inr ⟨_, by rw [State.statement, hpoint]⟩) (by decide)
                (by rw [State.statement, hpoint]; exact fun _ => rfl) fun _ => hfound
              simpa only [State.advance, State.fail, hpoint] using hinner
          | updateContacts =>
              have hfound := h.found (.inr (.inr hpoint))
              have hinner := h.inner fate .commit s.found
                hbegin (by rw [hpoint]; decide) (.inr ⟨_, by rw [State.statement, hpoint]⟩) (by decide)
                (by rw [State.statement, hpoint, hfound]; exact fun _ => rfl) fun _ => hfound
              simpa only [State.advance, State.fail, hpoint] using hinner
          | commit =>
              have hserving := h.serving hbegin (by rw [hpoint]; decide)
              rw [hpoint] at hserving
              obtain ⟨hclosed, hcommitted⟩ := query_commit fate hserving
              simp only [State.statement, State.advance, State.fail, hpoint]
              split
              · next hok =>
                rw [if_pos hok] at hcommitted
                refine h.ended _ _ hcommitted ?_ ?_ hclosed (hframe .commit)
                · cases hfound : s.found with
                  | true => exact .inl fun write => by cases write <;> simp [written]
                  | false => exact .inr rfl
                · intro number write hmem
                  cases hfound : s.found with
                  | true =>
                      rw [hfound] at hmem
                      simp only [written, if_true, List.mem_cons, Effect.batch.injEq,
                        List.not_mem_nil, or_false] at hmem
                      rcases hmem with h | h | h <;> exact h.1
                  | false =>
                      rw [hfound] at hmem
                      cases hmem
              · next hfailed =>
                rw [if_neg hfailed] at hcommitted
                refine h.within (.inr rfl) hcommitted (hframe .commit) (by decide)
                  (fun hne => absurd rfl hne) fun hne => ?_
                rcases hne with h | h | h <;> cases h
          | rollback =>
              obtain ⟨hclosed, hcommitted⟩ := query_rollback s.pool s.serving fate
              have hends := fun accounts => h.ended accounts []
                (hcommitted.trans (List.append_nil _).symm) (.inr rfl)
                (fun _ _ hmem => absurd hmem List.not_mem_nil) hclosed (hframe .rollback)
              simp only [State.statement, State.advance, State.fail, hpoint]
              split
              · exact hends s.accounts.tail
              · exact hends []

/-- In a run whose connections serve whole batches, every batch has all of its effects or none,
and none leaves a transaction open. -/
theorem batches_atomic (pool : Pool) (hpool : pool.Foreign) (accounts : List Nat)
    (actions : List Action) (hserves : Runs.Meets step Serves (State.init pool accounts) actions)
    (s : State) (hrun : Runs.exec step (State.init pool accounts) actions = some s) : Atomic s := by
  have hstep : ∀ (s : State) (action : Action) (s' : State), Inv s → Serves s action →
      step s action = some s' → Inv s' := fun _ _ _ h hserves hs => h.step hserves hs
  exact (Runs.invariant hstep (.init hpool accounts) hserves hrun).atomic

/-- A pool whose connections are idle. -/
def idle : Pool := ⟨fun _ => none, []⟩

/-- A batch with contacts, all of it on connection 1. -/
theorem batches_atomic_one : ∃ s, Runs.exec step (State.init idle [7])
    [.statement 1 .ok false, .statement 1 .ok true, .statement 1 .ok false, .statement 1 .error false,
      .statement 1 .ok false] = some s ∧ Atomic s := by
  refine ⟨_, rfl, batches_atomic idle ⟨fun _ _ => List.not_mem_nil, fun _ _ h => absurd h (Option.some_ne_none _).symm⟩ [7]
    [.statement 1 .ok false, .statement 1 .ok true, .statement 1 .ok false, .statement 1 .error false,
      .statement 1 .ok false] ?_ _ rfl⟩
  exact .cons rfl rfl (.cons rfl rfl (.cons rfl rfl (.cons rfl rfl (.cons rfl rfl trivial))))

/-- Connection 1 serves the `BEGIN` and connection 2 the rest; the second statement that writes
fails: the tags are deleted, and connection 1 stays in the transaction. -/
theorem half_committed : ∃ actions s, Runs.exec step (State.init idle [7]) actions = some s ∧
    ¬ Atomic s := by
  refine ⟨[.statement 1 .ok false, .statement 2 .ok true, .statement 2 .ok false,
    .statement 2 .error false, .statement 2 .ok false], _, rfl, fun h => ?_⟩
  rcases h.whole 0 (by decide) with hall | hnone
  · exact absurd (hall .contacts) (by decide)
  · exact absurd (hnone .contactsTags) (by decide)

end OpenBms.Contacts.Inactive
