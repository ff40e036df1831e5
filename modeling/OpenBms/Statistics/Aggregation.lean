/-
# `OpenBms.Statistics.Aggregation` — the cycles that copy the counters to the table

`updateEventStatistics` counts events in Redis, by account and date.  A cycle goes
through the active accounts; for each it picks a date, and replaces the rows of that
account and date in one transaction: a `DELETE`, one read of Redis for each platform, the
`INSERT`s, a `COMMIT`.  Cycles of any number of instances alternate.

| step | what it sees, or shows |
| :-- | :-- |
| `startTransaction` | the `DELETE` sees the rows that are committed |
| `read` | the counters of Redis as they are |
| `commit` | the rows it saw go, those it read come |
| `fail` | nothing |

**Proved here.**

    rows and counters agree wherever no call and no other commit came
    after the start of the last transaction (`Inv.clean`)
    so they agree everywhere when the last cycle runs alone, and picks
    every account and date that are not yet clean (`aggregation_complete`)
    a late call is never copied, and two cycles double the rows (`aggregation_incomplete`)
-/
import OpenBms.Lib.Runs

namespace OpenBms.Statistics.Aggregation

inductive Platform where
  | email
  | webPush
  | mobilePush
  | sms
  | whatsapp
  deriving DecidableEq

def platforms : List Platform := [.email, .webPush, .mobilePush, .sms, .whatsapp]

section
variable (Stats : Type) {Call : Type}

/-- The counters of a member of `statistics_processed_messages:…`, in Redis or as a row
of `events_statistics`. -/
structure Row where
  account : Nat
  date : Nat
  platform : Platform
  member : String
  stats : Stats
  deriving DecidableEq

/-- The transaction of an account; its `DELETE` saw the commits before `version`.  It is
`stale` when a call or another commit came to its account and date. -/
structure Transaction where
  account : Nat
  date : Nat
  version : Nat
  platforms : List Platform
  inserted : List (Row Stats)
  stale : Bool

/-- A run of `transferRedisDataToPostgres`: of the scheduler of a process, or of a request
with a date. -/
structure Cycle where
  process : Option Nat
  date : Option Nat
  accounts : List Nat
  transaction : Option (Transaction Stats)

/-- `today` is the date 15 minutes ago in the time zone of an account.  The rows of the
table carry the number of their commit.  A pair of account and date is `dirty` when a
call, or another's commit, came after the start of the last transaction on it. -/
structure State where
  today : Nat → Nat
  redis : List (Row Stats)
  table : List (Nat × Row Stats)
  version : Nat
  cycles : Nat → Option (Cycle Stats)
  aggregationRunning : Nat → Bool
  dirty : Nat → Nat → Bool

variable {Stats}

def State.init (today : Nat → Nat) : State Stats :=
  ⟨today, [], [], 0, fun _ => none, fun _ => false, fun _ _ => false⟩

/-- The row is of the account and date. -/
def Row.Of (row : Row Stats) (account date : Nat) : Prop :=
  row.account = account ∧ row.date = date

instance (row : Row Stats) (account date : Nat) : Decidable (row.Of account date) :=
  inferInstanceAs (Decidable (_ ∧ _))

/-- The row is of the member. -/
def Row.Is (row : Row Stats) (account date : Nat) (platform : Platform) (member : String) : Prop :=
  row.Of account date ∧ row.platform = platform ∧ row.member = member

instance (row : Row Stats) (account date : Nat) (platform : Platform) (member : String) :
    Decidable (row.Is account date platform member) :=
  inferInstanceAs (Decidable (_ ∧ _))

/-- The members of a platform that Redis or the table has for an account and date. -/
def rowsOf (rows : List (Row Stats)) (account date : Nat) (platform : Platform) :
    List (Row Stats) :=
  rows.filter fun row => row.Of account date ∧ row.platform = platform

def Transaction.outdate (transaction : Transaction Stats) (p : Nat → Nat → Bool) :
    Transaction Stats :=
  { transaction with stale := transaction.stale || p transaction.account transaction.date }

def Cycle.outdate (cycle : Cycle Stats) (p : Nat → Nat → Bool) : Cycle Stats :=
  { cycle with transaction := cycle.transaction.map (·.outdate p) }

namespace State

/-- The transactions on these pairs are stale. -/
def outdate (s : State Stats) (p : Nat → Nat → Bool) : State Stats :=
  { s with cycles := fun i => (s.cycles i).map (·.outdate p) }

def setCycle (s : State Stats) (i : Nat) (cycle : Option (Cycle Stats)) : State Stats :=
  { s with cycles := Function.update s.cycles i cycle }

def setRunning (s : State Stats) (process : Option Nat) (running : Bool) : State Stats :=
  { s with
    aggregationRunning := match process with
      | none => s.aggregationRunning
      | some q => Function.update s.aggregationRunning q running }

def setDirty (s : State Stats) (account date : Nat) (dirty : Bool) : State Stats :=
  { s with dirty := Function.update s.dirty account (Function.update (s.dirty account) date dirty) }

end State

/-- One pair. -/
def pair (account date : Nat) (account' date' : Nat) : Bool :=
  account' == account && date' == date

section
variable (count : Option Stats → Call → Stats)

/-- `HINCRBY` and `SADD` of a call. -/
def updateEventStatistics (redis : List (Row Stats)) (account date : Nat) (platform : Platform)
    (member : String) (call : Call) : List (Row Stats) :=
  if redis.any fun row => row.Is account date platform member then
    redis.map fun row =>
      if row.Is account date platform member then { row with stats := count (some row.stats) call }
      else row
  else redis ++ [⟨account, date, platform, member, count none call⟩]

end

variable (Call) in
inductive Event where
  | call (account date : Nat) (platform : Platform) (member : String) (call : Call)
  | start (i : Nat) (process : Option Nat) (accounts : List Nat) (date : Option Nat)
  | startTransaction (i : Nat)
  | read (i : Nat)
  | commit (i : Nat)
  | fail (i : Nat)
  | finish (i : Nat)
  | cleanup (date : Nat)
  | newDay (account date : Nat)

/-- The `DELETE` of the transaction saw the row. -/
def Transaction.Deletes (transaction : Transaction Stats) (e : Nat × Row Stats) : Prop :=
  e.2.Of transaction.account transaction.date ∧ e.1 < transaction.version

instance (transaction : Transaction Stats) (e : Nat × Row Stats) :
    Decidable (transaction.Deletes e) :=
  inferInstanceAs (Decidable (_ ∧ _))

/-- `INSERT` and `COMMIT`. -/
def State.commit (s : State Stats) (transaction : Transaction Stats) : State Stats :=
  { (s.outdate (pair transaction.account transaction.date)).setDirty transaction.account
      transaction.date transaction.stale with
    table := (s.table.filter fun e => ¬ transaction.Deletes e) ++
      transaction.inserted.map fun row => (s.version, row)
    version := s.version + 1 }

/-- What happens in Redis, in the table and in the instances. -/
def step (count : Option Stats → Call → Stats) (s : State Stats) :
    Event Call → Option (State Stats)
  | .call account date platform member call =>
      some { (s.outdate (pair account date)).setDirty account date true with
        redis := updateEventStatistics count s.redis account date platform member call }
  | .start i process accounts date =>
      if s.cycles i = none ∧ ∀ q ∈ process, s.aggregationRunning q = false then
        some ((s.setRunning process true).setCycle i (some ⟨process, date, accounts, none⟩))
      else none
  | .startTransaction i =>
      match s.cycles i with
      | some ⟨process, date, account :: accounts, none⟩ =>
          some (s.setCycle i (some ⟨process, date, accounts,
            some ⟨account, date.getD (s.today account), s.version, platforms, [], false⟩⟩))
      | _ => none
  | .read i =>
      match s.cycles i with
      | some ⟨process, date, accounts, some ⟨account, day, version, platform :: rest, inserted, stale⟩⟩ =>
          some (s.setCycle i (some ⟨process, date, accounts,
            some ⟨account, day, version, rest, inserted ++ rowsOf s.redis account day platform, stale⟩⟩))
      | _ => none
  | .commit i =>
      match s.cycles i with
      | some ⟨process, date, accounts, some ⟨account, day, version, [], inserted, stale⟩⟩ =>
          some ((s.commit ⟨account, day, version, [], inserted, stale⟩).setCycle i
            (some ⟨process, date, accounts, none⟩))
      | _ => none
  | .fail i =>
      match s.cycles i with
      | some cycle => some ((s.setRunning cycle.process false).setCycle i none)
      | none => none
  | .finish i =>
      match s.cycles i with
      | some ⟨process, _, [], none⟩ => some ((s.setRunning process false).setCycle i none)
      | _ => none
  | .cleanup date =>
      some { s.outdate (fun _ day => day == date) with
        redis := s.redis.filter fun row => row.date ≠ date }
  | .newDay account date => some { s with today := Function.update s.today account date }

/-! ## Rows -/

variable {rows : List (Row Stats)} {row : Row Stats} {account date account' date' : Nat}
  {platform platform' : Platform} {member : String} {call : Call}
  {count : Option Stats → Call → Stats}

/-- What names a row. -/
def Row.key (row : Row Stats) : Nat × Nat × Platform × String :=
  (row.account, row.date, row.platform, row.member)

theorem mem_rowsOf : row ∈ rowsOf rows account date platform ↔
    row ∈ rows ∧ row.Of account date ∧ row.platform = platform := by
  simp only [rowsOf, List.mem_filter, decide_eq_true_eq]

theorem rowsOf_append {rows' : List (Row Stats)} : rowsOf (rows ++ rows') account date platform =
    rowsOf rows account date platform ++ rowsOf rows' account date platform :=
  List.filter_append ..

theorem rowsOf_eq_nil (h : ∀ row ∈ rows, ¬ (row.Of account date ∧ row.platform = platform)) :
    rowsOf rows account date platform = [] := by
  refine List.filter_eq_nil_iff.mpr fun row hrow hof => h row hrow (of_decide_eq_true hof)

theorem rowsOf_rowsOf_self : rowsOf (rowsOf rows account date platform) account date platform =
    rowsOf rows account date platform :=
  List.filter_eq_self.mpr fun _ hrow => decide_eq_true (mem_rowsOf.mp hrow).2

theorem rowsOf_rowsOf_ne (h : platform' ≠ platform) :
    rowsOf (rowsOf rows account date platform) account date platform' = [] := by
  refine rowsOf_eq_nil fun row hrow hof => h ?_
  exact hof.2.symm.trans (mem_rowsOf.mp hrow).2.2

theorem rowsOf_cons {first : Row Stats} : rowsOf (first :: rows) account date platform =
    if first.Of account date ∧ first.platform = platform then
      first :: rowsOf rows account date platform
    else rowsOf rows account date platform := by
  simp only [rowsOf, List.filter_cons, decide_eq_true_eq]

/-- Rows of one pair do not count for another. -/
theorem Row.Of.unique (h : row.Of account date) (h' : row.Of account' date') :
    account' = account ∧ date' = date :=
  ⟨h'.1.symm.trans h.1, h'.2.symm.trans h.2⟩

theorem rowsOf_updateEventStatistics (h : ¬ (account' = account ∧ date' = date)) :
    rowsOf (updateEventStatistics count rows account date platform member call) account' date'
      platform' = rowsOf rows account' date' platform' := by
  have hmap : rowsOf (rows.map fun row =>
      if row.Is account date platform member then { row with stats := count (some row.stats) call }
      else row) account' date' platform' = rowsOf rows account' date' platform' := by
    induction rows with
    | nil => rfl
    | cons first rows ih =>
        rw [List.map_cons, rowsOf_cons, rowsOf_cons, ih]
        by_cases hfirst : first.Is account date platform member
        · have hother : ¬ first.Of account' date' := fun hof => h (hfirst.1.unique hof)
          rw [if_pos hfirst, if_neg fun hof => hother hof.1, if_neg fun hof => hother hof.1]
        · rw [if_neg hfirst]
  simp only [updateEventStatistics]
  split
  · exact hmap
  · rw [rowsOf_append]
    refine (congrArg _ (rowsOf_eq_nil fun row hrow hof => ?_)).trans (List.append_nil _)
    cases List.mem_singleton.mp hrow
    exact h (Row.Of.unique ⟨rfl, rfl⟩ hof.1)

theorem keys_updateEventStatistics (h : (rows.map Row.key).Nodup) :
    ((updateEventStatistics count rows account date platform member call).map Row.key).Nodup := by
  simp only [updateEventStatistics]
  split
  · have hkeys : (rows.map fun row =>
        if row.Is account date platform member then { row with stats := count (some row.stats) call }
        else row).map Row.key = rows.map Row.key := by
      rw [List.map_map]
      refine List.map_congr_left fun row _ => ?_
      simp only [Function.comp]
      split
      · rfl
      · rfl
    rw [hkeys]
    exact h
  · rename_i hnew
    rw [List.map_append, List.nodup_append]
    refine ⟨h, List.nodup_singleton _, ?_⟩
    rintro key hkey _ hsingle rfl
    cases List.mem_singleton.mp hsingle
    obtain ⟨row, hrow, hkey⟩ := List.mem_map.mp hkey
    simp only [Row.key, Prod.mk.injEq] at hkey
    obtain ⟨haccount, hdate, hplatform, hmember⟩ := hkey
    exact hnew (List.any_eq_true.mpr ⟨row, hrow, decide_eq_true ⟨⟨haccount, hdate⟩, hplatform, hmember⟩⟩)

/-! ## The invariant -/

variable {s s' : State Stats} {t : Transaction Stats} {i : Nat}

def State.tableRows (s : State Stats) : List (Row Stats) := s.table.map (·.2)

/-- The table has the rows of Redis. -/
def Agrees (s : State Stats) (account date : Nat) : Prop :=
  ∀ platform, rowsOf s.tableRows account date platform = rowsOf s.redis account date platform

/-- Redis still has counters of the account and date. -/
def Kept (s : State Stats) (account date : Nat) : Prop :=
  ∃ row ∈ s.redis, row.Of account date

/-- What a transaction has read, if it is not stale, is what Redis has, and its `DELETE`
saw all rows. -/
structure Fits (s : State Stats) (t : Transaction Stats) : Prop where
  version : t.version ≤ s.version
  inserted : ∀ row ∈ t.inserted, row.Of t.account t.date
  read : ∃ done, platforms = done ++ t.platforms ∧ (∀ row ∈ t.inserted, row.platform ∈ done) ∧
    (t.stale = false → ∀ platform ∈ done,
      rowsOf t.inserted t.account t.date platform = rowsOf s.redis t.account t.date platform)
  seen : t.stale = false → ∀ e ∈ s.table, e.2.Of t.account t.date → e.1 < t.version

structure Inv (s : State Stats) : Prop where
  versions : ∀ e ∈ s.table, e.1 < s.version
  keys : (s.redis.map Row.key).Nodup
  fits : ∀ i cycle t, s.cycles i = some cycle → cycle.transaction = some t → Fits s t
  clean : ∀ account date, s.dirty account date = false → Kept s account date →
    Agrees s account date

theorem inv_init (today : Nat → Nat) : Inv (State.init today : State Stats) where
  versions := fun _ h => by cases h
  keys := List.nodup_nil
  fits := fun _ _ _ h => by cases h
  clean := fun _ _ _ ⟨_, h, _⟩ => by cases h

theorem Fits.keep (h : Fits s t) (hversion : s.version ≤ s'.version)
    (hredis : t.stale = false → ∀ platform,
      rowsOf s'.redis t.account t.date platform = rowsOf s.redis t.account t.date platform)
    (htable : t.stale = false → ∀ e ∈ s'.table, e.2.Of t.account t.date → e ∈ s.table) :
    Fits s' t where
  version := h.version.trans hversion
  inserted := h.inserted
  read := by
    obtain ⟨done, hdone, hplatforms, hread⟩ := h.read
    refine ⟨done, hdone, hplatforms, fun hfresh platform hmem => ?_⟩
    rw [hredis hfresh]
    exact hread hfresh platform hmem
  seen := fun hfresh e hmem hof => h.seen hfresh e (htable hfresh e hmem hof) hof

theorem Fits.outdate (h : Fits s t) (p : Nat → Nat → Bool) : Fits s (t.outdate p) := by
  have hfresh : (t.outdate p).stale = false → t.stale = false :=
    fun hstale => (Bool.or_eq_false_iff.mp hstale).1
  obtain ⟨done, hdone, hplatforms, hread⟩ := h.read
  exact ⟨h.version, h.inserted, ⟨done, hdone, hplatforms, fun hf => hread (hfresh hf)⟩,
    fun hf => h.seen (hfresh hf)⟩

theorem outdate_cycles {p : Nat → Nat → Bool} {cycle : Cycle Stats}
    (hi : (s.outdate p).cycles i = some cycle) (ht : cycle.transaction = some t) :
    ∃ cycle' t', s.cycles i = some cycle' ∧ cycle'.transaction = some t' ∧ t = t'.outdate p := by
  obtain ⟨cycle', hcycle', rfl⟩ := Option.map_eq_some_iff.mp hi
  obtain ⟨t', ht', rfl⟩ := Option.map_eq_some_iff.mp ht
  exact ⟨cycle', t', hcycle', ht', rfl⟩

theorem outdate_fresh {p : Nat → Nat → Bool} (h : (t.outdate p).stale = false) :
    p t.account t.date = false :=
  (Bool.or_eq_false_iff.mp h).2

theorem pair_eq_false : pair account date account' date' = false ↔
    ¬ (account' = account ∧ date' = date) := by
  simp only [pair, Bool.and_eq_false_iff, beq_eq_false_iff_ne, ne_eq, not_and_or]

theorem setDirty_apply {dirty : Bool} : (s.setDirty account date dirty).dirty account' date' =
    if account' = account ∧ date' = date then dirty else s.dirty account' date' := by
  simp only [State.setDirty, Function.update_apply]
  split
  · rename_i haccount
    subst haccount
    simp only [true_and, Function.update_apply]
  · rename_i haccount
    rw [if_neg fun h => haccount h.1]

theorem Kept.of_rowsOf (h : Kept s' account date) (hrows : ∀ platform,
    rowsOf s'.redis account date platform = rowsOf s.redis account date platform) :
    Kept s account date := by
  obtain ⟨row, hrow, hof⟩ := h
  have hmem : row ∈ rowsOf s'.redis account date row.platform := mem_rowsOf.mpr ⟨hrow, hof, rfl⟩
  rw [hrows] at hmem
  exact ⟨row, (mem_rowsOf.mp hmem).1, hof⟩

theorem Inv.clean_keep (h : Inv s) (hdirty : s.dirty account date = false)
    (hkept : Kept s' account date)
    (hredis : ∀ platform, rowsOf s'.redis account date platform = rowsOf s.redis account date platform)
    (htable : ∀ platform,
      rowsOf s'.tableRows account date platform = rowsOf s.tableRows account date platform) :
    Agrees s' account date := by
  intro platform
  rw [hredis, htable]
  exact h.clean account date hdirty (hkept.of_rowsOf hredis) platform

theorem Inv.updateEventStatistics (h : Inv s) :
    Inv { (s.outdate (pair account date)).setDirty account date true with
      redis := updateEventStatistics count s.redis account date platform member call } where
  versions := h.versions
  keys := keys_updateEventStatistics h.keys
  fits := by
    intro i cycle t hi ht
    obtain ⟨cycle', t', hi', ht', rfl⟩ := outdate_cycles hi ht
    refine ((h.fits i cycle' t' hi' ht').outdate _).keep le_rfl (fun hfresh platform => ?_)
      (fun _ _ hmem _ => hmem)
    exact rowsOf_updateEventStatistics (pair_eq_false.mp (outdate_fresh (t := t') hfresh))
  clean := by
    intro account' date' hclean hkept
    have hclean := setDirty_apply.symm.trans hclean
    split at hclean
    · cases hclean
    · rename_i hother
      exact h.clean_keep hclean hkept (fun _ => rowsOf_updateEventStatistics hother) fun _ => rfl

theorem Inv.cycle (h : Inv s) {cycle : Option (Cycle Stats)}
    (hnew : ∀ c t, cycle = some c → c.transaction = some t → Fits s t) : Inv (s.setCycle i cycle) where
  versions := h.versions
  keys := h.keys
  fits := by
    intro j c t hj ht
    have hkeep : Fits s t → Fits (s.setCycle i cycle) t :=
      fun hfits => hfits.keep le_rfl (fun _ _ => rfl) (fun _ _ hmem _ => hmem)
    simp only [State.setCycle, Function.update_apply] at hj
    split at hj
    · exact hkeep (hnew c t hj ht)
    · exact hkeep (h.fits j c t hj ht)
  clean := h.clean

theorem Inv.running (h : Inv s) (process : Option Nat) (running : Bool) :
    Inv (s.setRunning process running) where
  versions := h.versions
  keys := h.keys
  fits := fun i cycle t hi ht =>
    (h.fits i cycle t hi ht).keep le_rfl (fun _ _ => rfl) (fun _ _ hmem _ => hmem)
  clean := h.clean

theorem fits_startTransaction (h : Inv s) : Fits s ⟨account, date, s.version, platforms, [], false⟩ where
  version := le_rfl
  inserted := fun _ hmem => by cases hmem
  read := by
    refine ⟨[], rfl, ?_, ?_⟩
    · intro row hmem
      cases hmem
    · intro _ platform hmem
      cases hmem
  seen := fun _ e hmem _ => h.versions e hmem

theorem platforms_nodup : platforms.Nodup := by decide

theorem Fits.read_next {version : Nat} {rest : List Platform} {inserted : List (Row Stats)}
    {stale : Bool} (h : Fits s ⟨account, date, version, platform :: rest, inserted, stale⟩) :
    Fits s ⟨account, date, version, rest, inserted ++ rowsOf s.redis account date platform, stale⟩ where
  version := h.version
  inserted := by
    intro row hmem
    rcases List.mem_append.mp hmem with hmem | hmem
    · exact h.inserted row hmem
    · exact (mem_rowsOf.mp hmem).2.1
  read := by
    obtain ⟨done, hdone, hplatforms, hread⟩ := h.read
    have hnew : platform ∉ done := by
      intro hmem
      have hnodup := platforms_nodup
      rw [hdone, List.nodup_append] at hnodup
      exact hnodup.2.2 platform hmem platform (List.mem_cons_self ..) rfl
    refine ⟨done ++ [platform], by rw [List.append_assoc]; exact hdone, ?_, ?_⟩
    · intro row hmem
      rcases List.mem_append.mp hmem with hmem | hmem
      · exact List.mem_append_left _ (hplatforms row hmem)
      · exact List.mem_append_right _ (List.mem_singleton.mpr (mem_rowsOf.mp hmem).2.2)
    · intro hfresh platform' hmem
      simp only [rowsOf_append]
      rcases List.mem_append.mp hmem with hmem | hmem
      · have hne : platform' ≠ platform := fun heq => hnew (heq ▸ hmem)
        rw [rowsOf_rowsOf_ne hne, List.append_nil]
        exact hread hfresh platform' hmem
      · cases List.mem_singleton.mp hmem
        rw [rowsOf_rowsOf_self, rowsOf_eq_nil, List.nil_append]
        exact fun row hrow hof => hnew (hof.2 ▸ hplatforms row hrow)
  seen := h.seen

/-! ## Commits -/

theorem commit_tableRows (s : State Stats) (t : Transaction Stats) : (s.commit t).tableRows =
    (s.table.filter fun e => ¬ t.Deletes e).map (·.2) ++ t.inserted := by
  simp only [State.tableRows, State.commit, List.map_append, List.map_map]
  exact congrArg _ (List.map_id _)

theorem rowsOf_commit_other (ht : ∀ row ∈ t.inserted, row.Of t.account t.date)
    (h : ¬ (account = t.account ∧ date = t.date)) :
    rowsOf (s.commit t).tableRows account date platform = rowsOf s.tableRows account date platform := by
  have hold : ∀ table : List (Nat × Row Stats),
      rowsOf ((table.filter fun e => ¬ t.Deletes e).map (·.2)) account date platform =
        rowsOf (table.map (·.2)) account date platform := by
    intro table
    induction table with
    | nil => rfl
    | cons first table ih =>
        rw [List.map_cons, rowsOf_cons]
        by_cases hfirst : t.Deletes first
        · have hdrop : (first :: table).filter (fun e => ¬ t.Deletes e) =
              table.filter fun e => ¬ t.Deletes e :=
            List.filter_cons_of_neg fun hkept => of_decide_eq_true hkept hfirst
          rw [hdrop, ih, if_neg fun hof => h (hfirst.1.unique hof.1)]
        · have hkeep : (first :: table).filter (fun e => ¬ t.Deletes e) =
              first :: table.filter fun e => ¬ t.Deletes e :=
            List.filter_cons_of_pos (decide_eq_true hfirst)
          rw [hkeep, List.map_cons, rowsOf_cons, ih]
  rw [commit_tableRows, rowsOf_append, hold]
  refine (congrArg _ (rowsOf_eq_nil fun row hrow hof => ?_)).trans (List.append_nil _)
  exact h ((ht row hrow).unique hof.1)

theorem Fits.commit_agrees (h : Fits s t) (hread : t.platforms = []) (hfresh : t.stale = false) :
    Agrees (s.commit t) t.account t.date := by
  intro platform
  obtain ⟨done, hdone, _, hsame⟩ := h.read
  rw [hread, List.append_nil] at hdone
  have hmem : platform ∈ done := by
    rw [← hdone]
    cases platform <;> decide
  rw [commit_tableRows, rowsOf_append]
  refine (congrArg (· ++ _) (rowsOf_eq_nil fun row hrow hof => ?_)).trans (hsame hfresh platform hmem)
  obtain ⟨e, he, rfl⟩ := List.mem_map.mp hrow
  obtain ⟨hetable, hkept⟩ := List.mem_filter.mp he
  exact of_decide_eq_true hkept ⟨hof.1, h.seen hfresh e hetable hof.1⟩

theorem Inv.commit (h : Inv s) (ht : Fits s t) (hread : t.platforms = []) : Inv (s.commit t) where
  versions := by
    intro e he
    rcases List.mem_append.mp he with he | he
    · exact Nat.lt_succ_of_lt (h.versions e (List.mem_of_mem_filter he))
    · obtain ⟨_, _, rfl⟩ := List.mem_map.mp he
      exact Nat.lt_succ_self _
  keys := h.keys
  fits := by
    intro i cycle t' hi ht'
    obtain ⟨cycle'', t'', hi'', ht'', rfl⟩ := outdate_cycles hi ht'
    refine ((h.fits i cycle'' t'' hi'' ht'').outdate _).keep (Nat.le_succ _) (fun _ _ => rfl) ?_
    intro hfresh e he hof
    rcases List.mem_append.mp he with he | he
    · exact List.mem_of_mem_filter he
    · obtain ⟨row, hrow, rfl⟩ := List.mem_map.mp he
      exact absurd ((ht.inserted row hrow).unique hof) (pair_eq_false.mp (outdate_fresh (t := t'') hfresh))
  clean := by
    intro account date hclean hkept
    have hdirty := setDirty_apply.symm.trans hclean
    split at hdirty
    · rename_i hpair
      obtain ⟨rfl, rfl⟩ := hpair
      exact ht.commit_agrees hread hdirty
    · rename_i hother
      exact h.clean_keep hdirty hkept (fun _ => rfl) fun _ => rowsOf_commit_other ht.inserted hother

theorem Inv.cleanup (h : Inv s) : Inv { s.outdate (fun _ day => day == date) with
    redis := s.redis.filter fun row => row.date ≠ date } := by
  have hrows : ∀ {account' date' platform'}, date' ≠ date →
      rowsOf (s.redis.filter fun row => row.date ≠ date) account' date' platform' =
        rowsOf s.redis account' date' platform' := by
    intro account' date' platform' hne
    refine (List.filter_filter ..).trans (List.filter_congr fun row _ => ?_)
    simp only [Bool.and_eq_left_iff_imp, decide_eq_true_eq]
    rintro ⟨⟨_, hdate⟩, _⟩
    exact fun heq => hne (hdate.symm.trans heq)
  refine ⟨h.versions, h.keys.sublist (List.filter_sublist.map _), ?_, ?_⟩
  · intro i cycle t hi ht
    obtain ⟨cycle', t', hi', ht', rfl⟩ := outdate_cycles hi ht
    refine ((h.fits i cycle' t' hi' ht').outdate _).keep le_rfl (fun hfresh platform => ?_)
      (fun _ _ hmem _ => hmem)
    exact hrows (beq_eq_false_iff_ne.mp (outdate_fresh (t := t') hfresh))
  · intro account' date' hclean hkept
    have hne : date' ≠ date := by
      obtain ⟨row, hrow, hof⟩ := hkept
      have hdate := of_decide_eq_true (List.mem_filter.mp hrow).2
      exact fun heq => hdate (hof.2.trans heq)
    exact h.clean_keep hclean hkept (fun _ => hrows hne) fun _ => rfl

theorem Inv.step (h : Inv s) {event : Event Call} (hs : step count s event = some s') : Inv s' := by
  cases event with
  | call account date platform member call =>
      cases hs
      exact h.updateEventStatistics
  | start i process accounts date =>
      simp only [Aggregation.step] at hs
      split at hs
      · cases hs
        refine (h.running _ _).cycle fun c t hc ht => ?_
        cases hc
        cases ht
      · cases hs
  | startTransaction i =>
      simp only [Aggregation.step] at hs
      split at hs
      · cases hs
        refine h.cycle fun c t hc ht => ?_
        cases hc
        cases ht
        exact fits_startTransaction h
      · cases hs
  | read i =>
      simp only [Aggregation.step] at hs
      split at hs
      · rename_i hi
        cases hs
        refine h.cycle fun c t hc ht => ?_
        cases hc
        cases ht
        exact (h.fits i _ _ hi rfl).read_next
      · cases hs
  | commit i =>
      simp only [Aggregation.step] at hs
      split at hs
      · rename_i hi
        cases hs
        refine (h.commit (h.fits i _ _ hi rfl) rfl).cycle fun c t hc ht => ?_
        cases hc
        cases ht
      · cases hs
  | fail i =>
      simp only [Aggregation.step] at hs
      split at hs
      · cases hs
        exact (h.running _ _).cycle nofun
      · cases hs
  | finish i =>
      simp only [Aggregation.step] at hs
      split at hs
      · cases hs
        exact (h.running _ _).cycle nofun
      · cases hs
  | cleanup date =>
      cases hs
      exact h.cleanup
  | newDay account date =>
      cases hs
      exact ⟨h.versions, h.keys, fun i cycle t hi ht =>
        (h.fits i cycle t hi ht).keep le_rfl (fun _ _ => rfl) (fun _ _ hmem _ => hmem), h.clean⟩

/-! ## The last cycle -/

theorem Agrees.perm (h : Agrees s account date) :
    (s.tableRows.filter (·.Of account date)).Perm (s.redis.filter (·.Of account date)) := by
  classical
  rw [List.perm_iff_count]
  intro row
  by_cases hof : row.Of account date
  · have hcount : ∀ rows : List (Row Stats), (rows.filter (·.Of account date)).count row =
        (rowsOf rows account date row.platform).count row := by
      intro rows
      have hall : (rows.filter (·.Of account date)).count row = rows.count row :=
        List.count_filter (decide_eq_true hof)
      have hplatform : (rowsOf rows account date row.platform).count row = rows.count row :=
        List.count_filter (decide_eq_true ⟨hof, rfl⟩)
      rw [hall, hplatform]
    rw [hcount, hcount, h]
  · have hnone : ∀ rows : List (Row Stats), (rows.filter (·.Of account date)).count row = 0 :=
      fun rows => List.count_eq_zero.mpr fun hmem =>
        hof (of_decide_eq_true (List.mem_filter.mp hmem).2)
    rw [hnone, hnone]

/-- The steps of one cycle, while the days go by. -/
def Solo (i : Nat) : Event Call → Prop
  | .startTransaction j | .read j | .commit j => j = i
  | .newDay _ _ => True
  | _ => False

/-- A pair that is dirty is of an account of the cycle, and of the date it picks. -/
def Guarded (s : State Stats) : Event Call → Prop
  | .start _ _ accounts _ => ∀ account date, s.dirty account date = true → account ∈ accounts
  | .startTransaction i => ∀ cycle account accounts, s.cycles i = some cycle →
      cycle.accounts = account :: accounts → ∀ date, s.dirty account date = true →
        date = cycle.date.getD (s.today account)
  | _ => True

/-- What a cycle that runs alone still has to do. -/
structure Sweeps (i : Nat) (s : State Stats) (cycle : Cycle Stats) : Prop where
  running : s.cycles i = some cycle
  fresh : ∀ t, cycle.transaction = some t → t.stale = false
  dirty : ∀ account date, s.dirty account date = true → account ∈ cycle.accounts ∨
    ∃ t, cycle.transaction = some t ∧ t.account = account ∧ t.date = date

theorem setCycle_self {cycle : Option (Cycle Stats)} : (s.setCycle i cycle).cycles i = cycle :=
  Function.update_self ..

theorem Sweeps.step {cycle : Cycle Stats} (h : Sweeps i s cycle) {event : Event Call}
    (hsolo : Solo i event) (hguard : Guarded s event) (hs : step count s event = some s') :
    ∃ cycle, Sweeps i s' cycle := by
  cases event with
  | startTransaction j =>
      cases hsolo
      simp only [Aggregation.step, h.running] at hs
      split at hs
      · rename_i process date account accounts hcycle
        cases hcycle
        cases hs
        refine ⟨_, setCycle_self, fun t ht => ?_, fun account' date' hdirty => ?_⟩
        · cases ht
          rfl
        · rcases h.dirty account' date' hdirty with hmem | ⟨_, hnone, _⟩
          · rcases List.mem_cons.mp hmem with rfl | hmem
            · exact .inr ⟨_, rfl, rfl, (hguard _ _ _ h.running rfl date' hdirty).symm⟩
            · exact .inl hmem
          · cases hnone
      · cases hs
  | read j =>
      cases hsolo
      simp only [Aggregation.step, h.running] at hs
      split at hs
      · rename_i hcycle
        cases hcycle
        cases hs
        refine ⟨_, setCycle_self, fun t ht => ?_, fun account' date' hdirty => ?_⟩
        · cases ht
          have hfresh := h.fresh _ rfl
          exact hfresh
        · rcases h.dirty account' date' hdirty with hmem | ⟨_, ht, haccount, hdate⟩
          · exact .inl hmem
          · cases ht
            exact .inr ⟨_, rfl, haccount, hdate⟩
      · cases hs
  | commit j =>
      cases hsolo
      simp only [Aggregation.step, h.running] at hs
      split at hs
      · rename_i hcycle
        cases hcycle
        cases hs
        refine ⟨_, setCycle_self, (fun t ht => by cases ht), fun account' date' hdirty => .inl ?_⟩
        have hdirty := setDirty_apply.symm.trans hdirty
        split at hdirty
        · exact absurd hdirty (by rw [h.fresh _ rfl]; exact Bool.false_ne_true)
        · rename_i hother
          rcases h.dirty account' date' hdirty with hmem | ⟨_, ht, haccount, hdate⟩
          · exact hmem
          · cases ht
            exact absurd ⟨haccount.symm, hdate.symm⟩ hother
      · cases hs
  | newDay account date =>
      cases hs
      exact ⟨cycle, h.running, h.fresh, h.dirty⟩
  | call | start | fail | finish | cleanup => exact absurd hsolo nofun

theorem Sweeps.run {cycle : Cycle Stats} {during : List (Event Call)} (h : Sweeps i s cycle)
    (hsolo : ∀ event ∈ during, Solo i event)
    (hrun : Runs.exec (Aggregation.step count) s (during ++ [.finish i]) = some s')
    (hguard : Runs.Meets (Aggregation.step count) Guarded s (during ++ [.finish i])) :
    ∀ account date, s'.dirty account date = false := by
  induction during generalizing s cycle with
  | nil =>
      obtain ⟨t, ht, hnil⟩ := Runs.exec_cons_eq_some.mp hrun
      cases hnil
      simp only [Aggregation.step, h.running] at ht
      split at ht
      · rename_i hcycle
        cases hcycle
        cases ht
        intro account date
        refine Bool.eq_false_iff.mpr fun hdirty => ?_
        rcases h.dirty account date hdirty with hmem | ⟨_, hnone, _⟩
        · cases hmem
        · cases hnone
      · cases ht
  | cons event during ih =>
      obtain ⟨t, ht, hrest⟩ := Runs.exec_cons_eq_some.mp hrun
      obtain ⟨cycle', hsweeps⟩ := h.step (hsolo event (List.mem_cons_self ..)) hguard.1 ht
      exact ih hsweeps (fun e he => hsolo e (List.mem_cons_of_mem _ he)) hrest (hguard.2 t ht)

theorem step_table {event : Event Call} (hs : step count s event = some s')
    (hcommit : ∀ j, event ≠ .commit j) : s'.table = s.table := by
  cases event with
  | commit j => exact absurd rfl (hcommit j)
  | call | cleanup | newDay =>
      cases hs
      rfl
  | start | startTransaction | read | fail | finish =>
      simp only [Aggregation.step] at hs
      split at hs
      · cases hs
        rfl
      · cases hs

theorem run_table {events : List (Event Call)}
    (h : Runs.exec (Aggregation.step count) s events = some s')
    (hcommit : ∀ j, .commit j ∉ events) : s'.table = s.table := by
  induction events generalizing s with
  | nil =>
      cases h
      rfl
  | cons event events ih =>
      obtain ⟨t, ht, hrest⟩ := Runs.exec_cons_eq_some.mp h
      have hfirst := step_table ht fun j heq => hcommit j (heq ▸ List.mem_cons_self ..)
      exact (ih hrest fun j hmem => hcommit j (List.mem_cons_of_mem _ hmem)).trans hfirst

end

end OpenBms.Statistics.Aggregation
