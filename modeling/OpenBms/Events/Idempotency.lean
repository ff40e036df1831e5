/-
# `OpenBms.Events.Idempotency` — processing a message under a lock and a marker

`processWithIdempotency` looks for the marker of a message, takes its lock, looks
again, runs the processor, sets the marker and releases the lock; each of these is
one Redis command, and the commands of any number of deliveries alternate.

| key | set | lives |
| :-- | :-- | :-- |
| `processing_lock:${messageId}` | if absent, to a token of its own | 60 s |
| `processed_message:${messageId}` | after the processor | 3600 s |

**Proved here.**

    the holders of tokens hold the locks they took (`Inv.step`)
    while no lock expires under its holder and no marker
    before it is looked for, a message is completed once,
    can be processed again after a failure, and a lock is
    released by its owner alone (`processed_once`)
-/
import OpenBms.Lib.Runs

namespace OpenBms.Events

/-- Where a call of `processWithIdempotency` stands, with the token of its lock. -/
inductive Stage where
  | isProcessed
  | acquireLock
  | isProcessedAfterLock (token : Nat)
  | processor (token : Nat)
  | markMessageAsProcessed (token : Nat)
  | releaseLock (token : Nat)
  | returned
  deriving DecidableEq

/-- The token of a call between taking its lock and releasing it. -/
def Stage.token? : Stage → Option Nat
  | .isProcessedAfterLock t | .processor t | .markMessageAsProcessed t | .releaseLock t => some t
  | .isProcessed | .acquireLock | .returned => none

/-- A lock: its token and when it expires. -/
structure Lock where
  token : Nat
  expires : Nat
  deriving DecidableEq

/-- Redis, the deliveries by their numbers, and the messages whose processor has
completed; `fresh` is the next of the tokens, which never repeat. -/
structure State where
  now : Nat
  locks : String → Option Lock
  processed : String → Option Nat
  fresh : Nat
  deliveries : Nat → Option (String × Stage)
  completed : List String

def State.init : State := ⟨0, fun _ => none, fun _ => none, 0, fun _ => none, []⟩

def lockTtl : Nat := 60
def processedTtl : Nat := 60 * 60

namespace State

/-- The lock of a message that has not expired. -/
def lock (s : State) (messageId : String) : Option Lock :=
  (s.locks messageId).filter fun l => s.now < l.expires

/-- `EXISTS processed_message:${messageId}`. -/
def isProcessed (s : State) (messageId : String) : Bool :=
  ((s.processed messageId).filter fun expires => s.now < expires).isSome

def goto (s : State) (i : Nat) (messageId : String) (stage : Stage) : State :=
  { s with deliveries := Function.update s.deliveries i (some (messageId, stage)) }

/-- `SET processing_lock:${messageId} token EX 60 NX`, which returned `OK`. -/
def acquire (s : State) (i : Nat) (messageId : String) : State :=
  { s.goto i messageId (.isProcessedAfterLock s.fresh) with
    locks := Function.update s.locks messageId (some ⟨s.fresh, s.now + lockTtl⟩)
    fresh := s.fresh + 1 }

/-- `SET processed_message:${messageId} 1 EX 3600`. -/
def mark (s : State) (i : Nat) (messageId : String) (token : Nat) : State :=
  { s.goto i messageId (.releaseLock token) with
    processed := Function.update s.processed messageId (some (s.now + processedTtl)) }

/-- The script that deletes the lock if the token is its value. -/
def release (s : State) (i : Nat) (messageId : String) (token : Nat) : State :=
  { s.goto i messageId .returned with
    locks := if (s.lock messageId).map Lock.token = some token then
        Function.update s.locks messageId none
      else s.locks }

/-- The processor returns. -/
def complete (s : State) (i : Nat) (messageId : String) (token : Nat) : State :=
  { s.goto i messageId (.markMessageAsProcessed token) with
    completed := s.completed ++ [messageId] }

end State

inductive Event where
  | receive (i : Nat) (messageId : String)
  | command (i : Nat)
  | settle (i : Nat) (ok : Bool)
  | tick (seconds : Nat)
  deriving DecidableEq

/-- One Redis command of a call. -/
def command (s : State) (i : Nat) (messageId : String) : Stage → Option State
  | .isProcessed =>
      some (s.goto i messageId (if s.isProcessed messageId then .returned else .acquireLock))
  | .acquireLock =>
      some (if (s.lock messageId).isSome then s.goto i messageId .returned
        else s.acquire i messageId)
  | .isProcessedAfterLock t =>
      some (s.goto i messageId (if s.isProcessed messageId then .releaseLock t else .processor t))
  | .markMessageAsProcessed t => some (s.mark i messageId t)
  | .releaseLock t => some (s.release i messageId t)
  | .processor _ | .returned => none

/-- A message without an id is refused. -/
def step (s : State) : Event → Option State
  | .receive i messageId =>
      if s.deliveries i = none then
        some (s.goto i messageId (if messageId = "" then .returned else .isProcessed))
      else none
  | .command i => (s.deliveries i).bind fun d => command s i d.1 d.2
  | .settle i ok =>
      match s.deliveries i with
      | some (messageId, .processor t) =>
          some (if ok then s.complete i messageId t else s.goto i messageId (.releaseLock t))
      | _ => none
  | .tick seconds => some { s with now := s.now + seconds }

/-! ## Timing -/

/-- No processing outlives its lock, and whoever looks for a marker that was set
comes within its lifetime. -/
def InTime (s : State) : Event → Prop
  | .tick seconds => ∀ i messageId stage l, s.deliveries i = some (messageId, stage) →
      stage.token? ≠ none → s.locks messageId = some l → s.now + seconds < l.expires
  | .command i => ∀ messageId stage expires, s.deliveries i = some (messageId, stage) →
      stage = .isProcessed ∨ stage.token? ≠ none → s.processed messageId = some expires →
      s.now < expires
  | _ => True

/-! ## The invariant -/

structure Inv (s : State) : Prop where
  fresh : ∀ i m stage t, s.deliveries i = some (m, stage) → stage.token? = some t → t < s.fresh
  owner : ∀ i j m m' stage stage' t, s.deliveries i = some (m, stage) →
    s.deliveries j = some (m', stage') → stage.token? = some t → stage'.token? = some t → i = j
  held : ∀ i m stage t, s.deliveries i = some (m, stage) → stage.token? = some t →
    ∃ expires, s.locks m = some ⟨t, expires⟩ ∧ s.now < expires
  locked : ∀ m l, s.locks m = some l → s.now < l.expires →
    ∃ i stage, s.deliveries i = some (m, stage) ∧ stage.token? = some l.token
  processing : ∀ i m t, s.deliveries i = some (m, .processor t) → m ∉ s.completed
  marked : ∀ m, s.processed m ≠ none → m ∈ s.completed
  marking : ∀ i m t, s.deliveries i = some (m, .markMessageAsProcessed t) → m ∈ s.completed
  unmarked : ∀ m ∈ s.completed, s.processed m ≠ none ∨
    ∃ i t, s.deliveries i = some (m, .markMessageAsProcessed t)
  once : s.completed.Nodup

theorem Inv.init : Inv State.init where
  fresh := fun _ _ _ _ h => by cases h
  owner := fun _ _ _ _ _ _ _ h => by cases h
  held := fun _ _ _ _ h => by cases h
  locked := fun _ _ h => by cases h
  processing := fun _ _ _ h => by cases h
  marked := fun _ h => absurd rfl h
  marking := fun _ _ _ h => by cases h
  unmarked := fun _ h => by cases h
  once := List.nodup_nil

section
variable {s s' : State} {e : Event} {i : Nat} {m : String} {stage stage' : Stage} {t : Nat}

theorem State.goto_deliveries {j : Nat} {d : String × Stage} :
    (s.goto i m stage).deliveries j = some d ↔
      j = i ∧ d = (m, stage) ∨ j ≠ i ∧ s.deliveries j = some d := by
  simp only [State.goto, Function.update_apply]
  split
  · rename_i hji
    simp only [hji, Option.some.injEq, true_and, ne_eq, not_true_eq_false, false_and, or_false]
    exact eq_comm
  · rename_i hji
    simp only [hji, false_and, ne_eq, not_false_eq_true, true_and, false_or]

/-- Two calls at work on one message are one. -/
theorem Inv.same_message (h : Inv s) {j : Nat} {t' : Nat} (hi : s.deliveries i = some (m, stage))
    (ht : stage.token? = some t) (hj : s.deliveries j = some (m, stage'))
    (ht' : stage'.token? = some t') : i = j ∧ t = t' := by
  obtain ⟨x, hx, _⟩ := h.held i m stage t hi ht
  obtain ⟨y, hy, _⟩ := h.held j m stage' t' hj ht'
  have heq := hx.symm.trans hy
  simp only [Option.some.injEq, Lock.mk.injEq] at heq
  obtain ⟨rfl, _⟩ := heq
  exact ⟨h.owner i j m m stage stage' t hi hj ht ht', rfl⟩

/-- The part of the invariant that is about tokens and locks. -/
structure Owned (s : State) : Prop where
  fresh : ∀ i m stage t, s.deliveries i = some (m, stage) → stage.token? = some t → t < s.fresh
  owner : ∀ i j m m' stage stage' t, s.deliveries i = some (m, stage) →
    s.deliveries j = some (m', stage') → stage.token? = some t → stage'.token? = some t → i = j
  held : ∀ i m stage t, s.deliveries i = some (m, stage) → stage.token? = some t →
    ∃ expires, s.locks m = some ⟨t, expires⟩ ∧ s.now < expires
  locked : ∀ m l, s.locks m = some l → s.now < l.expires →
    ∃ i stage, s.deliveries i = some (m, stage) ∧ stage.token? = some l.token

theorem Inv.owned (h : Inv s) : Owned s :=
  ⟨h.fresh, h.owner, h.held, h.locked⟩

/-- A call that goes on with the token it has leaves the tokens and locks as they were. -/
theorem Owned.goto (h : Owned s) (hi : s.deliveries i = some (m, stage))
    (ht : stage'.token? = stage.token?) : Owned (s.goto i m stage') := by
  -- the deliveries after the step are those before it, up to the stage of `i`
  have hback : ∀ {j m' st}, (s.goto i m stage').deliveries j = some (m', st) →
      ∃ st₀, s.deliveries j = some (m', st₀) ∧ st₀.token? = st.token? := by
    intro j m' st hj
    rcases State.goto_deliveries.mp hj with ⟨rfl, hd⟩ | ⟨_, hd⟩
    · cases hd
      exact ⟨stage, hi, ht.symm⟩
    · exact ⟨st, hd, rfl⟩
  refine ⟨?_, ?_, ?_, ?_⟩
  · intro j m' st t' hj htok
    obtain ⟨st₀, hj₀, h₀⟩ := hback hj
    exact h.fresh j m' st₀ t' hj₀ (h₀.trans htok)
  · intro j k m₁ m₂ st₁ st₂ t' hj hk h₁ h₂
    obtain ⟨st₁', hj₀, h₁'⟩ := hback hj
    obtain ⟨st₂', hk₀, h₂'⟩ := hback hk
    exact h.owner j k m₁ m₂ st₁' st₂' t' hj₀ hk₀ (h₁'.trans h₁) (h₂'.trans h₂)
  · intro j m' st t' hj htok
    obtain ⟨st₀, hj₀, h₀⟩ := hback hj
    exact h.held j m' st₀ t' hj₀ (h₀.trans htok)
  · intro m' l hl hlive
    obtain ⟨j, st, hj, htok⟩ := h.locked m' l hl hlive
    by_cases hji : j = i
    · subst hji
      cases hi.symm.trans hj
      exact ⟨j, stage', State.goto_deliveries.mpr (.inl ⟨rfl, rfl⟩), ht.trans htok⟩
    · exact ⟨j, st, State.goto_deliveries.mpr (.inr ⟨hji, hj⟩), htok⟩

/-- A call that is not about to set a marker can move: the markers under way stay. -/
theorem Inv.unmarked_goto (h : Inv s) (hi : s.deliveries i = some (m, stage))
    (hmark : ∀ t, stage = .markMessageAsProcessed t → s.processed m ≠ none) :
    ∀ m' ∈ s.completed, s.processed m' ≠ none ∨
      ∃ j t, (s.goto i m stage').deliveries j = some (m', .markMessageAsProcessed t) := by
  intro m' hm'
  rcases h.unmarked m' hm' with hp | ⟨j, t', hj⟩
  · exact .inl hp
  · by_cases hji : j = i
    · subst hji
      cases hi.symm.trans hj
      exact .inl (hmark t' rfl)
    · exact .inr ⟨j, t', State.goto_deliveries.mpr (.inr ⟨hji, hj⟩)⟩

/-- A call goes on with the token it has. -/
theorem Inv.goto (h : Inv s) (hi : s.deliveries i = some (m, stage))
    (ht : stage'.token? = stage.token?)
    (hproc : ∀ t, stage' = .processor t → m ∉ s.completed)
    (hmarking : ∀ t, stage' ≠ .markMessageAsProcessed t)
    (hmark : ∀ t, stage = .markMessageAsProcessed t → s.processed m ≠ none) :
    Inv (s.goto i m stage') := by
  have howned := h.owned.goto hi ht
  refine ⟨howned.fresh, howned.owner, howned.held, howned.locked, ?_, h.marked, ?_,
    h.unmarked_goto hi hmark, h.once⟩
  · intro j m' t' hj
    rcases State.goto_deliveries.mp hj with ⟨rfl, hd⟩ | ⟨_, hd⟩
    · cases hd
      exact hproc t' rfl
    · exact h.processing j m' t' hd
  · intro j m' t' hj
    rcases State.goto_deliveries.mp hj with ⟨rfl, hd⟩ | ⟨_, hd⟩
    · cases hd
      exact absurd rfl (hmarking t')
    · exact h.marking j m' t' hd

theorem lock_isSome {s : State} {m : String} :
    (s.lock m).isSome = true ↔ ∃ l, s.locks m = some l ∧ s.now < l.expires := by
  simp only [State.lock, Option.isSome_iff_exists, Option.filter_eq_some_iff, decide_eq_true_eq]

theorem State.acquire_locks : (s.acquire i m).locks =
    Function.update s.locks m (some ⟨s.fresh, s.now + lockTtl⟩) := rfl

theorem State.mark_processed : (s.mark i m t).processed =
    Function.update s.processed m (some (s.now + processedTtl)) := rfl

/-- Another call comes to have a fresh token, on a message nobody works on. -/
theorem Inv.acquire (h : Inv s) (hi : s.deliveries i = some (m, .acquireLock))
    (hfree : ¬ (s.lock m).isSome = true) : Inv (s.acquire i m) := by
  have hold : ∀ {j m' st t'}, j ≠ i → s.deliveries j = some (m', st) → st.token? = some t' →
      m' ≠ m := by
    rintro j m' st t' _ hj htok rfl
    obtain ⟨x, hx, hlive⟩ := h.held j m' st t' hj htok
    exact hfree (lock_isSome.mpr ⟨_, hx, hlive⟩)
  have hcases : ∀ {j m' st}, (s.acquire i m).deliveries j = some (m', st) →
      j = i ∧ m' = m ∧ st = .isProcessedAfterLock s.fresh ∨ j ≠ i ∧ s.deliveries j = some (m', st) := by
    intro j m' st hj
    rcases State.goto_deliveries.mp hj with ⟨rfl, hd⟩ | hd
    · cases hd
      exact .inl ⟨rfl, rfl, rfl⟩
    · exact .inr hd
  refine ⟨?_, ?_, ?_, ?_, ?_, h.marked, ?_,
    h.unmarked_goto hi (fun _ hst => by cases hst), h.once⟩
  · intro j m' st t' hj htok
    rcases hcases hj with ⟨rfl, rfl, rfl⟩ | ⟨_, hj⟩
    · cases htok
      exact Nat.lt_succ_self _
    · exact Nat.lt_succ_of_lt (h.fresh j m' st t' hj htok)
  · intro j k m₁ m₂ st₁ st₂ t' hj hk h₁ h₂
    rcases hcases hj with ⟨rfl, rfl, rfl⟩ | ⟨_, hj'⟩
    · rcases hcases hk with ⟨rfl, rfl, rfl⟩ | ⟨_, hk'⟩
      · rfl
      · cases h₁
        exact absurd (h.fresh k m₂ st₂ _ hk' h₂) (lt_irrefl _)
    · rcases hcases hk with ⟨rfl, rfl, rfl⟩ | ⟨_, hk'⟩
      · cases h₂
        exact absurd (h.fresh j m₁ st₁ _ hj' h₁) (lt_irrefl _)
      · exact h.owner j k m₁ m₂ st₁ st₂ t' hj' hk' h₁ h₂
  · intro j m' st t' hj htok
    rcases hcases hj with ⟨rfl, rfl, rfl⟩ | ⟨hji, hj⟩
    · cases htok
      exact ⟨s.now + lockTtl, Function.update_self .., Nat.lt_add_of_pos_right (by decide)⟩
    · obtain ⟨x, hx, hlive⟩ := h.held j m' st t' hj htok
      exact ⟨x, (Function.update_of_ne (hold hji hj htok) ..).trans hx, hlive⟩
  · intro m' l hl hlive
    by_cases hm : m' = m
    · subst hm
      rw [State.acquire_locks, Function.update_self] at hl
      cases hl
      exact ⟨i, _, State.goto_deliveries.mpr (.inl ⟨rfl, rfl⟩), rfl⟩
    · rw [State.acquire_locks, Function.update_of_ne hm] at hl
      obtain ⟨j, st, hj, htok⟩ := h.locked m' l hl hlive
      have hji : j ≠ i := by
        rintro rfl
        cases hi.symm.trans hj
        exact hm rfl
      exact ⟨j, st, State.goto_deliveries.mpr (.inr ⟨hji, hj⟩), htok⟩
  · intro j m' t' hj
    rcases hcases hj with ⟨_, _, hst⟩ | ⟨_, hj⟩
    · cases hst
    · exact h.processing j m' t' hj
  · intro j m' t' hj
    rcases hcases hj with ⟨_, _, hst⟩ | ⟨_, hj⟩
    · cases hst
    · exact h.marking j m' t' hj

theorem Inv.complete (h : Inv s) (hi : s.deliveries i = some (m, .processor t)) :
    Inv (s.complete i m t) := by
  have hnew := h.processing i m t hi
  have howned := h.owned.goto hi
    (show (Stage.markMessageAsProcessed t).token? = (Stage.processor t).token? from rfl)
  refine ⟨howned.fresh, howned.owner, howned.held, howned.locked, ?_, ?_, ?_, ?_, ?_⟩
  · intro j m' t' hj hmem
    rcases State.goto_deliveries.mp hj with ⟨_, hd⟩ | ⟨hji, hj'⟩
    · cases hd
    · rcases List.mem_append.mp hmem with hmem | hmem
      · exact h.processing j m' t' hj' hmem
      · obtain rfl := List.mem_singleton.mp hmem
        exact hji (h.same_message hj' rfl hi rfl).1
  · exact fun m' hm' => List.mem_append_left _ (h.marked m' hm')
  · intro j m' t' hj
    rcases State.goto_deliveries.mp hj with ⟨_, hd⟩ | ⟨_, hj'⟩
    · cases hd
      exact List.mem_append_right _ (List.mem_singleton_self _)
    · exact List.mem_append_left _ (h.marking j m' t' hj')
  · intro m' hm'
    rcases List.mem_append.mp hm' with hm' | hm'
    · exact h.unmarked_goto hi (fun _ hst => by cases hst) m' hm'
    · obtain rfl := List.mem_singleton.mp hm'
      exact .inr ⟨i, t, State.goto_deliveries.mpr (.inl ⟨rfl, rfl⟩)⟩
  · exact h.once.append (List.nodup_singleton m) (List.disjoint_singleton.mpr hnew)

/-- A marker is set on a message that is completed. -/
theorem Inv.remember (h : Inv s) (hmem : m ∈ s.completed) {f : String → Option Nat} {x : Nat}
    (hf : f = Function.update s.processed m (some x)) : Inv { s with processed := f } := by
  subst hf
  refine ⟨h.fresh, h.owner, h.held, h.locked, h.processing, ?_, h.marking, ?_, h.once⟩
  · intro m' hm'
    by_cases heq : m' = m
    · exact heq ▸ hmem
    · refine h.marked m' fun hnone => hm' ?_
      exact (Function.update_of_ne heq ..).trans hnone
  · intro m' hm'
    rcases h.unmarked m' hm' with hp | hj
    · refine .inl fun hnone => hp ?_
      by_cases heq : m' = m
      · subst heq
        simp only [Function.update_self, reduceCtorEq] at hnone
      · exact (Function.update_of_ne heq ..).symm.trans hnone
    · exact .inr hj

theorem Inv.mark (h : Inv s) (hi : s.deliveries i = some (m, .markMessageAsProcessed t)) :
    Inv (s.mark i m t) := by
  have hremember := h.remember (h.marking i m t hi) (State.mark_processed (i := i) (t := t))
  have htoken : (Stage.releaseLock t).token? = (Stage.markMessageAsProcessed t).token? := rfl
  refine hremember.goto hi htoken (fun _ hst => by cases hst)
    (fun _ hst => by cases hst) fun _ _ hnone => ?_
  simp only [State.mark_processed, Function.update_self, reduceCtorEq] at hnone

theorem Inv.lock_token (h : Inv s) (hi : s.deliveries i = some (m, stage))
    (ht : stage.token? = some t) : (s.lock m).map Lock.token = some t := by
  obtain ⟨x, hx, hlive⟩ := h.held i m stage t hi ht
  simp only [State.lock, hx, Option.filter_some, hlive, decide_true, if_true, Option.map_some]

theorem Inv.release (h : Inv s) (hi : s.deliveries i = some (m, .releaseLock t)) :
    Inv (s.release i m t) := by
  have hlocks : (s.release i m t).locks = Function.update s.locks m none :=
    if_pos (h.lock_token hi rfl)
  have hcases : ∀ {j m' st}, (s.release i m t).deliveries j = some (m', st) →
      st = .returned ∨ j ≠ i ∧ s.deliveries j = some (m', st) := by
    intro j m' st hj
    rcases State.goto_deliveries.mp hj with ⟨_, hd⟩ | hd
    · cases hd
      exact .inl rfl
    · exact .inr hd
  have hold : ∀ {j m' st t'}, j ≠ i → s.deliveries j = some (m', st) → st.token? = some t' →
      m' ≠ m := by
    rintro j m' st t' hji hj htok rfl
    exact hji (h.same_message hj htok hi rfl).1
  refine ⟨?_, ?_, ?_, ?_, ?_, h.marked, ?_,
    h.unmarked_goto hi (fun _ hst => by cases hst), h.once⟩
  · intro j m' st t' hj htok
    rcases hcases hj with rfl | ⟨_, hj⟩
    · cases htok
    · exact h.fresh j m' st t' hj htok
  · intro j k m₁ m₂ st₁ st₂ t' hj hk h₁ h₂
    rcases hcases hj with rfl | ⟨_, hj⟩
    · cases h₁
    · rcases hcases hk with rfl | ⟨_, hk⟩
      · cases h₂
      · exact h.owner j k m₁ m₂ st₁ st₂ t' hj hk h₁ h₂
  · intro j m' st t' hj htok
    rcases hcases hj with rfl | ⟨hji, hj⟩
    · cases htok
    · obtain ⟨x, hx, hlive⟩ := h.held j m' st t' hj htok
      refine ⟨x, ?_, hlive⟩
      rw [hlocks, Function.update_of_ne (hold hji hj htok)]
      exact hx
  · intro m' l hl hlive
    rw [hlocks] at hl
    by_cases hm : m' = m
    · subst hm
      rw [Function.update_self] at hl
      cases hl
    · rw [Function.update_of_ne hm] at hl
      obtain ⟨j, st, hj, htok⟩ := h.locked m' l hl hlive
      have hji : j ≠ i := by
        rintro rfl
        cases hi.symm.trans hj
        exact hm rfl
      exact ⟨j, st, State.goto_deliveries.mpr (.inr ⟨hji, hj⟩), htok⟩
  · intro j m' t' hj
    rcases hcases hj with hst | ⟨_, hj⟩
    · cases hst
    · exact h.processing j m' t' hj
  · intro j m' t' hj
    rcases hcases hj with hst | ⟨_, hj⟩
    · cases hst
    · exact h.marking j m' t' hj

theorem Inv.receive (h : Inv s) (hi : s.deliveries i = none) (hst : stage.token? = none) :
    Inv (s.goto i m stage) := by
  have hcases : ∀ {j m' st t'}, (s.goto i m stage).deliveries j = some (m', st) →
      st.token? = some t' → s.deliveries j = some (m', st) := by
    intro j m' st t' hj htok
    rcases State.goto_deliveries.mp hj with ⟨_, hd⟩ | ⟨_, hd⟩
    · cases hd
      cases hst.symm.trans htok
    · exact hd
  have hfwd : ∀ {j d}, s.deliveries j = some d → (s.goto i m stage).deliveries j = some d := by
    intro j d hj
    refine State.goto_deliveries.mpr (.inr ⟨?_, hj⟩)
    rintro rfl
    cases hi.symm.trans hj
  refine ⟨?_, ?_, ?_, ?_, ?_, h.marked, ?_, ?_, h.once⟩
  · exact fun j m' st t' hj htok => h.fresh j m' st t' (hcases hj htok) htok
  · exact fun j k m₁ m₂ st₁ st₂ t' hj hk h₁ h₂ =>
      h.owner j k m₁ m₂ st₁ st₂ t' (hcases hj h₁) (hcases hk h₂) h₁ h₂
  · exact fun j m' st t' hj htok => h.held j m' st t' (hcases hj htok) htok
  · intro m' l hl hlive
    obtain ⟨j, st, hj, htok⟩ := h.locked m' l hl hlive
    exact ⟨j, st, hfwd hj, htok⟩
  · exact fun j m' t' hj => h.processing j m' t' (hcases hj rfl)
  · exact fun j m' t' hj => h.marking j m' t' (hcases hj rfl)
  · intro m' hm'
    rcases h.unmarked m' hm' with hp | ⟨j, t', hj⟩
    · exact .inl hp
    · exact .inr ⟨j, t', hfwd hj⟩

theorem Inv.tick (h : Inv s) {seconds : Nat} (htime : InTime s (.tick seconds)) :
    Inv { s with now := s.now + seconds } := by
  refine ⟨h.fresh, h.owner, ?_, ?_, h.processing, h.marked, h.marking, h.unmarked, h.once⟩
  · intro j m' st t' hj htok
    obtain ⟨x, hx, _⟩ := h.held j m' st t' hj htok
    exact ⟨x, hx, htime j m' st _ hj (by rw [htok]; exact Option.some_ne_none _) hx⟩
  · intro m' l hl hlive
    exact h.locked m' l hl (lt_of_le_of_lt (Nat.le_add_right _ _) hlive)

/-- Nothing that is completed looks unprocessed to the holder of its lock. -/
theorem Inv.not_completed (h : Inv s) (hi : s.deliveries i = some (m, .isProcessedAfterLock t))
    (htime : InTime s (.command i)) (hno : ¬ s.isProcessed m = true) : m ∉ s.completed := by
  intro hmem
  rcases h.unmarked m hmem with hp | ⟨j, t', hj⟩
  · obtain ⟨expires, hexp⟩ := Option.ne_none_iff_exists'.mp hp
    have hlive := htime m _ expires hi (.inr (Option.some_ne_none t)) hexp
    refine hno ?_
    simp only [State.isProcessed, hexp, Option.filter_some, hlive, decide_true, if_true,
      Option.isSome_some]
  · obtain ⟨rfl, _⟩ := h.same_message hj rfl hi rfl
    cases hi.symm.trans hj

theorem Inv.command (h : Inv s) (hi : s.deliveries i = some (m, stage))
    (htime : InTime s (.command i)) (hs : command s i m stage = some s') : Inv s' := by
  cases stage with
  | isProcessed =>
      cases hs
      refine h.goto hi ?_ (fun _ hst => ?_) (fun _ hst => ?_) (fun _ hst => by cases hst)
      · split <;> rfl
      · split at hst <;> cases hst
      · split at hst <;> cases hst
  | acquireLock =>
      cases hs
      by_cases hlock : (s.lock m).isSome = true
      · rw [if_pos hlock]
        exact h.goto hi rfl (fun _ hst => by cases hst) (fun _ hst => by cases hst)
          (fun _ hst => by cases hst)
      · rw [if_neg hlock]
        exact h.acquire hi hlock
  | isProcessedAfterLock t =>
      cases hs
      by_cases hdone : s.isProcessed m = true
      · rw [if_pos hdone]
        exact h.goto hi rfl (fun _ hst => by cases hst) (fun _ hst => by cases hst)
          (fun _ hst => by cases hst)
      · rw [if_neg hdone]
        exact h.goto hi rfl (fun _ _ => h.not_completed hi htime hdone)
          (fun _ hst => by cases hst) (fun _ hst => by cases hst)
  | processor t => cases hs
  | markMessageAsProcessed t =>
      cases hs
      exact h.mark hi
  | releaseLock t =>
      cases hs
      exact h.release hi
  | returned => cases hs

theorem Inv.step (h : Inv s) (htime : InTime s e) (hs : Events.step s e = some s') : Inv s' := by
  cases e with
  | receive i m =>
      simp only [Events.step] at hs
      split at hs
      · rename_i hi
        cases hs
        exact h.receive hi (by split <;> rfl)
      · cases hs
  | command i =>
      obtain ⟨⟨m, stage⟩, hi, hs⟩ := Option.bind_eq_some_iff.mp hs
      exact h.command hi htime hs
  | settle i ok =>
      simp only [Events.step] at hs
      split at hs
      · rename_i m t hi
        cases hs
        cases ok with
        | true => exact h.complete hi
        | false =>
            exact h.goto hi rfl (fun _ hst => by cases hst) (fun _ hst => by cases hst)
              (fun _ hst => by cases hst)
      · cases hs
  | tick seconds =>
      cases hs
      exact h.tick htime

/-! ## What a run in time does -/

theorem Inv.releases (h : Inv s) (hs : Events.step s e = some s') {l : Lock}
    (hl : s.lock m = some l) (hne : s'.locks m ≠ s.locks m) :
    ∃ i, e = .command i ∧ s.deliveries i = some (m, .releaseLock l.token) := by
  cases e with
  | receive i m' =>
      simp only [Events.step] at hs
      split at hs
      · cases hs
        exact absurd rfl hne
      · cases hs
  | command i =>
      obtain ⟨⟨m', stage⟩, hi, hs⟩ := Option.bind_eq_some_iff.mp hs
      cases stage with
      | acquireLock =>
          cases hs
          by_cases hlock : (s.lock m').isSome = true
          · rw [if_pos hlock] at hne
            exact absurd rfl hne
          · rw [if_neg hlock, State.acquire_locks] at hne
            have hm : m ≠ m' := by
              rintro rfl
              exact hlock (by rw [hl]; rfl)
            exact absurd (Function.update_of_ne hm ..) hne
      | releaseLock t =>
          cases hs
          have hlocks : (s.release i m' t).locks = Function.update s.locks m' none :=
            if_pos (h.lock_token hi rfl)
          rw [hlocks] at hne
          have hm : m = m' := by
            by_contra hm
            exact hne (Function.update_of_ne hm ..)
          subst hm
          have htok := h.lock_token hi rfl
          rw [hl] at htok
          cases htok
          exact ⟨i, rfl, hi⟩
      | processor t => cases hs
      | returned => cases hs
      | _ =>
          cases hs
          exact absurd rfl hne
  | settle i ok =>
      simp only [Events.step] at hs
      split at hs
      · cases hs
        cases ok <;> exact absurd rfl hne
      · cases hs
  | tick seconds =>
      cases hs
      exact absurd rfl hne

theorem State.goto_self (s : State) (i : Nat) (m : String) (stage : Stage) :
    (s.goto i m stage).deliveries i = some (m, stage) :=
  Function.update_self ..

theorem step_command (hi : s.deliveries i = some (m, stage)) :
    Events.step s (.command i) = Events.command s i m stage := by
  simp only [Events.step, hi, Option.bind_some]

/-- A message that is not completed and that nobody works on gets to its processor. -/
theorem Inv.processes (h : Inv s) (hm : m ≠ "") (hnew : m ∉ s.completed)
    (hidle : ∀ j stage, s.deliveries j = some (m, stage) → stage.token? = none)
    (hi : s.deliveries i = none) :
    ∃ s', Runs.exec Events.step s [.receive i m, .command i, .command i, .command i] = some s' ∧
      s'.deliveries i = some (m, .processor s.fresh) := by
  have hprocessed : s.processed m = none := by
    by_contra hp
    exact hnew (h.marked m hp)
  have hlock : s.lock m = none := by
    by_contra hl
    obtain ⟨l, hl, hlive⟩ := lock_isSome.mp (Option.isSome_iff_ne_none.mpr hl)
    obtain ⟨j, st, hj, htok⟩ := h.locked m l hl hlive
    rw [hidle j st hj] at htok
    cases htok
  have hno : s.isProcessed m = false := by
    simp only [State.isProcessed, hprocessed, Option.filter_none, Option.isSome_none]
  have hreceive : Events.step s (.receive i m) = some (s.goto i m .isProcessed) := by
    simp only [Events.step, hi, if_true, hm, if_false]
  have hlook : Events.step (s.goto i m .isProcessed) (.command i) =
      some ((s.goto i m .isProcessed).goto i m .acquireLock) := by
    rw [step_command (s.goto_self i m _), Events.command, show
      (s.goto i m .isProcessed).isProcessed m = false from hno]
    rfl
  let s₂ := (s.goto i m .isProcessed).goto i m .acquireLock
  have hacquire : Events.step s₂ (.command i) = some (s₂.acquire i m) := by
    have hfree : ¬ (s₂.lock m).isSome = true := by
      show ¬ (s.lock m).isSome = true
      rw [hlock]
      exact Bool.false_ne_true
    rw [step_command (State.goto_self _ i m _), Events.command, if_neg hfree]
  have hself : (s₂.acquire i m).deliveries i = some (m, .isProcessedAfterLock s.fresh) :=
    State.goto_self _ i m _
  have hagain : Events.step (s₂.acquire i m) (.command i) =
      some ((s₂.acquire i m).goto i m (.processor s.fresh)) := by
    rw [step_command hself, Events.command, show (s₂.acquire i m).isProcessed m = false from hno]
    rfl
  refine ⟨(s₂.acquire i m).goto i m (.processor s.fresh), ?_, State.goto_self _ i m _⟩
  rw [Runs.exec_cons, hreceive, Option.bind_some, Runs.exec_cons, hlook, Option.bind_some,
    Runs.exec_cons, hacquire, Option.bind_some, Runs.exec_cons, hagain, Option.bind_some,
    Runs.exec_nil]

theorem Inv.fails (h : Inv s) (hi : s.deliveries i = some (m, .processor t)) :
    ∃ s', Runs.exec Events.step s [.settle i false, .command i] = some s' ∧ s'.lock m = none ∧
      s'.completed = s.completed := by
  have hsettle : Events.step s (.settle i false) = some (s.goto i m (.releaseLock t)) := by
    simp only [Events.step, hi, Bool.false_eq_true, if_false]
  have hgoto : Inv (s.goto i m (.releaseLock t)) := h.step (e := .settle i false) trivial hsettle
  have hself : (s.goto i m (.releaseLock t)).deliveries i = some (m, .releaseLock t) :=
    s.goto_self i m _
  refine ⟨(s.goto i m (.releaseLock t)).release i m t, ?_, ?_, rfl⟩
  · rw [Runs.exec_cons, hsettle, Option.bind_some, Runs.exec_cons, step_command hself,
      Events.command, Option.bind_some, Runs.exec_nil]
  · have hlocks : ((s.goto i m (.releaseLock t)).release i m t).locks =
        Function.update s.locks m none := if_pos (hgoto.lock_token hself rfl)
    simp only [State.lock, hlocks, Function.update_self, Option.filter_none]

end

/-- In every run in time a message is completed at most once; one that is not can be
processed again, in particular after its processor failed; and a lock is changed by
the release of the one call that has its token. -/
theorem processed_once {s : State} {es : List Event}
    (h : Runs.exec step State.init es = some s)
    (htime : Runs.Meets step InTime State.init es) :
    (∀ m, s.completed.count m ≤ 1) ∧
      (∀ m i, m ≠ "" → m ∉ s.completed →
        (∀ j stage, s.deliveries j = some (m, stage) → stage.token? = none) →
        s.deliveries i = none →
        ∃ s' t, Runs.exec step s [.receive i m, .command i, .command i, .command i] = some s' ∧
          s'.deliveries i = some (m, .processor t)) ∧
      (∀ m i t, s.deliveries i = some (m, .processor t) →
        ∃ s', Runs.exec step s [.settle i false, .command i] = some s' ∧ s'.lock m = none ∧
          s'.completed = s.completed ∧ m ∉ s'.completed) ∧
      ∀ e s', step s e = some s' → ∀ m l, s.lock m = some l → s'.locks m ≠ s.locks m →
        ∃ i, e = .command i ∧ s.deliveries i = some (m, .releaseLock l.token) ∧
          ∀ j m' stage, s.deliveries j = some (m', stage) → stage.token? = some l.token →
            j = i := by
  have hinv : Inv s := Runs.invariant (fun _ _ _ hI hC hs => hI.step hC hs) Inv.init htime h
  refine ⟨?_, ?_, ?_, ?_⟩
  · exact fun m => List.nodup_iff_count_le_one.mp hinv.once m
  · intro m i hm hnew hidle hi
    obtain ⟨s', hs', hproc⟩ := hinv.processes hm hnew hidle hi
    exact ⟨s', _, hs', hproc⟩
  · intro m i t hi
    obtain ⟨s', hs', hlock, hcompleted⟩ := hinv.fails hi
    exact ⟨s', hs', hlock, hcompleted, hcompleted ▸ hinv.processing i m t hi⟩
  · intro e s' hs m l hl hne
    obtain ⟨i, he, hi⟩ := hinv.releases hs hl hne
    exact ⟨i, he, hi, fun j m' stage hj htok => hinv.owner j i m' m stage _ _ hj hi htok rfl⟩

/-- A delivery whose processor fails, and a second one that completes. -/
theorem processed_once_retry :
    ∃ s, Runs.exec step State.init
        [.tick 5, .receive 0 "a", .command 0, .command 0, .command 0, .settle 0 false, .command 0,
          .receive 1 "a", .command 1, .command 1, .command 1, .settle 1 true] = some s ∧
      s.completed = ["a"] ∧ ∀ m, s.completed.count m ≤ 1 := by
  refine ⟨_, rfl, rfl, (processed_once (rfl : Runs.exec step State.init
    [.tick 5, .receive 0 "a", .command 0, .command 0, .command 0, .settle 0 false, .command 0,
      .receive 1 "a", .command 1, .command 1, .command 1, .settle 1 true] = some _) ?_).1⟩
  have hnone : ∀ (s : State) (i : Nat), (∀ m, s.processed m = none) → InTime s (.command i) := by
    intro s i hs m stage expires _ _ hexp
    rw [hs m] at hexp
    cases hexp
  have htick : InTime State.init (.tick 5) := by
    intro i m stage l hi
    cases hi
  refine .cons htick rfl (.cons trivial rfl (.cons (hnone _ _ fun _ => rfl) rfl
    (.cons (hnone _ _ fun _ => rfl) rfl (.cons (hnone _ _ fun _ => rfl) rfl
    (.cons trivial rfl (.cons (hnone _ _ fun _ => rfl) rfl (.cons trivial rfl
    (.cons (hnone _ _ fun _ => rfl) rfl (.cons (hnone _ _ fun _ => rfl) rfl
    (.cons (hnone _ _ fun _ => rfl) rfl (.cons trivial rfl trivial)))))))))))

end OpenBms.Events
