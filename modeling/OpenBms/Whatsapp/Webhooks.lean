/-
# `OpenBms.Whatsapp.Webhooks` — the webhooks of a provider and the marker of their body

`receive` of the two webhook controllers takes a marker for the body (`SET NX`),
processes the body, and deletes the marker when that throws.  A delivery that finds the
marker is answered `200` with `skipped: 'duplicate'`.  The requests of any number of
deliveries alternate.

| the delivery that took the marker | the marker | told to the provider |
| :-- | :-- | :-- |
| processes the body | stays for 300 s | `200` |
| throws | is deleted, if `DEL` does not fail | `500` |
| dies with its worker | stays | a broken connection |
| is given up by the provider | stays until it has thrown | a time-out |

**Proved here.**

    while no delivery finds the marker of one that failed or was
    given up, a success the provider was told last is covered by
    the effects or by a delivery it still waits for (`duplicates_covered`)
    a retry is told it is a duplicate of a delivery that was
    given up, or that could not delete its marker (`duplicate_lost`)
-/
import OpenBms.Lib.Runs

namespace OpenBms.Whatsapp.Webhooks

/-- What a delivery is answered. -/
inductive Answer where
  | ok
  | duplicate
  | error
  deriving DecidableEq

/-- Where the request of a delivery stands. -/
inductive Stage where
  | isDuplicate
  | process
  | releaseDedupKey
  | answered (answer : Answer)
  deriving DecidableEq

/-- The marker in Redis: when it expires, and which delivery set it (Redis holds `1`). -/
structure Marker where
  owner : Nat
  expires : Nat
  deriving DecidableEq

/-- `wa:webhook:${source}:${deliveryKey}` by the key of the body, the deliveries by their
numbers, the bodies whose effects are applied, what the provider was last told about a
body, and the deliveries that have failed, or whose answer nobody waits for, without
having applied it. -/
structure State where
  now : Nat
  markers : String → Option Marker
  deliveries : Nat → Option (String × Stage)
  applied : List String
  told : String → Option Answer
  abandoned : List Nat

def State.init : State := ⟨0, fun _ => none, fun _ => none, [], fun _ => none, []⟩

def dedupTtlSeconds : Nat := 300

namespace State

/-- The marker of a body that has not expired. -/
def marker (s : State) (key : String) : Option Marker :=
  (s.markers key).filter fun marker => s.now < marker.expires

def goto (s : State) (i : Nat) (key : String) (stage : Stage) : State :=
  { s with deliveries := Function.update s.deliveries i (some (key, stage)) }

/-- `SET key 1 EX 300 NX`, which set it. -/
def claim (s : State) (i : Nat) (key : String) : State :=
  { s.goto i key .process with
    markers := Function.update s.markers key (some ⟨i, s.now + dedupTtlSeconds⟩) }

/-- The provider hears the answer, or a time-out, unless it waits no longer. -/
def tell (s : State) (i : Nat) (key : String) (answer : Answer) : State :=
  { s with
    told := if i ∈ s.abandoned then s.told else Function.update s.told key (some answer) }

def answer (s : State) (i : Nat) (key : String) (answer : Answer) : State :=
  (s.tell i key answer).goto i key (.answered answer)

def abandon (s : State) (i : Nat) : State := { s with abandoned := s.abandoned ++ [i] }

/-- The body is processed, and answered. -/
def apply (s : State) (i : Nat) (key : String) : State :=
  { s.answer i key .ok with
    applied := s.applied ++ [key]
    abandoned := s.abandoned.filter (· ≠ i) }

/-- `DEL key`, whoever set it. -/
def release (s : State) (i : Nat) (key : String) : State :=
  { s.answer i key .error with markers := Function.update s.markers key none }

end State

/-- Of `isDuplicate`, a command that throws may have been executed. -/
inductive Event where
  | receive (i : Nat) (key : String)
  | isDuplicate (i : Nat)
  | isDuplicateThrows (i : Nat) (executed : Bool)
  | process (i : Nat) (ok : Bool)
  | releaseDedupKey (i : Nat) (ok : Bool)
  | crash (i : Nat)
  | giveUp (i : Nat)
  | tick (seconds : Nat)

/-- What happens to a request; an error of Redis is logged and swallowed. -/
def State.step (s : State) : Event → Option State
  | .receive i key => if s.deliveries i = none then some (s.goto i key .isDuplicate) else none
  | .isDuplicate i =>
      match s.deliveries i with
      | some (key, .isDuplicate) =>
          some (if (s.marker key).isSome then s.answer i key .duplicate
            else s.claim i key)
      | _ => none
  | .isDuplicateThrows i executed =>
      match s.deliveries i with
      | some (key, .isDuplicate) =>
          some (if executed ∧ s.marker key = none then s.claim i key else s.goto i key .process)
      | _ => none
  | .process i ok =>
      match s.deliveries i with
      | some (key, .process) =>
          some (if ok then s.apply i key else s.goto i key .releaseDedupKey)
      | _ => none
  | .releaseDedupKey i ok =>
      match s.deliveries i with
      | some (key, .releaseDedupKey) =>
          some (if ok then s.release i key else (s.answer i key .error).abandon i)
      | _ => none
  | .crash i =>
      match s.deliveries i with
      | some (_, .answered _) => none
      | some (key, _) => some ((s.answer i key .error).abandon i)
      | none => none
  | .giveUp i =>
      match s.deliveries i with
      | some (_, .answered _) => none
      | some (key, _) => some ((s.tell i key .error).abandon i)
      | none => none
  | .tick seconds => some { s with now := s.now + seconds }

/-! ## Covered duplicates -/

/-- No delivery finds a marker whose owner failed or was given up. -/
def Guarded (s : State) : Event → Prop
  | .isDuplicate i => ∀ key marker, s.deliveries i = some (key, .isDuplicate) →
      s.marker key = some marker → marker.owner ∉ s.abandoned
  | _ => True

/-- The delivery is being processed, and the provider will be told if it fails. -/
def State.InFlight (s : State) (i : Nat) (key : String) : Prop :=
  i ∉ s.abandoned ∧ (s.deliveries i = some (key, .process) ∨
    s.deliveries i = some (key, .releaseDedupKey))

/-- The delivery has found no marker for the body. -/
def State.Took (s : State) (i : Nat) (key : String) : Prop :=
  ∃ stage, s.deliveries i = some (key, stage) ∧ stage ≠ .isDuplicate ∧
    stage ≠ .answered .duplicate

structure Inv (s : State) : Prop where
  covered : ∀ key marker, s.marker key = some marker →
    key ∈ s.applied ∨ marker.owner ∈ s.abandoned ∨ s.InFlight marker.owner key
  owned : ∀ key marker, s.markers key = some marker → s.Took marker.owner key
  duplicates : ∀ i key, s.deliveries i = some (key, .answered .duplicate) → ∃ j, s.Took j key
  answered : ∀ i key, s.deliveries i = some (key, .answered .ok) → key ∈ s.applied
  told : ∀ key answer, s.told key = some answer → answer ≠ .error →
    key ∈ s.applied ∨ ∃ j, s.InFlight j key

theorem inv_init : Inv State.init where
  covered := fun _ _ h => by cases h
  owned := fun _ _ h => by cases h
  duplicates := fun _ _ h => by cases h
  answered := fun _ _ h => by cases h
  told := fun _ _ h => by cases h

section
variable {s s' : State} {i : Nat} {key : String} {stage stage' : Stage}

theorem marker_eq_some {marker : Marker} :
    s.marker key = some marker ↔ s.markers key = some marker ∧ s.now < marker.expires := by
  simp only [State.marker, Option.filter_eq_some_iff, decide_eq_true_eq]

theorem Inv.duplicate_covered (h : Inv s) (hi : s.deliveries i = some (key, .isDuplicate))
    (hmarker : (s.marker key).isSome) (hguard : Guarded s (.isDuplicate i)) :
    key ∈ s.applied ∨ ∃ j, j ≠ i ∧ s.InFlight j key := by
  obtain ⟨marker, hmarker⟩ := Option.isSome_iff_exists.mp hmarker
  rcases h.covered key marker hmarker with happlied | habandoned | hflight
  · exact .inl happlied
  · exact absurd habandoned (hguard key marker hi hmarker)
  · refine .inr ⟨marker.owner, ?_, hflight⟩
    rintro rfl
    rcases hflight.2 with hj | hj <;> cases hi.symm.trans hj

/-- When every delivery of a body is told a success, one of them has applied it. -/
theorem Inv.applied_of_answered (h : Inv s) (hi : s.deliveries i = some (key, stage))
    (hall : ∀ j stage, s.deliveries j = some (key, stage) →
      stage = .answered .ok ∨ stage = .answered .duplicate) : key ∈ s.applied := by
  rcases hall i stage hi with rfl | rfl
  · exact h.answered i key hi
  · obtain ⟨j, stage, hj, -, hdup⟩ := h.duplicates i key hi
    rcases hall j stage hj with rfl | rfl
    · exact h.answered j key hj
    · exact absurd rfl hdup

/-- When every delivery of a body is answered, and the last the provider was told is a
success, one of them has applied it. -/
theorem Inv.applied_of_told {answer : Answer} (h : Inv s) (htold : s.told key = some answer)
    (hsuccess : answer ≠ .error)
    (hall : ∀ j stage, s.deliveries j = some (key, stage) → ∃ answer, stage = .answered answer) :
    key ∈ s.applied := by
  rcases h.told key answer htold hsuccess with happlied | ⟨j, -, hj | hj⟩
  · exact happlied
  · obtain ⟨_, heq⟩ := hall j _ hj
    cases heq
  · obtain ⟨_, heq⟩ := hall j _ hj
    cases heq

/-! ## Requests that move -/

/-- A request moves on, with or without a marker of its own; what was applied stays so. -/
structure Moves (s s' : State) (i : Nat) (key : String) (stage stage' : Stage) : Prop where
  before : s.deliveries i = some (key, stage)
  after : s'.deliveries = Function.update s.deliveries i (some (key, stage'))
  now : s'.now = s.now
  applied : ∀ k ∈ s.applied, k ∈ s'.applied
  abandoned : ∀ j, j ≠ i → (j ∈ s'.abandoned ↔ j ∈ s.abandoned)
  told : ∀ k, k ≠ key → s'.told k = s.told k

theorem Moves.cases (h : Moves s s' i key stage stage') {j : Nat} {k : String} {st : Stage}
    (hj : s'.deliveries j = some (k, st)) :
    (j = i ∧ k = key ∧ st = stage') ∨ (j ≠ i ∧ s.deliveries j = some (k, st)) := by
  rw [h.after, Function.update_apply] at hj
  split at hj
  · rename_i hji
    cases hj
    exact .inl ⟨hji, rfl, rfl⟩
  · rename_i hji
    exact .inr ⟨hji, hj⟩

theorem Moves.self (h : Moves s s' i key stage stage') : s'.deliveries i = some (key, stage') := by
  rw [h.after, Function.update_self]

theorem Moves.other (h : Moves s s' i key stage stage') {j : Nat} (hji : j ≠ i) :
    s'.deliveries j = s.deliveries j := by
  rw [h.after, Function.update_of_ne hji]

/-- A delivery that found no marker does not become a duplicate. -/
theorem Moves.took (h : Moves s s' i key stage stage') {j : Nat} {k : String} (hj : s.Took j k)
    (hstage : stage' = .isDuplicate ∨ stage' = .answered .duplicate → stage = .isDuplicate) :
    s'.Took j k := by
  obtain ⟨st, hst, hclaimed, hdup⟩ := hj
  by_cases hji : j = i
  · subst hji
    cases h.before.symm.trans hst
    exact ⟨stage', h.self, fun heq => hclaimed (hstage (.inl heq)),
      fun heq => hclaimed (hstage (.inr heq))⟩
  · exact ⟨st, (h.other hji).trans hst, hclaimed, hdup⟩

/-- Another delivery stays in flight. -/
theorem Moves.inFlight (h : Moves s s' i key stage stage') {j : Nat} {k : String} (hji : j ≠ i)
    (hj : s.InFlight j k) : s'.InFlight j k := by
  refine ⟨fun hab => hj.1 ((h.abandoned j hji).mp hab), ?_⟩
  rw [h.other hji]
  exact hj.2

/-- Another delivery stays covered. -/
theorem Moves.covered (h : Moves s s' i key stage stage') {j : Nat} {k : String} (hji : j ≠ i)
    (hcover : k ∈ s.applied ∨ j ∈ s.abandoned ∨ s.InFlight j k) :
    k ∈ s'.applied ∨ j ∈ s'.abandoned ∨ s'.InFlight j k :=
  hcover.imp (h.applied k) (Or.imp (h.abandoned j hji).mpr (h.inFlight hji))

/-- What the provider was told stays covered, unless it waits for the delivery that moves. -/
theorem Moves.promised (h : Moves s s' i key stage stage') {k : String}
    (hk : k ∈ s.applied ∨ ∃ j, s.InFlight j k)
    (hself : s.InFlight i k → k ∈ s'.applied ∨ ∃ j, s'.InFlight j k) :
    k ∈ s'.applied ∨ ∃ j, s'.InFlight j k := by
  rcases hk with happlied | ⟨j, hj⟩
  · exact .inl (h.applied k happlied)
  · by_cases hji : j = i
    · exact hself (hji ▸ hj)
    · exact .inr ⟨j, h.inFlight hji hj⟩

theorem Inv.move (h : Inv s) (hmove : Moves s s' i key stage stage')
    (hmarkers : ∀ k marker, s'.markers k = some marker →
      s.markers k = some marker ∨ k = key ∧ marker.owner = i ∧ s'.Took i key)
    (hself : ∀ marker, s'.markers key = some marker → marker.owner = i → s'.Took i key →
      key ∈ s'.applied ∨ i ∈ s'.abandoned ∨ s'.InFlight i key)
    (hstage : stage' = .isDuplicate ∨ stage' = .answered .duplicate → stage = .isDuplicate)
    (hdup : stage' = .answered .duplicate → ∃ marker, s.markers key = some marker)
    (hok : stage' = .answered .ok → key ∈ s'.applied)
    (htold : ∀ answer, s'.told key = some answer → answer ≠ .error →
      key ∈ s'.applied ∨ ∃ j, s'.InFlight j key) : Inv s' := by
  have howned : ∀ k marker, s'.markers k = some marker → s'.Took marker.owner k := by
    intro k marker hk
    rcases hmarkers k marker hk with hold | ⟨rfl, rfl, htook⟩
    · exact hmove.took (h.owned k marker hold) hstage
    · exact htook
  refine ⟨?_, howned, ?_, ?_, ?_⟩
  · intro k marker hk
    obtain ⟨hk, hlive⟩ := marker_eq_some.mp hk
    by_cases hji : marker.owner = i
    · obtain ⟨st, hst, hclaimed, hdup⟩ := howned k marker hk
      rw [hji, hmove.self] at hst
      cases hst
      rw [hji]
      exact hself marker hk hji ⟨_, hmove.self, hclaimed, hdup⟩
    · rcases hmarkers k marker hk with hold | ⟨_, howner, _⟩
      · refine hmove.covered hji (h.covered k marker (marker_eq_some.mpr ⟨hold, ?_⟩))
        rwa [hmove.now] at hlive
      · exact absurd howner hji
  · intro j k hj
    rcases hmove.cases hj with ⟨rfl, rfl, hst⟩ | ⟨_, hj⟩
    · obtain ⟨marker, hmarker⟩ := hdup hst.symm
      exact ⟨_, hmove.took (h.owned _ marker hmarker) hstage⟩
    · obtain ⟨j', hj'⟩ := h.duplicates j k hj
      exact ⟨j', hmove.took hj' hstage⟩
  · intro j k hj
    rcases hmove.cases hj with ⟨rfl, rfl, hst⟩ | ⟨_, hj⟩
    · exact hok hst.symm
    · exact hmove.applied k (h.answered j k hj)
  · intro k answer hk hsuccess
    by_cases hkey : k = key
    · subst hkey
      exact htold answer hk hsuccess
    · rw [hmove.told k hkey] at hk
      refine hmove.promised (h.told k answer hk hsuccess) fun hflight => ?_
      rcases hflight.2 with hi | hi <;> cases hmove.before.symm.trans hi <;> exact absurd rfl hkey

theorem moves_goto (hi : s.deliveries i = some (key, stage)) (stage' : Stage) :
    Moves s (s.goto i key stage') i key stage stage' :=
  ⟨hi, rfl, rfl, fun _ h => h, fun _ _ => Iff.rfl, fun _ _ => rfl⟩

theorem tell_told_of_ne {answer : Answer} {k : String} (hk : k ≠ key) :
    (s.tell i key answer).told k = s.told k := by
  simp only [State.tell]
  split
  · rfl
  · exact Function.update_of_ne hk ..

theorem tell_told_self {answer heard : Answer} (h : (s.tell i key answer).told key = some heard) :
    i ∈ s.abandoned ∧ s.told key = some heard ∨ i ∉ s.abandoned ∧ heard = answer := by
  simp only [State.tell] at h
  split at h
  · rename_i hab
    exact .inl ⟨hab, h⟩
  · rename_i hab
    rw [Function.update_self, Option.some_inj] at h
    exact .inr ⟨hab, h.symm⟩

theorem moves_answer (hi : s.deliveries i = some (key, stage)) (answer : Answer) :
    Moves s (s.answer i key answer) i key stage (.answered answer) :=
  ⟨hi, rfl, rfl, fun _ h => h, fun _ _ => Iff.rfl, fun _ hk => tell_told_of_ne hk⟩

/-- What a delivery that fails leaves is covered: the provider hears of it, or did not
wait for it. -/
theorem Inv.told_error (h : Inv s) (hmove : Moves s s' i key stage stage')
    (htold : s'.told = (s.tell i key .error).told) :
    ∀ heard, s'.told key = some heard → heard ≠ .error →
      key ∈ s'.applied ∨ ∃ j, s'.InFlight j key := by
  intro heard hheard hsuccess
  rw [htold] at hheard
  rcases tell_told_self hheard with ⟨hab, hheard⟩ | ⟨_, rfl⟩
  · exact hmove.promised (h.told key heard hheard hsuccess) fun hflight => absurd hab hflight.1
  · exact absurd rfl hsuccess

/-- A request that goes on without a marker, or with the one it has. -/
theorem Inv.goto (h : Inv s) (hi : s.deliveries i = some (key, stage))
    (hstage : stage' = .process ∨ stage' = .releaseDedupKey) : Inv (s.goto i key stage') := by
  have hmove := moves_goto hi stage'
  have hflight : i ∉ s.abandoned → (s.goto i key stage').InFlight i key := by
    intro hab
    refine ⟨hab, ?_⟩
    rcases hstage with rfl | rfl
    · exact .inl hmove.self
    · exact .inr hmove.self
  have hne : ∀ answer, stage' ≠ .answered answer := by
    rintro answer rfl
    rcases hstage with heq | heq <;> cases heq
  refine h.move hmove (fun _ _ hk => .inl hk) ?_ ?_ (fun heq => absurd heq (hne _))
    (fun heq => absurd heq (hne _)) ?_
  · intro _ _ _ _
    by_cases hab : i ∈ s.abandoned
    · exact .inr (.inl hab)
    · exact .inr (.inr (hflight hab))
  · rintro (heq | heq)
    · rcases hstage with heq' | heq' <;> cases heq.symm.trans heq'
    · exact absurd heq (hne _)
  · intro answer hheard hsuccess
    exact hmove.promised (h.told key answer hheard hsuccess) fun hi => .inr ⟨i, hflight hi.1⟩

/-- A delivery that finds a marker tells the provider what covers it. -/
theorem Inv.duplicate (h : Inv s) (hi : s.deliveries i = some (key, .isDuplicate))
    (hmarker : (s.marker key).isSome) (hguard : Guarded s (.isDuplicate i)) :
    Inv (s.answer i key .duplicate) := by
  have hmove := moves_answer hi .duplicate
  obtain ⟨marker, hfound⟩ := Option.isSome_iff_exists.mp hmarker
  refine h.move hmove (fun _ _ hk => .inl hk) ?_ (fun _ => rfl)
    (fun _ => ⟨marker, (marker_eq_some.mp hfound).1⟩) nofun ?_
  · rintro _ _ _ ⟨st, hst, -, hnodup⟩
    cases hmove.self.symm.trans hst
    exact absurd rfl hnodup
  · intro heard hheard hsuccess
    have hcovered : key ∈ s.applied ∨ ∃ j, s.InFlight j key := by
      rcases tell_told_self hheard with ⟨_, hheard⟩ | _
      · exact h.told key heard hheard hsuccess
      · exact (h.duplicate_covered hi hmarker hguard).imp_right fun ⟨j, _, hj⟩ => ⟨j, hj⟩
    refine hmove.promised hcovered fun hflight => ?_
    rcases hflight.2 with hi' | hi' <;> cases hi.symm.trans hi'

/-- `SET … NX`, which set the marker. -/
theorem Inv.claim (h : Inv s) (hi : s.deliveries i = some (key, .isDuplicate)) :
    Inv (s.claim i key) := by
  have hmove : Moves s (s.claim i key) i key .isDuplicate .process :=
    ⟨hi, rfl, rfl, fun _ h => h, fun _ _ => Iff.rfl, fun _ _ => rfl⟩
  refine h.move hmove ?_ ?_ nofun nofun nofun ?_
  · intro k marker hk
    simp only [State.claim, Function.update_apply] at hk
    split at hk
    · rename_i hkey
      cases hk
      exact .inr ⟨hkey, rfl, _, hmove.self, nofun, nofun⟩
    · exact .inl hk
  · intro _ _ _ _
    by_cases hab : i ∈ s.abandoned
    · exact .inr (.inl hab)
    · exact .inr (.inr ⟨hab, .inl hmove.self⟩)
  · intro heard hheard hsuccess
    exact hmove.promised (h.told key heard hheard hsuccess) fun hflight =>
      .inr ⟨i, hflight.1, .inl hmove.self⟩

/-- The body is processed: whoever finds its marker is covered from now on. -/
theorem Inv.apply (h : Inv s) (hi : s.deliveries i = some (key, .process)) :
    Inv (s.apply i key) := by
  have happlied : key ∈ (s.apply i key).applied :=
    List.mem_append_right _ (List.mem_singleton_self key)
  have hmove : Moves s (s.apply i key) i key .process (.answered .ok) := by
    refine ⟨hi, rfl, rfl, fun _ h => List.mem_append_left _ h, fun j hji => ?_,
      fun _ hk => tell_told_of_ne hk⟩
    simp only [State.apply, List.mem_filter, hji, ne_eq, not_false_eq_true, decide_true, and_true]
  refine h.move hmove (fun _ _ hk => .inl hk) (fun _ _ _ _ => .inl happlied) ?_ ?_
    (fun _ => happlied) fun _ _ _ => .inl happlied
  · rintro (hstage | hstage) <;> cases hstage
  · intro hstage
    cases hstage

/-- `DEL`: there is no marker to find. -/
theorem Inv.release (h : Inv s) (hi : s.deliveries i = some (key, .releaseDedupKey)) :
    Inv (s.release i key) := by
  have hmove : Moves s (s.release i key) i key .releaseDedupKey (.answered .error) :=
    ⟨hi, rfl, rfl, fun _ h => h, fun _ _ => Iff.rfl, fun _ hk => tell_told_of_ne hk⟩
  refine h.move hmove ?_ ?_ nofun nofun nofun (h.told_error hmove rfl)
  · intro k marker hk
    simp only [State.release, Function.update_apply] at hk
    split at hk
    · cases hk
    · exact .inl hk
  · intro marker hk
    simp only [State.release, Function.update_self, reduceCtorEq] at hk

theorem Inv.fail (h : Inv s) (hi : s.deliveries i = some (key, stage)) :
    Inv ((s.answer i key .error).abandon i) := by
  have hmove : Moves s ((s.answer i key .error).abandon i) i key stage (.answered .error) := by
    refine ⟨hi, rfl, rfl, fun _ h => h, fun j hji => ?_, fun _ hk => tell_told_of_ne hk⟩
    exact (List.mem_append.trans (or_iff_left (fun hj => hji (List.mem_singleton.mp hj))))
  exact h.move hmove (fun _ _ hk => .inl hk)
    (fun _ _ _ _ => .inr (.inl (List.mem_append_right _ (List.mem_singleton_self i))))
    nofun nofun nofun (h.told_error hmove rfl)

/-- The provider gives up, and the delivery goes on. -/
theorem Inv.giveUp (h : Inv s) (hi : s.deliveries i = some (key, stage))
    (hopen : ∀ answer, stage ≠ .answered answer) : Inv ((s.tell i key .error).abandon i) := by
  have hmove : Moves s ((s.tell i key .error).abandon i) i key stage stage := by
    refine ⟨hi, ?_, rfl, fun _ h => h, fun j hji => ?_, fun _ hk => tell_told_of_ne hk⟩
    · exact (Function.update_eq_self_iff.mpr hi.symm).symm
    · exact (List.mem_append.trans (or_iff_left (fun hj => hji (List.mem_singleton.mp hj))))
  refine h.move hmove (fun _ _ hk => .inl hk)
    (fun _ _ _ _ => .inr (.inl (List.mem_append_right _ (List.mem_singleton_self i)))) ?_
    (fun heq => absurd heq (hopen _)) (fun heq => absurd heq (hopen _)) (h.told_error hmove rfl)
  rintro (heq | heq)
  · exact heq
  · exact absurd heq (hopen _)

theorem Inv.receive (h : Inv s) (hi : s.deliveries i = none) :
    Inv (s.goto i key .isDuplicate) := by
  have hother : ∀ {j d}, s.deliveries j = some d →
      (s.goto i key .isDuplicate).deliveries j = some d := by
    intro j d hj
    refine (Function.update_of_ne ?_ ..).trans hj
    rintro rfl
    cases hi.symm.trans hj
  have hcases : ∀ {j k st}, (s.goto i key .isDuplicate).deliveries j = some (k, st) →
      st ≠ .isDuplicate → s.deliveries j = some (k, st) := by
    intro j k st hj hst
    simp only [State.goto, Function.update_apply] at hj
    split at hj
    · cases hj
      exact absurd rfl hst
    · exact hj
  have htook : ∀ {j k}, s.Took j k → (s.goto i key .isDuplicate).Took j k :=
    fun ⟨st, hst, hclaimed, hdup⟩ => ⟨st, hother hst, hclaimed, hdup⟩
  refine ⟨?_, fun k marker hk => htook (h.owned k marker hk), ?_, ?_, ?_⟩
  · intro k marker hk
    rcases h.covered k marker hk with happlied | habandoned | ⟨hab, hflight⟩
    · exact .inl happlied
    · exact .inr (.inl habandoned)
    · exact .inr (.inr ⟨hab, hflight.imp hother hother⟩)
  · intro j k hj
    exact (h.duplicates j k (hcases hj nofun)).imp fun _ => htook
  · intro j k hj
    exact h.answered j k (hcases hj nofun)
  · intro k answer hk hsuccess
    exact (h.told k answer hk hsuccess).imp_right fun ⟨j, hab, hj⟩ => ⟨j, hab, hj.imp hother hother⟩

theorem Inv.step (h : Inv s) {a : Event} (hguard : Guarded s a) (hs : s.step a = some s') :
    Inv s' := by
  cases a with
  | receive i key =>
      simp only [State.step] at hs
      split at hs
      · rename_i hi
        cases hs
        exact h.receive hi
      · cases hs
  | isDuplicate i =>
      simp only [State.step] at hs
      split at hs
      · rename_i key hi
        cases hs
        split
        · rename_i hmarker
          exact h.duplicate hi hmarker hguard
        · exact h.claim hi
      · cases hs
  | isDuplicateThrows i executed =>
      simp only [State.step] at hs
      split at hs
      · rename_i key hi
        cases hs
        split
        · exact h.claim hi
        · exact h.goto hi (.inl rfl)
      · cases hs
  | process i ok =>
      simp only [State.step] at hs
      split at hs
      · rename_i key hi
        cases hs
        split
        · exact h.apply hi
        · exact h.goto hi (.inr rfl)
      · cases hs
  | releaseDedupKey i ok =>
      simp only [State.step] at hs
      split at hs
      · rename_i key hi
        cases hs
        split
        · exact h.release hi
        · exact h.fail hi
      · cases hs
  | crash i =>
      simp only [State.step] at hs
      split at hs
      · cases hs
      · rename_i key stage hopen hi
        cases hs
        exact h.fail hi
      · cases hs
  | giveUp i =>
      simp only [State.step] at hs
      split at hs
      · cases hs
      · rename_i key stage hopen hi
        cases hs
        exact h.giveUp hi hopen
      · cases hs
  | tick seconds =>
      cases hs
      refine ⟨fun k marker hk => ?_, h.owned, h.duplicates, h.answered, h.told⟩
      obtain ⟨hk, hlive⟩ := marker_eq_some.mp hk
      exact h.covered k marker (marker_eq_some.mpr ⟨hk, lt_of_le_of_lt (Nat.le_add_right _ _) hlive⟩)

end

/-! ## What a step leaves alone -/

section
variable {s s' : State} {a : Event}

/-- A delivery keeps its body; a new one is received. -/
theorem step_deliveries (hs : s.step a = some s') {j : Nat} {k : String} {st : Stage}
    (hj : s'.deliveries j = some (k, st)) :
    a = .receive j k ∨ ∃ st, s.deliveries j = some (k, st) := by
  have hgoto : ∀ {i key stage stage'}, s.deliveries i = some (key, stage) →
      s'.deliveries = Function.update s.deliveries i (some (key, stage')) →
      ∃ st, s.deliveries j = some (k, st) := by
    intro i key stage stage' hi hafter
    rw [hafter, Function.update_apply] at hj
    split at hj
    · rename_i hji
      cases hj
      exact ⟨_, hji ▸ hi⟩
    · exact ⟨_, hj⟩
  cases a with
  | receive i key =>
      simp only [State.step] at hs
      split at hs
      · cases hs
        simp only [State.goto, Function.update_apply] at hj
        split at hj
        · rename_i hji
          cases hj
          exact .inl (hji ▸ rfl)
        · exact .inr ⟨_, hj⟩
      · cases hs
  | isDuplicate i | isDuplicateThrows i executed | process i ok | releaseDedupKey i ok =>
      simp only [State.step] at hs
      split at hs
      · rename_i key hi
        cases hs
        -- whichever branch is taken, the delivery only changes its stage
        split at hgoto <;> exact .inr (hgoto hi rfl)
      · cases hs
  | crash i =>
      simp only [State.step] at hs
      split at hs
      · cases hs
      · rename_i key stage _ hi
        cases hs
        exact .inr (hgoto hi rfl)
      · cases hs
  | giveUp i =>
      simp only [State.step] at hs
      split at hs
      · cases hs
      · cases hs
        exact .inr ⟨_, hj⟩
      · cases hs
  | tick seconds =>
      cases hs
      exact .inr ⟨_, hj⟩

theorem step_receive {i : Nat} {key : String} (hs : s.step (.receive i key) = some s') :
    s'.deliveries i = some (key, .isDuplicate) := by
  simp only [State.step] at hs
  split at hs
  · cases hs
    exact Function.update_self ..
  · cases hs

/-- Only the processing of a body applies it. -/
theorem step_applied (hs : s.step a = some s') :
    s'.applied = s.applied ∨ ∃ i key, a = .process i true ∧
      s.deliveries i = some (key, .process) ∧ s'.applied = s.applied ++ [key] := by
  cases a with
  | receive i key =>
      simp only [State.step] at hs
      split at hs
      · cases hs
        exact .inl rfl
      · cases hs
  | process i ok =>
      simp only [State.step] at hs
      split at hs
      · rename_i key hi
        cases hs
        cases ok with
        | true => exact .inr ⟨i, key, rfl, hi, rfl⟩
        | false => exact .inl rfl
      · cases hs
  | isDuplicate i | isDuplicateThrows i executed | releaseDedupKey i ok =>
      simp only [State.step] at hs
      split at hs
      · cases hs
        split <;> exact .inl rfl
      · cases hs
  | crash i | giveUp i =>
      simp only [State.step] at hs
      split at hs
      · cases hs
      · cases hs
        exact .inl rfl
      · cases hs
  | tick seconds =>
      cases hs
      exact .inl rfl

end

/-- In every run in which no delivery finds a marker whose delivery failed or was given
up: while the last thing the provider was told about a body is a success, the body has
been applied, or a delivery of it is being processed that the provider still waits for.
So the body has been applied when every delivery of it is answered, the last with a
success, or when each of them is. -/
theorem duplicates_covered {s : State} {as : List Event}
    (h : Runs.exec State.step State.init as = some s)
    (hguard : Runs.Meets State.step Guarded State.init as) :
    (∀ key answer, s.told key = some answer → answer ≠ .error →
      key ∈ s.applied ∨ ∃ j, s.InFlight j key) ∧
    (∀ key answer, s.told key = some answer → answer ≠ .error →
      (∀ j stage, s.deliveries j = some (key, stage) → ∃ answer, stage = .answered answer) →
      key ∈ s.applied) ∧
    (∀ i key stage, s.deliveries i = some (key, stage) →
      (∀ j stage, s.deliveries j = some (key, stage) →
        stage = .answered .ok ∨ stage = .answered .duplicate) → key ∈ s.applied) := by
  have hinv : Inv s :=
    Runs.invariant (fun _ _ _ hI hC hs => hI.step hC hs) inv_init hguard h
  exact ⟨hinv.told, fun _ _ hkey hsuccess hall => hinv.applied_of_told hkey hsuccess hall,
    fun _ _ _ hi hall => hinv.applied_of_answered hi hall⟩

/-- Two concurrent deliveries of a body: the first fails after the second was told a
success, and the provider tries again. -/
theorem duplicates_covered_retry : ∃ s, Runs.exec State.step State.init
      [.receive 0 "b", .isDuplicate 0, .receive 1 "b", .isDuplicate 1, .process 0 false,
        .releaseDedupKey 0 true, .receive 2 "b", .isDuplicate 2, .process 2 true] = some s ∧
      "b" ∈ s.applied := by
  refine ⟨_, rfl, (duplicates_covered (rfl : Runs.exec State.step State.init
    [.receive 0 "b", .isDuplicate 0, .receive 1 "b", .isDuplicate 1, .process 0 false,
      .releaseDedupKey 0 true, .receive 2 "b", .isDuplicate 2, .process 2 true] = some _) ?_).2.1
    "b" .ok rfl nofun ?_⟩
  · have hguard : ∀ {s : State} (a : Event), s.abandoned = [] → Guarded s a := by
      intro s a hnone
      cases a with
      | isDuplicate i =>
          intro _ _ _ _
          rw [hnone]
          exact List.not_mem_nil
      | _ => exact trivial
    refine .cons trivial rfl (.cons (hguard _ rfl) rfl (.cons trivial rfl
      (.cons (hguard _ rfl) rfl (.cons trivial rfl (.cons trivial rfl (.cons trivial rfl
      (.cons (hguard _ rfl) rfl (.cons trivial rfl trivial))))))))
  · intro j stage hj
    match j, hj with
    | 0, hj | 1, hj | 2, hj =>
        cases hj
        exact ⟨_, rfl⟩
    | j + 3, hj => cases hj

/-- The deliveries the provider has given up, and the one whose marker was not deleted,
answer their retries for a body that is not applied. -/
theorem duplicate_lost :
    (∃ s, Runs.exec State.step State.init [.receive 0 "b", .isDuplicate 0, .giveUp 0,
        .receive 1 "b", .isDuplicate 1, .process 0 false, .releaseDedupKey 0 true] = some s ∧
      s.told "b" = some .duplicate ∧ s.applied = [] ∧
      s.deliveries 0 = some ("b", .answered .error)) ∧
    ∃ s, Runs.exec State.step State.init [.receive 0 "b", .isDuplicate 0, .process 0 false,
        .releaseDedupKey 0 false, .receive 1 "b", .isDuplicate 1] = some s ∧
      s.told "b" = some .duplicate ∧ s.applied = [] ∧
      s.deliveries 0 = some ("b", .answered .error) :=
  ⟨⟨_, rfl, rfl, rfl, rfl⟩, _, rfl, rfl, rfl, rfl⟩

end OpenBms.Whatsapp.Webhooks
