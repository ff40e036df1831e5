/-
# `OpenBms.Packer.Deliveries` — the packer's job of a run, delivered any number of times

The key `campaign:<id>` keeps a run from being queued twice.  A delivery reads it first,
queues the pages one after the other and sets it last, for as long as the sending is
spread; what fails between is delivered again.

| a page that cannot be queued | what becomes of the delivery |
| :-- | :-- |
| the first one | it throws, and queues nothing |
| one of the others | it throws, and the timers of the others still queue them |
| the last one | it throws |

**Proved here.**

    the pages of a delivery are numbered from 1 (`pages_createBatches`)
    what each step of an orderly run keeps (`Inv.step`)
    the pages of a run are queued once (`queued_once`)
-/
import OpenBms.Lib.Runs
import OpenBms.Packer.Batches

namespace OpenBms.Packer.Deliveries

/-! ## Deliveries -/

inductive Stage where
  | working
  | failed
  | returned
  deriving DecidableEq

/-- A delivery that found no key: the numbers of the pages it has queued, and the pages
it has not tried yet. -/
structure Delivery where
  run : Nat
  spreadSending : Option Int
  setsKey : Bool
  added : List Nat
  todo : List Job
  stage : Stage

/-- The key in Redis, with the run that set it, which is not stored there. -/
structure Key where
  run : Nat
  expires : Nat
  deriving DecidableEq

/-- One campaign: its key, the pages queued for its runs, the deliveries that found no
key, the runs of those that returned, and for each one that found a key its run and the
run of the key. Times are in seconds. -/
structure State where
  time : Nat
  key : Option Key
  queued : List (Nat × Nat)
  deliveries : List Delivery
  returned : List Nat
  blocked : List (Nat × Nat)

def init : State := ⟨0, none, [], [], [], []⟩

/-- The key that `redisClient.get` finds. -/
def State.liveKey (s : State) : Option Key := s.key.filter fun k => s.time < k.expires

/-- `60 * campaign.spreadSending || 60`. -/
def lifetime (spreadSending : Option Int) : Int :=
  let seconds := 60 * spreadSending.getD 0
  if seconds = 0 then 60 else seconds

/-- The start of `createBatches`, up to the first page. -/
def State.deliver (limit : BatchLimit) (s : State) (run : Nat) (campaign : Campaign)
    (rows : ContactRows) : State :=
  match s.liveKey with
  | some key => { s with returned := run :: s.returned, blocked := (run, key.run) :: s.blocked }
  | none =>
      match createBatches limit rows false campaign with
      | .error _ => s
      | .ok b =>
          { s with deliveries := s.deliveries ++ [{
              run := run
              spreadSending := (respread campaign b.jobs.length).spreadSending
              setsKey := b.keySet
              added := []
              todo := b.jobs
              stage := .working }] }

/-- The pages a delivery still tries after one that could not be queued. -/
def Delivery.left (d : Delivery) (rest : List Job) : List Job :=
  if d.stage = .working then
    -- the last page waits for all the others
    if d.added = [] then [] else if d.setsKey then rest.dropLast else rest
  else rest

def Delivery.fail (d : Delivery) (rest : List Job) : Delivery :=
  { d with todo := d.left rest, stage := .failed }

def Delivery.add (d : Delivery) (page : Nat) (rest : List Job) : Delivery :=
  { d with added := d.added ++ [page], todo := rest }

/-- `redisClient.set`: it fails where Redis does, and for a life that is not positive. -/
def State.setKey (s : State) (d : Delivery) (ok : Bool) : Option Key :=
  if d.setsKey = true ∧ ok = true ∧ 0 < lifetime d.spreadSending then
    some ⟨d.run, s.time + (lifetime d.spreadSending).toNat⟩
  else s.key

inductive Event where
  | wait (seconds : Nat)
  | deliver (run : Nat) (campaign : Campaign) (rows : ContactRows)
  | page (i : Nat) (ok : Bool)
  | finish (i : Nat) (ok : Bool)
  | crash (i : Nat)

def State.page (s : State) (i : Nat) (ok : Bool) : Option State :=
  match s.deliveries[i]? with
  | none => none
  | some d =>
      match d.todo with
      | [] => none
      | job :: rest =>
          if ok then
            some { s with
              queued := s.queued ++ [(d.run, job.page)]
              deliveries := s.deliveries.set i (d.add job.page rest) }
          else some { s with deliveries := s.deliveries.set i (d.fail rest) }

def State.finish (s : State) (i : Nat) (ok : Bool) : Option State :=
  match s.deliveries[i]? with
  | none => none
  | some d =>
      if d.stage = .working ∧ d.todo = [] then
        some { s with
          key := s.setKey d ok
          deliveries := s.deliveries.set i { d with stage := .returned }
          returned := d.run :: s.returned }
      else none

/-- The worker of a delivery stops. -/
def State.crash (s : State) (i : Nat) : Option State :=
  match s.deliveries[i]? with
  | none => none
  | some d =>
      some { s with deliveries := s.deliveries.set i { d with todo := [], stage := .failed } }

def State.step (limit : BatchLimit) (s : State) : Event → Option State
  | .wait seconds => some { s with time := s.time + seconds }
  | .deliver run campaign rows => some (s.deliver limit run campaign rows)
  | .page i ok => s.page i ok
  | .finish i ok => s.finish i ok
  | .crash i => s.crash i

/-! ## Orderly runs -/

/-- The delivery has pages to try, or has not returned. -/
def Delivery.InFlight (d : Delivery) : Prop := d.stage = .working ∨ d.todo ≠ []

instance (d : Delivery) : Decidable d.InFlight := inferInstanceAs (Decidable (_ ∨ _))

/-- A delivery that finds the key finds that of its own run. One that finds none is the
only one of its run: no page of the run is queued, and none is being queued. -/
def Orderly (s : State) : Event → Prop
  | .deliver run _ _ =>
      match s.liveKey with
      | some key => key.run = run
      | none => run ∉ s.queued.map Prod.fst ∧ ∀ d ∈ s.deliveries, d.run = run → ¬ d.InFlight
  | _ => True

instance (s : State) (e : Event) : Decidable (Orderly s e) := by
  cases e with
  | deliver run campaign rows =>
      unfold Orderly
      dsimp only
      split <;> infer_instance
  | _ => exact inferInstanceAs (Decidable True)

/-! ## The pages of a delivery -/

theorem pages_createBatches {limit : BatchLimit} {rows : ContactRows} {campaign : Campaign}
    {b : Batches} (h : createBatches limit rows false campaign = .ok b) :
    ∃ n, 0 < n ∧ b.jobs.map (·.page) = List.range' 1 n := by
  simp only [createBatches, Bool.false_eq_true, if_false] at h
  split at h
  · cases h
  · split at h
    · cases h
    · rename_i first contacts _
      cases h
      exact ⟨contacts.length + 1, Nat.succ_pos _, pages_createPages _ _ _ _⟩

section
variable {limit : BatchLimit} {s s' : State} {d e : Delivery} {i j : Nat}

/-- The numbers of the pages queued for a run. -/
def State.pagesOf (s : State) (run : Nat) : List Nat :=
  (s.queued.filter (·.1 = run)).map (·.2)

theorem mem_pagesOf {run p : Nat} : p ∈ s.pagesOf run ↔ (run, p) ∈ s.queued := by
  simp [State.pagesOf]

theorem count_pagesOf (s : State) (run p : Nat) :
    s.queued.count (run, p) = (s.pagesOf run).count p := by
  simp only [State.pagesOf]
  induction s.queued with
  | nil => rfl
  | cons q l ih =>
      obtain ⟨r, k⟩ := q
      by_cases hr : r = run
      · subst hr
        rw [List.filter_cons_of_pos (by simp), List.map_cons, List.count_cons, List.count_cons, ih]
        simp
      · rw [List.filter_cons_of_neg (by simpa using hr), List.count_cons, ih]
        simp [hr]

/-- The delivery has queued pages, or still may. -/
def Delivery.Live (d : Delivery) : Prop := d.InFlight ∨ d.added ≠ []

/-- A delivery of the run has queued all its pages. -/
def Whole (s : State) (run : Nat) : Prop :=
  ∃ (i : Nat) (d : Delivery) (n : Nat), s.deliveries[i]? = some d ∧ d.run = run ∧ d.todo = [] ∧ 0 < n ∧
    d.added = List.range' 1 n

structure Inv (s : State) : Prop where
  single : ∀ (i j : Nat) (d e : Delivery), s.deliveries[i]? = some d → s.deliveries[j]? = some e →
    d.Live → e.Live → d.run = e.run → i = j
  owned : ∀ (i : Nat) (d : Delivery), s.deliveries[i]? = some d → d.Live → s.pagesOf d.run = d.added
  unowned : ∀ run, (∀ (i : Nat) (d : Delivery), s.deliveries[i]? = some d → d.run = run → ¬ d.Live) →
    s.pagesOf run = []
  nodup : ∀ (i : Nat) (d : Delivery), s.deliveries[i]? = some d → (d.added ++ d.todo.map (·.page)).Nodup
  numbered : ∀ (i : Nat) (d : Delivery), s.deliveries[i]? = some d → d.stage ≠ .failed →
    ∃ n, 0 < n ∧ d.added ++ d.todo.map (·.page) = List.range' 1 n
  whole : ∀ run ∈ s.returned, Whole s run
  keyed : ∀ k, s.key = some k → Whole s k.run
  own : ∀ b ∈ s.blocked, b.2 = b.1

theorem inv_init : Inv init where
  single := by
    intro i j d e hd
    cases hd
  owned := by
    intro i d hd
    cases hd
  unowned := fun _ _ => rfl
  nodup := by
    intro i d hd
    cases hd
  numbered := by
    intro i d hd
    cases hd
  whole := by
    intro run hrun
    cases hrun
  keyed := by
    intro k hk
    cases hk
  own := by
    intro b hb
    cases hb

/-! ## What a step keeps -/

theorem set_cases {l : List Delivery} {d' : Delivery} (h : (l.set i d')[j]? = some e) :
    (i = j ∧ e = d') ∨ (i ≠ j ∧ l[j]? = some e) := by
  rw [List.getElem?_set] at h
  split at h
  · rename_i hij
    split at h
    · exact .inl ⟨hij, (Option.some_inj.mp h).symm⟩
    · cases h
  · rename_i hij
    exact .inr ⟨hij, h⟩

theorem getElem?_set_of_ne {l : List Delivery} {d' : Delivery} (hij : i ≠ j) :
    (l.set i d')[j]? = l[j]? := List.getElem?_set_ne hij

theorem getElem?_set_of_some {l : List Delivery} {d' : Delivery} (hd : l[i]? = some d) :
    (l.set i d')[i]? = some d' := by
  obtain ⟨hi, _⟩ := List.getElem?_eq_some_iff.mp hd
  exact List.getElem?_set_self hi

theorem Whole.set {run : Nat} {d' : Delivery} (h : Whole s run) (hd : s.deliveries[i]? = some d)
    (hs' : s'.deliveries = s.deliveries.set i d')
    (hkeep : d.todo = [] → d'.run = d.run ∧ d'.todo = [] ∧ d'.added = d.added) : Whole s' run := by
  obtain ⟨j, e, n, he, hrun, htodo, hn, hadded⟩ := h
  by_cases hij : i = j
  · subst hij
    cases hd.symm.trans he
    obtain ⟨hrun', htodo', hadded'⟩ := hkeep htodo
    refine ⟨i, d', n, ?_, hrun'.trans hrun, htodo', hn, hadded'.trans hadded⟩
    rw [hs']
    exact getElem?_set_of_some hd
  · refine ⟨j, e, n, ?_, hrun, htodo, hn, hadded⟩
    rw [hs', getElem?_set_of_ne hij]
    exact he

/-- A delivery changes its stage and gives up pages; the key may become its own. -/
theorem Inv.update (h : Inv s) {d' : Delivery} (hd : s.deliveries[i]? = some d)
    (hdeliveries : s'.deliveries = s.deliveries.set i d') (hqueued : s'.queued = s.queued)
    (hrun : d'.run = d.run) (hadded : d'.added = d.added)
    (htodo : (d'.todo.map (·.page)).Sublist (d.todo.map (·.page)))
    (hlive : d'.Live → d.Live)
    (hnumbered : d'.stage ≠ .failed → d.stage ≠ .failed ∧ d'.todo = d.todo)
    (hwhole : ∀ run ∈ s'.returned, run ∈ s.returned ∨ Whole s' run)
    (hkeyed : ∀ k, s'.key = some k → s.key = some k ∨ Whole s' k.run)
    (hown : s'.blocked = s.blocked) : Inv s' := by
  have hpages : ∀ run, s'.pagesOf run = s.pagesOf run := by
    intro run
    simp only [State.pagesOf, hqueued]
  have hempty : d.todo = [] → d'.todo = [] := by
    intro hd
    rw [hd] at htodo
    exact List.map_eq_nil_iff.mp (List.sublist_nil.mp htodo)
  have hkeep : ∀ run, Whole s run → Whole s' run := fun run hw =>
    hw.set hd hdeliveries fun hd => ⟨hrun, hempty hd, hadded⟩
  refine ⟨?_, ?_, ?_, ?_, ?_, ?_, ?_, ?_⟩
  · intro j k e f he hf hlive_e hlive_f heq
    rw [hdeliveries] at he hf
    rcases set_cases he with ⟨hj, rfl⟩ | ⟨_, he'⟩ <;> rcases set_cases hf with ⟨hk, rfl⟩ | ⟨_, hf'⟩
    · exact hj.symm.trans hk
    · exact hj.symm.trans (h.single _ _ d f hd hf' (hlive hlive_e) hlive_f (hrun ▸ heq))
    · exact (h.single _ _ e d he' hd hlive_e (hlive hlive_f) (heq.trans hrun)).trans hk
    · exact h.single _ _ e f he' hf' hlive_e hlive_f heq
  · intro j e he hlive_e
    rw [hdeliveries] at he
    rw [hpages]
    rcases set_cases he with ⟨rfl, rfl⟩ | ⟨_, he⟩
    · rw [hrun, hadded]
      exact h.owned _ d hd (hlive hlive_e)
    · exact h.owned _ e he hlive_e
  · intro run hnone
    rw [hpages]
    by_cases hd' : d.Live ∧ d.run = run
    · -- the delivery has queued nothing, as it is not live any more
      have hnot : ¬ d'.Live :=
        hnone i d' (hdeliveries ▸ getElem?_set_of_some hd) (hrun.trans hd'.2)
      rw [← hd'.2, h.owned i d hd hd'.1, ← hadded]
      by_contra hne
      exact hnot (.inr hne)
    · refine h.unowned run fun j e he heq hlive_e => ?_
      by_cases hij : i = j
      · subst hij
        cases hd.symm.trans he
        exact hd' ⟨hlive_e, heq⟩
      · exact hnone j e (by rw [hdeliveries, getElem?_set_of_ne hij]; exact he) heq hlive_e
  · intro j e he
    rw [hdeliveries] at he
    rcases set_cases he with ⟨rfl, rfl⟩ | ⟨_, he⟩
    · rw [hadded]
      exact (h.nodup i d hd).sublist (List.Sublist.append_left htodo _)
    · exact h.nodup _ e he
  · intro j e he hstage
    rw [hdeliveries] at he
    rcases set_cases he with ⟨rfl, rfl⟩ | ⟨_, he⟩
    · obtain ⟨hstage', htodo'⟩ := hnumbered hstage
      rw [hadded, htodo']
      exact h.numbered i d hd hstage'
    · exact h.numbered _ e he hstage
  · intro run hmem
    exact (hwhole run hmem).elim (fun hold => hkeep run (h.whole run hold)) id
  · intro k hk
    exact (hkeyed k hk).elim (fun hold => hkeep k.run (h.keyed k hold)) id
  · intro b hb
    rw [hown] at hb
    exact h.own b hb

theorem pagesOf_append (s : State) (run : Nat) (p : Nat)
    (hs' : s'.queued = s.queued ++ [(run, p)]) (r : Nat) :
    s'.pagesOf r = if r = run then s.pagesOf r ++ [p] else s.pagesOf r := by
  simp only [State.pagesOf, hs', List.filter_append, List.map_append]
  split
  · rename_i hr
    subst hr
    simp
  · rename_i hr
    have hne : ¬ run = r := fun h => hr h.symm
    simp [hne]

theorem Inv.add (h : Inv s) {job : Job} {rest : List Job} (hd : s.deliveries[i]? = some d)
    (htodo : d.todo = job :: rest) :
    Inv { s with
      queued := s.queued ++ [(d.run, job.page)]
      deliveries := s.deliveries.set i (d.add job.page rest) } := by
  have hlive : d.Live := .inl (.inr (by rw [htodo]; exact List.cons_ne_nil _ _))
  have hlive' : (d.add job.page rest).Live :=
    .inr (List.append_ne_nil_of_right_ne_nil _ (List.cons_ne_nil _ _))
  have hkeep : ∀ run, Whole s run → Whole { s with
      queued := s.queued ++ [(d.run, job.page)]
      deliveries := s.deliveries.set i (d.add job.page rest) } run := by
    intro run hw
    refine hw.set hd rfl fun hnil => ?_
    rw [htodo] at hnil
    cases hnil
  have hother : ∀ j e, s.deliveries[j]? = some e → i ≠ j → e.Live → e.run ≠ d.run := by
    intro j e he hij hlive_e heq
    exact hij (h.single i j d e hd he hlive hlive_e heq.symm)
  have hpages : ∀ r, State.pagesOf { s with
      queued := s.queued ++ [(d.run, job.page)]
      deliveries := s.deliveries.set i (d.add job.page rest) } r =
        if r = d.run then s.pagesOf r ++ [job.page] else s.pagesOf r :=
    pagesOf_append s d.run job.page rfl
  refine ⟨?_, ?_, ?_, ?_, ?_, ?_, ?_, ?_⟩
  · intro j k e f he hf hlive_e hlive_f heq
    rcases set_cases he with ⟨rfl, rfl⟩ | ⟨hj, he⟩ <;> rcases set_cases hf with ⟨rfl, rfl⟩ | ⟨hk, hf⟩
    · rfl
    · exact absurd heq.symm (hother k f hf hk hlive_f)
    · exact absurd heq (hother j e he hj hlive_e)
    · exact h.single _ _ e f he hf hlive_e hlive_f heq
  · intro j e he hlive_e
    rw [hpages]
    rcases set_cases he with ⟨rfl, rfl⟩ | ⟨hij, he⟩
    · rw [if_pos (show (d.add job.page rest).run = d.run from rfl)]
      exact congrArg (· ++ [job.page]) (h.owned i d hd hlive)
    · rw [if_neg (hother j e he hij hlive_e)]
      exact h.owned j e he hlive_e
  · intro run hnone
    have hrun : run ≠ d.run := by
      intro heq
      exact hnone i _ (getElem?_set_of_some hd) heq.symm hlive'
    rw [hpages, if_neg hrun]
    refine h.unowned run fun j e he heq => ?_
    have hij : i ≠ j := by
      rintro rfl
      cases hd.symm.trans he
      exact hrun heq.symm
    exact hnone j e ((getElem?_set_of_ne hij).trans he) heq
  · intro j e he
    rcases set_cases he with ⟨rfl, rfl⟩ | ⟨_, he⟩
    · have hnodup := h.nodup i d hd
      rw [htodo, List.map_cons] at hnodup
      simpa only [Delivery.add, List.append_assoc, List.singleton_append] using hnodup
    · exact h.nodup j e he
  · intro j e he hstage
    rcases set_cases he with ⟨rfl, rfl⟩ | ⟨_, he⟩
    · obtain ⟨n, hn, hnumbers⟩ := h.numbered i d hd hstage
      rw [htodo, List.map_cons] at hnumbers
      refine ⟨n, hn, ?_⟩
      simpa only [Delivery.add, List.append_assoc, List.singleton_append] using hnumbers
    · exact h.numbered j e he hstage
  · exact fun run hrun => hkeep run (h.whole run hrun)
  · exact fun k hk => hkeep k.run (h.keyed k hk)
  · exact h.own

theorem Inv.append (h : Inv s) {new : Delivery} (hadded : new.added = [])
    (hworking : new.stage = .working)
    (hnumbers : ∃ n, 0 < n ∧ new.todo.map (·.page) = List.range' 1 n)
    (hqueued : new.run ∉ s.queued.map Prod.fst)
    (hflight : ∀ d ∈ s.deliveries, d.run = new.run → ¬ d.InFlight) :
    Inv { s with deliveries := s.deliveries ++ [new] } := by
  have hempty : s.pagesOf new.run = [] := by
    refine List.eq_nil_iff_forall_not_mem.mpr fun p hp => hqueued ?_
    exact List.mem_map.mpr ⟨(new.run, p), mem_pagesOf.mp hp, rfl⟩
  -- no other delivery of the run is live: one that has queued pages owns some
  have hother : ∀ (i : Nat) (d : Delivery), s.deliveries[i]? = some d → d.Live → d.run ≠ new.run := by
    intro i d hd hlive heq
    have hadded' : d.added = [] := by rw [← h.owned i d hd hlive, heq, hempty]
    have hnot := hflight d (List.mem_of_getElem? hd) heq
    exact hlive.elim hnot fun hne => hne hadded'
  have hcases : ∀ (i : Nat) (d : Delivery), (s.deliveries ++ [new])[i]? = some d →
      s.deliveries[i]? = some d ∨ (i = s.deliveries.length ∧ d = new) := by
    intro i d hd
    rcases lt_trichotomy i s.deliveries.length with hlt | heq | hgt
    · rw [List.getElem?_append_left hlt] at hd
      exact .inl hd
    · rw [heq, List.getElem?_concat_length] at hd
      exact .inr ⟨heq, (Option.some_inj.mp hd).symm⟩
    · rw [List.getElem?_eq_none (by simp; omega)] at hd
      cases hd
  have hold : ∀ (i : Nat) (d : Delivery), s.deliveries[i]? = some d → (s.deliveries ++ [new])[i]? = some d := by
    intro i d hd
    obtain ⟨hi, _⟩ := List.getElem?_eq_some_iff.mp hd
    rw [List.getElem?_append_left hi]
    exact hd
  have hkeep : ∀ run, Whole s run → Whole { s with deliveries := s.deliveries ++ [new] } run := by
    rintro run ⟨i, d, n, hd, hrest⟩
    exact ⟨i, d, n, hold i d hd, hrest⟩
  refine ⟨?_, ?_, ?_, ?_, ?_, ?_, ?_, h.own⟩
  · intro i j d e hd he hlive_d hlive_e heq
    rcases hcases i d hd with hd' | ⟨hi, rfl⟩ <;> rcases hcases j e he with he' | ⟨hj, rfl⟩
    · exact h.single i j d e hd' he' hlive_d hlive_e heq
    · exact absurd heq (hother i d hd' hlive_d)
    · exact absurd heq.symm (hother j e he' hlive_e)
    · exact hi.trans hj.symm
  · intro i d hd hlive
    rcases hcases i d hd with hd | ⟨_, rfl⟩
    · exact h.owned i d hd hlive
    · exact hempty.trans hadded.symm
  · intro run hnone
    exact h.unowned run fun i d hd => hnone i d (hold i d hd)
  · intro i d hd
    rcases hcases i d hd with hd | ⟨_, rfl⟩
    · exact h.nodup i d hd
    · obtain ⟨n, _, hnumbers⟩ := hnumbers
      rw [hadded, hnumbers]
      exact List.nodup_range'
  · intro i d hd hstage
    rcases hcases i d hd with hd | ⟨_, rfl⟩
    · exact h.numbered i d hd hstage
    · obtain ⟨n, hn, hnumbers⟩ := hnumbers
      refine ⟨n, hn, ?_⟩
      rw [hadded, hnumbers]
      rfl
  · exact fun run hrun => hkeep run (h.whole run hrun)
  · exact fun k hk => hkeep k.run (h.keyed k hk)

theorem liveKey_key {k : Key} (h : s.liveKey = some k) : s.key = some k :=
  (Option.filter_eq_some_iff.mp h).1

theorem Inv.deliver (h : Inv s) {run : Nat} {campaign : Campaign} {rows : ContactRows}
    (horderly : Orderly s (.deliver run campaign rows)) :
    Inv (s.deliver limit run campaign rows) := by
  simp only [Orderly] at horderly
  simp only [State.deliver]
  split
  · rename_i key hkey
    rw [hkey] at horderly
    have hwhole : Whole s run := horderly ▸ h.keyed key (liveKey_key hkey)
    refine ⟨h.single, h.owned, h.unowned, h.nodup, h.numbered, ?_, h.keyed, ?_⟩
    · intro r hr
      rcases List.mem_cons.mp hr with rfl | hr
      · exact hwhole
      · exact h.whole r hr
    · intro b hb
      rcases List.mem_cons.mp hb with rfl | hb
      · exact horderly
      · exact h.own b hb
  · rename_i hkey
    rw [hkey] at horderly
    split
    · exact h
    · rename_i b hb
      exact h.append rfl rfl (pages_createBatches hb) horderly.1 horderly.2

theorem left_sublist (d : Delivery) (rest : List Job) : (d.left rest).Sublist rest := by
  simp only [Delivery.left]
  split
  · split
    · exact List.nil_sublist rest
    · split
      · exact List.dropLast_sublist rest
      · exact List.Sublist.refl rest
  · exact List.Sublist.refl rest

theorem Inv.page (h : Inv s) {ok : Bool} (hs' : s.page i ok = some s') : Inv s' := by
  simp only [State.page] at hs'
  split at hs'
  · cases hs'
  · rename_i d hd
    split at hs'
    · cases hs'
    · rename_i job rest htodo
      split at hs' <;> cases hs'
      · exact h.add hd htodo
      · refine h.update hd rfl rfl rfl rfl ?_ ?_ ?_ (fun _ => .inl) (fun _ => .inl) rfl
        · rw [htodo]
          exact (left_sublist d rest).map _ |>.trans (List.sublist_cons_self ..)
        · intro _
          exact .inl (.inr (by rw [htodo]; exact List.cons_ne_nil _ _))
        · intro hne
          exact absurd rfl hne

theorem Inv.finish (h : Inv s) {ok : Bool} (hs' : s.finish i ok = some s') : Inv s' := by
  simp only [State.finish] at hs'
  split at hs'
  · cases hs'
  · rename_i d hd
    split at hs'
    · rename_i hworking
      cases hs'
      -- the delivery has queued all its pages, and keeps them
      obtain ⟨n, hn, hnumbers⟩ := h.numbered i d hd (by rw [hworking.1]; decide)
      rw [hworking.2, List.map_nil, List.append_nil] at hnumbers
      have hwhole : Whole { s with
          key := s.setKey d ok
          deliveries := s.deliveries.set i { d with stage := .returned }
          returned := d.run :: s.returned } d.run :=
        ⟨i, _, n, getElem?_set_of_some hd, rfl, hworking.2, hn, hnumbers⟩
      refine h.update hd rfl rfl rfl rfl (List.Sublist.refl _) ?_ ?_ ?_ ?_ rfl
      · intro _
        exact .inl (.inl hworking.1)
      · intro _
        exact ⟨by rw [hworking.1]; decide, rfl⟩
      · intro run hrun
        rcases List.mem_cons.mp hrun with rfl | hrun
        · exact .inr hwhole
        · exact .inl hrun
      · intro k hk
        simp only [State.setKey] at hk
        split at hk
        · cases hk
          exact .inr hwhole
        · exact .inl hk
    · cases hs'

theorem Inv.crash (h : Inv s) (hs' : s.crash i = some s') : Inv s' := by
  simp only [State.crash] at hs'
  split at hs'
  · cases hs'
  · rename_i d hd
    cases hs'
    refine h.update hd rfl rfl rfl rfl (List.nil_sublist _) ?_ ?_ (fun _ => .inl) (fun _ => .inl) rfl
    · rintro ((hworking | htodo) | hadded)
      · cases hworking
      · exact absurd rfl htodo
      · exact .inr hadded
    · intro hne
      exact absurd rfl hne

theorem Inv.step (h : Inv s) {e : Event} (horderly : Orderly s e)
    (hs' : s.step limit e = some s') : Inv s' := by
  cases e with
  | wait seconds =>
      cases hs'
      exact ⟨h.single, h.owned, h.unowned, h.nodup, h.numbered, h.whole, h.keyed, h.own⟩
  | deliver run campaign rows =>
      cases hs'
      exact h.deliver horderly
  | page i ok => exact h.page hs'
  | finish i ok => exact h.finish hs'
  | crash i => exact h.crash hs'

/-! ## Each page once -/

theorem Inv.count_le (h : Inv s) (run p : Nat) : s.queued.count (run, p) ≤ 1 := by
  rw [count_pagesOf]
  by_cases hlive : ∃ (i : Nat) (d : Delivery), s.deliveries[i]? = some d ∧ d.run = run ∧ d.Live
  · obtain ⟨i, d, hd, rfl, hlive⟩ := hlive
    rw [h.owned i d hd hlive]
    exact List.nodup_iff_count_le_one.mp (h.nodup i d hd).of_append_left p
  · rw [h.unowned run fun i d hd hrun hl => hlive ⟨i, d, hd, hrun, hl⟩]
    exact Nat.zero_le 1

theorem Inv.count_whole (h : Inv s) {run : Nat} (hwhole : Whole s run) :
    ∃ n, 0 < n ∧ ∀ p, s.queued.count (run, p) = if 1 ≤ p ∧ p ≤ n then 1 else 0 := by
  obtain ⟨i, d, n, hd, rfl, _, hn, hadded⟩ := hwhole
  have hlive : d.Live := by
    refine .inr fun hnil => ?_
    rw [hadded, List.range'_eq_nil_iff] at hnil
    omega
  refine ⟨n, hn, fun p => ?_⟩
  rw [count_pagesOf, h.owned i d hd hlive, hadded, (List.nodup_range' : (List.range' 1 n).Nodup).count]
  simp only [List.mem_range'_1]
  refine if_congr ?_ rfl rfl
  omega

end

/-- In every run of orderly deliveries, every page is queued at most once, each run a
delivery of which has returned had its pages queued exactly once, and no delivery was
stopped by the key of another run. -/
theorem queued_once (limit : BatchLimit) (es : List Event) (s : State)
    (horderly : Runs.Meets (State.step limit) Orderly init es)
    (hs : Runs.exec (State.step limit) init es = some s) :
    (∀ run p, s.queued.count (run, p) ≤ 1) ∧
      (∀ run ∈ s.returned, ∃ n, 0 < n ∧
        ∀ p, s.queued.count (run, p) = if 1 ≤ p ∧ p ≤ n then 1 else 0) ∧
      ∀ b ∈ s.blocked, b.2 = b.1 := by
  have hinv : Inv s := Runs.invariant (fun _ _ _ h hc hs => h.step hc hs) inv_init horderly hs
  exact ⟨hinv.count_le, fun run hrun => hinv.count_whole (hinv.whole run hrun), hinv.own⟩

/-- A campaign that goes to two pages of one contact each. -/
def sampleCampaign (spreadSending : Int) : Campaign where
  id := 1
  title := "news"
  query := some "SELECT contact_id FROM contacts_tags"
  type := .RECURRING
  messageType := .SMS
  campaignMessage := [⟨1, false, {}⟩]
  spreadSending := some spreadSending

def sampleLimit : BatchLimit := ⟨1, Nat.one_pos⟩

/-- The events of a delivery that fails nowhere. -/
def sampleDelivery (run i : Nat) (spreadSending : Int) : List Event :=
  [.deliver run (sampleCampaign spreadSending) (.inserted 2), .page i true, .page i true,
    .finish i true]

/-- A run is delivered twice, and the next one when the key has expired. -/
theorem queued_once_sample :
    ∃ s, Runs.exec (State.step sampleLimit) init
        (sampleDelivery 0 0 1 ++ [.deliver 0 (sampleCampaign 1) (.inserted 2), .wait 60] ++
          sampleDelivery 1 1 1) = some s ∧
      s.queued = [(0, 1), (0, 2), (1, 1), (1, 2)] ∧ s.returned = [1, 0, 0] ∧
      ∀ run p, s.queued.count (run, p) ≤ 1 := by
  refine ⟨_, rfl, rfl, rfl, (queued_once sampleLimit
    (sampleDelivery 0 0 1 ++ [.deliver 0 (sampleCampaign 1) (.inserted 2), .wait 60] ++
      sampleDelivery 1 1 1) _ ?_ rfl).1⟩
  decide +kernel

/-- The second of two pages cannot be queued, and the retry queues the first again. A
daily run that is spread over a day and an hour blocks the one of the next day. -/
theorem queued_twice :
    (Runs.exec (State.step sampleLimit) init
        [.deliver 0 (sampleCampaign 1) (.inserted 2), .page 0 true, .page 0 false,
          .deliver 0 (sampleCampaign 1) (.inserted 2), .page 1 true]).map
      (fun s => s.queued.count (0, 1)) = some 2 ∧
    (Runs.exec (State.step sampleLimit) init
        (sampleDelivery 0 0 1500 ++
          [.wait 86400, .deliver 1 (sampleCampaign 1500) (.inserted 2)])).map
      (fun s => (s.blocked, s.queued.count (1, 1))) = some ([(1, 0)], 0) := by
  decide +kernel

end OpenBms.Packer.Deliveries
