/-
# `OpenBms.Lib.CacheAside` — a cache filled by read-then-set and cleared by writers

A query is looked up in the cache; on a miss it is answered by two reads of the tables,
and the answer is set in the cache before it is returned.  A change writes the tables, one
statement after the other, and then clears the cache: it looks up what to clear, lists the
keys of a pattern, and deletes them; or it clears nothing.  Every statement and every
command of the cache is a step, so that a run is any interleaving.

Entries and requests carry the changes that have written what they were read from.

| phase of a change | entries it may still delete |
| :-- | :-- |
| writing, or looking up | all |
| with a pattern to list | those of the pattern |
| with keys to delete | those keys |
| returned | none |

**Proved here.**

    while no change returns before what it has outdated is
    deleted, and no outdated answer is set when no such change
    will delete it, an answer is the one of the tables, or was
    outdated by changes only that have not returned (`right_run`)
-/
import OpenBms.Lib.Runs

namespace CacheAside

/-- What a change finds to clear. -/
inductive Found (Key : Type) where
  | nothing
  | pattern (scope : Key → Bool)
  | exactly (keys : Key → Bool)

def Found.scope {Key : Type} : Found Key → Key → Bool
  | .nothing => fun _ => false
  | .pattern scope => scope
  | .exactly keys => keys

/-- How a query is answered from the tables, what a change writes, which queries a write is
about, and what the change goes on to clear.  A query that a write is not about is answered
as before; one that it is about has a key that concerns its target, and goes on to. -/
structure Source (Db Query First Second Answer Key Write Target : Type) where
  key : Query → Key
  first : Db → Query → First
  stop : Query → First → Option (Option Answer)
  second : Db → Query → First → Second
  answer : Query → First → Second → Option Answer
  apply : Db → Write → Db
  touches : Db → Write → Query → Bool
  target : Write → Option Target
  locate : Db → Target → Found Key
  Concerns : Db → Target → Key → Prop
  first_apply : ∀ db w q, touches db w q = false → first (apply db w) q = first db q
  second_apply : ∀ db w q, touches db w q = false →
    second (apply db w) q (first db q) = second db q (first db q)
  concerns_touched : ∀ db w q t, target w = some t → touches db w q = true →
    Concerns (apply db w) t (key q)
  concerns_apply : ∀ db w t k, Concerns db t k → Concerns (apply db w) t k

structure Entry (Query Answer : Type) where
  query : Query
  answer : Answer
  touchedBy : List Nat

inductive Progress (First Answer : Type) where
  | asked
  | read (first : First)
  | answered (answer : Answer)

structure Request (Query First Answer : Type) where
  query : Query
  progress : Progress First Answer
  touchedBy : List Nat

/-- `swallows`: a failing deletion is no error of the change. -/
inductive Phase (Key Target : Type) where
  | idle
  | writing (target : Option Target)
  | sweeping (scope : Key → Bool)
  | deleting (keys : Key → Bool) (swallows : Bool)
  | returned

/-- The change may still delete the key. -/
def Phase.Covers {Key Target : Type} : Phase Key Target → Key → Prop
  | .writing _, _ => True
  | .sweeping scope, k => scope k = true
  | .deleting keys _, k => keys k = true
  | .idle, _ | .returned, _ => False

structure State (Db Query First Answer Key Target : Type) where
  db : Db
  cache : Key → Option (Entry Query Answer)
  requests : Nat → Option (Request Query First Answer)
  changes : Nat → Phase Key Target

inductive Label (Query Key Write : Type) where
  | get (r : Nat) (query : Query)
  | first (r : Nat)
  | second (r : Nat)
  | fill (r : Nat) (ok : Bool)
  | write (c : Nat) (w : Write)
  | look (c : Nat)
  | list (c : Nat) (ok : Bool)
  | delete (c : Nat) (ok : Bool)
  | finish (c : Nat)
  | expire (key : Key)

section

variable {Db Query First Second Answer Key Write Target : Type} [DecidableEq Key]
  [DecidableEq Answer] [DecidableEq Target]
  (source : Source Db Query First Second Answer Key Write Target)

/-- The answer of the tables. -/
def Source.resolve (db : Db) (q : Query) : Option Answer :=
  match source.stop q (source.first db q) with
  | some answer => answer
  | none => source.answer q (source.first db q) (source.second db q (source.first db q))

/-- An entry after a write: the change that wrote is noted, until the answer is again the one
of the tables. -/
def Source.touchEntry (db : Db) (c : Nat) (w : Write) (e : Entry Query Answer) :
    Entry Query Answer :=
  { e with
    touchedBy :=
      if source.resolve (source.apply db w) e.query = some e.answer then []
      else if source.touches db w e.query then c :: e.touchedBy else e.touchedBy }

def Source.touchRequest (db : Db) (c : Nat) (w : Write) (req : Request Query First Answer) :
    Request Query First Answer :=
  { req with
    touchedBy := if source.touches db w req.query then c :: req.touchedBy else req.touchedBy }

namespace State

def setRequest (s : State Db Query First Answer Key Target) (r : Nat)
    (req : Option (Request Query First Answer)) : State Db Query First Answer Key Target :=
  { s with requests := Function.update s.requests r req }

def setChange (s : State Db Query First Answer Key Target) (c : Nat) (phase : Phase Key Target) :
    State Db Query First Answer Key Target :=
  { s with changes := Function.update s.changes c phase }

def written (s : State Db Query First Answer Key Target) (c : Nat) (w : Write) :
    State Db Query First Answer Key Target where
  db := source.apply s.db w
  cache k := (s.cache k).map (source.touchEntry s.db c w)
  requests r := (s.requests r).map (source.touchRequest s.db c w)
  changes := Function.update s.changes c (.writing (source.target w))

/-- A step that cannot be taken changes nothing.  The statements of a change have one
target. -/
def step (s : State Db Query First Answer Key Target) :
    Label Query Key Write → State Db Query First Answer Key Target
  | .get r q =>
      match s.requests r, s.cache (source.key q) with
      | none, none => s.setRequest r (some ⟨q, .asked, []⟩)
      | _, _ => s
  | .first r =>
      match s.requests r with
      | some ⟨q, .asked, touchedBy⟩ =>
          match source.stop q (source.first s.db q) with
          | some none => s.setRequest r none
          | some (some answer) => s.setRequest r (some ⟨q, .answered answer, touchedBy⟩)
          | none => s.setRequest r (some ⟨q, .read (source.first s.db q), touchedBy⟩)
      | _ => s
  | .second r =>
      match s.requests r with
      | some ⟨q, .read first, touchedBy⟩ =>
          match source.answer q first (source.second s.db q first) with
          | none => s.setRequest r none
          | some answer => s.setRequest r (some ⟨q, .answered answer, touchedBy⟩)
      | _ => s
  | .fill r ok =>
      match s.requests r with
      | some ⟨q, .answered answer, touchedBy⟩ =>
          let s' := s.setRequest r none
          let touchedBy := if source.resolve s.db q = some answer then [] else touchedBy
          if ok then
            { s' with cache := Function.update s.cache (source.key q) (some ⟨q, answer, touchedBy⟩) }
          else s'
      | _ => s
  | .write c w =>
      match s.changes c with
      | .idle => s.written source c w
      | .writing target => if source.target w = target then s.written source c w else s
      | _ => s
  | .look c =>
      match s.changes c with
      | .writing (some target) =>
          match source.locate s.db target with
          | .nothing => s.setChange c .returned
          | .pattern scope => s.setChange c (.sweeping scope)
          | .exactly keys => s.setChange c (.deleting keys false)
      | _ => s
  | .list c ok =>
      match s.changes c with
      | .sweeping scope =>
          if ok then s.setChange c (.deleting (fun k => scope k && (s.cache k).isSome) true)
          else s.setChange c .returned
      | _ => s
  | .delete c ok =>
      match s.changes c with
      | .deleting keys swallows =>
          if ok then
            { s.setChange c .returned with cache := fun k => if keys k then none else s.cache k }
          else if swallows then s.setChange c .returned else s
      | _ => s
  | .finish c =>
      match s.changes c with
      | .writing none => s.setChange c .returned
      | _ => s
  | .expire k => { s with cache := Function.update s.cache k none }

/-- A cached answer has been outdated by the change. -/
def Outdated (s : State Db Query First Answer Key Target) (c : Nat) (k : Key) : Prop :=
  ∃ e, s.cache k = some e ∧ c ∈ e.touchedBy

/-- An answer that is given is the one of the tables, or outdated: a cached one only by
changes that have not returned, and one that was read by a change since the request began. -/
def Right (s : State Db Query First Answer Key Target) : Label Query Key Write → Prop
  | .get _ q => ∀ e, s.cache (source.key q) = some e →
      source.resolve s.db e.query = some e.answer ∨
        (e.touchedBy ≠ [] ∧ ∀ c ∈ e.touchedBy, s.changes c ≠ .returned)
  | .fill r _ => ∀ q answer touchedBy, s.requests r = some ⟨q, .answered answer, touchedBy⟩ →
      source.resolve s.db q = some answer ∨ touchedBy ≠ []
  | _ => True

/-- What a step needs, that the answers stay right. -/
def Guarded (s : State Db Query First Answer Key Target) : Label Query Key Write → Prop
  | .fill r ok => ok = true → ∀ q answer touchedBy,
      s.requests r = some ⟨q, .answered answer, touchedBy⟩ →
        source.resolve s.db q = some answer ∨
          ∀ c ∈ touchedBy, (s.changes c).Covers (source.key q)
  | .look c => ∀ target, s.changes c = .writing (some target) →
      ∀ k, s.Outdated c k → source.Concerns s.db target k →
        (source.locate s.db target).scope k = true
  | .list c ok => ok = false → ∀ scope, s.changes c = .sweeping scope → ∀ k, ¬ s.Outdated c k
  | .delete c ok => ok = false → ∀ keys, s.changes c = .deleting keys true →
      ∀ k, ¬ s.Outdated c k
  | .finish c => s.changes c = .writing none → ∀ k, ¬ s.Outdated c k
  | _ => True

/-- A cached answer that no change has outdated is the one of the tables, and every change
that has outdated it will delete it.  What a request has read is what the tables say, if no
change has written it since.  The keys of what a change has written concern its target. -/
structure Coherent (s : State Db Query First Answer Key Target) : Prop where
  key : ∀ k e, s.cache k = some e → source.key e.query = k
  fresh : ∀ k e, s.cache k = some e → e.touchedBy = [] →
    source.resolve s.db e.query = some e.answer
  covered : ∀ k e, s.cache k = some e → ∀ c ∈ e.touchedBy, (s.changes c).Covers k
  read : ∀ r q first, s.requests r = some ⟨q, .read first, []⟩ →
    first = source.first s.db q ∧ source.stop q first = none
  answered : ∀ r q answer, s.requests r = some ⟨q, .answered answer, []⟩ →
    source.resolve s.db q = some answer
  concerns : ∀ k e, s.cache k = some e → ∀ c ∈ e.touchedBy, ∀ t,
    s.changes c = .writing (some t) → source.Concerns s.db t k
  concerning : ∀ r req, s.requests r = some req → ∀ c ∈ req.touchedBy,
    s.changes c ≠ .idle ∧
      ∀ t, s.changes c = .writing (some t) → source.Concerns s.db t (source.key req.query)

variable {source} {s : State Db Query First Answer Key Target}

omit [DecidableEq Key] [DecidableEq Answer] [DecidableEq Target] in
theorem resolve_apply {db : Db} {w : Write} {q : Query} (h : source.touches db w q = false) :
    source.resolve (source.apply db w) q = source.resolve db q := by
  unfold Source.resolve
  rw [source.first_apply db w q h, source.second_apply db w q h]

omit [DecidableEq Key] [DecidableEq Target] in
theorem mem_touchEntry {db : Db} {c c' : Nat} {w : Write} {e : Entry Query Answer}
    (h : c' ∈ (source.touchEntry db c w e).touchedBy) :
    (c' = c ∧ source.touches db w e.query = true) ∨ c' ∈ e.touchedBy := by
  simp only [Source.touchEntry] at h
  split_ifs at h with hfresh htouches
  · cases h
  · exact (List.mem_cons.mp h).imp_left fun hsame => ⟨hsame, htouches⟩
  · exact .inr h

omit [DecidableEq Key] [DecidableEq Answer] [DecidableEq Target] in
theorem mem_touchRequest {db : Db} {c c' : Nat} {w : Write} {req : Request Query First Answer}
    (h : c' ∈ (source.touchRequest db c w req).touchedBy) :
    (c' = c ∧ source.touches db w req.query = true) ∨ c' ∈ req.touchedBy := by
  simp only [Source.touchRequest] at h
  split_ifs at h with htouches
  · exact (List.mem_cons.mp h).imp_left fun hsame => ⟨hsame, htouches⟩
  · exact .inr h

omit [DecidableEq Key] [DecidableEq Answer] [DecidableEq Target] in
/-- A request takes its next step: it must have read what the tables say. -/
theorem Coherent.setRequest (h : s.Coherent source) {r : Nat}
    {req : Option (Request Query First Answer)}
    (hread : ∀ q first, req = some ⟨q, .read first, []⟩ →
      first = source.first s.db q ∧ source.stop q first = none)
    (hanswered : ∀ q answer, req = some ⟨q, .answered answer, []⟩ →
      source.resolve s.db q = some answer)
    (hkept : ∀ new, req = some new → new.touchedBy = [] ∨
      ∃ old, s.requests r = some old ∧ old.query = new.query ∧ old.touchedBy = new.touchedBy) :
    (s.setRequest r req).Coherent source := by
  refine ⟨h.key, h.fresh, h.covered, fun r' q first hreq => ?_, fun r' q answer hreq => ?_,
    h.concerns, fun r' new hreq c hc => ?_⟩
  · change Function.update s.requests r req r' = _ at hreq
    by_cases hsame : r' = r
    · subst hsame
      rw [Function.update_self] at hreq
      exact hread q first hreq
    · rw [Function.update_of_ne hsame] at hreq
      exact h.read r' q first hreq
  · change Function.update s.requests r req r' = _ at hreq
    by_cases hsame : r' = r
    · subst hsame
      rw [Function.update_self] at hreq
      exact hanswered q answer hreq
    · rw [Function.update_of_ne hsame] at hreq
      exact h.answered r' q answer hreq
  · change Function.update s.requests r req r' = _ at hreq
    by_cases hsame : r' = r
    · subst hsame
      rw [Function.update_self] at hreq
      rcases hkept new hreq with hnil | ⟨old, hold, hquery, htouched⟩
      · rw [hnil] at hc
        cases hc
      · rw [← htouched] at hc
        rw [← hquery]
        exact h.concerning r' old hold c hc
    · rw [Function.update_of_ne hsame] at hreq
      exact h.concerning r' new hreq c hc

omit [DecidableEq Key] [DecidableEq Answer] [DecidableEq Target] in
theorem Coherent.removeRequest (h : s.Coherent source) (r : Nat) :
    (s.setRequest r none).Coherent source :=
  h.setRequest (fun _ _ hreq => by cases hreq) (fun _ _ hreq => by cases hreq)
    (fun _ hreq => by cases hreq)

omit [DecidableEq Key] [DecidableEq Answer] [DecidableEq Target] in
/-- A change goes on from its statements: it must still delete what it has outdated. -/
theorem Coherent.setChange (h : s.Coherent source) {c : Nat} {phase : Phase Key Target}
    (hidle : phase ≠ .idle) (hphase : ∀ target, phase ≠ .writing target)
    (hcovers : ∀ k, s.Outdated c k → phase.Covers k) : (s.setChange c phase).Coherent source := by
  refine ⟨h.key, h.fresh, fun k e he c' hc' => ?_, h.read, h.answered,
    fun k e he c' hc' t ht => ?_, fun r req hreq c' hc' => ?_⟩
  · show (Function.update s.changes c phase c').Covers k
    by_cases hsame : c' = c
    · subst hsame
      rw [Function.update_self]
      exact hcovers k ⟨e, he, hc'⟩
    · rw [Function.update_of_ne hsame]
      exact h.covered k e he c' hc'
  · change Function.update s.changes c phase c' = _ at ht
    by_cases hsame : c' = c
    · subst hsame
      rw [Function.update_self] at ht
      exact absurd ht (hphase _)
    · rw [Function.update_of_ne hsame] at ht
      exact h.concerns k e he c' hc' t ht
  · show Function.update s.changes c phase c' ≠ .idle ∧
      ∀ t, Function.update s.changes c phase c' = .writing (some t) → _
    by_cases hsame : c' = c
    · subst hsame
      rw [Function.update_self]
      exact ⟨hidle, fun t ht => absurd ht (hphase _)⟩
    · rw [Function.update_of_ne hsame]
      exact h.concerning r req hreq c' hc'

omit [DecidableEq Key] [DecidableEq Target] in
theorem Coherent.written (h : s.Coherent source) {c : Nat} {w : Write}
    (hphase : s.changes c = .idle ∨ s.changes c = .writing (source.target w)) :
    (s.written source c w).Coherent source := by
  refine ⟨fun k e he => ?_, fun k e he htouched => ?_, fun k e he c' hc' => ?_,
    fun r q first hreq => ?_, fun r q answer hreq => ?_, fun k e he c' hc' t ht => ?_,
    fun r req hreq c' hc' => ?_⟩
  · obtain ⟨e', he', rfl⟩ := Option.map_eq_some_iff.mp he
    exact h.key k e' he'
  · obtain ⟨e', he', rfl⟩ := Option.map_eq_some_iff.mp he
    show source.resolve (source.apply s.db w) e'.query = some e'.answer
    by_contra hstale
    simp only [Source.touchEntry, if_neg hstale] at htouched
    cases htouches : source.touches s.db w e'.query with
    | true => simp only [htouches, if_true, List.cons_ne_nil] at htouched
    | false =>
        simp only [htouches, Bool.false_eq_true, if_false] at htouched
        exact hstale ((resolve_apply htouches).trans (h.fresh k e' he' htouched))
  · obtain ⟨e', he', rfl⟩ := Option.map_eq_some_iff.mp he
    show (Function.update s.changes c _ c').Covers k
    by_cases hsame : c' = c
    · subst hsame
      rw [Function.update_self]
      trivial
    · rw [Function.update_of_ne hsame]
      exact h.covered k e' he' c' ((mem_touchEntry hc').resolve_left fun hnew => hsame hnew.1)
  · obtain ⟨req, hold, hnew⟩ := Option.map_eq_some_iff.mp hreq
    obtain ⟨q', progress, touchedBy⟩ := req
    simp only [Source.touchRequest, Request.mk.injEq] at hnew
    obtain ⟨rfl, rfl, htouched⟩ := hnew
    cases htouches : source.touches s.db w q' with
    | true => simp only [htouches, if_true, List.cons_ne_nil] at htouched
    | false =>
        simp only [htouches, Bool.false_eq_true, if_false] at htouched
        subst htouched
        obtain ⟨hfirst, hstop⟩ := h.read r q' first hold
        exact ⟨hfirst.trans (source.first_apply s.db w q' htouches).symm, hstop⟩
  · obtain ⟨req, hold, hnew⟩ := Option.map_eq_some_iff.mp hreq
    obtain ⟨q', progress, touchedBy⟩ := req
    simp only [Source.touchRequest, Request.mk.injEq] at hnew
    obtain ⟨rfl, rfl, htouched⟩ := hnew
    cases htouches : source.touches s.db w q' with
    | true => simp only [htouches, if_true, List.cons_ne_nil] at htouched
    | false =>
        simp only [htouches, Bool.false_eq_true, if_false] at htouched
        subst htouched
        exact (resolve_apply htouches).trans (h.answered r q' answer hold)
  · obtain ⟨e', he', rfl⟩ := Option.map_eq_some_iff.mp he
    change Function.update s.changes c _ c' = _ at ht
    by_cases hsame : c' = c
    · subst hsame
      rw [Function.update_self] at ht
      have htarget : source.target w = some t := Phase.writing.inj ht
      rcases mem_touchEntry hc' with ⟨-, htouches⟩ | hold
      · rw [← h.key k e' he']
        exact source.concerns_touched s.db w e'.query t htarget htouches
      · rcases hphase with hidle | hwriting
        · have hcovers := h.covered k e' he' c' hold
          rw [hidle] at hcovers
          exact hcovers.elim
        · exact source.concerns_apply s.db w t k
            (h.concerns k e' he' c' hold t (htarget ▸ hwriting))
    · rw [Function.update_of_ne hsame] at ht
      exact source.concerns_apply s.db w t k
        (h.concerns k e' he' c' ((mem_touchEntry hc').resolve_left fun hnew => hsame hnew.1) t ht)
  · obtain ⟨old, hold, rfl⟩ := Option.map_eq_some_iff.mp hreq
    show Function.update s.changes c _ c' ≠ .idle ∧
      ∀ t, Function.update s.changes c _ c' = .writing (some t) →
        source.Concerns (source.apply s.db w) t (source.key old.query)
    by_cases hsame : c' = c
    · subst hsame
      rw [Function.update_self]
      refine ⟨(fun hidle => by cases hidle), fun t ht => ?_⟩
      have htarget : source.target w = some t := Phase.writing.inj ht
      rcases mem_touchRequest hc' with ⟨-, htouches⟩ | hkept
      · exact source.concerns_touched s.db w old.query t htarget htouches
      · obtain ⟨hnotIdle, hconcerns⟩ := h.concerning r old hold c' hkept
        exact source.concerns_apply s.db w t _
          (hconcerns t (htarget ▸ hphase.resolve_left hnotIdle))
    · rw [Function.update_of_ne hsame]
      obtain ⟨hnotIdle, hconcerns⟩ := h.concerning r old hold c'
        ((mem_touchRequest hc').resolve_left fun hnew => hsame hnew.1)
      exact ⟨hnotIdle, fun t ht => source.concerns_apply s.db w t _ (hconcerns t ht)⟩

omit [DecidableEq Key] [DecidableEq Answer] [DecidableEq Target] in
/-- Entries are dropped. -/
theorem Coherent.fewer (h : s.Coherent source) {cache : Key → Option (Entry Query Answer)}
    (hkept : ∀ k e, cache k = some e → s.cache k = some e) :
    { s with cache := cache }.Coherent source :=
  ⟨fun k e he => h.key k e (hkept k e he), fun k e he => h.fresh k e (hkept k e he),
    fun k e he => h.covered k e (hkept k e he), h.read, h.answered,
    fun k e he => h.concerns k e (hkept k e he), h.concerning⟩

omit [DecidableEq Answer] [DecidableEq Target] in
theorem Coherent.setEntry (h : s.Coherent source) {q : Query} {answer : Answer}
    {touchedBy : List Nat} (hfresh : touchedBy = [] → source.resolve s.db q = some answer)
    (hcovers : ∀ c ∈ touchedBy, (s.changes c).Covers (source.key q))
    (hconcerns : ∀ c ∈ touchedBy, ∀ t, s.changes c = .writing (some t) →
      source.Concerns s.db t (source.key q)) :
    { s with
      cache := Function.update s.cache (source.key q) (some ⟨q, answer, touchedBy⟩)
    }.Coherent source := by
  have hentry : ∀ k e, Function.update s.cache (source.key q) (some ⟨q, answer, touchedBy⟩) k =
      some e → (k = source.key q ∧ e = ⟨q, answer, touchedBy⟩) ∨ s.cache k = some e := by
    intro k e he
    by_cases hk : k = source.key q
    · subst hk
      rw [Function.update_self] at he
      exact .inl ⟨rfl, (Option.some.inj he).symm⟩
    · rw [Function.update_of_ne hk] at he
      exact .inr he
  refine ⟨fun k e he => ?_, fun k e he htouched => ?_, fun k e he c hc => ?_, h.read, h.answered,
    fun k e he c hc t ht => ?_, h.concerning⟩
  · rcases hentry k e he with ⟨rfl, rfl⟩ | hold
    · rfl
    · exact h.key k e hold
  · rcases hentry k e he with ⟨rfl, rfl⟩ | hold
    · exact hfresh htouched
    · exact h.fresh k e hold htouched
  · rcases hentry k e he with ⟨rfl, rfl⟩ | hold
    · exact hcovers c hc
    · exact h.covered k e hold c hc
  · rcases hentry k e he with ⟨rfl, rfl⟩ | hold
    · exact hconcerns c hc t ht
    · exact h.concerns k e hold c hc t ht

omit [DecidableEq Key] [DecidableEq Answer] [DecidableEq Target] in
theorem Coherent.returned (h : s.Coherent source) {c : Nat} (hclear : ∀ k, ¬ s.Outdated c k) :
    (s.setChange c .returned).Coherent source := by
  refine h.setChange ?_ ?_ fun k hk => absurd hk (hclear k)
  · intro hphase
    cases hphase
  · intro target hphase
    cases hphase

/-! ### The steps -/

theorem Coherent.first (h : s.Coherent source) (r : Nat) :
    (s.step source (.first r)).Coherent source := by
  simp only [State.step]
  split
  · rename_i q touchedBy hreq
    have hkept : ∀ progress (new : Request Query First Answer),
        some ⟨q, progress, touchedBy⟩ = some new → new.touchedBy = [] ∨
          ∃ old, s.requests r = some old ∧ old.query = new.query ∧
            old.touchedBy = new.touchedBy := by
      intro progress new hnew
      obtain rfl := Option.some.inj hnew
      exact .inr ⟨_, hreq, rfl, rfl⟩
    split
    · exact h.removeRequest r
    · rename_i answer hstop
      refine h.setRequest (fun _ _ hreq => by cases hreq) (fun q' answer' hreq' => ?_) (hkept _)
      cases hreq'
      unfold Source.resolve
      rw [hstop]
    · rename_i hstop
      refine h.setRequest (fun q' first' hreq' => ?_) (fun _ _ hreq => by cases hreq) (hkept _)
      cases hreq'
      exact ⟨rfl, hstop⟩
  · exact h

theorem Coherent.second (h : s.Coherent source) (r : Nat) :
    (s.step source (.second r)).Coherent source := by
  simp only [State.step]
  split
  · rename_i q first touchedBy hreq
    split
    · exact h.removeRequest r
    · rename_i answer hanswer
      refine h.setRequest (fun _ _ hreq => by cases hreq) (fun q' answer' hreq' => ?_)
        fun new hnew => ?_
      · cases hreq'
        obtain ⟨rfl, hstop⟩ := h.read r q first hreq
        unfold Source.resolve
        rw [hstop]
        exact hanswer
      · obtain rfl := Option.some.inj hnew
        exact .inr ⟨_, hreq, rfl, rfl⟩
  · exact h

theorem Coherent.fill (h : s.Coherent source) {r : Nat} {ok : Bool}
    (hguarded : s.Guarded source (.fill r ok)) : (s.step source (.fill r ok)).Coherent source := by
  simp only [State.step]
  split
  · rename_i q answer touchedBy hreq
    have hremoved : (s.setRequest r none).Coherent source := h.removeRequest r
    cases ok with
    | false => exact hremoved
    | true =>
        simp only [if_true]
        refine hremoved.setEntry (fun htouched => ?_) (fun c hc => ?_) fun c hc t ht => ?_
        · by_contra hstale
          have hstale : source.resolve s.db q ≠ some answer := hstale
          rw [if_neg hstale] at htouched
          subst htouched
          exact hstale (h.answered r q answer hreq)
        · split at hc
          · cases hc
          · rename_i hstale
            exact (hguarded rfl q answer touchedBy hreq).resolve_left hstale c hc
        · split at hc
          · cases hc
          · exact (h.concerning r _ hreq c hc).2 t ht
  · exact h

theorem Coherent.write (h : s.Coherent source) (c : Nat) (w : Write) :
    (s.step source (.write c w)).Coherent source := by
  simp only [State.step]
  split
  · rename_i hphase
    exact h.written (.inl hphase)
  · rename_i target hphase
    split
    · rename_i htarget
      exact h.written (.inr (htarget ▸ hphase))
    · exact h
  · exact h

theorem Coherent.look (h : s.Coherent source) {c : Nat}
    (hguarded : s.Guarded source (.look c)) : (s.step source (.look c)).Coherent source := by
  simp only [State.step]
  split
  · rename_i target hphase
    have hlocated : ∀ k, s.Outdated c k → (source.locate s.db target).scope k = true := by
      rintro k ⟨e, he, hc⟩
      exact hguarded target hphase k ⟨e, he, hc⟩ (h.concerns k e he c hc target hphase)
    cases hfound : source.locate s.db target with
    | nothing =>
        rw [hfound] at hlocated
        exact h.returned fun k hk => absurd (hlocated k hk) Bool.false_ne_true
    | pattern scope =>
        rw [hfound] at hlocated
        exact h.setChange (fun hp => by cases hp) (fun _ hp => by cases hp) hlocated
    | exactly keys =>
        rw [hfound] at hlocated
        exact h.setChange (fun hp => by cases hp) (fun _ hp => by cases hp) hlocated
  · exact h

theorem Coherent.list (h : s.Coherent source) {c : Nat} {ok : Bool}
    (hguarded : s.Guarded source (.list c ok)) : (s.step source (.list c ok)).Coherent source := by
  simp only [State.step]
  split
  · rename_i scope hphase
    cases ok with
    | true =>
        refine h.setChange (fun hp => by cases hp) (fun _ hp => by cases hp) fun k hk => ?_
        obtain ⟨e, he, hc⟩ := hk
        have hscope : (s.changes c).Covers k := h.covered k e he c hc
        rw [hphase] at hscope
        simp only [Phase.Covers, he, Option.isSome_some, Bool.and_true]
        exact hscope
    | false => exact h.returned (hguarded rfl scope hphase)
  · exact h

theorem Coherent.delete (h : s.Coherent source) {c : Nat} {ok : Bool}
    (hguarded : s.Guarded source (.delete c ok)) : (s.step source (.delete c ok)).Coherent source := by
  simp only [State.step]
  split
  · rename_i keys swallows hphase
    cases ok with
    | true =>
        have hkept : ∀ k e, (if keys k then none else s.cache k) = some e →
            keys k = false ∧ s.cache k = some e := by
          intro k e he
          cases hk : keys k with
          | true =>
              simp only [hk, if_true] at he
              cases he
          | false =>
              simp only [hk, Bool.false_eq_true, if_false] at he
              exact ⟨rfl, he⟩
        have hfewer := h.fewer fun k e he => (hkept k e he).2
        refine hfewer.returned ?_
        rintro k ⟨e, he, hc⟩
        obtain ⟨hk, he⟩ := hkept k e he
        have hcovers := h.covered k e he c hc
        rw [hphase] at hcovers
        exact absurd (hk.symm.trans hcovers) Bool.false_ne_true
    | false =>
        cases swallows with
        | true => exact h.returned (hguarded rfl keys hphase)
        | false => exact h
  · exact h

theorem Coherent.step (h : s.Coherent source) {label : Label Query Key Write}
    (hguarded : s.Guarded source label) : (s.step source label).Coherent source := by
  cases label with
  | get r q =>
      simp only [State.step]
      split
      · refine h.setRequest (fun _ _ hreq => by cases hreq) (fun _ _ hreq => by cases hreq)
          fun new hreq => ?_
        cases hreq
        exact .inl rfl
      · exact h
  | first r => exact h.first r
  | second r => exact h.second r
  | fill r ok => exact h.fill hguarded
  | write c w => exact h.write c w
  | look c => exact h.look hguarded
  | list c ok => exact h.list hguarded
  | delete c ok => exact h.delete hguarded
  | finish c =>
      simp only [State.step]
      split
      · rename_i hphase
        exact h.returned (hguarded hphase)
      · exact h
  | expire k =>
      refine h.fewer fun k' e he => ?_
      by_cases hsame : k' = k
      · subst hsame
        rw [Function.update_self] at he
        cases he
      · rw [Function.update_of_ne hsame] at he
        exact he

omit [DecidableEq Key] [DecidableEq Answer] [DecidableEq Target] in
theorem Coherent.right (h : s.Coherent source) (label : Label Query Key Write) :
    s.Right source label := by
  cases label with
  | get r q =>
      intro e he
      by_cases htouched : e.touchedBy = []
      · exact .inl (h.fresh _ e he htouched)
      · refine .inr ⟨htouched, fun c hc hreturned => ?_⟩
        have hcovers := h.covered _ e he c hc
        rw [hreturned] at hcovers
        exact hcovers
  | fill r ok =>
      intro q answer touchedBy hreq
      by_cases htouched : touchedBy = []
      · subst htouched
        exact .inl (h.answered r q answer hreq)
      · exact .inr htouched
  | _ => trivial

theorem right_run {start : State Db Query First Answer Key Target} (hstart : start.Coherent source)
    {labels : List (Label Query Key Write)}
    (hguarded : Runs.Meets (fun s label => some (s.step source label)) (Guarded source) start labels) :
    ∀ before label after, labels = before ++ label :: after →
      (before.foldl (State.step source) start).Right source label :=
  (Runs.always_steps (I := Coherent source) (K := Right source)
    (fun _ label h hguarded => ⟨h.step hguarded, h.right label⟩) hstart hguarded).2

end State

end

end CacheAside
