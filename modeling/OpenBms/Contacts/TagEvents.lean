/-
# `OpenBms.Contacts.TagEvents` — tags of contacts and the events about them

Four requests link tags to contacts and publish an event for what they changed.  Their
statements alternate; a row of `contacts_tags` is unique, and a row that is not committed
makes the next insert of it wait.

| request | reads | writes | publishes |
| :-- | :-- | :-- | :-- |
| `create`, `update` | the tags by their names | `ON CONFLICT DO NOTHING RETURNING` | what was returned |
| `importContacts` | the tags the contact has | `ON CONFLICT DO NOTHING` | what it did not read |
| `updateTag` add | the rows there are | `INSERT`, fails on a conflict | what it did not read |
| `updateTag` remove | the rows there are | `DELETE` | what it read |

**Proved here.**

    while the rows an import inserts are not there yet, the rows
    a removal deletes are those it read, the tags have names, and
    nothing fails after the write, every request publishes what
    it changed, each change once (`tag_events_match`)
    two removals of one row publish two events (`removed_once_published_twice`)
-/
import OpenBms.Lib.Runs

namespace OpenBms.Contacts.TagEvents

/-- A row of `contacts_tags`. -/
structure Relation where
  accountId : Nat
  contactId : Nat
  tagId : Nat
  deriving DecidableEq

inductive TagAction where
  | add
  | remove
  deriving DecidableEq

/-- A relation that comes or goes, or the event about it. -/
structure Change where
  action : TagAction
  relation : Relation
  deriving DecidableEq

structure Tag where
  id : Nat
  accountId : Nat
  name : String
  deriving DecidableEq

/-- The rows of `tags`; ids are unique. -/
structure TagTable where
  rows : List Tag
  nodup : (rows.map (·.id)).Nodup

inductive Request where
  | create (accountId : Nat) (tagName : Option String) (tagNames : List String)
  | update (accountId contactId : Nat) (tagName : Option String) (tagNames : List String)
  | importContacts (accountId rows : Nat) (tags : List String)
  | updateTag (accountId : Nat) (action : TagAction) (contacts tags : List Nat)
  deriving DecidableEq

/-- An import: how many rows of the file are left, and the tags for each of them. -/
structure Import where
  accountId : Nat
  rows : Nat
  tags : List Tag
  nodup : (tags.map (·.id)).Nodup

/-- Where a request stands.  `create` and `update` go from `resolve` to `commit` in one
transaction. -/
inductive Stage where
  | select (accountId : Nat) (action : TagAction) (contacts tags : List Nat)
  | write (accountId : Nat) (action : TagAction) (contacts tags : List Nat)
      (existing : List Relation)
  | resolve (accountId : Nat) (contactId : Option Nat) (names : List String)
  | attach (accountId : Nat) (contactId : Option Nat) (tags : List Tag)
  | commit (accountId : Nat) (inserted : List Relation)
  | save (batch : Import)
  | alreadyTagged (batch : Import) (contactId : Nat)
  | insertTags (batch : Import) (contactId : Nat) (newTags : List Tag)
  | build (accountId : Nat) (changes : List Change)
  | publish (changes : List Change) (rest : Option Import)
  | returned

/-- `present` are the committed rows, `uncommitted` tells whose transaction holds one.  For
each request `transitions` lists the relations it made come or go, and `published` its
events. -/
structure State where
  present : Relation → Bool
  uncommitted : Relation → Option Nat
  requests : Nat → Option Stage
  transitions : Nat → List Change
  published : Nat → List Change

/-- Before the first request. -/
def State.init (present : Relation → Bool) : State :=
  ⟨present, fun _ => none, fun _ => none, fun _ => [], fun _ => []⟩

section
variable (trim lower : String → String) (table : TagTable)

/-- The names of both inputs, without blank ones and repetitions. -/
def mergeTagInputs (tagName : Option String) (tagNames : List String) : List String :=
  (((tagNames ++ tagName.toList).map trim).filter (· ≠ "")).dedup

/-- The tags with these names; `none` stands for the 404. -/
def resolveTagsByName (names : List String) (accountId : Nat) : Option (List Tag) :=
  let uniqueNames := ((names.map fun n => lower (trim n)).filter (· ≠ "")).dedup
  let tags := table.rows.filter fun tag => tag.accountId = accountId ∧ lower tag.name ∈ uniqueNames
  if uniqueNames.all fun n => n ∈ tags.map fun tag => lower tag.name then some tags else none

/-- `find({ accountId, name: In(data.tags) })`. -/
def findTags (accountId : Nat) (names : List String) : List Tag :=
  table.rows.filter fun tag => tag.accountId = accountId ∧ tag.name ∈ names

theorem findTags_nodup (accountId : Nat) (names : List String) :
    ((findTags table accountId names).map (·.id)).Nodup :=
  table.nodup.sublist (List.filter_sublist.map _)

/-- The tag of a change has a name in the account. -/
def Named (accountId : Nat) (change : Change) : Bool :=
  table.rows.any fun tag =>
    tag.id = change.relation.tagId ∧ tag.accountId = accountId ∧ tag.name ≠ ""

/-- The rows that contacts and tags of a request make up. -/
def pairs (accountId : Nat) (contacts tags : List Nat) : List Relation :=
  (contacts.flatMap fun contactId => tags.map fun tagId => ⟨accountId, contactId, tagId⟩).dedup

def Import.next (batch : Import) : Stage :=
  if batch.rows ≤ 1 then .returned else .save { batch with rows := batch.rows - 1 }

def Import.relation (batch : Import) (contactId : Nat) (tag : Tag) : Relation :=
  ⟨batch.accountId, contactId, tag.id⟩

/-- Where a request begins. -/
def Request.first : Request → Stage
  | .create accountId tagName tagNames =>
      .resolve accountId none (mergeTagInputs trim tagName tagNames)
  | .update accountId contactId tagName tagNames =>
      .resolve accountId (some contactId) (mergeTagInputs trim tagName tagNames)
  | .importContacts accountId rows tags =>
      if rows = 0 then .returned
      else .save ⟨accountId, rows, findTags table accountId tags, findTags_nodup table accountId tags⟩
  | .updateTag accountId action contacts tags =>
      if contacts = [] ∨ tags = [] then .returned else .select accountId action contacts tags

/-- Events are published one by one, then an import goes on. -/
def publishing (changes : List Change) (rest : Option Import) : Stage :=
  if changes = [] then rest.elim .returned Import.next else .publish changes rest

namespace State

def goto (s : State) (i : Nat) (stage : Stage) : State :=
  { s with requests := Function.update s.requests i (some stage) }

/-- What a request changes is noted. -/
def note (s : State) (i : Nat) (action : TagAction) (relations : List Relation) : State :=
  { s with
    transitions := Function.update s.transitions i
      (s.transitions i ++ relations.map fun relation => ⟨action, relation⟩) }

/-- Rows come: those that are there are no change. -/
def insert (s : State) (i : Nat) (relations : List Relation) : State :=
  { s.note i .add (relations.dedup.filter fun relation => !s.present relation) with
    present := fun relation => relation ∈ relations ∨ s.present relation }

def delete (s : State) (i : Nat) (relations : List Relation) : State :=
  { s.note i .remove (relations.filter s.present) with
    present := fun relation => relation ∉ relations ∧ s.present relation }

/-- The rows that are inserted and not committed become the transaction's. -/
def hold (s : State) (i : Nat) (relations : List Relation) : State :=
  { s with
    uncommitted := fun relation => if relation ∈ relations then some i else s.uncommitted relation }

def release (s : State) (i : Nat) : State :=
  { s with
    uncommitted := fun relation =>
      if s.uncommitted relation = some i then none else s.uncommitted relation }

/-- An insert waits for the transaction that holds one of its rows. -/
def Free (s : State) (relations : List Relation) : Prop :=
  ∀ relation ∈ relations, s.uncommitted relation = none

instance (s : State) (relations : List Relation) : Decidable (s.Free relations) :=
  inferInstanceAs (Decidable (∀ _ ∈ _, _))

/-- The second statement of `updateTag`. -/
def updateTag (s : State) (i accountId : Nat) (contacts tags : List Nat)
    (existing : List Relation) : TagAction → Option State
  | .add =>
      let values := contacts.flatMap fun contactId =>
        (tags.map fun tagId => ⟨accountId, contactId, tagId⟩).filter (· ∉ existing)
      if values = [] then some (s.goto i .returned)
      else if ¬ s.Free values then none
      else if values.Nodup ∧ ∀ relation ∈ values, s.present relation = false then
        some ((s.insert i values).goto i (.build accountId (values.map fun relation => ⟨.add, relation⟩)))
      else some (s.goto i .returned)
  | .remove =>
      some ((s.delete i (pairs accountId contacts tags)).goto i
        (.build accountId (existing.map fun relation => ⟨.remove, relation⟩)))

end State

/-- A request begins, one of its statements is executed, or one of its events published.  It
fails anywhere: by an error, or with its process. -/
inductive Event where
  | begin (i : Nat) (request : Request)
  | select (i : Nat)
  | write (i : Nat)
  | resolve (i : Nat)
  | attach (i saved : Nat)
  | commit (i : Nat)
  | save (i saved : Nat)
  | alreadyTagged (i : Nat)
  | insertTags (i : Nat)
  | build (i : Nat)
  | publish (i : Nat) (ok : Bool)
  | fail (i : Nat)

/-- Errors of `publish` are logged, and the event is dropped. -/
def State.step (s : State) : Event → Option State
  | .begin i request =>
      if s.requests i = none then some (s.goto i (request.first trim table)) else none
  | .select i =>
      match s.requests i with
      | some (.select accountId action contacts tags) =>
          some (s.goto i (.write accountId action contacts tags
            ((pairs accountId contacts tags).filter s.present)))
      | _ => none
  | .write i =>
      match s.requests i with
      | some (.write accountId action contacts tags existing) =>
          s.updateTag i accountId contacts tags existing action
      | _ => none
  | .resolve i =>
      match s.requests i with
      | some (.resolve accountId contactId names) =>
          some (s.goto i ((resolveTagsByName trim lower table names accountId).elim .returned
            (.attach accountId contactId)))
      | _ => none
  | .attach i saved =>
      match s.requests i with
      | some (.attach accountId contactId tags) =>
          let relations := tags.map fun tag => ⟨accountId, contactId.getD saved, tag.id⟩
          if s.Free relations then
            let inserted := relations.dedup.filter fun relation => !s.present relation
            some ((s.hold i inserted).goto i (.commit accountId inserted))
          else none
      | _ => none
  | .commit i =>
      match s.requests i with
      | some (.commit accountId inserted) =>
          some (((s.release i).insert i inserted).goto i
            (.build accountId (inserted.map fun relation => ⟨.add, relation⟩)))
      | _ => none
  | .save i saved =>
      match s.requests i with
      | some (.save batch) =>
          some (s.goto i (if batch.tags = [] then batch.next else .alreadyTagged batch saved))
      | _ => none
  | .alreadyTagged i =>
      match s.requests i with
      | some (.alreadyTagged batch contactId) =>
          let newTags := batch.tags.filter fun tag => !s.present (batch.relation contactId tag)
          some (s.goto i (if newTags = [] then batch.next else .insertTags batch contactId newTags))
      | _ => none
  | .insertTags i =>
      match s.requests i with
      | some (.insertTags batch contactId newTags) =>
          let relations := newTags.map (batch.relation contactId)
          if s.Free relations then
            some ((s.insert i relations).goto i
              (publishing (relations.map fun relation => ⟨.add, relation⟩) (some batch)))
          else none
      | _ => none
  | .build i =>
      match s.requests i with
      | some (.build accountId changes) =>
          some (s.goto i (publishing (changes.filter (Named table accountId)) none))
      | _ => none
  | .publish i ok =>
      match s.requests i with
      | some (.publish (change :: changes) rest) =>
          let s' : State := if ok then
              { s with published := Function.update s.published i (s.published i ++ [change]) }
            else s
          some (s'.goto i (publishing changes rest))
      | _ => none
  | .fail i =>
      match s.requests i with
      | none | some .returned => none
      | some _ => some ((s.release i).goto i .returned)

/-! ## Events and transitions -/

/-- What a request has changed and not published yet. -/
def Stage.unpublished : Stage → List Change
  | .build _ changes => changes
  | .publish changes _ => changes
  | _ => []

/-- No row that an import inserts is there, the rows a removal deletes are those it read,
the tags it publishes have names, and nothing fails that has changes to publish. -/
def Guarded (s : State) : Event → Prop
  | .write i => ∀ accountId contacts tags existing,
      s.requests i = some (.write accountId .remove contacts tags existing) →
        existing = (pairs accountId contacts tags).filter s.present
  | .insertTags i => ∀ batch contactId newTags,
      s.requests i = some (.insertTags batch contactId newTags) →
        ∀ tag ∈ newTags, s.present (batch.relation contactId tag) = false
  | .build i => ∀ accountId changes, s.requests i = some (.build accountId changes) →
      ∀ change ∈ changes, Named table accountId change = true
  | .publish _ ok => ok = true
  | .fail i => ∀ stage, s.requests i = some stage → stage.unpublished = []
  | _ => True

/-- What a stage remembers is so: a transaction holds the rows it has inserted, and the tags
of an import are distinct. -/
def Stage.Sound (s : State) (i : Nat) : Stage → Prop
  | .commit _ inserted => inserted.Nodup ∧
      ∀ relation ∈ inserted, s.uncommitted relation = some i ∧ s.present relation = false
  | .insertTags _ _ newTags => (newTags.map (·.id)).Nodup
  | _ => True

/-- Every change of a request is published or still to be. -/
structure Inv (s : State) : Prop where
  idle : ∀ i, s.requests i = none → s.published i = [] ∧ s.transitions i = []
  balanced : ∀ i stage, s.requests i = some stage →
    s.published i ++ stage.unpublished = s.transitions i
  sound : ∀ i stage, s.requests i = some stage → stage.Sound s i

theorem inv_init (present : Relation → Bool) : Inv (State.init present) where
  idle := fun _ _ => ⟨rfl, rfl⟩
  balanced := fun _ _ h => by cases h
  sound := fun _ _ h => by cases h

end

/-! ## Requests that move -/

section
variable {s s' : State} {i : Nat} {stage stage' : Stage} {relations : List Relation}

/-- A request moves on; what the others have noted, published and hold stays. -/
structure Moves (s s' : State) (i : Nat) (stage' : Stage) : Prop where
  requests : s'.requests = Function.update s.requests i (some stage')
  transitions : ∀ j, j ≠ i → s'.transitions j = s.transitions j
  published : ∀ j, j ≠ i → s'.published j = s.published j
  holds : ∀ j, j ≠ i → ∀ relation, s.uncommitted relation = some j →
    s'.uncommitted relation = some j ∧ (s.present relation = false → s'.present relation = false)

theorem Inv.move (h : Inv s) (hmove : Moves s s' i stage')
    (hbalanced : s'.published i ++ stage'.unpublished = s'.transitions i)
    (hsound : stage'.Sound s' i) : Inv s' := by
  have hcases : ∀ {j st}, s'.requests j = some st →
      (j = i ∧ st = stage') ∨ (j ≠ i ∧ s.requests j = some st) := by
    intro j st hj
    rw [hmove.requests, Function.update_apply] at hj
    split at hj
    · rename_i hji
      exact .inl ⟨hji, (Option.some_inj.mp hj).symm⟩
    · rename_i hji
      exact .inr ⟨hji, hj⟩
  refine ⟨?_, ?_, ?_⟩
  · intro j hj
    rw [hmove.requests, Function.update_apply] at hj
    split at hj
    · cases hj
    · rename_i hji
      rw [hmove.published j hji, hmove.transitions j hji]
      exact h.idle j hj
  · intro j st hj
    rcases hcases hj with ⟨rfl, rfl⟩ | ⟨hji, hj⟩
    · exact hbalanced
    · rw [hmove.published j hji, hmove.transitions j hji]
      exact h.balanced j st hj
  · intro j st hj
    rcases hcases hj with ⟨rfl, rfl⟩ | ⟨hji, hj⟩
    · exact hsound
    · have hold := h.sound j st hj
      cases st with
      | commit accountId inserted =>
          refine ⟨hold.1, fun relation hmem => ?_⟩
          obtain ⟨huncommitted, hpresent⟩ := hold.2 relation hmem
          have hkept := hmove.holds j hji relation huncommitted
          exact ⟨hkept.1, hkept.2 hpresent⟩
      | insertTags => exact hold
      | _ => trivial

/-- A request moves on without a change. -/
theorem Inv.goto (h : Inv s) (hi : s.requests i = some stage)
    (hsame : stage'.unpublished = stage.unpublished) (hsound : stage'.Sound (s.goto i stage') i) :
    Inv (s.goto i stage') := by
  refine h.move ⟨rfl, fun _ _ => rfl, fun _ _ => rfl, fun _ _ _ hr => ⟨hr, id⟩⟩ ?_ hsound
  rw [hsame]
  exact h.balanced i stage hi

theorem Inv.first (h : Inv s) (hi : s.requests i = none) (hnone : stage'.unpublished = [])
    (hsound : stage'.Sound (s.goto i stage') i) : Inv (s.goto i stage') := by
  refine h.move ⟨rfl, fun _ _ => rfl, fun _ _ => rfl, fun _ _ _ hr => ⟨hr, id⟩⟩ ?_ hsound
  obtain ⟨hpublished, htransitions⟩ := h.idle i hi
  rw [hnone, List.append_nil]
  exact hpublished.trans htransitions.symm

theorem dedup_filter_absent (hnodup : relations.Nodup)
    (habsent : ∀ relation ∈ relations, s.present relation = false) :
    (relations.dedup.filter fun relation => !s.present relation) = relations := by
  rw [hnodup.dedup]
  exact List.filter_eq_self.mpr fun relation hmem => by rw [habsent relation hmem]; rfl

/-- Rows that nobody holds and that are not there come, and are to be published. -/
theorem Inv.insert (h : Inv s) (hi : s.requests i = some stage) (hnone : stage.unpublished = [])
    (hfree : s.Free relations) (hnodup : relations.Nodup)
    (habsent : ∀ relation ∈ relations, s.present relation = false)
    (hall : stage'.unpublished = relations.map fun relation => ⟨.add, relation⟩)
    (hsound : stage'.Sound ((s.insert i relations).goto i stage') i) :
    Inv ((s.insert i relations).goto i stage') := by
  refine h.move ⟨rfl, fun j hji => ?_, fun _ _ => rfl, fun j hji relation hr => ⟨hr, ?_⟩⟩ ?_ hsound
  · exact Function.update_of_ne hji ..
  · intro hpresent
    have hmem : relation ∉ relations := fun hmem => by cases (hfree relation hmem).symm.trans hr
    simp only [State.goto, State.insert, hmem, hpresent, false_or, Bool.false_eq_true, decide_false]
  · have hbefore := h.balanced i stage hi
    rw [hnone, List.append_nil] at hbefore
    simp only [State.goto, State.insert, State.note, Function.update_self]
    rw [hall, dedup_filter_absent hnodup habsent, ← hbefore]

theorem mem_release {relation : Relation} {j : Nat} (hji : j ≠ i)
    (hr : s.uncommitted relation = some j) : (s.release i).uncommitted relation = some j := by
  have hnot : ¬ s.uncommitted relation = some i :=
    fun hi => hji (Option.some_inj.mp (hr.symm.trans hi))
  exact (if_neg hnot).trans hr

/-- A transaction commits the rows it holds. -/
theorem Inv.commit (h : Inv s) {accountId : Nat}
    (hi : s.requests i = some (.commit accountId relations)) :
    Inv (((s.release i).insert i relations).goto i
      (.build accountId (relations.map fun relation => ⟨.add, relation⟩))) := by
  obtain ⟨hnodup, hheld⟩ := h.sound i _ hi
  refine h.move ⟨rfl, fun j hji => ?_, fun _ _ => rfl, fun j hji relation hr => ⟨?_, ?_⟩⟩ ?_ trivial
  · exact Function.update_of_ne hji ..
  · exact mem_release hji hr
  · intro hpresent
    have hmem : relation ∉ relations := fun hmem =>
      hji (Option.some_inj.mp (hr.symm.trans (hheld relation hmem).1))
    simp only [State.goto, State.insert, State.release, State.note, hmem, hpresent, false_or,
      Bool.false_eq_true, decide_false]
  · have hbefore := h.balanced i _ hi
    simp only [Stage.unpublished, List.append_nil] at hbefore
    have habsent : ∀ relation ∈ relations, (s.release i).present relation = false :=
      fun relation hmem => (hheld relation hmem).2
    simp only [State.goto, State.insert, State.note, Function.update_self]
    rw [dedup_filter_absent hnodup habsent, Stage.unpublished]
    exact congrArg (· ++ _) hbefore

/-- The rows a removal read are deleted. -/
theorem Inv.delete (h : Inv s) {accountId : Nat} (hi : s.requests i = some stage)
    (hnone : stage.unpublished = []) :
    Inv ((s.delete i relations).goto i (.build accountId
      ((relations.filter s.present).map fun relation => ⟨.remove, relation⟩))) := by
  refine h.move ⟨rfl, fun j hji => ?_, fun _ _ => rfl, fun j hji relation hr => ⟨hr, ?_⟩⟩ ?_ trivial
  · exact Function.update_of_ne hji ..
  · intro hpresent
    simp only [State.goto, State.delete, hpresent, Bool.false_eq_true, and_false, decide_false]
  · have hbefore := h.balanced i stage hi
    rw [hnone, List.append_nil] at hbefore
    simp only [State.goto, State.delete, State.note, Function.update_self, Stage.unpublished]
    rw [hbefore]

/-- A transaction inserts rows. -/
theorem Inv.attach (h : Inv s) {accountId : Nat} (hi : s.requests i = some stage)
    (hnone : stage.unpublished = []) (hfree : s.Free relations) (hnodup : relations.Nodup)
    (habsent : ∀ relation ∈ relations, s.present relation = false) :
    Inv ((s.hold i relations).goto i (.commit accountId relations)) := by
  refine h.move ⟨rfl, fun _ _ => rfl, fun _ _ => rfl, fun j hji relation hr => ⟨?_, id⟩⟩ ?_ ?_
  · have hmem : relation ∉ relations := fun hmem => by cases (hfree relation hmem).symm.trans hr
    exact (if_neg hmem).trans hr
  · have hbefore := h.balanced i stage hi
    rwa [hnone] at hbefore
  · exact ⟨hnodup, fun relation hmem => ⟨if_pos hmem, habsent relation hmem⟩⟩

theorem Inv.fail (h : Inv s) (hi : s.requests i = some stage) (hnone : stage.unpublished = []) :
    Inv ((s.release i).goto i .returned) := by
  refine h.move ⟨rfl, fun _ _ => rfl, fun _ _ => rfl, fun j hji _ hr => ⟨mem_release hji hr, id⟩⟩
    ?_ trivial
  have hbefore := h.balanced i stage hi
  rwa [hnone] at hbefore

theorem Inv.publish (h : Inv s) {change : Change} {changes : List Change} {rest : Option Import}
    (hi : s.requests i = some (.publish (change :: changes) rest))
    (hrest : stage'.unpublished = changes) (hsound : ∀ t, stage'.Sound t i) :
    Inv (State.goto
      { s with published := Function.update s.published i (s.published i ++ [change]) } i stage') := by
  refine h.move ⟨rfl, fun _ _ => rfl, fun j hji => ?_, fun _ _ _ hr => ⟨hr, id⟩⟩ ?_ (hsound _)
  · exact Function.update_of_ne hji ..
  · have hbefore := h.balanced i _ hi
    simp only [State.goto, Function.update_self]
    rw [hrest, List.append_assoc]
    exact hbefore

end

/-! ## Runs -/

section
variable {trim lower : String → String} {table : TagTable} {s s' : State}

theorem publishing_unpublished (changes : List Change) (rest : Option Import) :
    (publishing changes rest).unpublished = changes := by
  by_cases hnil : changes = []
  · rw [publishing, if_pos hnil, hnil]
    cases rest with
    | none => rfl
    | some batch =>
        simp only [Option.elim_some, Import.next]
        split <;> rfl
  · rw [publishing, if_neg hnil]
    rfl

theorem next_sound (batch : Import) (i : Nat) : (batch.next).Sound s i := by
  rw [Import.next]
  split <;> trivial

theorem publishing_sound (changes : List Change) (rest : Option Import) (i : Nat) :
    (publishing changes rest).Sound s i := by
  rw [publishing]
  split
  · cases rest with
    | none => trivial
    | some batch => exact next_sound batch i
  · trivial

theorem next_unpublished (batch : Import) : (batch.next).unpublished = [] := by
  rw [Import.next]
  split <;> rfl

theorem Inv.begin (h : Inv s) {i : Nat} (hi : s.requests i = none) (request : Request) :
    Inv (s.goto i (request.first trim table)) := by
  cases request with
  | create => exact h.first hi rfl trivial
  | update => exact h.first hi rfl trivial
  | importContacts =>
      simp only [Request.first]
      split
      · exact h.first hi rfl trivial
      · exact h.first hi rfl trivial
  | updateTag =>
      simp only [Request.first]
      split
      · exact h.first hi rfl trivial
      · exact h.first hi rfl trivial

/-- The statement that adds or removes: a removal must have read what it deletes. -/
theorem Inv.updateTag (h : Inv s) {i accountId : Nat} {action : TagAction}
    {contacts tags : List Nat} {existing : List Relation}
    (hi : s.requests i = some (.write accountId action contacts tags existing))
    (hread : action = .remove → existing = (pairs accountId contacts tags).filter s.present)
    (hs : s.updateTag i accountId contacts tags existing action = some s') : Inv s' := by
  cases action with
  | add =>
      simp only [State.updateTag] at hs
      split at hs
      · cases hs
        exact h.goto hi rfl trivial
      · split at hs
        · cases hs
        · rename_i hfree
          split at hs
          · rename_i hvalues
            cases hs
            exact h.insert hi rfl (not_not.mp hfree) hvalues.1 hvalues.2 rfl trivial
          · cases hs
            exact h.goto hi rfl trivial
  | remove =>
      simp only [State.updateTag] at hs
      cases hs
      rw [hread rfl]
      exact h.delete hi rfl

theorem Inv.insertTags (h : Inv s) {i contactId : Nat} {batch : Import} {newTags : List Tag}
    (hi : s.requests i = some (.insertTags batch contactId newTags))
    (hfree : s.Free (newTags.map (batch.relation contactId)))
    (hmissing : ∀ tag ∈ newTags, s.present (batch.relation contactId tag) = false) :
    Inv ((s.insert i (newTags.map (batch.relation contactId))).goto i
      (publishing ((newTags.map (batch.relation contactId)).map fun relation => ⟨.add, relation⟩)
        (some batch))) := by
  have hids : (newTags.map (·.id)).Nodup := h.sound i _ hi
  have hnodup : (newTags.map (batch.relation contactId)).Nodup := by
    have hmap := hids.map (f := fun id : Nat =>
      (⟨batch.accountId, contactId, id⟩ : Relation)) fun _ _ heq => (Relation.mk.inj heq).2.2
    rwa [List.map_map] at hmap
  refine h.insert hi rfl hfree hnodup (fun relation hmem => ?_)
    (publishing_unpublished ..) (publishing_sound ..)
  obtain ⟨tag, htag, rfl⟩ := List.mem_map.mp hmem
  exact hmissing tag htag

theorem Inv.step (h : Inv s) {e : Event} (hguard : Guarded table s e)
    (hs : s.step trim lower table e = some s') : Inv s' := by
  cases e with
  | begin i request =>
      simp only [State.step] at hs
      split at hs
      · rename_i hi
        cases hs
        exact h.begin hi request
      · cases hs
  | select i =>
      simp only [State.step] at hs
      split at hs
      · rename_i hi
        cases hs
        exact h.goto hi rfl trivial
      · cases hs
  | write i =>
      simp only [State.step] at hs
      split at hs
      · rename_i accountId action contacts tags existing hi
        exact h.updateTag hi (fun haction => hguard _ _ _ _ (haction ▸ hi)) hs
      · cases hs
  | resolve i =>
      simp only [State.step] at hs
      split at hs
      · rename_i accountId contactId names hi
        cases hs
        cases resolveTagsByName trim lower table names accountId with
        | none => exact h.goto hi rfl trivial
        | some tags => exact h.goto hi rfl trivial
      · cases hs
  | attach i saved =>
      simp only [State.step] at hs
      split at hs
      · rename_i accountId contactId tags hi
        split at hs
        · rename_i hfree
          cases hs
          refine h.attach hi rfl (fun relation hmem => ?_) ((List.nodup_dedup _).filter _)
            fun relation hmem => ?_
          · exact hfree relation (List.mem_dedup.mp (List.mem_filter.mp hmem).1)
          · exact (Bool.not_eq_true' _).mp (List.mem_filter.mp hmem).2
        · cases hs
      · cases hs
  | commit i =>
      simp only [State.step] at hs
      split at hs
      · rename_i hi
        cases hs
        exact h.commit hi
      · cases hs
  | save i saved =>
      simp only [State.step] at hs
      split at hs
      · rename_i batch hi
        cases hs
        split
        · exact h.goto hi (next_unpublished batch) (next_sound batch i)
        · exact h.goto hi rfl trivial
      · cases hs
  | alreadyTagged i =>
      simp only [State.step] at hs
      split at hs
      · rename_i batch contactId hi
        cases hs
        split
        · exact h.goto hi (next_unpublished batch) (next_sound batch i)
        · exact h.goto hi rfl (batch.nodup.sublist (List.filter_sublist.map _))
      · cases hs
  | insertTags i =>
      simp only [State.step] at hs
      split at hs
      · rename_i batch contactId newTags hi
        split at hs
        · rename_i hfree
          cases hs
          exact h.insertTags hi hfree (hguard _ _ _ hi)
        · cases hs
      · cases hs
  | build i =>
      simp only [State.step] at hs
      split at hs
      · rename_i accountId changes hi
        cases hs
        have hnamed : changes.filter (Named table accountId) = changes :=
          List.filter_eq_self.mpr (hguard _ _ hi)
        rw [hnamed]
        exact h.goto hi (publishing_unpublished ..) (publishing_sound ..)
      · cases hs
  | publish i ok =>
      cases hguard
      simp only [State.step] at hs
      split at hs
      · rename_i change changes rest hi
        cases hs
        exact h.publish hi (publishing_unpublished ..) fun _ => publishing_sound ..
      · cases hs
  | fail i =>
      simp only [State.step] at hs
      split at hs
      · cases hs
      · cases hs
      · rename_i stage _ hi
        cases hs
        exact h.fail hi (hguard _ hi)

/-- In every run whose steps are guarded, what a request has published it has changed, and
when it has returned it has published one event for each change it made. -/
theorem tag_events_match (present : Relation → Bool) {events : List Event}
    (hguard : Runs.Meets (State.step trim lower table) (Guarded table) (State.init present) events)
    (hrun : Runs.exec (State.step trim lower table) (State.init present) events = some s) :
    (∀ i, s.published i <+: s.transitions i) ∧
    ∀ i, s.requests i = some .returned → ∀ change,
      (s.published i).count change = (s.transitions i).count change := by
  have hinv : Inv s := Runs.invariant (fun _ _ _ h hC hs => h.step hC hs) (inv_init present)
    hguard hrun
  refine ⟨fun i => ?_, fun i hi change => ?_⟩
  · cases hi : s.requests i with
    | none =>
        obtain ⟨hpublished, htransitions⟩ := hinv.idle i hi
        rw [hpublished, htransitions]
    | some stage => exact ⟨stage.unpublished, hinv.balanced i stage hi⟩
  · have hbalanced := hinv.balanced i _ hi
    simp only [Stage.unpublished, List.append_nil] at hbalanced
    rw [hbalanced]

end

/-- A tag is added to a contact and removed again. -/
theorem tag_events_match_added : ∃ s,
    Runs.exec (State.step id id ⟨[⟨7, 1, "vip"⟩], by decide⟩) (State.init fun _ => false)
      [.begin 0 (.updateTag 1 .add [5] [7]), .select 0, .write 0, .build 0, .publish 0 true,
        .begin 1 (.updateTag 1 .remove [5] [7]), .select 1, .write 1, .build 1,
        .publish 1 true] = some s ∧
      (s.published 0).count ⟨.add, ⟨1, 5, 7⟩⟩ = 1 ∧ (s.published 1).count ⟨.remove, ⟨1, 5, 7⟩⟩ = 1 := by
  let table : TagTable := ⟨[⟨7, 1, "vip"⟩], by decide⟩
  let events : List Event := [.begin 0 (.updateTag 1 .add [5] [7]), .select 0, .write 0, .build 0,
    .publish 0 true, .begin 1 (.updateTag 1 .remove [5] [7]), .select 1, .write 1, .build 1,
    .publish 1 true]
  have hnamed : ∀ (change : Change) {s : State} {i : Nat}, Named table 1 change = true →
      s.requests i = some (.build 1 [change]) → Guarded table s (.build i) := by
    intro change s i hname hi accountId changes hbuild change' hmem
    cases hi.symm.trans hbuild
    rwa [List.mem_singleton.mp hmem]
  have hguard : Runs.Meets (State.step id id table) (Guarded table)
      (State.init fun _ => false) events := by
    refine .cons trivial rfl (.cons trivial rfl (.cons ?_ rfl (.cons ?_ rfl (.cons rfl rfl
      (.cons trivial rfl (.cons trivial rfl (.cons ?_ rfl (.cons ?_ rfl (.cons rfl rfl
      trivial)))))))))
    · intro _ _ _ _ hi
      cases hi
    · exact hnamed ⟨.add, ⟨1, 5, 7⟩⟩ (by decide) rfl
    · intro _ _ _ _ hi
      cases hi
      rfl
    · exact hnamed ⟨.remove, ⟨1, 5, 7⟩⟩ (by decide) rfl
  have hmatch := (tag_events_match (fun _ => false) hguard rfl).2
  exact ⟨_, rfl, (hmatch 0 rfl _).trans (by decide), (hmatch 1 rfl _).trans (by decide)⟩

/-- Two requests remove a tag, both having read the row: one row goes, two events are
published. -/
theorem removed_once_published_twice : ∃ s,
    Runs.exec (State.step id id ⟨[⟨7, 1, "vip"⟩], by decide⟩) (State.init fun _ => true)
      [.begin 0 (.updateTag 1 .remove [5] [7]), .begin 1 (.updateTag 1 .remove [5] [7]),
        .select 0, .select 1, .write 0, .write 1, .build 0, .build 1, .publish 0 true,
        .publish 1 true] = some s ∧
      s.requests 1 = some .returned ∧ s.transitions 0 = [⟨.remove, ⟨1, 5, 7⟩⟩] ∧
      s.transitions 1 = [] ∧ s.published 1 = [⟨.remove, ⟨1, 5, 7⟩⟩] :=
  ⟨_, rfl, rfl, rfl, rfl, rfl⟩

end OpenBms.Contacts.TagEvents
