/-
# `OpenBms.Tags.RealTime` — the list of the real-time segments

Whether a segment is a real-time one is a column of its row and an entry of one Redis value,
the list `real_time_segment:<account>`.  The requests write the two one after the other, and
the list by reading all of it and writing all of it.  The requests of several users run at
once, and each may end after any of its steps.

| request | list | row |
| :-- | :-- | :-- |
| `createSegment`, `createCopy` | second | first, again with the name of the job |
| `updateSegment` | first, when the flag changes | second |
| `update` | no | yes |
| `delete` | first, of a scheduled segment | second |

A request that leaves the flag out reads as one that clears it, for the list; the row keeps it.

**Proved here.**

    the entries of a segment are those that its request says (`Inv`, `step_inv`)
    what `realtimeUpdate` does to the entries of a segment (`count_updated_self`, `count_updated_ne`)
    with no request in progress, the list has each real-time
    segment once and nothing else (`registered`)
-/
import OpenBms.Lib.Runs

namespace OpenBms.Tags.RealTime

/-! ## Rows and requests -/

/-- A value for `isRealTimeSegment`: whether the service takes it for true, and what the
column makes of it; the column refuses null. -/
structure Given where
  truthy : Bool
  column : Option Bool
  deriving DecidableEq

def Given.bool (b : Bool) : Given := ⟨b, some b⟩

def Given.null : Given := ⟨false, none⟩

structure TagEntity where
  accountId : Nat
  type : String
  scheduleCloudTaskId : Option Nat
  isRealTimeSegment : Bool

structure TagDto where
  accountId : Option Nat := none
  type : Option String := none
  deriving DecidableEq

structure SegmentDto extends TagDto where
  scheduleCloudTaskId : Option (Option Nat) := none
  isRealTimeSegment : Option Given := none
  deriving DecidableEq

/-- What `if (segmentDto.isRealTimeSegment)` says. -/
def SegmentDto.realTime (dto : SegmentDto) : Bool := dto.isRealTimeSegment.any (·.truthy)

/-- `merge`, and what the row takes of it. -/
def TagEntity.merge (tag : TagEntity) (dto : SegmentDto) : Option TagEntity :=
  (dto.isRealTimeSegment.elim (some tag.isRealTimeSegment) (·.column)).map fun flag =>
    { accountId := dto.accountId.getD tag.accountId
      type := dto.type.getD tag.type
      scheduleCloudTaskId := dto.scheduleCloudTaskId.getD tag.scheduleCloudTaskId
      isRealTimeSegment := flag }

/-- The columns of a row that is inserted, before those of the request. -/
def TagEntity.default (accountId : Nat) : TagEntity := ⟨accountId, "tag", none, false⟩

/-- What `createCopy` passes on; the job is not copied. -/
def TagEntity.copied (tag : TagEntity) : SegmentDto where
  accountId := some tag.accountId
  type := some tag.type
  isRealTimeSegment := some (.bool tag.isRealTimeSegment)

/-- What follows the change of the list. -/
inductive Rest where
  | update (dto : SegmentDto)
  | delete
  deriving DecidableEq

/-- What a request does next. -/
inductive Phase where
  | copy (source : Nat)
  | save (dto : SegmentDto) (segment : Bool)
  | find (dto : SegmentDto)
  | findToDelete
  | get (tag : TagEntity) (add : Bool) (rest : Rest)
  | set (tag : TagEntity) (add : Bool) (segmentsCache : List Nat) (rest : Rest)
  | schedule (rest : Rest)
  | load (dto : SegmentDto)
  | write (tag : TagEntity)
  | deleteRow

inductive Call where
  | create (dto : TagDto)
  | createSegment (dto : SegmentDto)
  | createCopy (source : Nat)
  | updateSegment (dto : SegmentDto)
  | update (dto : TagDto)
  | delete
  deriving DecidableEq

def Call.start : Call → Phase
  | .create dto => .save { dto with } false
  | .createSegment dto => .save dto true
  | .createCopy source => .copy source
  | .updateSegment dto => .find dto
  | .update dto => .load { dto with }
  | .delete => .findToDelete

/-- A request in progress: its account, the row it is about, and the name of the job that the
scheduler gives it. -/
structure Request where
  accountId : Nat
  id : Nat
  job : Nat
  phase : Phase

/-- The rows by their ids, the lists by their accounts, and the requests in progress. -/
structure State where
  tags : Nat → Option TagEntity
  lists : Nat → List Nat
  requests : Nat → Option Request

def State.init : State := ⟨fun _ => none, fun _ => [], fun _ => none⟩

/-! ## Steps -/

/-- The list that `realtimeUpdate` writes. -/
def realtimeUpdate (segmentsCache : List Nat) (add : Bool) (id : Nat) : List Nat :=
  if add then segmentsCache ++ [id] else segmentsCache.erase id

namespace State

variable (s : State)

def find (accountId id : Nat) : Option TagEntity :=
  (s.tags id).filter (·.accountId == accountId)

/-- The row that `create` saves: a request may have the id of a row. -/
def created (accountId id : Nat) (dto : SegmentDto) : Option TagEntity :=
  (((s.tags id).getD (.default accountId)).merge dto).map fun tag =>
    { tag with accountId := accountId }

def setTag (id : Nat) (tag : Option TagEntity) : State :=
  { s with tags := Function.update s.tags id tag }

def setList (accountId : Nat) (list : List Nat) : State :=
  { s with lists := Function.update s.lists accountId list }

def setRequest (r : Nat) (q : Option Request) : State :=
  { s with requests := Function.update s.requests r q }

def finish (r : Nat) : State := s.setRequest r none

def goOn (r : Nat) (q : Request) (phase : Phase) : State :=
  s.setRequest r (some { q with phase := phase })

/-- The next step of a request. -/
def advance (r : Nat) (q : Request) : State :=
  match q.phase with
  | .copy source =>
      match s.find q.accountId source with
      | none => s.finish r
      | some tag => s.goOn r q (.save tag.copied true)
  | .save dto segment =>
      match s.created q.accountId q.id dto with
      | none => s.finish r
      | some tag =>
          if segment then
            (s.setTag q.id tag).goOn r q
              (if dto.realTime then .get tag true (.update {}) else .schedule (.update {}))
          else (s.setTag q.id tag).finish r
  | .find dto =>
      match s.find q.accountId q.id with
      | none => s.finish r
      | some tag =>
          if ! tag.isRealTimeSegment && dto.realTime then s.goOn r q (.get tag true (.update dto))
          else if tag.isRealTimeSegment && ! dto.realTime then
            s.goOn r q (.get tag false (.update dto))
          else s.goOn r q (.schedule (.update dto))
  | .findToDelete =>
      match s.find q.accountId q.id with
      | none => s.finish r
      | some tag =>
          if tag.type == "segment" && tag.scheduleCloudTaskId.isSome then
            if tag.isRealTimeSegment then s.goOn r q (.get tag false .delete)
            else s.goOn r q (.schedule .delete)
          else s.goOn r q .deleteRow
  | .get tag add rest => s.goOn r q (.set tag add (s.lists tag.accountId) rest)
  | .set tag add segmentsCache rest =>
      (s.setList tag.accountId (realtimeUpdate segmentsCache add q.id)).goOn r q (.schedule rest)
  | .schedule (.update dto) =>
      s.goOn r q (.load { dto with scheduleCloudTaskId := some (some q.job) })
  | .schedule .delete => s.goOn r q .deleteRow
  | .load dto =>
      match (s.find q.accountId q.id).bind (·.merge dto) with
      | none => s.finish r
      | some tag => s.goOn r q (.write tag)
  | .write tag => (s.setTag q.id ((s.tags q.id).map fun _ => tag)).finish r
  | .deleteRow => (s.setTag q.id none).finish r

end State

/-- A request begins, takes its next step, or ends where it is: the step fails, or what it
checks before its first step is not so. -/
inductive Op where
  | begin (r accountId id job : Nat) (call : Call)
  | step (r : Nat)
  | fail (r : Nat)
  deriving DecidableEq

def State.step (s : State) : Op → State
  | .begin r accountId id job call =>
      match s.requests r with
      | some _ => s
      | none => s.setRequest r (some ⟨accountId, id, job, call.start⟩)
  | .step r =>
      match s.requests r with
      | none => s
      | some q => s.advance r q
  | .fail r => s.finish r

/-! ## The list and the rows -/

/-- How often the list of an account should have the id of a row. -/
def entries (tag : Option TagEntity) (accountId : Nat) : Nat :=
  if tag.any fun tag => tag.isRealTimeSegment && tag.accountId == accountId then 1 else 0

/-- The list of an account has each real-time segment once, and nothing else. -/
structure Registered (s : State) (accountId : Nat) : Prop where
  once : ∀ id tag, s.tags id = some tag → tag.accountId = accountId →
    tag.isRealTimeSegment = true → (s.lists accountId).count id = 1
  only : ∀ id ∈ s.lists accountId, ∃ tag, s.tags id = some tag ∧ tag.accountId = accountId ∧
    tag.isRealTimeSegment = true

/-- No request is in progress. -/
def Quiet (s : State) : Prop := ∀ r, s.requests r = none

/-- The row that the list already agrees with, while a request is at a step. -/
def Rest.row : Rest → Option TagEntity → Option TagEntity
  | .update dto, tag => tag.map fun tag => (tag.merge dto).getD tag
  | .delete, _ => none

def Phase.row : Phase → Option TagEntity → Option TagEntity
  | .copy _, tag => tag
  | .save _ _, tag => tag
  | .find _, tag => tag
  | .findToDelete, tag => tag
  | .get _ add _, tag => if add then none else tag
  | .set _ add _ _, tag => if add then none else tag
  | .schedule rest, tag => rest.row tag
  | .load dto, tag => (Rest.update dto).row tag
  | .write new, _ => some new
  | .deleteRow, _ => none

/-- The flag that a request gives is the one that the row gets, in its account. -/
def Fits (tag : TagEntity) (dto : SegmentDto) : Prop :=
  ((tag.merge dto).getD tag).isRealTimeSegment = dto.realTime ∧
    (dto.realTime = true → ((tag.merge dto).getD tag).accountId = tag.accountId)

/-- What a step of a request needs. -/
def Allowed (s : State) (q : Request) : Prop :=
  match q.phase with
  | .save dto segment => ∀ tag, s.created q.accountId q.id dto = some tag →
      if segment && dto.realTime then
        tag.isRealTimeSegment = true ∧ (∀ old, s.tags q.id = some old → old.isRealTimeSegment = false)
      else entries (some tag) = entries (s.tags q.id)
  | .find dto => ∀ tag, s.find q.accountId q.id = some tag → Fits tag dto
  | .findToDelete => ∀ tag, s.find q.accountId q.id = some tag → tag.isRealTimeSegment = true →
      tag.type = "segment" ∧ tag.scheduleCloudTaskId.isSome = true
  | .set tag _ segmentsCache _ => s.lists tag.accountId = segmentsCache
  | _ => True

/-- Two requests about one segment do not run at once; a request writes the list that it has
read, gives the flag that the row gets, and does not end between the list and the row. -/
def Guarded (s : State) : Op → Prop
  | .begin _ _ id _ call => (∀ r q, s.requests r = some q → q.id ≠ id) ∧
      entries (call.start.row (s.tags id)) = entries (s.tags id)
  | .step r => ∀ q, s.requests r = some q → Allowed s q
  | .fail r => ∀ q, s.requests r = some q → entries (q.phase.row (s.tags q.id)) = entries (s.tags q.id)

/-- What the request has decided is what its row will say. -/
structure Decides (tag : TagEntity) (add : Bool) (rest : Rest) : Prop where
  after : ∀ a, entries (rest.row (some tag)) a = if add = true ∧ tag.accountId = a then 1 else 0
  before : add = false → tag.isRealTimeSegment = true

/-- The row is in the account, or what the request sets leaves its entries. -/
def Finds (accountId : Nat) (dto : SegmentDto) (row : Option TagEntity) : Prop :=
  (∀ tag, row = some tag → tag.accountId = accountId) ∨
    entries ((Rest.update dto).row row) = entries row

/-- What a request knows of its row. -/
def Phase.Knows (accountId : Nat) : Phase → Option TagEntity → Prop
  | .get tag add rest, row => row = some tag ∧ Decides tag add rest ∧ tag.accountId = accountId
  | .set tag add _ rest, row => row = some tag ∧ Decides tag add rest ∧ tag.accountId = accountId
  | .schedule (.update dto), row => Finds accountId dto row
  | .load dto, row => Finds accountId dto row
  | .write _, row => row.isSome = true
  | _, _ => True

structure Sound (s : State) (q : Request) : Prop where
  agrees : ∀ a, (s.lists a).count q.id = entries (q.phase.row (s.tags q.id)) a
  knows : q.phase.Knows q.accountId (s.tags q.id)

structure Inv (s : State) : Prop where
  alone : ∀ r r' q q', s.requests r = some q → s.requests r' = some q' → q.id = q'.id → r = r'
  busy : ∀ r q, s.requests r = some q → Sound s q
  idle : ∀ id, (∀ r q, s.requests r = some q → q.id ≠ id) →
    ∀ a, (s.lists a).count id = entries (s.tags id) a

/-- The states differ in one segment only. -/
structure Only (s t : State) (id : Nat) : Prop where
  tags : ∀ i, i ≠ id → t.tags i = s.tags i
  lists : ∀ i, i ≠ id → ∀ a, (t.lists a).count i = (s.lists a).count i
  requests : t.requests = s.requests

section
variable {s t : State} {r id : Nat} {q : Request} {tag : TagEntity}

/-! ### Entries -/

theorem entries_none (a : Nat) : entries none a = 0 := rfl

theorem entries_some (a : Nat) :
    entries (some tag) a = if tag.isRealTimeSegment = true ∧ tag.accountId = a then 1 else 0 := by
  unfold entries
  simp

theorem count_updated_self {list : List Nat} (add : Bool) :
    (realtimeUpdate list add id).count id =
      if add then list.count id + 1 else list.count id - 1 := by
  cases add with
  | true =>
      show (list ++ [id]).count id = list.count id + 1
      rw [List.count_append, List.count_singleton_self]
  | false =>
      show (list.erase id).count id = list.count id - 1
      rw [List.count_erase_self]

theorem count_updated_ne {list : List Nat} (add : Bool) {i : Nat} (h : i ≠ id) :
    (realtimeUpdate list add id).count i = list.count i := by
  cases add with
  | true =>
      show (list ++ [id]).count i = list.count i
      rw [List.count_append, List.count_singleton, if_neg (by simpa using h.symm), Nat.add_zero]
  | false =>
      show (list.erase id).count i = list.count i
      exact List.count_erase_of_ne h

theorem find_eq {accountId : Nat} (h : s.find accountId id = some tag) :
    s.tags id = some tag ∧ tag.accountId = accountId := by
  obtain ⟨htags, haccount⟩ := Option.filter_eq_some_iff.mp h
  exact ⟨htags, eq_of_beq haccount⟩

/-! ### One segment -/

theorem Only.refl (s : State) (id : Nat) : Only s s id := ⟨fun _ _ => rfl, fun _ _ _ => rfl, rfl⟩

theorem Only.setTag (s : State) (id : Nat) (tag : Option TagEntity) : Only s (s.setTag id tag) id :=
  ⟨fun _ hi => Function.update_of_ne hi .., fun _ _ _ => rfl, rfl⟩

theorem tags_setTag (s : State) (id : Nat) (tag : Option TagEntity) :
    (s.setTag id tag).tags id = tag :=
  Function.update_self ..

/-- The list that was read is still there: only the entries of the segment change. -/
theorem Only.setList {accountId : Nat} (add : Bool) :
    Only s (s.setList accountId (realtimeUpdate (s.lists accountId) add id)) id := by
  refine ⟨fun _ _ => rfl, fun i hi a => ?_, rfl⟩
  show (Function.update s.lists accountId _ a).count i = _
  rcases eq_or_ne a accountId with rfl | ha
  · rw [Function.update_self, count_updated_ne add hi]
  · rw [Function.update_of_ne ha]

theorem requests_goOn_self {phase : Phase} :
    (t.goOn r q phase).requests r = some { q with phase := phase } :=
  Function.update_self ..

theorem requests_ne {r' : Nat} {new : Option Request} (h : r' ≠ r) :
    (t.setRequest r new).requests r' = t.requests r' :=
  Function.update_of_ne h ..

theorem Sound.setRequest {new : Option Request} {q' : Request} (h : Sound t q') :
    Sound (t.setRequest r new) q' :=
  ⟨h.agrees, h.knows⟩

theorem Inv.other (h : Inv s) (hq : s.requests r = some q) {r' : Nat} {q' : Request} (hr : r' ≠ r)
    (hq' : s.requests r' = some q') : q'.id ≠ q.id :=
  fun hid => hr (h.alone r' r q' q hq' hq hid)

theorem Only.sound (hon : Only s t id) {q' : Request} (hne : q'.id ≠ id) (h : Sound s q') :
    Sound t q' := by
  constructor
  · intro a
    rw [hon.lists _ hne, hon.tags _ hne]
    exact h.agrees a
  · rw [hon.tags _ hne]
    exact h.knows

theorem Inv.goOn (h : Inv s) (hq : s.requests r = some q) (hon : Only s t q.id) {phase : Phase}
    (hsound : Sound t { q with phase := phase }) : Inv (t.goOn r q phase) := by
  -- a request of the new state is the one of the old state, at its new step if it is this one
  have hold : ∀ r' q', (t.goOn r q phase).requests r' = some q' →
      (r' = r ∧ q' = { q with phase := phase }) ∨ (r' ≠ r ∧ s.requests r' = some q') := by
    intro r' q' hq'
    rcases eq_or_ne r' r with rfl | hr
    · exact .inl ⟨rfl, (Option.some.inj (requests_goOn_self.symm.trans hq')).symm⟩
    · exact .inr ⟨hr, hon.requests ▸ (requests_ne hr).symm.trans hq'⟩
  refine ⟨?_, ?_, ?_⟩
  · intro r₁ r₂ q₁ q₂ h₁ h₂ hid
    rcases hold r₁ q₁ h₁ with ⟨rfl, rfl⟩ | ⟨hr₁, hs₁⟩
    · rcases hold r₂ q₂ h₂ with ⟨rfl, rfl⟩ | ⟨hr₂, hs₂⟩
      · rfl
      · exact absurd hid.symm (h.other hq hr₂ hs₂)
    · rcases hold r₂ q₂ h₂ with ⟨rfl, rfl⟩ | ⟨hr₂, hs₂⟩
      · exact absurd hid (h.other hq hr₁ hs₁)
      · exact h.alone r₁ r₂ q₁ q₂ hs₁ hs₂ hid
  · intro r' q' hq'
    rcases hold r' q' hq' with ⟨rfl, rfl⟩ | ⟨hr, hq'⟩
    · exact hsound.setRequest
    · exact (hon.sound (h.other hq hr hq') (h.busy r' q' hq')).setRequest
  · intro i hi a
    have hne : i ≠ q.id := fun heq => hi r _ requests_goOn_self heq.symm
    refine (hon.lists i hne a).trans ((h.idle i ?_ a).trans (by rw [← hon.tags i hne]; rfl))
    intro r' q' hq'
    rcases eq_or_ne r' r with rfl | hr
    · cases hq.symm.trans hq'
      exact hne.symm
    · exact hi r' q' ((requests_ne hr).trans (hon.requests ▸ hq'))

theorem Inv.finish (h : Inv s) (hq : s.requests r = some q) (hon : Only s t q.id)
    (hdone : ∀ a, (t.lists a).count q.id = entries (t.tags q.id) a) : Inv (t.finish r) := by
  have hold : ∀ r' q', (t.finish r).requests r' = some q' → r' ≠ r ∧ s.requests r' = some q' := by
    intro r' q' hq'
    rcases eq_or_ne r' r with rfl | hr
    · cases (Function.update_self (f := t.requests) ..).symm.trans hq'
    · exact ⟨hr, hon.requests ▸ (requests_ne hr).symm.trans hq'⟩
  refine ⟨?_, ?_, ?_⟩
  · intro r₁ r₂ q₁ q₂ h₁ h₂ hid
    exact h.alone r₁ r₂ q₁ q₂ (hold r₁ q₁ h₁).2 (hold r₂ q₂ h₂).2 hid
  · intro r' q' hq'
    obtain ⟨hr, hq'⟩ := hold r' q' hq'
    exact (hon.sound (h.other hq hr hq') (h.busy r' q' hq')).setRequest
  · intro i hi a
    rcases eq_or_ne i q.id with rfl | hne
    · exact hdone a
    · refine (hon.lists i hne a).trans ((h.idle i ?_ a).trans (by rw [← hon.tags i hne]; rfl))
      intro r' q' hq'
      rcases eq_or_ne r' r with rfl | hr
      · cases hq.symm.trans hq'
        exact hne.symm
      · exact hi r' q' ((requests_ne hr).trans (hon.requests ▸ hq'))

/-! ### The steps -/

theorem Inv.end (h : Inv s) (hq : s.requests r = some q)
    (hrow : entries (q.phase.row (s.tags q.id)) = entries (s.tags q.id)) : Inv (s.finish r) :=
  h.finish hq (.refl s q.id) fun a => ((h.busy r q hq).agrees a).trans (congrFun hrow a)

theorem Inv.move (h : Inv s) (hq : s.requests r = some q) {phase : Phase}
    (hrow : entries (phase.row (s.tags q.id)) = entries (q.phase.row (s.tags q.id)))
    (hknows : phase.Knows q.accountId (s.tags q.id)) : Inv (s.goOn r q phase) :=
  h.goOn hq (.refl s q.id) ⟨fun a => ((h.busy r q hq).agrees a).trans (congrFun hrow a).symm, hknows⟩

theorem entries_congr {tag' : TagEntity} (hflag : tag'.isRealTimeSegment = tag.isRealTimeSegment)
    (haccount : tag.isRealTimeSegment = true → tag'.accountId = tag.accountId) :
    entries (some tag') = entries (some tag) := by
  funext a
  rw [entries_some, entries_some, hflag]
  cases hreal : tag.isRealTimeSegment with
  | false => rfl
  | true => rw [haccount hreal]

theorem entries_ordinary (h : tag.isRealTimeSegment = false) : entries (some tag) = entries none := by
  funext a
  rw [entries_some, if_neg (by rw [h]; exact fun hand => Bool.false_ne_true hand.1), entries_none]

/-- The name of the job is not an entry. -/
theorem entries_update_task (dto : SegmentDto) (task : Option (Option Nat)) (row : Option TagEntity) :
    entries ((Rest.update { dto with scheduleCloudTaskId := task }).row row) =
      entries ((Rest.update dto).row row) := by
  rcases row with - | tag
  · rfl
  · show entries (some ((tag.merge { dto with scheduleCloudTaskId := task }).getD tag)) =
      entries (some ((tag.merge dto).getD tag))
    unfold TagEntity.merge
    cases dto.isRealTimeSegment.elim (some tag.isRealTimeSegment) (·.column) with
    | none => rfl
    | some flag => exact entries_congr rfl fun _ => rfl

theorem Fits.decides {dto : SegmentDto} (h : Fits tag dto)
    (hflag : tag.isRealTimeSegment = ! dto.realTime) : Decides tag dto.realTime (.update dto) := by
  constructor
  · intro a
    show entries (some ((tag.merge dto).getD tag)) a = _
    rw [entries_some, h.1]
    cases hreal : dto.realTime with
    | false => rw [if_neg (fun hand => Bool.false_ne_true hand.1),
        if_neg (fun hand => Bool.false_ne_true hand.1)]
    | true => rw [h.2 hreal]
  · intro hadd
    rw [hflag, hadd]
    rfl

theorem decides_created (h : tag.isRealTimeSegment = true) : Decides tag true (.update {}) := by
  refine ⟨fun a => ?_, fun hadd => (by cases hadd)⟩
  show entries (some tag) a = _
  rw [entries_some, h]

theorem decides_delete (h : tag.isRealTimeSegment = true) : Decides tag false .delete :=
  ⟨fun _ => (if_neg fun hand => Bool.false_ne_true hand.1).symm, fun _ => h⟩

theorem Inv.save {dto : SegmentDto} {segment : Bool} (h : Inv s) (hq : s.requests r = some q)
    (hphase : q.phase = .save dto segment) (hallowed : Allowed s q) : Inv (s.advance r q) := by
  have hsound := (h.busy r q hq).agrees
  unfold Allowed at hallowed
  unfold State.advance
  rw [hphase] at hsound hallowed ⊢
  dsimp only at hallowed ⊢
  cases hcreated : s.created q.accountId q.id dto with
  | none => exact h.end hq (by rw [hphase]; rfl)
  | some tag =>
      have hallowed := hallowed tag hcreated
      have hon := Only.setTag s q.id (some tag)
      have htag := tags_setTag s q.id (some tag)
      cases segment with
      | false =>
          refine h.finish hq hon fun a => ?_
          rw [htag]
          exact (hsound a).trans (congrFun hallowed a).symm
      | true =>
          cases hreal : dto.realTime with
          | false =>
              rw [hreal] at hallowed
              refine h.goOn hq hon ⟨fun a => ?_, .inr (by rw [htag]; rfl)⟩
              show _ = entries ((Rest.update {}).row ((s.setTag q.id (some tag)).tags q.id)) a
              rw [htag]
              exact (hsound a).trans (congrFun hallowed a).symm
          | true =>
              rw [hreal] at hallowed
              obtain ⟨hnew, hold⟩ := hallowed
              refine h.goOn hq hon ⟨fun a => ?_, htag, decides_created hnew, ?_⟩
              · -- the segment that had the id was no real-time one
                refine (hsound a).trans ?_
                show entries (s.tags q.id) a = entries none a
                cases htags : s.tags q.id with
                | none => rfl
                | some old => rw [entries_ordinary (hold old htags)]
              · obtain ⟨-, -, rfl⟩ := Option.map_eq_some_iff.mp hcreated
                rfl

theorem Inv.findSegment {dto : SegmentDto} (h : Inv s) (hq : s.requests r = some q)
    (hphase : q.phase = .find dto) (hallowed : Allowed s q) : Inv (s.advance r q) := by
  unfold Allowed at hallowed
  unfold State.advance
  rw [hphase] at hallowed ⊢
  dsimp only at hallowed ⊢
  cases hfind : s.find q.accountId q.id with
  | none => exact h.end hq (by rw [hphase]; rfl)
  | some tag =>
      have hfits := hallowed tag hfind
      obtain ⟨htags, haccount⟩ := find_eq hfind
      dsimp only
      cases hflag : tag.isRealTimeSegment with
      | false =>
          cases hreal : dto.realTime with
          | false =>
              show Inv (s.goOn r q (.schedule (.update dto)))
              refine h.move hq ?_ (.inl fun tag' htag' => ?_)
              · rw [hphase]
                show entries ((Rest.update dto).row (s.tags q.id)) = entries (s.tags q.id)
                rw [htags]
                exact (entries_congr (hfits.1.trans (hreal.trans hflag.symm))
                  fun htrue => (by rw [hflag] at htrue; cases htrue))
              · cases htags.symm.trans htag'
                exact haccount
          | true =>
              have hdecides := hfits.decides (by rw [hflag, hreal]; rfl)
              rw [hreal] at hdecides
              show Inv (s.goOn r q (.get tag true (.update dto)))
              refine h.move hq ?_ ⟨htags, hdecides, haccount⟩
              rw [hphase]
              show entries none = entries (s.tags q.id)
              rw [htags, entries_ordinary hflag]
      | true =>
          cases hreal : dto.realTime with
          | false =>
              have hdecides := hfits.decides (by rw [hflag, hreal]; rfl)
              rw [hreal] at hdecides
              show Inv (s.goOn r q (.get tag false (.update dto)))
              exact h.move hq (by rw [hphase]; rfl) ⟨htags, hdecides, haccount⟩
          | true =>
              show Inv (s.goOn r q (.schedule (.update dto)))
              refine h.move hq ?_ (.inl fun tag' htag' => ?_)
              · rw [hphase]
                show entries ((Rest.update dto).row (s.tags q.id)) = entries (s.tags q.id)
                rw [htags]
                exact entries_congr (hfits.1.trans (hreal.trans hflag.symm)) fun _ => hfits.2 hreal
              · cases htags.symm.trans htag'
                exact haccount

theorem Inv.findRow (h : Inv s) (hq : s.requests r = some q) (hphase : q.phase = .findToDelete)
    (hallowed : Allowed s q) : Inv (s.advance r q) := by
  unfold Allowed at hallowed
  unfold State.advance
  rw [hphase] at hallowed ⊢
  dsimp only at hallowed ⊢
  cases hfind : s.find q.accountId q.id with
  | none => exact h.end hq (by rw [hphase]; rfl)
  | some tag =>
      obtain ⟨htags, haccount⟩ := find_eq hfind
      dsimp only
      cases hflag : tag.isRealTimeSegment with
      | false =>
          have hrow : entries none = entries (q.phase.row (s.tags q.id)) := by
            rw [hphase]
            show entries none = entries (s.tags q.id)
            rw [htags, entries_ordinary hflag]
          split
          · exact h.move hq hrow trivial
          · exact h.move hq hrow trivial
      | true =>
          obtain ⟨htype, htask⟩ := hallowed tag hfind hflag
          rw [if_pos (by rw [htype, htask]; rfl), if_pos rfl]
          exact h.move hq (by rw [hphase]; rfl) ⟨htags, decides_delete hflag, haccount⟩

theorem Inv.set {add : Bool} {segmentsCache : List Nat} {rest : Rest} (h : Inv s)
    (hq : s.requests r = some q) (hphase : q.phase = .set tag add segmentsCache rest)
    (hallowed : Allowed s q) : Inv (s.advance r q) := by
  have hsound := h.busy r q hq
  obtain ⟨hagrees, hknows⟩ := hsound
  unfold Allowed at hallowed
  unfold State.advance
  rw [hphase] at hagrees hknows hallowed ⊢
  dsimp only at hallowed ⊢
  obtain ⟨htags, hdecides, haccount⟩ := hknows
  rw [← hallowed]
  refine h.goOn hq (Only.setList add) ⟨fun a => ?_, ?_⟩
  · show (Function.update s.lists tag.accountId _ a).count q.id = entries (rest.row (s.tags q.id)) a
    have hbefore : (s.lists a).count q.id = if add then 0 else if tag.accountId = a then 1 else 0 := by
      rw [hagrees a]
      cases add with
      | true => rfl
      | false =>
          show entries (s.tags q.id) a = _
          rw [htags, entries_some, hdecides.before rfl]
          simp
    rw [htags, hdecides.after a]
    rcases eq_or_ne a tag.accountId with rfl | ha
    · rw [Function.update_self, count_updated_self, hbefore]
      cases add <;> simp
    · rw [Function.update_of_ne ha, hbefore, if_neg ha.symm]
      cases add <;> simp [ha.symm]
  · cases rest with
    | delete => exact trivial
    | update dto =>
        refine .inl fun tag' htag' => ?_
        cases htags.symm.trans htag'
        exact haccount

theorem Inv.load {dto : SegmentDto} (h : Inv s) (hq : s.requests r = some q)
    (hphase : q.phase = .load dto) : Inv (s.advance r q) := by
  have hknows := (h.busy r q hq).knows
  unfold State.advance
  rw [hphase] at hknows ⊢
  dsimp only
  cases hfind : s.find q.accountId q.id with
  | none =>
      refine h.end hq ?_
      rw [hphase]
      -- there is no such row, or it is in another account and keeps its entries
      rcases hknows with haccount | hkept
      · cases htags : s.tags q.id with
        | none => rfl
        | some tag =>
            have hfound : s.find q.accountId q.id = some tag := by
              unfold State.find
              rw [htags, Option.filter_some, haccount tag htags, beq_self_eq_true, if_pos rfl]
            cases hfind.symm.trans hfound
      · exact hkept
  | some tag =>
      obtain ⟨htags, -⟩ := find_eq hfind
      cases hmerge : tag.merge dto with
      | none =>
          show Inv (match tag.merge dto with | none => s.finish r | some tag => s.goOn r q (.write tag))
          rw [hmerge]
          refine h.end hq ?_
          rw [hphase]
          show entries ((Rest.update dto).row (s.tags q.id)) = entries (s.tags q.id)
          rw [htags]
          show entries (some ((tag.merge dto).getD tag)) = _
          rw [hmerge]
          rfl
      | some new =>
          show Inv (match tag.merge dto with | none => s.finish r | some tag => s.goOn r q (.write tag))
          rw [hmerge]
          refine h.move hq ?_ (by rw [htags]; rfl)
          rw [hphase]
          show entries (some new) = entries ((Rest.update dto).row (s.tags q.id))
          rw [htags]
          show _ = entries (some ((tag.merge dto).getD tag))
          rw [hmerge]
          rfl

/-- A step of a request keeps the invariant. -/
theorem Inv.advance (h : Inv s) (hq : s.requests r = some q) (hallowed : Allowed s q) :
    Inv (s.advance r q) := by
  have hsound := h.busy r q hq
  cases hphase : q.phase with
  | copy source =>
      unfold State.advance
      rw [hphase]
      dsimp only
      cases s.find q.accountId source with
      | none => exact h.end hq (by rw [hphase]; rfl)
      | some tag => exact h.move hq (by rw [hphase]; rfl) trivial
  | save dto segment => exact h.save hq hphase hallowed
  | find dto => exact h.findSegment hq hphase hallowed
  | findToDelete => exact h.findRow hq hphase hallowed
  | get tag add rest =>
      have hknows := hsound.knows
      unfold State.advance
      rw [hphase] at hknows ⊢
      exact h.move hq (by rw [hphase]; rfl) hknows
  | set tag add segmentsCache rest => exact h.set hq hphase hallowed
  | schedule rest =>
      have hknows := hsound.knows
      unfold State.advance
      rw [hphase] at hknows ⊢
      cases rest with
      | delete => exact h.move hq (by rw [hphase]; rfl) trivial
      | update dto =>
          have htask := entries_update_task dto (some (some q.job)) (s.tags q.id)
          refine h.move hq (by rw [hphase]; exact htask) ?_
          rcases hknows with haccount | hkept
          · exact .inl haccount
          · exact .inr (htask.trans hkept)
  | load dto => exact h.load hq hphase
  | write new =>
      obtain ⟨hagrees, hknows⟩ := hsound
      unfold State.advance
      rw [hphase] at hagrees hknows ⊢
      obtain ⟨old, hold⟩ := Option.isSome_iff_exists.mp hknows
      refine h.finish hq (.setTag ..) fun a => ?_
      rw [tags_setTag, hold]
      exact hagrees a
  | deleteRow =>
      have hagrees := hsound.agrees
      unfold State.advance
      rw [hphase] at hagrees ⊢
      refine h.finish hq (.setTag ..) fun a => ?_
      rw [tags_setTag]
      exact hagrees a

theorem Call.start_knows {call : Call} {accountId : Nat} {row : Option TagEntity}
    (h : entries (call.start.row row) = entries row) : call.start.Knows accountId row := by
  cases call with
  | update dto => exact .inr h
  | _ => exact trivial

theorem Inv.begin (h : Inv s) {accountId job : Nat} {call : Call} (hfree : s.requests r = none)
    (hguarded : Guarded s (.begin r accountId id job call)) :
    Inv (s.setRequest r (some ⟨accountId, id, job, call.start⟩)) := by
  obtain ⟨halone, hrow⟩ := hguarded
  have hself : (s.setRequest r (some ⟨accountId, id, job, call.start⟩)).requests r =
      some ⟨accountId, id, job, call.start⟩ := Function.update_self ..
  have hold : ∀ r' q', (s.setRequest r (some ⟨accountId, id, job, call.start⟩)).requests r' = some q' →
      (r' = r ∧ q' = ⟨accountId, id, job, call.start⟩) ∨ s.requests r' = some q' := by
    intro r' q' hq'
    rcases eq_or_ne r' r with rfl | hr
    · exact .inl ⟨rfl, (Option.some.inj (hself.symm.trans hq')).symm⟩
    · exact .inr ((requests_ne hr).symm.trans hq')
  refine ⟨?_, ?_, ?_⟩
  · intro r₁ r₂ q₁ q₂ h₁ h₂ hid
    rcases hold r₁ q₁ h₁ with ⟨rfl, rfl⟩ | hs₁
    · rcases hold r₂ q₂ h₂ with ⟨rfl, rfl⟩ | hs₂
      · rfl
      · exact absurd hid.symm (halone r₂ q₂ hs₂)
    · rcases hold r₂ q₂ h₂ with ⟨rfl, rfl⟩ | hs₂
      · exact absurd hid (halone r₁ q₁ hs₁)
      · exact h.alone r₁ r₂ q₁ q₂ hs₁ hs₂ hid
  · intro r' q' hq'
    rcases hold r' q' hq' with ⟨rfl, rfl⟩ | hs
    · exact ⟨fun a => (h.idle id halone a).trans (congrFun hrow a).symm, Call.start_knows hrow⟩
    · exact (h.busy r' q' hs).setRequest
  · intro i hi a
    refine h.idle i (fun r' q' hq' => ?_) a
    refine hi r' q' ((requests_ne fun heq => ?_).trans hq')
    rw [heq, hfree] at hq'
    cases hq'

theorem step_inv (h : Inv s) {op : Op} (hguarded : Guarded s op) : Inv (s.step op) := by
  cases op with
  | begin r accountId id job call =>
      unfold State.step
      dsimp only
      cases hfree : s.requests r with
      | some q => exact h
      | none => exact h.begin hfree hguarded
  | step r =>
      unfold State.step
      dsimp only
      cases hq : s.requests r with
      | none => exact h
      | some q => exact h.advance hq (hguarded q hq)
  | fail r =>
      unfold State.step
      dsimp only
      cases hq : s.requests r with
      | some q => exact h.end hq (hguarded q hq)
      | none =>
          have hsame : s.finish r = s := by
            show { s with requests := Function.update s.requests r none } = s
            rw [← hq, Function.update_eq_self]
          rw [hsame]
          exact h

theorem inv_init : Inv .init :=
  ⟨fun _ _ _ _ hq => (by cases hq), fun _ _ hq => (by cases hq), fun _ _ _ => rfl⟩

/-- With no request in progress, the entries are those of the rows. -/
theorem Inv.all_registered (h : Inv s) (hquiet : Quiet s) (accountId : Nat) : Registered s accountId := by
  have hcount (id : Nat) : (s.lists accountId).count id = entries (s.tags id) accountId :=
    h.idle id (fun r q hq => by rw [hquiet r] at hq; cases hq) accountId
  constructor
  · intro id tag htag haccount hflag
    rw [hcount, htag, entries_some, if_pos ⟨hflag, haccount⟩]
  · intro id hid
    have hpos : 0 < entries (s.tags id) accountId := hcount id ▸ List.count_pos_iff.mpr hid
    cases htag : s.tags id with
    | none =>
        rw [htag] at hpos
        cases hpos
    | some tag =>
        rw [htag, entries_some] at hpos
        split at hpos
        · next hreal => exact ⟨tag, rfl, hreal.2, hreal.1⟩
        · cases hpos

/-- In every state of an allowed run that has no request in progress, the list of an account
has each real-time segment once and nothing else. -/
theorem registered (ops : List Op)
    (hguarded : Runs.Meets (fun s op => some (State.step s op)) Guarded .init ops)
    (before after : List Op) (heq : ops = before ++ after)
    (hquiet : Quiet (before.foldl State.step .init)) (accountId : Nat) :
    Registered (before.foldl State.step .init) accountId :=
  ((Runs.always_steps (I := Inv) (K := fun _ _ => True)
    (fun _ _ h hguarded => ⟨step_inv h hguarded, trivial⟩) inv_init hguarded).1
      before after heq).all_registered hquiet accountId

end

theorem guarded_step {s : State} {r : Nat} {q : Request} (hq : s.requests r = some q)
    (h : Allowed s q) : Guarded s (.step r) := by
  intro q' hq'
  cases hq.symm.trans hq'
  exact h

/-- A real-time segment is created, and the request that changes it ends early. -/
def created : List Op :=
  [.begin 0 1 7 1 (.createSegment { type := some "segment", isRealTimeSegment := some (.bool true) }),
    .step 0, .step 0, .step 0, .step 0, .step 0, .step 0,
    .begin 0 1 7 2 (.updateSegment { isRealTimeSegment := some (.bool false) }), .fail 0]

theorem registered_created : Registered (created.foldl State.step .init) 1 := by
  refine registered created ?_ created [] (List.append_nil _).symm ?_ 1
  · refine .cons ⟨fun _ _ hq => (by cases hq), rfl⟩ rfl ?_
    refine .cons (guarded_step rfl fun tag htag => ?_) rfl ?_
    · cases htag
      exact ⟨rfl, fun old hold => (by cases hold)⟩
    refine .cons (guarded_step rfl trivial) rfl ?_
    refine .cons (guarded_step rfl rfl) rfl ?_
    refine .cons (guarded_step rfl trivial) rfl ?_
    refine .cons (guarded_step rfl trivial) rfl ?_
    refine .cons (guarded_step rfl trivial) rfl ?_
    refine .cons ⟨fun r q hq => ?_, rfl⟩ rfl (.cons (fun q hq => ?_) rfl trivial)
    · rcases r with - | r
      · cases hq
      · cases hq
    · cases hq
      rfl
  · intro r
    rcases r with - | r
    · rfl
    · rfl

/-- Two requests read the list before one of them writes it. -/
def lost : List Op :=
  [.begin 0 1 7 1 (.createSegment { type := some "segment", isRealTimeSegment := some (.bool true) }),
    .begin 1 1 8 2 (.createSegment { type := some "segment", isRealTimeSegment := some (.bool true) }),
    .step 0, .step 1, .step 0, .step 1, .step 0, .step 1,
    .step 0, .step 1, .step 0, .step 1, .step 0, .step 1]

/-- A request ends between the row and the list. -/
def cut : List Op :=
  [.begin 0 1 7 1 (.createSegment { type := some "segment", isRealTimeSegment := some (.bool true) }),
    .step 0, .fail 0]

/-- A real-time segment is created, and its name is changed without the flag. -/
def leftOut : List Op :=
  [.begin 0 1 7 1 (.createSegment { type := some "segment", isRealTimeSegment := some (.bool true) }),
    .step 0, .step 0, .step 0, .step 0, .step 0, .step 0,
    .begin 0 1 7 2 (.updateSegment {}), .step 0, .step 0, .step 0, .step 0, .step 0, .step 0]

/-- The run is over, and the list of account 1 is wrong. -/
def Unregistered (ops : List Op) : Prop :=
  Quiet (ops.foldl State.step .init) ∧ ¬ Registered (ops.foldl State.step .init) 1

theorem unregistered : Unregistered lost ∧ Unregistered cut ∧ Unregistered leftOut := by
  refine ⟨⟨?_, fun h => ?_⟩, ⟨?_, fun h => ?_⟩, ⟨?_, fun h => ?_⟩⟩
  · intro r
    rcases r with - | - | r <;> rfl
  · cases h.once 7 ⟨1, "segment", some 1, true⟩ rfl rfl rfl
  · intro r
    rcases r with - | r <;> rfl
  · cases h.once 7 ⟨1, "segment", none, true⟩ rfl rfl rfl
  · intro r
    rcases r with - | r <;> rfl
  · cases h.once 7 ⟨1, "segment", some 2, true⟩ rfl rfl rfl

end OpenBms.Tags.RealTime
