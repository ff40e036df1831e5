/-
# `OpenBms.Contacts.History` — the timeline of a contact, page by page

`findContactHistory` merges two sources that are stored apart: the automations of the contact in
Postgres and its events in ClickHouse.  For a page it reads as many rows of each as all pages up
to it have, sorts them by time, and cuts the page out.

**Proved here**, for any two sources and any size of the pages.

    the pages one after the other are the merged timeline: in
    descending order, with every row of the sources once, and
    the total of each is its length (`history_pages`)
-/
import OpenBms.Lib.Timeline

namespace OpenBms.Contacts.History

/-- A row of either source; `new Date(…)` of a time that is none has none. -/
structure HistoryRow where
  time : Option String
  createdAt : Option String
  type : String
  body : String

structure ContactsPageDto where
  activities : List String
  page : Nat
  itemsPerPage : Nat

section
variable (getTime : String → Option Int)

/-- `item?.time ?? item?.created_at`; neither a missing nor an invalid one is an error. -/
def historyTimestamp (item : HistoryRow) : Int :=
  ((item.time <|> item.createdAt).bind fun raw => if raw = "" then none else getTime raw).getD 0

/-- `a` comes before `b`, or with it. -/
def Recent (a b : HistoryRow) : Prop := historyTimestamp getTime b ≤ historyTimestamp getTime a

instance : DecidableRel (Recent getTime) := fun a b =>
  inferInstanceAs (Decidable (historyTimestamp getTime b ≤ historyTimestamp getTime a))

/-- What a source has for a contact and the filters of the request, in the order it lists it:
`ORDER BY … DESC`, and among equal times one that does not change. -/
structure Source where
  rows : List HistoryRow
  sorted : rows.Pairwise (Recent getTime)

end

variable {getTime : String → Option Int}

/-- `LIMIT`. -/
def Source.fetch (source : Source getTime) (limit : Nat) : List HistoryRow := source.rows.take limit

/-- `COUNT`. -/
def Source.count (source : Source getTime) : Nat := source.rows.length

def Source.empty : Source getTime := ⟨[], .nil⟩

/-- The sources a request is about; without activities both. -/
def ContactsPageDto.shouldFetchAutomations (params : ContactsPageDto) : Bool :=
  params.activities.isEmpty || params.activities.contains "automation"

def ContactsPageDto.shouldFetchEvents (params : ContactsPageDto) : Bool :=
  params.activities.isEmpty || params.activities.contains "message"

/-- `fetchContactEventsFromClickhouse`: without events their rows are not asked for. -/
def fetchContactEventsFromClickhouse (source : Source getTime) (limit : Nat) :
    List HistoryRow × Nat :=
  let total := source.count
  if total = 0 then ([], 0) else (source.fetch (if limit = 0 then 10 else limit), total)

structure PaginationDto where
  results : List HistoryRow
  total : Nat
  page : Nat
  itemsPerPage : Nat

/-- `findContactHistory`. -/
def findContactHistory (automationsSource eventsSource : Source getTime)
    (params : ContactsPageDto) : PaginationDto :=
  let itemsPerPage := if params.itemsPerPage = 0 then 10 else params.itemsPerPage
  let page := if params.page = 0 then 1 else params.page
  let fetchLimit := page * itemsPerPage
  let (automations, automationsTotal) :=
    if params.shouldFetchAutomations then
      (automationsSource.fetch fetchLimit, automationsSource.count)
    else ([], 0)
  let (events, eventsTotal) :=
    if params.shouldFetchEvents then fetchContactEventsFromClickhouse eventsSource fetchLimit
    else ([], 0)
  let combinedData := (((automations ++ events).insertionSort (Recent getTime)).take
    (page * itemsPerPage)).drop ((page - 1) * itemsPerPage)
  ⟨combinedData, automationsTotal + eventsTotal, page, itemsPerPage⟩

/-! ## The merged timeline -/

/-- The sources as the request asks for them. -/
def asked (params : ContactsPageDto) (automationsSource eventsSource : Source getTime) :
    Source getTime × Source getTime :=
  (if params.shouldFetchAutomations then automationsSource else .empty,
    if params.shouldFetchEvents then eventsSource else .empty)

/-- All rows asked for by time; rows of one time in the order of the sources. -/
def timeline (automationsSource eventsSource : Source getTime) : List HistoryRow :=
  (automationsSource.rows ++ eventsSource.rows).insertionSort (Recent getTime)

/-- The timeline has every row of the sources once, in descending order. -/
structure Merges (l : List HistoryRow) (automationsSource eventsSource : Source getTime) : Prop where
  perm : l.Perm (automationsSource.rows ++ eventsSource.rows)
  sorted : l.Pairwise (Recent getTime)
  automations : automationsSource.rows.Sublist l
  events : eventsSource.rows.Sublist l

section Proofs
variable {automationsSource eventsSource : Source getTime} {params : ContactsPageDto}

theorem recent_trans (a b c : HistoryRow) (hab : Recent getTime a b) (hbc : Recent getTime b c) :
    Recent getTime a c :=
  le_trans (α := Int) hbc hab

instance : Std.Total (Recent getTime) := ⟨fun _ _ => le_total (α := Int) _ _⟩

instance : IsTrans HistoryRow (Recent getTime) := ⟨recent_trans⟩

theorem merges_timeline : Merges (timeline automationsSource eventsSource) automationsSource
    eventsSource where
  perm := List.perm_insertionSort _ _
  sorted := List.pairwise_insertionSort _ _
  automations := List.sublist_insertionSort automationsSource.sorted (List.sublist_append_left _ _)
  events := List.sublist_insertionSort eventsSource.sorted (List.sublist_append_right _ _)

theorem fetchContactEventsFromClickhouse_eq (source : Source getTime) {limit : Nat} (h : limit ≠ 0) :
    fetchContactEventsFromClickhouse source limit = (source.fetch limit, source.count) := by
  rw [fetchContactEventsFromClickhouse]
  by_cases htotal : source.count = 0
  · have hrows : source.rows = [] := List.length_eq_zero_iff.mp htotal
    rw [if_pos htotal, htotal, Source.fetch, hrows, List.take_nil]
  · rw [if_neg htotal, if_neg h]

/-- A page is cut out of the timeline of all rows. -/
theorem findContactHistory_eq (params : ContactsPageDto) (hpage : params.page ≠ 0) (hitems : params.itemsPerPage ≠ 0) :
    findContactHistory automationsSource eventsSource params =
      let sources := asked params automationsSource eventsSource
      ⟨Timeline.slice params.itemsPerPage (params.page - 1) (timeline sources.1 sources.2),
        (timeline sources.1 sources.2).length, params.page, params.itemsPerPage⟩ := by
  have hlimit : params.page * params.itemsPerPage ≠ 0 := Nat.mul_ne_zero hpage hitems
  have hsucc : params.page - 1 + 1 = params.page := Nat.sub_add_cancel (Nat.pos_of_ne_zero hpage)
  have hautomations : (if params.shouldFetchAutomations then
      (automationsSource.fetch (params.page * params.itemsPerPage), automationsSource.count)
      else ([], 0)) =
      ((asked params automationsSource eventsSource).1.fetch (params.page * params.itemsPerPage),
        (asked params automationsSource eventsSource).1.count) := by
    rw [asked]
    split
    · rfl
    · rw [Source.fetch, Source.empty, List.take_nil]
      rfl
  have hevents : (if params.shouldFetchEvents then
      fetchContactEventsFromClickhouse eventsSource (params.page * params.itemsPerPage)
      else ([], 0)) =
      ((asked params automationsSource eventsSource).2.fetch (params.page * params.itemsPerPage),
        (asked params automationsSource eventsSource).2.count) := by
    rw [asked, fetchContactEventsFromClickhouse_eq _ hlimit]
    split
    · rfl
    · rw [Source.fetch, Source.empty, List.take_nil]
      rfl
  rw [findContactHistory]
  simp only [if_neg hpage, if_neg hitems, hautomations, hevents]
  generalize asked params automationsSource eventsSource = sources
  have hlength : (timeline sources.1 sources.2).length = sources.1.count + sources.2.count := by
    rw [merges_timeline.perm.length_eq, List.length_append]
    rfl
  rw [hlength, Timeline.slice, hsucc, timeline, Source.fetch, Source.fetch,
    Timeline.take_insertionSort_append recent_trans sources.1.sorted sources.2.sorted]

/-- Whatever the sources and the size of the pages: the pages one after the other are the first
part of the merged timeline, all of it when there are enough of them, and each page has its length
for the total. -/
theorem history_pages (automationsSource eventsSource : Source getTime) (activities : List String)
    (n : Nat) (hn : 0 < n) :
    let pageOf := fun page => findContactHistory automationsSource eventsSource ⟨activities, page, n⟩
    let sources := asked ⟨activities, 1, n⟩ automationsSource eventsSource
    ∃ l, Merges l sources.1 sources.2 ∧
      (∀ pages, ((List.range pages).flatMap fun i => (pageOf (i + 1)).results) = l.take (pages * n)) ∧
      (∀ pages, l.length ≤ pages * n →
        ((List.range pages).flatMap fun i => (pageOf (i + 1)).results) = l) ∧
      ∀ i, (pageOf (i + 1)).total = l.length := by
  intro pageOf sources
  have hpageOf : ∀ i, pageOf (i + 1) =
      ⟨Timeline.slice n i (timeline sources.1 sources.2), (timeline sources.1 sources.2).length,
        i + 1, n⟩ := fun i =>
    findContactHistory_eq ⟨activities, i + 1, n⟩ (Nat.succ_ne_zero i) (Nat.ne_of_gt hn)
  have hfirst : ∀ pages, ((List.range pages).flatMap fun i => (pageOf (i + 1)).results) =
      (timeline sources.1 sources.2).take (pages * n) := by
    intro pages
    simp only [hpageOf]
    exact Timeline.flatMap_slices n _ pages
  refine ⟨timeline sources.1 sources.2, merges_timeline, hfirst, fun pages hlength => ?_, fun i => ?_⟩
  · rw [hfirst, List.take_of_length_le hlength]
  · rw [hpageOf]

end Proofs

/-- Every time is the same. -/
def sameTime : String → Option Int := fun _ => some 5

def oneAutomation : Source sameTime := ⟨[⟨none, some "5", "automation", "a"⟩], by decide⟩

def oneMessage : Source sameTime := ⟨[⟨some "5", none, "message", "b"⟩], by decide⟩

/-- Two rows of one time, in pages of one row. -/
theorem history_pages_tie : ∃ l, Merges l oneAutomation oneMessage ∧ l.length = 2 :=
  (history_pages oneAutomation oneMessage [] 1 Nat.one_pos).imp fun _ h =>
    ⟨h.1, h.1.perm.length_eq⟩

end OpenBms.Contacts.History
