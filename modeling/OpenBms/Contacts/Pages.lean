/-
# `OpenBms.Contacts.Pages` — paging through the contact list

A client asks for page 1, 2, … of a list on which nothing changes, as the importer's steps
`contacts` and `contact_tags` do: until a page is not full.  Each page is a query of its own, and
the only order of the query is the sort column.

**Proved here**, for every request, sort column and page size.

    the pages have every matching contact once, whatever the
    database answers, iff no tie of the sort column reaches
    over the end of a page (`partition_iff`)
    three contacts of one day, two to a page (`contact_skipped`)
-/
import OpenBms.Contacts.Filters

namespace OpenBms.Contacts.Filters

section
variable {κ : Type} [LinearOrder κ]

/-- The contacts that match the request. -/
def matching (db : Db) (accountId : Nat) (params : ContactsPageDto) : List Contact :=
  (pageQuery db accountId params).rows db.contacts

/-- A page of the list, not of its count. -/
def results (db : Db) (accountId : Nat) (answer : Nat → List Contact) (params : ContactsPageDto)
    (page : Nat) : List Contact :=
  (findAllPaginated db accountId answer { params with countOnly := none } page).results

/-- The pages from 1 on have each matching contact once and nothing else, and a client that reads
up to the first page that is not full has seen them all. -/
structure Partition (db : Db) (accountId : Nat) (answer : Nat → List Contact)
    (params : ContactsPageDto) : Prop where
  once : ∀ c ∈ matching db accountId params, ∃! page, c ∈ results db accountId answer params (page + 1)
  nodup : ∀ page, (results db accountId answer params (page + 1)).Nodup
  sound : ∀ page, ∀ c ∈ results db accountId answer params (page + 1), c ∈ matching db accountId params
  client : ∀ fuel, (matching db accountId params).length < fuel → ∃ read,
    Paging.loop params.itemsPerPage (results db accountId answer params) (· ++ ·) fuel 1 [] =
      some read ∧ read.Perm (matching db accountId params)

variable {column : String → Contact → κ} {db : Db} {accountId : Nat} {params : ContactsPageDto}

theorem results_eq (h : 0 < params.itemsPerPage) (answer : Nat → List Contact) :
    results db accountId answer params =
      fun page => Paging.page params.itemsPerPage (answer page) page := by
  funext page
  simp only [results, findAllPaginated, Nat.ne_of_gt h, reduceCtorEq, if_false]

theorem partition_of_unsplit {key : Contact → κ} (h : 0 < params.itemsPerPage)
    {answer : Nat → List Contact}
    (hanswer : SortedPages.Answers key (matching db accountId params) answer)
    (hunsplit : SortedPages.Unsplit key params.itemsPerPage (matching db accountId params)) :
    Partition db accountId answer params := by
  have hmem : ∀ {page : Nat} {c : Contact}, c ∈ results db accountId answer params (page + 1) ↔
      c ∈ matching db accountId params ∧
        SortedPages.before key (matching db accountId params) c / params.itemsPerPage = page := by
    intro page c
    rw [results_eq h]
    exact SortedPages.mem_page_of_unsplit h hanswer hunsplit
  refine ⟨fun c hc => ?_, fun page => ?_, fun page c hc => (hmem.mp hc).1, fun fuel hfuel => ?_⟩
  · exact ⟨_, hmem.mpr ⟨hc, rfl⟩, fun page hpage => (hmem.mp hpage).2.symm⟩
  · rw [results_eq h]
    refine List.Nodup.sublist ?_ ((hanswer (page + 1)).1.nodup_iff.mpr (nodup_rows _))
    exact (List.take_sublist _ _).trans (List.drop_sublist _ _)
  · rw [results_eq h]
    exact SortedPages.loop_perm h (nodup_rows _) hanswer hunsplit hfuel

/-- For a page size: whatever the database answers to the queries, the pages have every matching
contact exactly once, if and only if no contacts with one value of the sort column are on both
sides of the end of a page. -/
theorem partition_iff (column : String → Contact → κ) (db : Db) (accountId : Nat)
    (params : ContactsPageDto) (h : 0 < params.itemsPerPage) :
    (∀ answer, Answers column (pageQuery db accountId params) db.contacts answer →
      Partition db accountId answer params) ↔
      Unsplit column params.itemsPerPage params.sortColumn params.sortOrder
        (matching db accountId params) := by
  constructor
  · intro hall
    refine forall_seen_iff.mp fun answer hanswer c hc => ?_
    obtain ⟨page, hpage, -⟩ := (hall answer hanswer).once c hc
    exact ⟨page, hpage⟩
  · intro hunsplit answer hanswer
    unfold Unsplit at hunsplit
    cases horder : params.sortOrder with
    | asc =>
        rw [horder] at hunsplit
        exact partition_of_unsplit h ((answers_asc horder).mp hanswer) hunsplit
    | desc =>
        rw [horder] at hunsplit
        exact partition_of_unsplit h ((answers_desc horder).mp hanswer) hunsplit

end

/-! ## Two contacts to a page -/

/-- Three contacts of one day. -/
def threeContacts : Db where
  contacts := [⟨1, 7, some "ann@x.org", 0, false, false, false, true⟩,
    ⟨2, 7, some "bob@x.org", 0, false, false, false, true⟩,
    ⟨3, 7, some "eve@x.org", 0, false, false, false, true⟩]
  contactsTags := []
  primary := by decide

/-- `?itemsPerPage=2`, or another size. -/
def pagesOf (itemsPerPage : Nat) : ContactsPageDto where
  title := none
  tags := none
  segments := none
  startDate := none
  endDate := none
  contacts := none
  isUnsubscribed := none
  hasBounced := none
  isBlocked := none
  isActive := none
  countOnly := none
  itemsPerPage := itemsPerPage
  sortBy := none
  order := none

theorem answers_three {itemsPerPage : Nat} {answer : Nat → List Contact}
    (h : ∀ page, (answer page).Perm threeContacts.contacts) :
    Answers (fun _ c => c.createdAtDate) (pageQuery threeContacts 7 (pagesOf itemsPerPage))
      threeContacts.contacts answer := by
  refine (answers_desc rfl).mpr fun page => ⟨h page, ?_⟩
  refine List.Pairwise.imp_of_mem (fun {c d} hc hd _ => ?_) (List.pairwise_of_forall fun _ _ => trivial)
  have hday : ∀ c ∈ threeContacts.contacts, c.createdAtDate = 0 := by decide
  have heq : c.createdAtDate = d.createdAtDate :=
    (hday c ((h page).mem_iff.mp hc)).trans (hday d ((h page).mem_iff.mp hd)).symm
  exact OrderDual.toDual_le_toDual.mpr heq.ge

/-- All three on one page. -/
theorem partition_three :
    Partition threeContacts 7 (fun _ => threeContacts.contacts) (pagesOf 3) :=
  (partition_iff (fun _ c => c.createdAtDate) threeContacts 7 (pagesOf 3) (by decide)).mpr
    (show ∀ c ∈ matching threeContacts 7 (pagesOf 3),
      SortedPages.before (fun c => OrderDual.toDual c.createdAtDate)
        (matching threeContacts 7 (pagesOf 3)) c / 3 =
        (SortedPages.upTo (fun c => OrderDual.toDual c.createdAtDate)
          (matching threeContacts 7 (pagesOf 3)) c - 1) / 3 by decide) _
    (answers_three fun _ => .refl _)

/-- With two to a page, the third contact may come first in the answer for page 2. -/
theorem contact_skipped :
    ¬ ∀ (db : Db) (params : ContactsPageDto) (answer : Nat → List Contact),
      Answers (fun _ c => c.createdAtDate) (pageQuery db 7 params) db.contacts answer →
        Partition db 7 answer params := by
  intro hall
  have hpartition := hall threeContacts (pagesOf 2)
    (fun page => if page = 1 then threeContacts.contacts else threeContacts.contacts.rotate 2)
    (answers_three fun page => by
      split
      · exact .refl _
      · exact List.rotate_perm _ 2)
  obtain ⟨page, hpage, -⟩ := hpartition.once
    ⟨3, 7, some "eve@x.org", 0, false, false, false, true⟩ (by decide)
  match page, hpage with
  | 0, hpage => exact absurd hpage (by decide)
  | 1, hpage => exact absurd hpage (by decide)
  | page + 2, hpage =>
      have hempty : Paging.page 2 (threeContacts.contacts.rotate 2) (page + 3) = [] := by
        rw [Paging.page_succ, List.drop_of_length_le, List.take_nil]
        show 3 ≤ (page + 2) * 2
        omega
      have hresults : results threeContacts 7 (fun page => if page = 1 then threeContacts.contacts
          else threeContacts.contacts.rotate 2) (pagesOf 2) (page + 2 + 1) = [] := by
        rw [results_eq (by decide)]
        show Paging.page 2 (if page + 3 = 1 then _ else _) (page + 3) = []
        rw [if_neg (by omega), hempty]
      rw [hresults] at hpage
      cases hpage

end OpenBms.Contacts.Filters
