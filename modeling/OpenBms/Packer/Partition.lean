/-
# `OpenBms.Packer.Partition` — which contacts a campaign's sends reach

A send that starts after a row reads the rows above it, except when it is a TESTAB
send of one page: that page begins at the row itself, which the send below has
already read.

| sends of | every order number in one page when |
| :-- | :-- |
| simple, recurring | always |
| split | there is a contact to every second message, or none at all |
| testAB | no send that starts after a row fits one page |

**Proved here.**

    what a send takes of a row (`taken_createBatches`)
    what the variants of a test take (`taken_testLoop`)
    where the cut points of a test lie (`startedTestAB_eq`, `cutPositions_eq`)
    the sends of a campaign take each row once and number their
    pages, exactly when no boundary row is read twice
    (`sends_partition_iff`)
-/
import OpenBms.Packer.Batches

namespace OpenBms.Packer

/-! ## Taking a row -/

def Job.orders (limit : BatchLimit) (rows : ContactRows) (j : Job) : List Nat :=
  findByTags limit rows j.currentContactId j.finalContactId

/-- How many of the pages read a row. -/
def taken (limit : BatchLimit) (rows : ContactRows) (jobs : List Job) (o : Nat) : Nat :=
  jobs.countP fun j => decide (o ∈ j.orders limit rows)

structure Numbered (send : List Job) : Prop where
  pages : send.map (·.page) = List.range' 1 send.length
  total : ∀ j ∈ send, j.totalPages = send.length

/-- Each row is in one page of one send, and the pages of a send are numbered. -/
structure Partitioned (limit : BatchLimit) (rows : ContactRows) (sends : List (List Job)) : Prop where
  once : ∀ o ∈ rows.orders, taken limit rows sends.flatten o = 1
  numbered : ∀ send ∈ sends, Numbered send

section Rows

variable {limit : BatchLimit} {rows : ContactRows} {o : Nat}

theorem ContactRows.pos (ho : o ∈ rows.orders) : 0 < o :=
  List.rel_of_pairwise_cons rows.ascending ho

theorem ContactRows.sorted : rows.orders.Pairwise (· < ·) := rows.ascending.of_cons

theorem mem_orders (limit : BatchLimit) (j : Job) (ho : o ∈ rows.orders) (hfinal : 0 < j.finalContactId) :
    o ∈ j.orders limit rows ↔ j.currentContactId ≤ o ∧ o ≤ j.finalContactId := by
  simp only [Job.orders, findByTags, if_neg hfinal.ne', List.mem_filter, ho, true_and,
    Bool.and_eq_true, decide_eq_true_eq]

theorem mem_subquery {a b : Nat} :
    o ∈ subquery rows a b ↔ o ∈ rows.orders ∧ a < o ∧ (b = 0 ∨ o ≤ b) := by
  simp only [subquery, List.mem_filter, Bool.and_eq_true, Bool.or_eq_true, beq_iff_eq,
    decide_eq_true_eq]
  constructor
  · rintro ⟨ho, ha, hb⟩
    refine ⟨ho, ?_, hb⟩
    rcases ha with rfl | ha
    · exact ContactRows.pos ho
    · exact ha
  · rintro ⟨ho, ha, hb⟩
    exact ⟨ho, .inr ha, hb⟩

theorem subquery_sorted {a b : Nat} : (subquery rows a b).Pairwise (· < ·) :=
  rows.sorted.sublist List.filter_sublist

/-- A page of a stretch takes the rows of the stretch. -/
theorem mem_orders_of_spans (limit : BatchLimit) {j : Job} {r : Nat × Nat} (h : Spans j r) (hr : r.1 < r.2)
    (ho : o ∈ rows.orders) : o ∈ j.orders limit rows ↔ Cuts.within o r = true := by
  obtain ⟨hfinal, hcurrent⟩ := h
  have hpos : 0 < o := ContactRows.pos ho
  rw [mem_orders limit j ho (by omega), Cuts.within_iff, hfinal]
  rcases hcurrent with h | ⟨h, hr1⟩
  · rw [h]
    rfl
  · rw [h, hr1]
    simp only [Nat.zero_le, true_and, hpos]

theorem taken_of_spans {jobs : List Job} {rs : List (Nat × Nat)} (h : List.Forall₂ Spans jobs rs)
    (hrs : ∀ r ∈ rs, r.1 < r.2) (ho : o ∈ rows.orders) :
    taken limit rows jobs o = rs.countP (Cuts.within o) := by
  induction h with
  | nil => rfl
  | @cons j r jobs rs hjr _ ih =>
      have hiff := mem_orders_of_spans limit hjr (hrs r List.mem_cons_self) ho
      have hrest := ih fun r' hr' => hrs r' (List.mem_cons_of_mem _ hr')
      simp only [taken, List.countP_cons, decide_eq_true_eq, hiff] at hrest ⊢
      rw [hrest]

theorem taken_append {l₁ l₂ : List Job} :
    taken limit rows (l₁ ++ l₂) o = taken limit rows l₁ o + taken limit rows l₂ o :=
  List.countP_append

end Rows

/-! ## One send -/

/-- The row a send starts after, when it is read by the send all the same. -/
def Rereads (limit : BatchLimit) (rows : ContactRows) (c : Campaign) (b o : Nat) : Prop :=
  c.type = .TESTAB ∧ 0 < c.lastId ∧ o = c.lastId ∧
    0 < (subquery rows c.lastId b).length ∧
    (subquery rows c.lastId b).length ≤ getLimit limit rows c.spreadSending

instance (limit : BatchLimit) (rows : ContactRows) (c : Campaign) (b o : Nat) :
    Decidable (Rereads limit rows c b o) := by
  unfold Rereads
  infer_instance

section Send

variable {limit : BatchLimit} {rows : ContactRows} {c campaign : Campaign} {testabMode : Bool}
variable {b o first : Nat} {contacts : List Nat}

/-- What the cut points of a send are, seen from its rows. -/
structure CutSpec (limit : BatchLimit) (rows : ContactRows) (c : Campaign) (b first : Nat)
    (contacts : List Nat) : Prop where
  descending : (first :: contacts).Pairwise (· > ·)
  above : ∀ t ∈ first :: contacts, c.lastId < t
  upTo : ∀ o ∈ rows.orders, c.lastId < o → (o ≤ first ↔ b = 0 ∨ o ≤ b)
  some : 0 < (subquery rows c.lastId b).length
  fits : contacts = [] ↔ (subquery rows c.lastId b).length ≤ getLimit limit rows c.spreadSending

theorem countByTags_spec (hcut : countByTags limit rows c c.lastId b = first :: contacts) :
    CutSpec limit rows c b first contacts := by
  have hsorted : (subquery rows c.lastId b).Pairwise (· < ·) := subquery_sorted
  have hmem : ∀ t ∈ first :: contacts, t ∈ subquery rows c.lastId b := by
    intro t ht
    rw [← hcut] at ht
    exact mem_cutRows ht
  have hne : subquery rows c.lastId b ≠ [] := List.ne_nil_of_mem (hmem first List.mem_cons_self)
  have hfirst : first = (subquery rows c.lastId b).getLast hne := by
    have hhead := headD_cutRows (getLimit limit rows c.spreadSending)
      (subquery rows c.lastId b) 0
    rw [← countByTags, hcut, List.headD_cons, List.getLastD_eq_getLast?,
      List.getLast?_eq_some_getLast hne] at hhead
    exact hhead
  refine ⟨?_, fun t ht => (mem_subquery.mp (hmem t ht)).2.1, ?_, List.length_pos_of_ne_nil hne, ?_⟩
  · rw [← hcut]
    exact cutRows_descending hsorted
  · intro o ho ha
    constructor
    · intro hle
      have hup := (mem_subquery.mp (hmem first List.mem_cons_self)).2.2
      exact hup.imp_right fun h => hle.trans h
    · intro hb
      have ho' : o ∈ subquery rows c.lastId b := mem_subquery.mpr ⟨ho, ha, hb⟩
      rw [hfirst]
      exact (hsorted.imp Nat.le_of_lt).rel_getLast ho'
  · have hone := cutRows_length_eq_one_iff (getLimit_pos limit rows c.spreadSending) hsorted
    rw [← countByTags, hcut, List.length_cons, Nat.add_eq_right, List.length_eq_zero_iff] at hone
    rw [hone]
    exact and_iff_right hne

/-- A send takes each row between its bounds once, and may reread the row below. -/
theorem taken_createPages
    (htype : c.type = .SPLIT ∨ c.type = .TESTAB ∨ c.lastId = 0)
    (hcut : countByTags limit rows c c.lastId b = first :: contacts) (ho : o ∈ rows.orders) :
    taken limit rows (createPages c testabMode first contacts) o =
      (if c.lastId < o ∧ (b = 0 ∨ o ≤ b) then 1 else 0) +
        if Rereads limit rows c b o then 1 else 0 := by
  have hspec := countByTags_spec hcut
  have hfirst : c.lastId < first := hspec.above first List.mem_cons_self
  by_cases hs : c.type = .TESTAB ∧ contacts = [] ∧ 0 < c.lastId
  · -- the only page of a TESTAB send begins at the row below
    obtain ⟨htest, rfl, hpos⟩ := hs
    obtain ⟨j, hj, hcurrent, hfinal⟩ := createPages_single testabMode first htest
    have htaken : taken limit rows [j] o = if c.lastId ≤ o ∧ o ≤ first then 1 else 0 := by
      have hiff := mem_orders limit j ho (by omega)
      rw [hcurrent, hfinal] at hiff
      simp only [taken, List.countP_cons, List.countP_nil, decide_eq_true_eq, hiff, Nat.zero_add]
    rw [hj, htaken]
    have hre : Rereads limit rows c b o ↔ o = c.lastId :=
      ⟨fun h => h.2.2.1, fun h => ⟨htest, hpos, h, hspec.some, hspec.fits.mp rfl⟩⟩
    simp only [hre]
    rcases Nat.lt_trichotomy o c.lastId with h | h | h
    · rw [if_neg (by omega), if_neg (by omega), if_neg (by omega)]
    · rw [if_pos (by omega), if_neg (by omega), if_pos h]
    · simp only [h.le, true_and, h, hspec.upTo o ho h, h.ne', if_false, Nat.add_zero]
  · have hone : c.type = .TESTAB → contacts = [] → c.lastId = 0 := by
      intro h1 h2
      by_contra h3
      exact hs ⟨h1, h2, Nat.pos_of_ne_zero h3⟩
    have hre : ¬ Rereads limit rows c b o := by
      intro h
      have hlast := hone h.1 (hspec.fits.mpr h.2.2.2.2)
      exact absurd h.2.1 (by omega)
    have hspans := createPages_spans testabMode first htype hone
    rw [taken_of_spans hspans (fun r => Cuts.lower_lt_upper hspec.descending hspec.above) ho,
      Cuts.countP_within_stretches hspec.descending hspec.above, if_neg hre, Nat.add_zero,
      List.headD_cons]
    by_cases h : c.lastId < o
    · simp only [h, true_and, hspec.upTo o ho h]
    · simp only [h, false_and]

theorem numbered_createPages : Numbered (createPages c testabMode first contacts) := by
  have hlength : (createPages c testabMode first contacts).length = contacts.length + 1 := by
    have h := congrArg List.length (pages_createPages c testabMode first contacts)
    rwa [List.length_map, List.length_range'] at h
  refine ⟨?_, fun j hj => ?_⟩
  · rw [hlength]
    exact pages_createPages c testabMode first contacts
  · rw [hlength]
    exact totalPages_createPages hj

theorem createBatches_eq (hv : validateCampaign campaign = .ok ())
    (hc : forgetTest (chooseMessage campaign) = c) :
    createBatches limit rows false campaign =
      match countByTags limit rows c c.lastId (c.testabinInitialPageId.getD 0) with
      | [] => .error (.contactsNotFound c.title)
      | first :: contacts =>
          .ok ⟨createPages c campaign.testabMode first contacts,
            "Processed " ++ toString (contacts.length + 1) ++ " pages", !campaign.testabMode⟩ := by
  rw [createBatches, if_neg Bool.false_ne_true, hv]
  subst hc
  rfl

theorem taken_createBatches (limit : BatchLimit) (hv : validateCampaign campaign = .ok ())
    (hc : forgetTest (chooseMessage campaign) = c)
    (htype : c.type = .SPLIT ∨ c.type = .TESTAB ∨ c.lastId = 0)
    (hb : c.testabinInitialPageId.getD 0 = b) (ho : o ∈ rows.orders) :
    taken limit rows (queued (createBatches limit rows false campaign)) o =
      (if c.lastId < o ∧ (b = 0 ∨ o ≤ b) then 1 else 0) +
        if Rereads limit rows c b o then 1 else 0 := by
  rw [createBatches_eq hv hc, hb]
  cases hcut : countByTags limit rows c c.lastId b with
  | nil =>
      have hnil : subquery rows c.lastId b = [] := cutRows_eq_nil_iff.mp hcut
      have hno : ¬ (c.lastId < o ∧ (b = 0 ∨ o ≤ b)) := by
        intro h
        have hmem : o ∈ subquery rows c.lastId b := mem_subquery.mpr ⟨ho, h⟩
        rw [hnil] at hmem
        cases hmem
      have hre : ¬ Rereads limit rows c b o := by
        intro h
        have hpos := h.2.2.2.1
        rw [hnil] at hpos
        cases hpos
      rw [if_neg hno, if_neg hre]
      rfl
  | cons first contacts => exact taken_createPages htype hcut ho

theorem numbered_createBatches (limit : BatchLimit) (rows : ContactRows)
    (hv : validateCampaign campaign = .ok ()) :
    Numbered (queued (createBatches limit rows false campaign)) := by
  rw [createBatches_eq hv rfl]
  split
  · exact ⟨rfl, fun j hj => by cases hj⟩
  · exact numbered_createPages

/-- A send with a row between its bounds is made. -/
theorem createBatches_ok (limit : BatchLimit) (hv : validateCampaign campaign = .ok ())
    (hc : forgetTest (chooseMessage campaign) = c) (hb : c.testabinInitialPageId.getD 0 = b)
    (ho : o ∈ rows.orders) (hlo : c.lastId < o) (hup : b = 0 ∨ o ≤ b) :
    ∃ batches, createBatches limit rows false campaign = .ok batches := by
  rw [createBatches_eq hv hc, hb]
  cases hcut : countByTags limit rows c c.lastId b with
  | nil =>
      have hmem : o ∈ subquery rows c.lastId b := mem_subquery.mpr ⟨ho, hlo, hup⟩
      rw [cutRows_eq_nil_iff.mp hcut] at hmem
      cases hmem
  | cons first contacts => exact ⟨_, rfl⟩

end Send

/-! ## The variants of a test -/

section Test

variable {limit : BatchLimit} {rows : ContactRows} {campaign : Campaign}
variable {messages : List CampaignMessage} {index : Nat} {pages : List Nat}

/-- `validateCampaign` accepts the campaign with each of the messages. -/
def Accepted (campaign : Campaign) (messages : List CampaignMessage) : Prop :=
  ∀ m ∈ messages, validateCampaign { campaign with campaignMessage := [m] } = .ok ()

/-- The TESTAB send of a stretch fits one page. -/
def Tight (limit : BatchLimit) (rows : ContactRows) (campaign : Campaign) (r : Nat × Nat) : Prop :=
  campaign.type = .TESTAB ∧ 0 < r.1 ∧ 0 < (subquery rows r.1 r.2).length ∧
    (subquery rows r.1 r.2).length ≤ getLimit limit rows campaign.spreadSending

instance (limit : BatchLimit) (rows : ContactRows) (campaign : Campaign) (r : Nat × Nat) :
    Decidable (Tight limit rows campaign r) := by
  unfold Tight
  infer_instance

theorem validateCampaign_variant (hv : Accepted campaign messages) {index : Nat}
    (hi : index < messages.length)
    (next page : Nat) : validateCampaign (variant campaign messages index next page) = .ok () := by
  have h := hv messages[index] (List.getElem_mem hi)
  simp only [validateCampaign, checkMessage, variant, List.getElem?_eq_getElem hi,
    Option.toList_some] at h ⊢
  exact h

theorem forgetTest_variant (messages : List CampaignMessage) (index : Nat)
    (htype : campaign.type = .SPLIT ∨ campaign.type = .TESTAB) (next page : Nat) : forgetTest (chooseMessage (variant campaign messages index next page)) =
      variant campaign messages index next page := by
  have hchoose : chooseMessage (variant campaign messages index next page) =
      variant campaign messages index next page := if_neg (fun h => by cases h.1)
  rw [hchoose]
  exact if_pos htype

theorem rereads_variant_iff {next page o : Nat} :
    Rereads limit rows (variant campaign messages index next page) page o ↔
      Tight limit rows campaign (next, page) ∧ o = next := by
  simp only [Rereads, Tight, variant, Campaign.lastId, Option.getD_some]
  tauto

/-- Every variant is sent; it takes the rows of its stretch, and the row below when it fits
one page. -/
theorem taken_testLoop (limit : BatchLimit) (hv : Accepted campaign messages)
    (htype : campaign.type = .SPLIT ∨ campaign.type = .TESTAB)
    (hs : pages.Pairwise (· > ·)) (hrows : ∀ t ∈ pages, t ∈ rows.orders)
    (hlen : index + pages.length ≤ messages.length) :
    ∃ sends, testLoop limit rows false campaign messages index pages = (sends, none) ∧
      (∀ send ∈ sends, Numbered send) ∧
      ∀ o ∈ rows.orders, taken limit rows sends.flatten o =
        (Cuts.stretches 0 pages).countP (Cuts.within o) +
          (Cuts.stretches 0 pages).countP fun r =>
            decide (Tight limit rows campaign r ∧ o = r.1) := by
  induction pages generalizing index with
  | nil => exact ⟨[], rfl, (fun _ h => absurd h List.not_mem_nil), fun _ _ => rfl⟩
  | cons page pages ih =>
      have hpage : page ∈ rows.orders := hrows page List.mem_cons_self
      have hbelow : pages.headD 0 < page := Cuts.headD_le hs (ContactRows.pos hpage)
      rw [List.length_cons] at hlen
      have hvalid := validateCampaign_variant hv (by omega : index < messages.length)
        (pages.headD 0) page
      have hforget := forgetTest_variant messages index htype
        (pages.headD 0) page
      obtain ⟨batches, hbatches⟩ := createBatches_ok limit hvalid hforget rfl hpage
        hbelow (.inr (le_refl _))
      obtain ⟨sends, hloop, hnumbered, htaken⟩ := ih hs.of_cons
        (fun t ht => hrows t (List.mem_cons_of_mem _ ht))
        (by omega : index + 1 + pages.length ≤ messages.length)
      refine ⟨batches.jobs :: sends, ?_, ?_, ?_⟩
      · simp only [testLoop, hbatches, hloop]
      · intro send hsend
        rcases List.mem_cons.mp hsend with rfl | hsend
        · have h := numbered_createBatches limit rows hvalid
          rwa [hbatches] at h
        · exact hnumbered send hsend
      · intro o ho
        have hone := taken_createBatches limit hvalid hforget
          (htype.imp_right .inl) rfl ho
        rw [hbatches] at hone
        have hpos : page ≠ 0 := (ContactRows.pos hpage).ne'
        have hinit : (variant campaign messages index (pages.headD 0)
            page).testabinInitialPageId.getD 0 = page := rfl
        have hlast : (variant campaign messages index (pages.headD 0) page).lastId =
            pages.headD 0 := rfl
        simp only [queued, hinit, hlast, rereads_variant_iff, hpos, false_or] at hone
        rw [List.flatten_cons, taken_append, hone, htaken o ho]
        simp only [Cuts.stretches, List.countP_cons, Cuts.within_iff, decide_eq_true_eq]
        omega

end Test

/-! ## The cut points of a test -/

section Cut

variable {rows : ContactRows} {percent : ℚ} {m q s k : Nat}

/-- How many rows of `n` have a rank within the percentage. -/
def testedOf (percent : ℚ) (n : Nat) : Nat :=
  (List.range' 1 n).countP fun j => decide (percentRank n j ≤ percent)

theorem testedOf_le (percent : ℚ) (n : Nat) : testedOf percent n ≤ n := by
  have h := List.countP_le_length (p := fun j => decide (percentRank n j ≤ percent))
    (l := List.range' 1 n)
  rwa [List.length_range'] at h

theorem percentRank_mono {n i j : Nat} (hi : 0 < i) (hij : i ≤ j) (hj : j ≤ n) :
    percentRank n i ≤ percentRank n j := by
  have hn : (1 : ℚ) ≤ n := by exact_mod_cast (by omega : 1 ≤ n)
  have hle : (i : ℚ) ≤ j := by exact_mod_cast hij
  exact div_le_div_of_nonneg_right (by linarith) (by linarith)

/-- Every row is tested when the percentage is the whole. -/
theorem testedOf_one (n : Nat) : testedOf 1 n = n := by
  rw [testedOf, List.countP_eq_length.mpr, List.length_range']
  intro j hj
  have hmem := List.mem_range'_1.mp hj
  have hj : (j : ℚ) ≤ n := by exact_mod_cast (by omega : j ≤ n)
  have hn : (1 : ℚ) ≤ n := by exact_mod_cast (by omega : 1 ≤ n)
  rw [decide_eq_true_eq, percentRank]
  exact div_le_one_of_le₀ (by linarith) (by linarith)

theorem rankedWithin_eq : rankedWithin percent rows =
    (List.range' 1 (testedOf percent rows.count)).map (Cuts.place 0 rows.orders) := by
  rw [rankedWithin, Cuts.picks_eq_map _ 0, ← ContactRows.count]
  rw [Cuts.filter_range'_eq fun i j hi hij hj h => ?_]
  · rfl
  · rw [decide_eq_true_eq] at h ⊢
    exact (percentRank_mono hi hij hj).trans h

/-- Where the cut points lie among `m` tested rows, the highest first. -/
def cutPositions (m q s : Nat) : List Nat :=
  ((List.range' 1 m).filter fun countRow =>
    (countRow % s == 0 && decide (countRow < q * s)) || m == countRow).reverse

theorem startedTestAB_none (h : testedOf percent rows.count = 0) :
    startedTestAB rows q percent = .ok [] := by
  simp only [startedTestAB, rankedWithin_eq, h, List.range'_zero, List.map_nil, if_true]

theorem startedTestAB_error (hm : 0 < testedOf percent rows.count)
    (h : q = 0 ∨ roundDiv (testedOf percent rows.count) q = 0) :
    startedTestAB rows q percent = .error .divisionByZero := by
  have hne : rankedWithin percent rows ≠ [] := by
    rw [rankedWithin_eq, ne_eq, List.map_eq_nil_iff, List.range'_eq_nil_iff]
    exact hm.ne'
  have hlen : (rankedWithin percent rows).length = testedOf percent rows.count := by
    rw [rankedWithin_eq, List.length_map, List.length_range']
  simp only [startedTestAB, if_neg hne, hlen, if_pos h]

theorem startedTestAB_eq (hm : testedOf percent rows.count = m) (hpos : 0 < m) (hq : 0 < q)
    (hs : roundDiv m q = s) (hspos : 0 < s) : startedTestAB rows q percent =
      .ok ((cutPositions m q s).map (Cuts.place 0 rows.orders)) := by
  have hlen : (rankedWithin percent rows).length = m := by
    rw [rankedWithin_eq, List.length_map, List.length_range', hm]
  have hne : rankedWithin percent rows ≠ [] := List.ne_nil_of_length_pos (by omega)
  have hplace : ∀ j ∈ List.range' 1 m,
      Cuts.place 0 (rankedWithin percent rows) j = Cuts.place 0 rows.orders j := by
    intro j hj
    obtain ⟨i, rfl⟩ := Nat.exists_eq_add_one.mpr (List.mem_range'_1.mp hj).1
    have hi := (List.mem_range'_1.mp hj).2
    have hget : ∀ (l : List Nat) (h : i < l.length), l = rankedWithin percent rows →
        l[i] = Cuts.place 0 rows.orders (i + 1) := by
      rintro l h rfl
      simp only [rankedWithin_eq, List.getElem_map, List.getElem_range', Nat.one_mul,
        Nat.add_comm 1]
    rw [Cuts.place_succ 0 (by omega), hget _ (by omega) rfl]
  have herror : ¬ (q = 0 ∨ s = 0) := by omega
  simp only [startedTestAB, if_neg hne, Cuts.picks_eq_map _ 0, cutPositions, hlen, hs,
    if_neg herror, List.map_reverse]
  rw [List.map_congr_left fun j hj => hplace j (List.mem_of_mem_filter hj)]

/-- How many cut points lie below the last tested row. -/
def lowerCuts (m q s : Nat) : Nat := min (q - 1) ((m - 1) / s)

theorem cutPositions_eq (hm : 0 < m) (hs : 0 < s) : cutPositions m q s =
    m :: ((List.range' 1 (lowerCuts m q s)).map (· * s)).reverse := by
  have hle : ∀ i, i ≤ lowerCuts m q s ↔ i ≤ q - 1 ∧ i * s ≤ m - 1 := by
    intro i
    rw [lowerCuts, Nat.le_min, Nat.le_div_iff_mul_le hs]
  have hmono : ∀ i j, i < j → i * s < j * s := fun i j hij => Nat.mul_lt_mul_of_pos_right hij hs
  have hmem : ∀ i ∈ (List.range' 1 (lowerCuts m q s)).map (· * s), i < m := by
    intro c hc
    obtain ⟨i, hi, rfl⟩ := List.mem_map.mp hc
    have := (hle i).mp (by have := List.mem_range'_1.mp hi; omega)
    omega
  have hkey : (List.range' 1 m).filter (fun countRow =>
      (countRow % s == 0 && decide (countRow < q * s)) || m == countRow) =
        (List.range' 1 (lowerCuts m q s)).map (· * s) ++ [m] := by
    refine List.Pairwise.eq_of_mem_iff (r := (· < ·)) (List.Pairwise.filter _ List.pairwise_lt_range') ?_ ?_
    · refine List.pairwise_append.mpr ⟨?_, List.pairwise_singleton _ _, ?_⟩
      · exact List.pairwise_map.mpr (List.Pairwise.imp (hmono _ _) List.pairwise_lt_range')
      · intro a ha b hb
        rw [List.mem_singleton.mp hb]
        exact hmem a ha
    · intro c
      simp only [List.mem_filter, List.mem_range'_1, List.mem_append, List.mem_map,
        List.mem_singleton, Bool.or_eq_true, Bool.and_eq_true, beq_iff_eq, decide_eq_true_eq]
      constructor
      · rintro ⟨⟨hc, hcm⟩, ⟨hmod, hcq⟩ | rfl⟩
        · by_cases heq : c = m
          · exact .inr heq
          · obtain ⟨i, rfl⟩ : ∃ i, c = i * s :=
              ⟨c / s, (Nat.div_mul_cancel (Nat.dvd_of_mod_eq_zero hmod)).symm⟩
            have hq : i < q := Nat.lt_of_mul_lt_mul_right hcq
            have hone : 0 < i := Nat.pos_of_mul_pos_right (by omega : 0 < i * s)
            have hk := (hle i).mpr ⟨by omega, by omega⟩
            exact .inl ⟨i, ⟨hone, by omega⟩, rfl⟩
        · exact .inr rfl
      · rintro (⟨i, ⟨hi, hik⟩, rfl⟩ | rfl)
        · have hk := (hle i).mp (by omega)
          have hpos := hmono 0 i (by omega)
          have hlt := hmono i q (by omega)
          exact ⟨⟨by omega, by omega⟩, .inl ⟨Nat.mul_mod_left i s, hlt⟩⟩
        · exact ⟨⟨by omega, by omega⟩, .inr rfl⟩
  rw [cutPositions, hkey, List.reverse_append, List.reverse_singleton, List.singleton_append]

theorem headD_multiples (k s : Nat) :
    (((List.range' 1 k).map (· * s)).reverse).headD 0 = k * s := by
  cases k with
  | zero => simp
  | succ k =>
      rw [List.range'_concat, List.map_append, List.reverse_append]
      simp [Nat.add_comm 1]

theorem mem_stretches_multiples {r : Nat × Nat} :
    r ∈ Cuts.stretches 0 ((List.range' 1 k).map (· * s)).reverse ↔
      ∃ i < k, r = (i * s, (i + 1) * s) := by
  induction k with
  | zero => simp [Cuts.stretches]
  | succ k ih =>
      rw [List.range'_concat, List.map_append, List.reverse_append, List.map_singleton,
        List.reverse_singleton, List.singleton_append, Cuts.stretches, List.mem_cons, ih,
        headD_multiples, Nat.one_mul, Nat.add_comm 1]
      constructor
      · rintro (rfl | ⟨i, hi, rfl⟩)
        · exact ⟨k, Nat.lt_succ_self k, rfl⟩
        · exact ⟨i, Nat.lt_succ_of_lt hi, rfl⟩
      · rintro ⟨i, hi, rfl⟩
        rcases Nat.lt_succ_iff_lt_or_eq.mp hi with h | rfl
        · exact .inr ⟨i, h, rfl⟩
        · exact .inl rfl

theorem stretches_long_iff {limit : Nat} (hm : 0 < m) (hs : 0 < s) (hk : k = lowerCuts m q s) :
    (∀ r ∈ Cuts.stretches 0 (cutPositions m q s), 0 < r.1 → limit < r.2 - r.1) ↔
      (0 < k → limit < m - k * s) ∧ (1 < k → limit < s) := by
  rw [cutPositions_eq hm hs, ← hk, Cuts.stretches, headD_multiples]
  constructor
  · intro h
    refine ⟨fun hpos => h _ List.mem_cons_self (Nat.mul_pos hpos hs), fun hone => ?_⟩
    have hstep := h (1 * s, (1 + 1) * s)
      (List.mem_cons_of_mem _ (mem_stretches_multiples.mpr ⟨1, hone, rfl⟩)) (by omega)
    omega
  · rintro ⟨htop, hstep⟩ r hr hpos
    rcases List.mem_cons.mp hr with rfl | hr
    · exact htop (Nat.pos_of_mul_pos_right hpos)
    · obtain ⟨i, hi, rfl⟩ := mem_stretches_multiples.mp hr
      have hi0 : 0 < i := Nat.pos_of_mul_pos_right hpos
      have hmul : (i + 1) * s = i * s + s := Nat.succ_mul i s
      have := hstep (by omega)
      simp only
      omega

end Cut

/-! ## From positions to rows -/

section Rows

variable {limit : BatchLimit} {rows : ContactRows} {campaign : Campaign} {lo hi m q s : Nat}

/-- The order number at a position; `0` below the first. -/
def ContactRows.at (rows : ContactRows) (j : Nat) : Nat := Cuts.place 0 rows.orders j

theorem ContactRows.at_mem (hlo : 0 < lo) (hle : lo ≤ rows.count) : rows.at lo ∈ rows.orders := by
  obtain ⟨i, rfl⟩ := Nat.exists_eq_add_one.mpr hlo
  rw [ContactRows.at, Cuts.place_succ 0 hle]
  exact List.getElem_mem _

theorem ContactRows.at_pos_iff (hle : lo ≤ rows.count) : 0 < rows.at lo ↔ 0 < lo := by
  constructor
  · intro h
    by_contra hlo
    obtain rfl : lo = 0 := by omega
    cases h
  · intro h
    exact rows.pos (rows.at_mem h hle)

theorem length_subquery (hlt : lo < hi) (hle : hi ≤ rows.count) :
    (subquery rows (rows.at lo) (rows.at hi)).length = hi - lo := by
  have hhi : rows.at hi ≠ 0 := ((rows.at_pos_iff hle).mpr (by omega)).ne'
  rw [← Cuts.countP_between rows.ascending hlt.le hle, List.countP_eq_length_filter]
  refine congrArg List.length (List.filter_congr fun o ho => ?_)
  have h : o ∈ subquery rows (rows.at lo) (rows.at hi) ↔ _ := mem_subquery
  simp only [subquery, List.mem_filter, ho, true_and, hhi, false_or] at h
  rw [Bool.eq_iff_iff, h, Cuts.within_iff]
  rfl

/-- How many rows lie above a position. -/
theorem length_subquery_top (hle : lo ≤ rows.count) :
    (subquery rows (rows.at lo) 0).length = rows.count - lo := by
  have hcount := List.length_eq_countP_add_countP (fun o => decide (o ≤ rows.at lo)) (l := rows.orders)
  rw [ContactRows.at, Cuts.countP_le_place rows.ascending hle, ← ContactRows.at,
    ← ContactRows.count] at hcount
  have hsub : (subquery rows (rows.at lo) 0).length =
      rows.orders.countP fun o => ¬ (decide (o ≤ rows.at lo)) = true := by
    rw [List.countP_eq_length_filter]
    refine congrArg List.length (List.filter_congr fun o ho => ?_)
    have h : o ∈ subquery rows (rows.at lo) 0 ↔ _ := mem_subquery
    simp only [subquery, List.mem_filter, ho, true_and, true_or, and_true] at h
    rw [Bool.eq_iff_iff, h]
    simp only [decide_eq_true_eq, not_le]
  omega

theorem cutPositions_descending : (cutPositions m q s).Pairwise (· > ·) :=
  List.pairwise_reverse.mpr (List.Pairwise.filter _ List.pairwise_lt_range')

theorem mem_cutPositions {j : Nat} (hj : j ∈ cutPositions m q s) : 0 < j ∧ j ≤ m := by
  have h := List.mem_range'_1.mp (List.mem_of_mem_filter (List.mem_reverse.mp hj))
  omega

theorem tight_at_iff (limit : BatchLimit) (hm : m ≤ rows.count) {r : Nat × Nat}
    (hr : r ∈ Cuts.stretches 0 (cutPositions m q s)) :
    Tight limit rows campaign (Prod.map rows.at rows.at r) ↔
      campaign.type = .TESTAB ∧ 0 < r.1 ∧
        r.2 - r.1 ≤ getLimit limit rows campaign.spreadSending := by
  have hlt : r.1 < r.2 := Cuts.lower_lt_upper cutPositions_descending
    (fun j hj => (mem_cutPositions hj).1) hr
  have hle : r.2 ≤ rows.count :=
    (mem_cutPositions (Cuts.upper_mem_of_mem_stretches hr)).2.trans hm
  simp only [Tight, Prod.map, length_subquery hlt hle, rows.at_pos_iff (hlt.le.trans hle)]
  constructor
  · rintro ⟨htype, hpos, -, hfit⟩
    exact ⟨htype, hpos, hfit⟩
  · rintro ⟨htype, hpos, hfit⟩
    exact ⟨htype, hpos, by omega, hfit⟩

end Rows

/-! ## The sends of a campaign -/

/-- A campaign as the database holds it. -/
structure Stored (campaign : Campaign) : Prop where
  messages : campaign.campaignMessage ≠ []
  accepted : Accepted campaign campaign.campaignMessage
  /-- msgops-api stores 100 for a split. -/
  split : campaign.type = .SPLIT → campaign.testabAudiencePercent = some 100
  /-- Neither is a column. -/
  fresh : campaign.testabMode = false ∧ campaign.testabinInitialPageId = none

/-- With a test on the first `m` rows, cut every `s` rows: each send that starts after a row
has more rows than fit one page. -/
def SpacedTest (limit : BatchLimit) (rows : ContactRows) (campaign : Campaign) (m s : Nat) : Prop :=
  let lower := lowerCuts m campaign.campaignMessage.length s
  let testLimit := getLimit limit rows (campaignParse campaign).spreadSending
  (0 < lower → testLimit < m - lower * s) ∧ (1 < lower → testLimit < s) ∧
    (m < rows.count → getLimit limit rows campaign.spreadSending < rows.count - m)

/-- Without a test: the one send starts after the last id stored before, and reads all. -/
def SpacedLate (limit : BatchLimit) (rows : ContactRows) (campaign : Campaign) : Prop :=
  ∀ o ∈ rows.orders, campaign.lastId < o ∨
    (o = campaign.lastId ∧ 0 < (subquery rows campaign.lastId 0).length ∧
      (subquery rows campaign.lastId 0).length ≤ getLimit limit rows campaign.spreadSending)

/-- When the sends of a campaign read every row once. -/
def Spaced (limit : BatchLimit) (rows : ContactRows) (campaign : Campaign) : Prop :=
  let q := campaign.campaignMessage.length
  let m := testedOf campaign.percentTest rows.count
  let s := roundDiv m q
  match campaign.type with
  | .SIMPLE | .RECURRING => True
  | .SPLIT => rows.count = 0 ∨ q ≤ 2 * rows.count
  | .TESTAB =>
      if m = 0 ∨ s = 0 then SpacedLate limit rows campaign else SpacedTest limit rows campaign m s

section Sends

variable {limit : BatchLimit} {rows : ContactRows} {campaign : Campaign} {m q s : Nat}

theorem roundDiv_pos_iff {a b : Nat} (hb : 0 < b) : 0 < roundDiv a b ↔ b ≤ 2 * a := by
  rw [roundDiv, Nat.div_pos_iff]
  omega

theorem validateCampaign_congr {c c' : Campaign} (htype : c.messageType = c'.messageType)
    (hquery : c.query = c'.query)
    (hmessage : c.campaignMessage.head?.map (·.message) = c'.campaignMessage.head?.map (·.message)) :
    validateCampaign c = validateCampaign c' := by
  have hcheck : checkMessage c = checkMessage c' := by
    simp only [checkMessage, htype]
    cases hc : c.campaignMessage with
    | nil =>
        rw [hc, List.head?_nil, Option.map_none, eq_comm, Option.map_eq_none_iff,
          List.head?_eq_none_iff] at hmessage
        rw [hmessage]
    | cons a l =>
        cases hc' : c'.campaignMessage with
        | nil =>
            rw [hc, hc'] at hmessage
            cases hmessage
        | cons a' l' =>
            rw [hc, hc', List.head?_cons, List.head?_cons, Option.map_some, Option.map_some,
              Option.some_inj] at hmessage
            simp only [hmessage]
  simp only [validateCampaign, hcheck, hquery]

theorem validateCampaign_stored (h : Stored campaign) : validateCampaign campaign = .ok () := by
  cases hm : campaign.campaignMessage with
  | nil => exact absurd hm h.messages
  | cons a l =>
      rw [← h.accepted a (by rw [hm]; exact List.mem_cons_self)]
      refine validateCampaign_congr ?_ ?_ ?_
      · rfl
      · rfl
      · rw [hm]
        rfl

theorem validateCampaign_processResult (w : Nat) :
    validateCampaign (processResult w campaign) = validateCampaign campaign := by
  refine validateCampaign_congr rfl rfl ?_
  simp only [processResult]
  cases campaign.campaignMessage <;> rfl

/-- The test's copy differs in the time it spreads over. -/
theorem campaignParse_eq :
    campaignParse campaign = { campaign with spreadSending := (campaignParse campaign).spreadSending } := by
  simp only [campaignParse]
  split <;> rfl

theorem accepted_campaignParse (h : Stored campaign) :
    Accepted (campaignParse campaign) campaign.campaignMessage := by
  intro a ha
  rw [← h.accepted a ha, campaignParse_eq]
  exact validateCampaign_congr rfl rfl rfl

theorem createTest_none (h : testedOf campaign.percentTest rows.count = 0 ∨
    roundDiv (testedOf campaign.percentTest rows.count) campaign.campaignMessage.length = 0) :
    createTest limit rows false campaign = ([], campaign) := by
  rcases Nat.eq_zero_or_pos (testedOf campaign.percentTest rows.count) with hm | hm
  · simp only [createTest, startedTestAB_none hm, testLoop]
  · have hs := h.resolve_left hm.ne'
    simp only [createTest, startedTestAB_error hm (.inr hs)]

theorem createTest_eq (limit : BatchLimit) (h : Stored campaign)
    (htype : campaign.type = .SPLIT ∨ campaign.type = .TESTAB)
    (hm : testedOf campaign.percentTest rows.count = m) (hpos : 0 < m)
    (hq : campaign.campaignMessage.length = q) (hs : roundDiv m q = s) (hspos : 0 < s) :
    ∃ sends, createTest limit rows false campaign =
        (sends, { campaign with testabLastId := some (rows.at m) }) ∧
      (∀ send ∈ sends, Numbered send) ∧
      ∀ o ∈ rows.orders, taken limit rows sends.flatten o =
        (if o ≤ rows.at m then 1 else 0) +
          ((Cuts.stretches 0 (cutPositions m q s)).map (Prod.map rows.at rows.at)).countP fun r =>
            decide (Tight limit rows (campaignParse campaign) r ∧ o = r.1) := by
  have hqpos : 0 < q := by
    rw [← hq]
    exact List.length_pos_of_ne_nil h.messages
  have hmn : m ≤ rows.count := hm ▸ testedOf_le _ _
  have hstart : startedTestAB rows q campaign.percentTest =
      .ok ((cutPositions m q s).map rows.at) := startedTestAB_eq hm hpos hqpos hs hspos
  have hstretches : Cuts.stretches 0 ((cutPositions m q s).map rows.at) =
      (Cuts.stretches 0 (cutPositions m q s)).map (Prod.map rows.at rows.at) :=
    Cuts.stretches_map rows.at 0 _
  have hparse : (campaignParse campaign).type = campaign.type := by rw [campaignParse_eq]
  have hdesc : ((cutPositions m q s).map rows.at).Pairwise (· > ·) := by
    refine List.pairwise_map.mpr (cutPositions_descending.imp_of_mem fun ha _ hab => ?_)
    exact Cuts.place_mono rows.ascending hab ((mem_cutPositions ha).2.trans hmn)
  have hmem : ∀ t ∈ (cutPositions m q s).map rows.at, t ∈ rows.orders := by
    intro t ht
    obtain ⟨j, hj, rfl⟩ := List.mem_map.mp ht
    exact rows.at_mem (mem_cutPositions hj).1 ((mem_cutPositions hj).2.trans hmn)
  have hlen : 0 + ((cutPositions m q s).map rows.at).length ≤ campaign.campaignMessage.length := by
    have hle : lowerCuts m q s ≤ q - 1 := Nat.min_le_left _ _
    rw [cutPositions_eq hpos hspos, hq]
    simp only [List.map_cons, List.length_cons, List.length_map, List.length_reverse,
      List.length_range']
    omega
  obtain ⟨sends, hloop, hnumbered, htaken⟩ := taken_testLoop limit
    (accepted_campaignParse h) (hparse ▸ htype) hdesc hmem hlen
  have hhead : ((cutPositions m q s).map rows.at).headD 0 = rows.at m := by
    rw [cutPositions_eq hpos hspos]
    rfl
  refine ⟨sends, ?_, hnumbered, fun o ho => ?_⟩
  · rw [cutPositions_eq hpos hspos, List.map_cons] at hstart hloop
    simp only [createTest, hq, hstart, hloop]
  · rw [htaken o ho, Cuts.countP_within_stretches hdesc fun t ht => rows.pos (hmem t ht), hhead,
      hstretches]
    simp only [ContactRows.pos ho, true_and]

theorem chooseMessage_fields (c : Campaign) : (chooseMessage c).type = c.type ∧
    (chooseMessage c).lastId = c.lastId ∧
    (chooseMessage c).testabinInitialPageId = c.testabinInitialPageId ∧
    (chooseMessage c).spreadSending = c.spreadSending := by
  unfold chooseMessage
  split <;> exact ⟨rfl, rfl, rfl, rfl⟩

theorem taken_result (limit : BatchLimit) {tested : Campaign} {a o : Nat} (w : Nat)
    (hv : validateCampaign tested = .ok ())
    (htype : tested.type = .TESTAB) (hpage : tested.testabinInitialPageId = none)
    (ha : tested.lastId = a) (ho : o ∈ rows.orders) :
    taken limit rows (queued (createBatches limit rows false (processResult w tested))) o =
      (if a < o then 1 else 0) +
        if 0 < a ∧ o = a ∧ 0 < (subquery rows a 0).length ∧
          (subquery rows a 0).length ≤ getLimit limit rows tested.spreadSending then 1 else 0 := by
  obtain ⟨hctype, hclast, hcpage, hcspread⟩ := chooseMessage_fields (processResult w tested)
  have htype' : (chooseMessage (processResult w tested)).type = .TESTAB := hctype.trans htype
  have hlast : (chooseMessage (processResult w tested)).lastId = a := hclast.trans ha
  have hspread : (chooseMessage (processResult w tested)).spreadSending = tested.spreadSending :=
    hcspread
  have hinit : (chooseMessage (processResult w tested)).testabinInitialPageId.getD 0 = 0 := by
    rw [hcpage.trans hpage]
    rfl
  have h := taken_createBatches limit ((validateCampaign_processResult w).trans hv)
    (if_pos (.inr htype')) (.inr (.inl htype')) hinit ho
  rw [h, hlast]
  simp only [Rereads, hlast, hspread, htype', true_or, and_true, true_and]

theorem le_at_count {o : Nat} (ho : o ∈ rows.orders) : o ≤ rows.at rows.count := by
  have hcount := Cuts.countP_le_place rows.ascending (le_refl rows.count)
  have hall := List.countP_eq_length.mp hcount o ho
  exact of_decide_eq_true hall

theorem simple_partition (h : Stored campaign)
    (htype : campaign.type = .SIMPLE ∨ campaign.type = .RECURRING) :
    Partitioned limit rows [queued (createBatches limit rows false campaign)] := by
  have hv := validateCampaign_stored h
  have hplain : ¬ ((chooseMessage campaign).type = .SPLIT ∨
      (chooseMessage campaign).type = .TESTAB) := by
    rw [(chooseMessage_fields campaign).1]
    rcases htype with htype | htype <;> simp [htype]
  refine ⟨fun o ho => ?_, fun send hsend => ?_⟩
  · have hone := taken_createBatches limit hv (if_neg hplain) (.inr (.inr rfl)) rfl ho
    rw [List.flatten_singleton, hone]
    simp [Rereads, Campaign.lastId, ContactRows.pos ho]
  · rw [List.mem_singleton.mp hsend]
    exact numbered_createBatches limit rows hv

theorem partitioned_nil_iff : Partitioned limit rows [] ↔ rows.count = 0 := by
  constructor
  · intro h
    refine List.length_eq_zero_iff.mpr (List.eq_nil_iff_forall_not_mem.mpr fun o ho => ?_)
    exact absurd (h.once o ho) (by decide : (0 : Nat) ≠ 1)
  · intro h
    refine ⟨fun o ho => ?_, fun send hsend => absurd hsend List.not_mem_nil⟩
    rw [List.length_eq_zero_iff.mp h] at ho
    cases ho

theorem split_partition_iff (h : Stored campaign) (htype : campaign.type = .SPLIT) :
    Partitioned limit rows (createTest limit rows false campaign).1 ↔
      rows.count = 0 ∨ campaign.campaignMessage.length ≤ 2 * rows.count := by
  have hq : 0 < campaign.campaignMessage.length := List.length_pos_of_ne_nil h.messages
  have htested : testedOf campaign.percentTest rows.count = rows.count := by
    have hpercent : campaign.percentTest = 1 := by
      simp [Campaign.percentTest, h.split htype]
    rw [hpercent, testedOf_one]
  by_cases hfail : rows.count = 0 ∨ roundDiv rows.count campaign.campaignMessage.length = 0
  · rw [createTest_none (by rwa [htested]), partitioned_nil_iff]
    refine ⟨.inl, fun hor => hor.resolve_right fun hle => ?_⟩
    have hpos := (roundDiv_pos_iff hq).mpr hle
    have hzero := hfail.resolve_right hpos.ne'
    omega
  · rw [not_or] at hfail
    obtain ⟨sends, hsends, hnumbered, htaken⟩ := createTest_eq limit h (.inl htype)
      htested (Nat.pos_of_ne_zero hfail.1) rfl rfl (Nat.pos_of_ne_zero hfail.2)
    have hparse : (campaignParse campaign).type = .SPLIT := by rw [campaignParse_eq, ← htype]
    have hloose : ∀ r, ¬ Tight limit rows (campaignParse campaign) r := by
      intro r hr
      exact absurd (hparse.symm.trans hr.1) (by decide)
    rw [hsends]
    refine iff_of_true ⟨fun o ho => ?_, hnumbered⟩
      (.inr ((roundDiv_pos_iff hq).mp (Nat.pos_of_ne_zero hfail.2)))
    rw [htaken o ho, if_pos (le_at_count ho), List.countP_eq_zero.mpr fun r _ => ?_]
    simp [hloose]

/-- Without a test the one later send takes every row above the last id. -/
theorem late_partition_iff {w : Nat} (h : Stored campaign) (htype : campaign.type = .TESTAB) :
    Partitioned limit rows [queued (createBatches limit rows false (processResult w campaign))] ↔
      SpacedLate limit rows campaign := by
  have hv := validateCampaign_stored h
  have htaken : ∀ o ∈ rows.orders, taken limit rows
      (queued (createBatches limit rows false (processResult w campaign))) o =
        (if campaign.lastId < o then 1 else 0) +
          if 0 < campaign.lastId ∧ o = campaign.lastId ∧
            0 < (subquery rows campaign.lastId 0).length ∧
            (subquery rows campaign.lastId 0).length ≤ getLimit limit rows campaign.spreadSending
          then 1 else 0 := fun o ho => taken_result limit w hv htype h.fresh.2 rfl ho
  have hone : ∀ o ∈ rows.orders, taken limit rows
      (queued (createBatches limit rows false (processResult w campaign))) o = 1 ↔
        campaign.lastId < o ∨ (o = campaign.lastId ∧
          0 < (subquery rows campaign.lastId 0).length ∧
          (subquery rows campaign.lastId 0).length ≤ getLimit limit rows campaign.spreadSending) := by
    intro o ho
    have hpos : 0 < o := ContactRows.pos ho
    rw [htaken o ho]
    rcases Nat.lt_trichotomy o campaign.lastId with hlt | heq | hgt
    · simp only [Nat.lt_asymm hlt, hlt.ne, if_false, false_and, and_false, or_self]
      decide
    · subst heq
      simp only [Nat.lt_irrefl, if_false, Nat.zero_add, hpos, true_and, false_or]
      split
      · next hfit => exact iff_of_true rfl hfit
      · next hfit => exact iff_of_false (by decide) hfit
    · simp only [hgt, hgt.ne', if_true, if_false, false_and, and_false, true_or]
  constructor
  · intro hp o ho
    have h1 := hp.once o ho
    rw [List.flatten_singleton] at h1
    exact (hone o ho).mp h1
  · intro hs
    refine ⟨fun o ho => ?_, fun send hsend => ?_⟩
    · rw [List.flatten_singleton]
      exact (hone o ho).mpr (hs o ho)
    · rw [List.mem_singleton.mp hsend]
      exact numbered_createBatches limit rows ((validateCampaign_processResult w).trans hv)

/-- A row read by the tests or above them, once more for each send that rereads it. -/
theorem tested_partition_iff {w : Nat} (h : Stored campaign) (htype : campaign.type = .TESTAB)
    (hm : testedOf campaign.percentTest rows.count = m) (hpos : 0 < m)
    (hs : roundDiv m campaign.campaignMessage.length = s) (hspos : 0 < s) :
    Partitioned limit rows ((createTest limit rows false campaign).1 ++
        [queued (createBatches limit rows false
          (processResult w (createTest limit rows false campaign).2))]) ↔
      SpacedTest limit rows campaign m s := by
  have hmn : m ≤ rows.count := hm ▸ testedOf_le _ _
  have hparse : (campaignParse campaign).type = .TESTAB := by rw [campaignParse_eq, ← htype]
  have hat : 0 < rows.at m := (rows.at_pos_iff hmn).mpr hpos
  obtain ⟨tests, htests, hnumbered, htaken⟩ := createTest_eq limit h (.inr htype)
    hm hpos rfl hs hspos
  have hv : validateCampaign { campaign with testabLastId := some (rows.at m) } = .ok () := by
    rw [← validateCampaign_stored h]
    exact validateCampaign_congr rfl rfl rfl
  rw [htests]
  generalize hr : (Cuts.stretches 0 (cutPositions m campaign.campaignMessage.length s)).map
    (Prod.map rows.at rows.at) = stretches at htaken
  -- the reread rows are the lower ends of the stretches that fit, and the highest cut
  have htotal : ∀ o ∈ rows.orders, taken limit rows (tests ++ [queued (createBatches limit rows
      false (processResult w { campaign with testabLastId := some (rows.at m) }))]).flatten o = 1 ↔
        (∀ r ∈ stretches, Tight limit rows (campaignParse campaign) r → o ≠ r.1) ∧
          (o = rows.at m → m < rows.count →
            getLimit limit rows campaign.spreadSending < rows.count - m) := by
    intro o ho
    have hresult := taken_result limit w hv htype h.fresh.2 rfl ho
    have hlast : ({ campaign with testabLastId := some (rows.at m) } : Campaign).lastId =
        rows.at m := rfl
    simp only [hlast, length_subquery_top hmn, hat, true_and] at hresult
    rw [List.flatten_append, taken_append, htaken o ho, List.flatten_singleton, hresult]
    have hextra : stretches.countP (fun r =>
        decide (Tight limit rows (campaignParse campaign) r ∧ o = r.1)) = 0 ↔
          ∀ r ∈ stretches, Tight limit rows (campaignParse campaign) r → o ≠ r.1 := by
      rw [List.countP_eq_zero]
      simp only [decide_eq_true_eq, not_and, ne_eq]
    rw [← hextra]
    split <;> split <;> split <;> omega
  constructor
  · intro hp
    have hfree := fun o ho => (htotal o ho).mp (hp.once o ho)
    have hlong : ∀ r ∈ Cuts.stretches 0 (cutPositions m campaign.campaignMessage.length s),
        0 < r.1 → getLimit limit rows (campaignParse campaign).spreadSending < r.2 - r.1 := by
      intro r hmem hrpos
      by_contra hfit
      have hle : r.1 ≤ rows.count := by
        have hlt := Cuts.lower_lt_upper cutPositions_descending
          (fun j hj => (mem_cutPositions hj).1) hmem
        have hup := mem_cutPositions (Cuts.upper_mem_of_mem_stretches hmem)
        omega
      have htight := (tight_at_iff limit hmn hmem).mpr ⟨hparse, hrpos, not_lt.mp hfit⟩
      exact (hfree _ (rows.at_mem hrpos hle)).1 _ (hr ▸ List.mem_map_of_mem hmem) htight rfl
    obtain ⟨htop, hstep⟩ := (stretches_long_iff hpos hspos rfl).mp hlong
    exact ⟨htop, hstep, (hfree _ (rows.at_mem hpos hmn)).2 rfl⟩
  · rintro ⟨htop, hstep, hlate⟩
    have hlong := (stretches_long_iff hpos hspos rfl).mpr ⟨htop, hstep⟩
    refine ⟨fun o ho => (htotal o ho).mpr ⟨fun r hrmem htight => ?_, fun _ => hlate⟩, ?_⟩
    · rw [← hr] at hrmem
      obtain ⟨r, hmem, rfl⟩ := List.mem_map.mp hrmem
      obtain ⟨-, hrpos, hfit⟩ := (tight_at_iff limit hmn hmem).mp htight
      exact absurd (hlong r hmem hrpos) (not_lt.mpr hfit)
    · intro send hsend
      rcases List.mem_append.mp hsend with hsend | hsend
      · exact hnumbered send hsend
      · rw [List.mem_singleton.mp hsend]
        exact numbered_createBatches limit rows ((validateCampaign_processResult w).trans hv)

/-- The sends of a campaign read every row in one page, and number their pages, exactly when
no send rereads the row below it. -/
theorem sends_partition_iff (limit : BatchLimit) (rows : ContactRows) (campaign : Campaign)
    (winnerMessage : Nat) (h : Stored campaign) :
    Partitioned limit rows (sends limit rows winnerMessage campaign) ↔
      Spaced limit rows campaign := by
  cases htype : campaign.type with
  | SIMPLE =>
      simp only [sends, Spaced, htype, iff_true]
      exact simple_partition h (.inl htype)
  | RECURRING =>
      simp only [sends, Spaced, htype, iff_true]
      exact simple_partition h (.inr htype)
  | SPLIT =>
      simp only [sends, Spaced, htype]
      exact split_partition_iff h htype
  | TESTAB =>
      simp only [sends, Spaced, htype]
      split
      · next hnone =>
          rw [createTest_none hnone]
          exact late_partition_iff h htype
      · next hsome =>
          rw [not_or] at hsome
          exact tested_partition_iff h htype rfl (Nat.pos_of_ne_zero hsome.1) rfl
            (Nat.pos_of_ne_zero hsome.2)

end Sends

/-- A test with two messages. -/
def abTest (percent : Int) : Campaign where
  id := 1
  title := "news"
  query := some "SELECT contact_id FROM contacts_tags"
  type := .TESTAB
  messageType := .SMS
  campaignMessage := [⟨1, false, {}⟩, ⟨2, false, {}⟩]
  testabAudiencePercent := some percent

theorem stored_abTest (percent : Int) : Stored (abTest percent) where
  messages := List.cons_ne_nil _ _
  accepted := by
    intro m _
    rfl
  split := by
    intro h
    cases h
  fresh := ⟨rfl, rfl⟩

theorem sends_partition_pages : Partitioned ⟨1, Nat.one_pos⟩ (.inserted 6)
    (sends ⟨1, Nat.one_pos⟩ (.inserted 6) 2 (abTest 60)) := by
  refine (sends_partition_iff _ _ _ _ (stored_abTest 60)).mpr ?_
  have htested : testedOf (abTest 60).percentTest 6 = 4 := by decide +kernel
  show if testedOf (abTest 60).percentTest 6 = 0 ∨
    roundDiv (testedOf (abTest 60).percentTest 6) 2 = 0 then _ else _
  rw [htested]
  exact ⟨by decide +kernel, by decide +kernel, by decide +kernel⟩

/-- Ten contacts, a fifth of them tested: the first reads both messages. -/
theorem sends_reread : ¬ ∀ (limit : BatchLimit) (rows : ContactRows) (campaign : Campaign)
    (winnerMessage : Nat), Stored campaign →
      Partitioned limit rows (sends limit rows winnerMessage campaign) := by
  intro h
  have hp := h ⟨1000, by decide⟩ (.inserted 10) (abTest 20) 1 (stored_abTest 20)
  exact absurd (hp.once 1 (by decide)) (by decide +kernel)

end OpenBms.Packer
