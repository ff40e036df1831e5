/-
# `OpenBms.Packer.Batches` — the pages of a campaign's sends

campaign-packer numbers the contacts of a campaign in `campaigns_contacts`, reads
the cut points of a send off the numbers, highest first, and queues a page for each
of them.

| campaign | sends |
| :-- | :-- |
| simple, recurring | one, over all rows |
| split | one for each variant, between the cuts of `startedTestAB` |
| testAB | the variants over the tested share, later one above the highest cut |

Which of a page's contacts can be reached on the campaign's channel is left out: a
page is the order numbers it asks for.

**Proved here.**

    the cuts of a send descend from its last row (`cutRows_descending`, `headD_cutRows`)
    there is one cut when the rows fit (`cutRows_length_eq_one_iff`)
    a page's bounds are the stretch under its cut, the only page of a TESTAB
    send apart (`createPages_spans`, `createPages_single`)
    the pages are numbered from 1 to their count (`pages_createPages`)
-/
import OpenBms.Lib.Cuts

namespace OpenBms.Packer

/-! ## Campaigns and rows -/

inductive CampaignType where
  | SIMPLE | TESTAB | SPLIT | RECURRING
  deriving DecidableEq

inductive CampaignMessageType where
  | EMAIL | CAMPAIGN | WEBPUSH | MOBILEPUSH | SMS | WHATSAPP
  deriving DecidableEq

structure Email where
  content : Option String := none
  fileName : Option String := none
  bucketName : Option String := none
  deriving DecidableEq

structure CampaignMessage where
  messageId : Nat
  winner : Bool := false
  message : Email := {}
  deriving DecidableEq

/-- The fields of a campaign the packer reads.  Dates are milliseconds. -/
structure Campaign where
  id : Nat
  title : String
  query : Option String
  type : CampaignType
  messageType : CampaignMessageType
  campaignMessage : List CampaignMessage
  spreadSending : Option Int := none
  scheduleTo : Int := 0
  testabScheduleTo : Int := 0
  testabAudiencePercent : Option Int := none
  testabLastId : Option Nat := none
  testabinInitialPageId : Option Nat := none
  testabMode : Bool := false

/-- The order numbers of a campaign's rows in `campaigns_contacts`. -/
structure ContactRows where
  orders : List Nat
  ascending : (0 :: orders).Pairwise (· < ·)

/-- `row_number()` over a campaign's `n` contacts. -/
def ContactRows.inserted (n : Nat) : ContactRows :=
  ⟨List.range' 1 n, List.pairwise_lt_range' (s := 0) (n := n + 1)⟩

def ContactRows.count (rows : ContactRows) : Nat := rows.orders.length

/-- The environment's `LIMIT_CONTACT_BATCH`. -/
structure BatchLimit where
  size : Nat
  pos : 0 < size

/-! ## Errors -/

inductive PackerError where
  | emailLocation
  | noAudience
  | contactsNotFound (title : String)
  | divisionByZero
  | noMessage
  | noPages

def PackerError.message : PackerError → String
  | .emailLocation => "Email must contain location object with fileName and bucketName"
  | .noAudience => "Campaigns must have at least one audience"
  | .contactsNotFound title => "Contacts not found for tags " ++ title
  | .divisionByZero => "division by zero"
  | .noMessage => "Cannot read properties of null (reading 'message')"
  | .noPages => "Cannot read properties of undefined (reading 'order_number')"

def truthy (s : Option String) : Bool := s.any (· != "")

def Email.located (m : Email) : Bool :=
  truthy m.content || (truthy m.fileName && truthy m.bucketName)

/-- Only an email campaign reads its first message here. -/
def checkMessage (campaign : Campaign) : Except PackerError Unit :=
  if campaign.messageType = .EMAIL then
    match campaign.campaignMessage with
    | [] => .error .noMessage
    | m :: _ => if m.message.located then .ok () else .error .emailLocation
  else .ok ()

def validateCampaign (campaign : Campaign) : Except PackerError Unit :=
  match checkMessage campaign with
  | .error e => .error e
  | .ok () => if truthy campaign.query then .ok () else .error .noAudience

/-! ## The queries -/

/-- The `WHERE` of `findByTags` on the order number. -/
def findByTags (limit : BatchLimit) (rows : ContactRows) (currentContactId finalContactId : Nat) :
    List Nat :=
  if finalContactId = 0 then
    (rows.orders.filter fun o => decide (currentContactId < o)).take limit.size
  else
    rows.orders.filter fun o => decide (currentContactId ≤ o) && decide (o ≤ finalContactId)

/-- `Math.ceil(a / b)` for a positive `b`. -/
def ceilDiv (a : Int) (b : Nat) : Int := -(-a / b)

def dividerSpread (rows : ContactRows) (spreadSending : Int) : Nat :=
  if 0 < spreadSending then (rows.count + spreadSending.toNat - 1) / spreadSending.toNat else 0

def getLimit (limit : BatchLimit) (rows : ContactRows) (spreadSending : Option Int) : Nat :=
  let divider := dividerSpread rows (spreadSending.getD 0)
  if divider < limit.size ∧ 0 < divider then divider else limit.size

/-- Both optional bounds on the order number; `0` leaves one out. -/
def subquery (rows : ContactRows) (lastSentId finalId : Nat) : List Nat :=
  rows.orders.filter fun o =>
    (lastSentId == 0 || decide (lastSentId < o)) && (finalId == 0 || decide (o ≤ finalId))

/-- Every `limit`-th row and the last one, highest first. -/
def cutRows (limit : Nat) (l : List Nat) : List Nat :=
  (Cuts.picks (fun countRow => countRow % limit == 0 || countRow == l.length ||
    (decide (l.length < limit) && countRow == l.length)) l).reverse

def countByTags (limit : BatchLimit) (rows : ContactRows) (campaign : Campaign)
    (lastSentId finalId : Nat) : List Nat :=
  cutRows (getLimit limit rows campaign.spreadSending) (subquery rows lastSentId finalId)

/-- `percent_rank()` of the row at position `j` of `n`. -/
def percentRank (n j : Nat) : ℚ := ((j : ℚ) - 1) / ((n : ℚ) - 1)

/-- `testabAudiencePercent / 100`. -/
def Campaign.percentTest (campaign : Campaign) : ℚ := (campaign.testabAudiencePercent.getD 0 : ℚ) / 100

def rankedWithin (percent : ℚ) (rows : ContactRows) : List Nat :=
  Cuts.picks (fun j => decide (percentRank rows.count j ≤ percent)) rows.orders

/-- `ROUND(a / b)`, halves away from zero. -/
def roundDiv (a b : Nat) : Nat := (2 * a + b) / (2 * b)

/-- The cut points between the variants, highest first. -/
def startedTestAB (rows : ContactRows) (quatityMessages : Nat) (percent : ℚ) :
    Except PackerError (List Nat) :=
  let t := rankedWithin percent rows
  let countLastLine := t.length
  let step := roundDiv countLastLine quatityMessages
  if t = [] then .ok []
  else if quatityMessages = 0 ∨ step = 0 then .error .divisionByZero
  else
    .ok (Cuts.picks (fun countRow =>
      (countRow % step == 0 && decide (countRow < quatityMessages * step)) ||
        countLastLine == countRow) t).reverse

/-! ## `createBatches` -/

/-- A page in the schedule-page queue: `CampaignBatch` and its delay. -/
structure Job where
  campaign : Campaign
  page : Nat
  totalPages : Nat
  currentContactId : Nat
  finalContactId : Nat
  delay : Int

def addPageToQueue (campaign : Campaign) (page totalPages : Nat) (delayMs : Int)
    (currentContactId finalContactId : Nat) : Job :=
  { campaign, page, totalPages, currentContactId, finalContactId, delay := max 0 delayMs }

def Campaign.lastId (campaign : Campaign) : Nat := campaign.testabLastId.getD 0

def distribute (campaign : Campaign) (totalPages : Nat) : Int :=
  let millisecond := campaign.spreadSending.getD 0 * 60000
  ceilDiv (if millisecond = 0 then 60000 else millisecond) totalPages

/-- The callback of `totalContacts.map`. -/
def laterPage (campaign : Campaign) (testabMode : Bool) (totalPages : Nat) (dist : Int)
    (finalPageFinalId : Nat) (totalContacts : List Nat) (contact index : Nat) : Job :=
  let arrayPage := index + 1
  let currentPage := arrayPage + 1
  let currentContactId := (totalContacts[arrayPage]?.map (· + 1)).getD 0
  let currentContactId :=
    if testabMode = true ∧ currentContactId = 0 ∧ 0 < campaign.lastId then campaign.lastId + 1
    else currentContactId
  let currentContactId :=
    if testabMode = false ∧ currentContactId = 0 then finalPageFinalId + 1 else currentContactId
  addPageToQueue campaign currentPage totalPages (currentPage * dist) currentContactId contact

/-- The pages after the first; `contacts` are the cut points without the highest. -/
def laterPages (campaign : Campaign) (testabMode : Bool) (totalPages : Nat) (dist : Int)
    (contacts : List Nat) : List Job :=
  let finalPageFinalId := contacts.getLastD 0
  let totalContacts := if testabMode then contacts else contacts.dropLast
  let pages := totalContacts.zipIdx.map fun x =>
    laterPage campaign testabMode totalPages dist finalPageFinalId totalContacts x.1 x.2
  let countPages := totalContacts.length + 1
  let lastContactId := if campaign.lastId = 0 then 0 else campaign.lastId + 1
  if testabMode then pages
  else
    pages ++ [addPageToQueue campaign totalPages totalPages ((countPages + 1) * dist + 600000)
      lastContactId finalPageFinalId]

/-- Five minutes a page for a test of few pages. -/
def respread (campaign : Campaign) (totalPages : Nat) : Campaign :=
  if campaign.type = .TESTAB ∧ totalPages ≤ 5 then
    { campaign with spreadSending := some (5 * totalPages) }
  else campaign

def leaveTestMode (campaign : Campaign) : Campaign :=
  if campaign.type = .SPLIT then { campaign with testabMode := false } else campaign

/-- Where the first page starts. -/
def idFirstPage (campaign : Campaign) (totalPages : Nat) (contacts : List Nat) : Nat :=
  let start := (contacts.head?.map (· + 1)).getD 0
  let start := if campaign.type = .SPLIT ∧ start = 0 then campaign.lastId + 1 else start
  if campaign.type = .TESTAB ∧ totalPages = 1 then campaign.lastId else start

/-- The pages for the cut points `first :: contacts`. -/
def createPages (campaign : Campaign) (testabMode : Bool) (first : Nat) (contacts : List Nat) :
    List Job :=
  let totalPages := contacts.length + 1
  let campaign := leaveTestMode (respread campaign totalPages)
  let dist := distribute campaign totalPages
  addPageToQueue campaign 1 totalPages dist (idFirstPage campaign totalPages contacts) first ::
    if 1 < totalPages then laterPages campaign testabMode totalPages dist contacts else []

/-- The message that won the test, else the first one. -/
def chooseMessage (campaign : Campaign) : Campaign :=
  if campaign.testabMode = false ∧ 1 < campaign.campaignMessage.length then
    { campaign with campaignMessage :=
        ((campaign.campaignMessage.find? (·.winner)).or campaign.campaignMessage.head?).toList }
  else campaign

def forgetTest (campaign : Campaign) : Campaign :=
  if campaign.type = .SPLIT ∨ campaign.type = .TESTAB then campaign
  else { campaign with testabLastId := none, testabinInitialPageId := none }

/-- What `createBatches` does: the pages it queues, the text it returns and whether it
leaves the key `campaign:<id>` in Redis. -/
structure Batches where
  jobs : List Job
  text : String
  keySet : Bool

def createBatches (limit : BatchLimit) (rows : ContactRows) (keySet : Bool) (campaign : Campaign) :
    Except PackerError Batches :=
  if keySet then
    .ok ⟨[], "Duplicated Campaign: (" ++ toString campaign.id ++ ") " ++ campaign.title, true⟩
  else
    match validateCampaign campaign with
    | .error e => .error e
    | .ok () =>
        let testabMode := campaign.testabMode
        let campaign := forgetTest (chooseMessage campaign)
        match countByTags limit rows campaign campaign.lastId
            (campaign.testabinInitialPageId.getD 0) with
        | [] => .error (.contactsNotFound campaign.title)
        | first :: contacts =>
            .ok ⟨createPages campaign testabMode first contacts,
              "Processed " ++ toString (contacts.length + 1) ++ " pages", !testabMode⟩

/-! ## The sends of a campaign -/

/-- The pages a call queues; a call that throws queues none. -/
def queued : Except PackerError Batches → List Job
  | .ok b => b.jobs
  | .error _ => []

/-- The campaign's copy for the variant between two cuts. -/
def variant (campaign : Campaign) (messages : List CampaignMessage) (index nextId pageId : Nat) :
    Campaign :=
  { campaign with testabinInitialPageId := some pageId, testabLastId := some nextId,
                  campaignMessage := messages[index]?.toList, testabMode := true }

/-- The loop of `createTest` from the given index on: a call that throws ends it. -/
def testLoop (limit : BatchLimit) (rows : ContactRows) (keySet : Bool) (campaign : Campaign)
    (messages : List CampaignMessage) : Nat → List Nat → List (List Job) × Option PackerError
  | _, [] => ([], none)
  | index, page :: pages =>
      match createBatches limit rows keySet
          (variant campaign messages index (pages.headD 0) page) with
      | .error e => ([], some e)
      | .ok b =>
          let (sends, failure) := testLoop limit rows keySet campaign messages (index + 1) pages
          (b.jobs :: sends, failure)

/-- `Math.round` of a difference of dates in minutes. -/
def roundMinutes (minutes : ℚ) : Int := ⌊minutes + 1 / 2⌋

/-- The test's copy of the campaign: it spreads over the time until the result at most. -/
def campaignParse (campaign : Campaign) : Campaign :=
  let minutes : ℚ := (campaign.scheduleTo - campaign.testabScheduleTo : Int) / 60000
  if campaign.type = .TESTAB ∧ minutes < campaign.spreadSending.getD 0 then
    { campaign with spreadSending := some (roundMinutes minutes) }
  else campaign

/-- `createTest`: the sends it queues and the campaign as it leaves it in the database. -/
def createTest (limit : BatchLimit) (rows : ContactRows) (keySet : Bool) (campaign : Campaign) :
    List (List Job) × Campaign :=
  match startedTestAB rows campaign.campaignMessage.length campaign.percentTest with
  | .error _ => ([], campaign)
  | .ok pages =>
      match testLoop limit rows keySet (campaignParse campaign) campaign.campaignMessage 0 pages,
          pages with
      | (sends, none), page :: _ => (sends, { campaign with testabLastId := some page })
      | (sends, _), _ => (sends, campaign)

/-- `processResult` marks the winner. -/
def processResult (winnerMessage : Nat) (campaign : Campaign) : Campaign :=
  { campaign with campaignMessage := campaign.campaignMessage.map fun item =>
      { item with winner := item.messageId == winnerMessage } }

/-- All sends of a campaign, the rows being those of its contacts. -/
def sends (limit : BatchLimit) (rows : ContactRows) (winnerMessage : Nat) (campaign : Campaign) :
    List (List Job) :=
  match campaign.type with
  | .SIMPLE | .RECURRING => [queued (createBatches limit rows false campaign)]
  | .SPLIT => (createTest limit rows false campaign).1
  | .TESTAB =>
      let (tests, tested) := createTest limit rows false campaign
      tests ++ [queued (createBatches limit rows false (processResult winnerMessage tested))]

/-! ## What the cut points are -/

section Cut

variable {l : List Nat} {limit : Nat}

theorem getLimit_pos (limit : BatchLimit) (rows : ContactRows) (spread : Option Int) :
    0 < getLimit limit rows spread := by
  simp only [getLimit]
  split
  · next h => exact h.2
  · exact limit.pos

theorem mem_cutRows {t : Nat} (h : t ∈ cutRows limit l) : t ∈ l :=
  (Cuts.picks_sublist _ l).subset (List.mem_reverse.mp h)

theorem cutRows_descending (hl : l.Pairwise (· < ·)) : (cutRows limit l).Pairwise (· > ·) :=
  List.pairwise_reverse.mpr (hl.sublist (Cuts.picks_sublist _ l))

theorem cutRows_concat (limit : Nat) (l : List Nat) (x : Nat) : ∃ ts, cutRows limit (l ++ [x]) = x :: ts := by
  have hlast : (l ++ [x]).length = l.length + 1 := List.length_append
  simp only [cutRows, Cuts.picks_concat, hlast, beq_self_eq_true, Bool.or_true, Bool.true_or,
    if_true, List.reverse_append, List.reverse_singleton]
  exact ⟨_, rfl⟩

theorem cutRows_eq_nil_iff : cutRows limit l = [] ↔ l = [] := by
  constructor
  · intro h
    induction l using List.reverseRecOn with
    | nil => rfl
    | append_singleton l x _ =>
        obtain ⟨ts, hts⟩ := cutRows_concat limit l x
        rw [hts] at h
        cases h
  · rintro rfl
    rfl

theorem headD_cutRows (limit : Nat) (l : List Nat) (a : Nat) : (cutRows limit l).headD a = l.getLastD a := by
  induction l using List.reverseRecOn with
  | nil => rfl
  | append_singleton l x _ =>
      obtain ⟨ts, hts⟩ := cutRows_concat limit l x
      rw [hts, List.getLastD_concat, List.headD_cons]

theorem cutRows_length_eq_one_iff (hlimit : 0 < limit) (hl : l.Pairwise (· < ·)) :
    (cutRows limit l).length = 1 ↔ l ≠ [] ∧ l.length ≤ limit := by
  have hnodup : l.Nodup := hl.imp Nat.ne_of_lt
  constructor
  · intro h
    have hne : l ≠ [] := by
      rintro rfl
      cases h
    refine ⟨hne, Nat.le_of_not_lt fun hlt => ?_⟩
    obtain ⟨x, hx⟩ := List.length_eq_one_iff.mp h
    have hpos : 0 < l.length := List.length_pos_of_ne_nil hne
    have hcut : ∀ i (hi : i < l.length), ((i + 1) % limit == 0 || i + 1 == l.length) = true →
        l[i] = x := by
      intro i hi hp
      have hmem : l[i] ∈ cutRows limit l :=
        List.mem_reverse.mpr (Cuts.getElem_mem_picks hi (by rw [hp]; rfl))
      rw [hx] at hmem
      exact List.mem_singleton.mp hmem
    have hfirst := hcut (limit - 1) (by omega) (by simp [Nat.sub_add_cancel hlimit])
    have hlast := hcut (l.length - 1) (by omega) (by simp [Nat.sub_add_cancel hpos])
    have heq := (List.Nodup.getElem_inj_iff hnodup).mp (hfirst.trans hlast.symm)
    omega
  · rintro ⟨hne, hle⟩
    induction l using List.reverseRecOn with
    | nil => exact absurd rfl hne
    | append_singleton l x _ =>
        have hlen : (l ++ [x]).length = l.length + 1 := List.length_append
        rw [hlen] at hle
        rw [cutRows, Cuts.picks_last, List.length_reverse, List.length_singleton]
        · simp [hlen]
        · intro j hj hjl
          have hmod : j % limit = j := Nat.mod_eq_of_lt (by omega)
          simp only [hlen, hmod, Bool.or_eq_false_iff, Bool.and_eq_false_iff, beq_eq_false_iff_ne]
          exact ⟨⟨by omega, by omega⟩, .inr (by omega)⟩

end Cut

/-! ## What the pages are -/

section Pages

variable {campaign : Campaign} {testabMode : Bool} {first : Nat} {contacts : List Nat}

/-- The page reads the numbers of a stretch; `0` does for a start at the first row. -/
def Spans (j : Job) (r : Nat × Nat) : Prop :=
  j.finalContactId = r.2 ∧
    (j.currentContactId = r.1 + 1 ∨ (j.currentContactId = 0 ∧ r.1 = 0))

/-- A page starts after the cut below it; the last one after what ends the send below. -/
theorem laterPage_spans (testabMode : Bool) {n fin i : Nat} {dist : Int} (hi : i < contacts.length) :
    Spans (laterPage campaign testabMode n dist fin contacts contacts[i] (0 + i))
      (contacts[i + 1]?.getD (if testabMode then campaign.lastId else fin), contacts[i]) := by
  refine ⟨rfl, ?_⟩
  simp only [laterPage, addPageToQueue, Nat.zero_add]
  cases contacts[i + 1]? with
  | some next =>
      left
      simp
  | none =>
      cases testabMode with
      | false =>
          left
          simp
      | true =>
          by_cases hlast : campaign.lastId = 0
          · right
            simp [hlast]
          · left
            simp [Nat.pos_of_ne_zero hlast]

theorem laterPages_spans {n : Nat} {dist : Int} (hne : contacts ≠ []) :
    List.Forall₂ Spans (laterPages campaign testabMode n dist contacts)
      (Cuts.stretches campaign.lastId contacts) := by
  cases testabMode with
  | true => exact Cuts.forall₂_stretches (laterPage campaign true n dist _ contacts) fun i hi =>
      laterPage_spans true hi
  | false =>
      induction contacts using List.reverseRecOn with
      | nil => exact absurd rfl hne
      | append_singleton init last _ =>
          simp only [laterPages, Bool.false_eq_true, if_false, List.dropLast_concat,
            List.getLastD_concat, Cuts.stretches_concat]
          refine List.rel_append (Cuts.forall₂_stretches (laterPage campaign false n dist last init)
            fun i hi => laterPage_spans false hi)
            (List.Forall₂.cons ⟨rfl, ?_⟩ List.Forall₂.nil)
          simp only [addPageToQueue]
          by_cases hlast : campaign.lastId = 0
          · right
            simp [hlast]
          · left
            simp [hlast]

theorem createPages_eq (campaign : Campaign) (testabMode : Bool) (first : Nat)
    (contacts : List Nat) : ∃ (c : Campaign) (dist : Int),
    c.type = campaign.type ∧ c.lastId = campaign.lastId ∧
    createPages campaign testabMode first contacts =
      addPageToQueue c 1 (contacts.length + 1) dist
          (idFirstPage c (contacts.length + 1) contacts) first ::
        if 1 < contacts.length + 1 then
          laterPages c testabMode (contacts.length + 1) dist contacts
        else [] := by
  refine ⟨leaveTestMode (respread campaign (contacts.length + 1)), _, ?_, ?_, rfl⟩
  all_goals
    simp only [leaveTestMode, respread]
    split <;> split <;> rfl

/-- Apart from a TESTAB send of one page, every page reads the stretch below its cut. -/
theorem createPages_spans (testabMode : Bool) (first : Nat)
    (htype : campaign.type = .SPLIT ∨ campaign.type = .TESTAB ∨ campaign.lastId = 0)
    (hone : campaign.type = .TESTAB → contacts = [] → campaign.lastId = 0) :
    List.Forall₂ Spans (createPages campaign testabMode first contacts)
      (Cuts.stretches campaign.lastId (first :: contacts)) := by
  obtain ⟨c, dist, hctype, hclast, heq⟩ := createPages_eq campaign testabMode first
    contacts
  rw [heq, Cuts.stretches, ← hclast]
  rw [← hctype, ← hclast] at htype hone
  cases contacts with
  | cons next rest =>
      rw [if_pos (by simp)]
      refine List.Forall₂.cons ⟨rfl, .inl ?_⟩ (laterPages_spans (by simp))
      simp [addPageToQueue, idFirstPage]
  | nil =>
      rw [if_neg (by simp)]
      refine List.Forall₂.cons ⟨rfl, ?_⟩ List.Forall₂.nil
      simp only [addPageToQueue, idFirstPage, List.headD_nil, List.head?_nil, Option.map_none,
        Option.getD_none, List.length_nil, Nat.zero_add, and_true]
      rcases htype with h | h | h
      · simp [h]
      · simp [h, hone h rfl]
      · by_cases hsplit : c.type = .SPLIT <;> simp [h, hsplit]

/-- The one page of a TESTAB send starts at the row the send is to start after. -/
theorem createPages_single (testabMode : Bool) (first : Nat) (htype : campaign.type = .TESTAB) :
    ∃ j, createPages campaign testabMode first [] = [j] ∧
      j.currentContactId = campaign.lastId ∧ j.finalContactId = first := by
  obtain ⟨c, dist, hctype, hclast, heq⟩ := createPages_eq campaign testabMode first []
  refine ⟨_, heq, ?_, rfl⟩
  simp [addPageToQueue, idFirstPage, hctype, htype, hclast]

theorem pages_laterPages {n : Nat} {dist : Int} (hne : contacts ≠ [])
    (hn : n = contacts.length + 1) :
    (laterPages campaign testabMode n dist contacts).map (·.page) =
      List.range' 2 contacts.length := by
  have hmap : ∀ (fin : Nat) (l : List Nat), (l.zipIdx.map fun x =>
      laterPage campaign testabMode n dist fin l x.1 x.2).map (·.page) = List.range' 2 l.length := by
    intro fin l
    have hpage : ∀ x : Nat × Nat, (laterPage campaign testabMode n dist fin l x.1 x.2).page =
        2 + x.2 := by
      intro x
      simp only [laterPage, addPageToQueue]
      omega
    calc (l.zipIdx.map fun x => laterPage campaign testabMode n dist fin l x.1 x.2).map (·.page)
        = (l.zipIdx.map Prod.snd).map (2 + ·) := by
          rw [List.map_map, List.map_map]
          exact List.map_congr_left fun x _ => hpage x
      _ = List.range' 2 l.length := by rw [List.zipIdx_map_snd, List.map_add_range']
  cases testabMode with
  | true => exact hmap _ _
  | false =>
      obtain ⟨k, hk⟩ := Nat.exists_eq_succ_of_ne_zero (List.length_pos_of_ne_nil hne).ne'
      simp only [laterPages, Bool.false_eq_true, if_false, List.map_append, hmap, List.map_cons,
        List.map_nil, addPageToQueue, List.length_dropLast]
      rw [hn, hk, Nat.succ_eq_add_one, Nat.add_sub_cancel, List.range'_concat, Nat.one_mul,
        Nat.add_comm 2]

/-- The pages of a send are numbered from 1 to their count. -/
theorem pages_createPages (campaign : Campaign) (testabMode : Bool) (first : Nat)
    (contacts : List Nat) : (createPages campaign testabMode first contacts).map (·.page) =
    List.range' 1 (contacts.length + 1) := by
  obtain ⟨c, dist, -, -, heq⟩ := createPages_eq campaign testabMode first
    contacts
  rw [heq, List.map_cons, List.range'_succ]
  refine congrArg (List.cons 1) ?_
  cases contacts with
  | nil => rfl
  | cons next rest =>
      rw [if_pos (by simp)]
      exact pages_laterPages (by simp) rfl

theorem totalPages_laterPages {n : Nat} {dist : Int} {j : Job}
    (hj : j ∈ laterPages campaign testabMode n dist contacts) : j.totalPages = n := by
  have hmap : ∀ (fin : Nat) (l : List Nat), j ∈ (l.zipIdx.map fun x =>
      laterPage campaign testabMode n dist fin l x.1 x.2) → j.totalPages = n := by
    intro fin l h
    obtain ⟨x, -, rfl⟩ := List.mem_map.mp h
    rfl
  cases testabMode with
  | true => exact hmap _ _ hj
  | false =>
      rcases List.mem_append.mp hj with h | h
      · exact hmap _ _ h
      · rw [List.mem_singleton.mp h]
        rfl

theorem totalPages_createPages {j : Job} (hj : j ∈ createPages campaign testabMode first contacts) :
    j.totalPages = contacts.length + 1 := by
  obtain ⟨c, dist, -, -, heq⟩ := createPages_eq campaign testabMode first
    contacts
  rw [heq] at hj
  rcases List.mem_cons.mp hj with rfl | h
  · rfl
  · split at h
    · exact totalPages_laterPages h
    · cases h

end Pages

end OpenBms.Packer
