/-
# `OpenBms.Packer.Slices` — the slices of a test and its variants

`startedTestAB` cuts the tested contacts below every multiple of a rounded quotient and
after the last of them; `createTest` gives the slices to the messages one by one.  A
quotient that was rounded up reaches the last contact before each message has a slice.

| tested | messages | rounded | cut points  |
| :----- | :------- | :------ | :---------- |
| 8      | 4        | 2       | 2, 4, 6, 8  |
| 6      | 4        | 2       | 2, 4, 6     |
| 1      | 3        | 0       | none: division by zero |

**Proved here.**

    each slice is sent with the message of its place (`messages_testLoop`)
    each message has a slice exactly when the multiples stay
    below the last tested contact (`sliced_iff`)
-/
import OpenBms.Packer.Partition

namespace OpenBms.Packer

/-- As many cut points as messages, descending from the last tested contact, with a contact
between two of them; and a send for each message. -/
structure Sliced (limit : BatchLimit) (rows : ContactRows) (campaign : Campaign) : Prop where
  cuts : ∃ cuts, startedTestAB rows campaign.campaignMessage.length campaign.percentTest = .ok cuts ∧
    cuts.length = campaign.campaignMessage.length ∧ cuts.Pairwise (· > ·) ∧
      cuts.head? = (rankedWithin campaign.percentTest rows).getLast? ∧
        ∀ r ∈ Cuts.stretches 0 cuts, ∃ o ∈ rows.orders, Cuts.within o r = true
  sends : (createTest limit rows false campaign).1.length = campaign.campaignMessage.length
  message : ∀ (i : Nat) (send : List Job), (createTest limit rows false campaign).1[i]? = some send → send ≠ [] ∧
    ∀ job : Job, job ∈ send → job.campaign.campaignMessage = campaign.campaignMessage[i]?.toList

section
variable {limit : BatchLimit} {rows : ContactRows} {campaign : Campaign}
variable {messages : List CampaignMessage} {index : Nat} {pages : List Nat}

/-! ## The sends of the slices -/

theorem respread_message (totalPages : Nat) :
    (respread campaign totalPages).campaignMessage = campaign.campaignMessage := by
  rw [respread]
  split
  · rfl
  · rfl

theorem leaveTestMode_message : (leaveTestMode campaign).campaignMessage = campaign.campaignMessage := by
  rw [leaveTestMode]
  split
  · rfl
  · rfl

theorem campaign_laterPages {testabMode : Bool} {totalPages : Nat} {dist : Int} {contacts : List Nat} :
    ∀ job ∈ laterPages campaign testabMode totalPages dist contacts, job.campaign = campaign := by
  intro job hjob
  have hpages : ∀ (totalContacts : List Nat) (final : Nat), ∀ job ∈ totalContacts.zipIdx.map (fun x =>
      laterPage campaign testabMode totalPages dist final totalContacts x.1 x.2),
        job.campaign = campaign := by
    intro totalContacts final job hjob
    obtain ⟨x, -, rfl⟩ := List.mem_map.mp hjob
    rfl
  rw [laterPages] at hjob
  split at hjob
  · exact hpages _ _ job hjob
  · rcases List.mem_append.mp hjob with hjob | hjob
    · exact hpages _ _ job hjob
    · rw [List.mem_singleton.mp hjob]
      rfl

/-- Every page of a send carries the messages of its campaign. -/
theorem message_createPages {testabMode : Bool} {first : Nat} {contacts : List Nat} :
    ∀ job ∈ createPages campaign testabMode first contacts,
      job.campaign.campaignMessage = campaign.campaignMessage := by
  intro job hjob
  have hsame : (leaveTestMode (respread campaign (contacts.length + 1))).campaignMessage =
      campaign.campaignMessage := leaveTestMode_message.trans (respread_message _)
  rcases List.mem_cons.mp hjob with rfl | hjob
  · exact hsame
  · split at hjob
    · rw [campaign_laterPages job hjob]
      exact hsame
    · cases hjob

/-- Each slice is sent, with the message of its place. -/
theorem messages_testLoop (limit : BatchLimit) (hv : Accepted campaign messages)
    (htype : campaign.type = .SPLIT ∨ campaign.type = .TESTAB)
    (hs : pages.Pairwise (· > ·)) (hrows : ∀ t ∈ pages, t ∈ rows.orders)
    (hlen : index + pages.length ≤ messages.length) :
    ∃ sends, testLoop limit rows false campaign messages index pages = (sends, none) ∧
      sends.length = pages.length ∧ ∀ i send, sends[i]? = some send → send ≠ [] ∧
        ∀ job ∈ send, job.campaign.campaignMessage = messages[index + i]?.toList := by
  induction pages generalizing index with
  | nil => exact ⟨[], rfl, rfl, fun i send hsend => nomatch hsend⟩
  | cons page pages ih =>
      have hpage : page ∈ rows.orders := hrows page List.mem_cons_self
      have hbelow : pages.headD 0 < page := Cuts.headD_le hs (ContactRows.pos hpage)
      rw [List.length_cons] at hlen
      have hvalid := validateCampaign_variant hv (by omega : index < messages.length)
        (pages.headD 0) page
      have hforget := forgetTest_variant messages index htype (pages.headD 0) page
      obtain ⟨batches, hbatches⟩ := createBatches_ok limit hvalid hforget rfl hpage
        hbelow (.inr (le_refl _))
      obtain ⟨sends, hloop, hlength, hmessage⟩ := ih hs.of_cons
        (fun t ht => hrows t (List.mem_cons_of_mem _ ht))
        (by omega : index + 1 + pages.length ≤ messages.length)
      refine ⟨batches.jobs :: sends, ?_, ?_, ?_⟩
      · simp only [testLoop, hbatches, hloop]
      · rw [List.length_cons, List.length_cons, hlength]
      · intro i send hsend
        cases i with
        | zero =>
            cases hsend
            have heq := hbatches.symm.trans (createBatches_eq hvalid hforget)
            split at heq
            · cases heq
            · cases heq
              exact ⟨List.cons_ne_nil _ _, message_createPages⟩
        | succ i =>
            rw [Nat.add_succ, ← Nat.succ_add]
            exact hmessage i send hsend

end

/-! ## The cut points -/

section
variable {limit : BatchLimit} {rows : ContactRows} {campaign : Campaign} {m q s : Nat}

theorem length_cutPositions (hm : 0 < m) (hs : 0 < s) :
    (cutPositions m q s).length = lowerCuts m q s + 1 := by
  rw [cutPositions_eq hm hs, List.length_cons, List.length_reverse, List.length_map, List.length_range']

/-- There are as many cut points as messages when the multiples stay below the last
position. -/
theorem length_cutPositions_iff (hq : 1 ≤ q) (hm : 0 < m) (hs : 0 < s) :
    (cutPositions m q s).length = q ↔ (q - 1) * s < m := by
  rw [length_cutPositions hm hs, lowerCuts]
  have hle : q - 1 ≤ (m - 1) / s ↔ (q - 1) * s ≤ m - 1 := Nat.le_div_iff_mul_le hs
  constructor
  · intro h
    have := hle.mp (by omega)
    omega
  · intro h
    have := hle.mpr (by omega)
    omega

theorem roundDiv_pos (hq : 1 ≤ q) (hm : q ≤ m) : 0 < roundDiv m q := by
  rw [roundDiv]
  exact Nat.div_pos (by omega) (by omega)

theorem startedTestAB_at (hq : 1 ≤ q) (hm : testedOf campaign.percentTest rows.count = m) (hqm : q ≤ m) :
    startedTestAB rows q campaign.percentTest = .ok ((cutPositions m q (roundDiv m q)).map rows.at) :=
  startedTestAB_eq hm (by omega) (by omega) rfl (roundDiv_pos hq hqm)

theorem getLast?_rankedWithin (hm : testedOf campaign.percentTest rows.count = m) (hpos : 0 < m) :
    (rankedWithin campaign.percentTest rows).getLast? = some (rows.at m) := by
  obtain ⟨n, rfl⟩ := Nat.exists_eq_add_one.mpr hpos
  rw [rankedWithin_eq, hm, List.range'_concat, List.map_append, List.map_singleton,
    List.getLast?_concat, Nat.one_mul, Nat.add_comm 1 n]
  rfl

end

/-- For every audience of at least as many contacts as messages: each message has a slice,
exactly when as many multiples of the rounded quotient as there are messages but one stay
below the last tested contact. -/
theorem sliced_iff (limit : BatchLimit) (rows : ContactRows) {campaign : Campaign} (h : Stored campaign)
    (htype : campaign.type = .SPLIT ∨ campaign.type = .TESTAB)
    (hsize : campaign.campaignMessage.length ≤ (rankedWithin campaign.percentTest rows).length) :
    Sliced limit rows campaign ↔
      (campaign.campaignMessage.length - 1) *
        roundDiv (rankedWithin campaign.percentTest rows).length campaign.campaignMessage.length <
      (rankedWithin campaign.percentTest rows).length := by
  generalize hm : (rankedWithin campaign.percentTest rows).length = m at hsize ⊢
  generalize hq : campaign.campaignMessage.length = q at hsize ⊢
  have htested : testedOf campaign.percentTest rows.count = m := by
    rw [← hm, rankedWithin_eq, List.length_map, List.length_range']
  have hqpos : 1 ≤ q := hq ▸ List.length_pos_of_ne_nil h.messages
  have hspos := roundDiv_pos hqpos hsize
  have hstart := startedTestAB_at hqpos htested hsize
  constructor
  · rintro ⟨⟨cuts, hcuts, hlength, -⟩, -⟩
    rw [hq, hstart] at hcuts
    obtain rfl := Except.ok.inj hcuts
    rw [List.length_map, hq] at hlength
    exact (length_cutPositions_iff hqpos (by omega) hspos).mp hlength
  · intro hlt
    have hlength : ((cutPositions m q (roundDiv m q)).map rows.at).length = q := by
      rw [List.length_map]
      exact (length_cutPositions_iff hqpos (by omega) hspos).mpr hlt
    have hmn : m ≤ rows.count := htested ▸ testedOf_le _ _
    have hdesc : ((cutPositions m q (roundDiv m q)).map rows.at).Pairwise (· > ·) := by
      refine List.pairwise_map.mpr (cutPositions_descending.imp_of_mem fun ha _ hab => ?_)
      exact Cuts.place_mono rows.ascending hab ((mem_cutPositions ha).2.trans hmn)
    have hmem : ∀ t ∈ (cutPositions m q (roundDiv m q)).map rows.at, t ∈ rows.orders := by
      intro t ht
      obtain ⟨j, hj, rfl⟩ := List.mem_map.mp ht
      exact rows.at_mem (mem_cutPositions hj).1 ((mem_cutPositions hj).2.trans hmn)
    have hhead : ((cutPositions m q (roundDiv m q)).map rows.at).head? = some (rows.at m) := by
      rw [cutPositions_eq (by omega) hspos]
      rfl
    have hparse : (campaignParse campaign).type = campaign.type := by rw [campaignParse_eq]
    obtain ⟨sends, hloop, hsends, hmessage⟩ := messages_testLoop limit (accepted_campaignParse h)
      (hparse ▸ htype) hdesc hmem (by rw [Nat.zero_add, hlength, hq] : 0 + _ ≤ _)
    have hcreate : (createTest limit rows false campaign).1 = sends := by
      rw [createTest, hq, hstart]
      dsimp only
      rw [hloop]
      cases (cutPositions m q (roundDiv m q)).map rows.at with
      | nil => rfl
      | cons page pages => rfl
    refine ⟨⟨_, hq ▸ hstart, hq ▸ hlength, hdesc, ?_, fun r hr => ?_⟩, ?_, ?_⟩
    · rw [hhead, getLast?_rankedWithin htested (by omega)]
    · have hup := hmem r.2 (Cuts.upper_mem_of_mem_stretches hr)
      exact ⟨r.2, hup, Cuts.within_iff.mpr
        ⟨Cuts.lower_lt_upper hdesc (fun t ht => rows.pos (hmem t ht)) hr, le_refl _⟩⟩
    · rw [hcreate, hsends, hlength, hq]
    · intro i send hsend
      rw [hcreate] at hsend
      have hi := hmessage i send hsend
      rwa [Nat.zero_add] at hi

/-- A test of four messages on all contacts. -/
def fourTest : Campaign :=
  { abTest 100 with campaignMessage := [⟨1, false, {}⟩, ⟨2, false, {}⟩, ⟨3, false, {}⟩, ⟨4, false, {}⟩] }

theorem stored_fourTest : Stored fourTest where
  messages := List.cons_ne_nil _ _
  accepted := by
    intro m _
    rfl
  split := by
    intro h
    cases h
  fresh := ⟨rfl, rfl⟩

theorem percentTest_fourTest : fourTest.percentTest = 1 := by
  rw [Campaign.percentTest]
  show ((100 : Int) : ℚ) / 100 = 1
  norm_num

theorem tested_fourTest (n : Nat) :
    (rankedWithin fourTest.percentTest (.inserted n)).length = n := by
  rw [rankedWithin_eq, List.length_map, List.length_range', percentTest_fourTest, testedOf_one]
  exact List.length_range'

theorem sliced_eight : Sliced ⟨1000, by decide⟩ (.inserted 8) fourTest := by
  refine (sliced_iff _ _ stored_fourTest (.inr rfl) ?_).mpr ?_
  · rw [tested_fourTest]
    decide
  · rw [tested_fourTest]
    decide

/-- Six contacts for four messages: the fourth has none. -/
theorem slice_missing : ¬ ∀ (limit : BatchLimit) (rows : ContactRows) (campaign : Campaign),
    Stored campaign → campaign.type = .TESTAB →
      campaign.campaignMessage.length ≤ (rankedWithin campaign.percentTest rows).length →
        Sliced limit rows campaign := by
  intro h
  have hsliced := h ⟨1000, by decide⟩ (.inserted 6) fourTest stored_fourTest rfl
    (by rw [tested_fourTest]; decide)
  obtain ⟨cuts, hcuts, hlength, -⟩ := hsliced.cuts
  have htested : testedOf fourTest.percentTest (ContactRows.inserted 6).count = 6 := by
    rw [percentTest_fourTest, testedOf_one]
    rfl
  have hstart := startedTestAB_at (by decide : 1 ≤ 4) htested (by decide)
  rw [show fourTest.campaignMessage.length = 4 from rfl, hstart] at hcuts
  obtain rfl := Except.ok.inj hcuts
  exact absurd hlength (by decide)

end OpenBms.Packer
