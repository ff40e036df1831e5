/-
# `OpenBms.TagProcess.TagBatch` — a batch of contacts and the contacts that exist

`processTagBatch` asks for the contacts with the e-mails of the batch, in lower case.
For each one it gets, it takes the first input with that very e-mail out of the batch;
where there is none, `splice(-1, 1)` takes out the last input.  Who got a contact is
tagged, and what is left of the batch goes on to be created.

**Proved here**, for every batch and every set of contacts.

    what one removal does (`remove_cases`)
    what is left are the inputs that do not exist, where each
    existing e-mail is in the batch once, and in lower case or
    with existing ones after it alone (`removeAll_eq`)
    no input is lost and every contact tagged iff that is so
    and the contacts are stored in lower case (`imports_iff_handled`)
-/
import Mathlib

namespace OpenBms.TagProcess.Batch

/-! ## The batch -/

inductive Actions where
  | ADD
  | REMOVE
  deriving DecidableEq

structure ContactBatch where
  email : String
  firstName : String
  lastName : String
  deriving DecidableEq

structure TagBatch where
  action : Actions
  createContacts : Bool
  contacts : List ContactBatch

/-- `toLowerCase`. -/
structure LowerCase where
  toLowerCase : String → String
  idem : ∀ s, toLowerCase (toLowerCase s) = toLowerCase s

structure Contact where
  id : Int
  email : String
  deriving DecidableEq

/-- The contacts of an account, in the order they are found in. -/
structure Account where
  contacts : List Contact
  ids : (contacts.map (·.id)).Nodup
  /-- The unique index on account and e-mail. -/
  emails : (contacts.map (·.email)).Nodup

/-- What a batch does: the contacts that lose the tag, those that get it, and the inputs that are
published to be created. -/
structure Outcome where
  deleted : List Int := []
  tagged : List Int := []
  published : List ContactBatch := []

section
variable (l : LowerCase)

def findContactsByEmail (emails : List String) (a : Account) : List Contact :=
  let emailsInLowerCase := emails.map l.toLowerCase
  a.contacts.filter fun c => emailsInLowerCase.contains c.email

/-- `contacts.splice(findIndex, 1)`; an index that was not found is `-1`. -/
def splice (contacts : List ContactBatch) : Option Nat → List ContactBatch
  | some findIndex => contacts.eraseIdx findIndex
  | none => contacts.dropLast

def remove (contacts : List ContactBatch) (email : String) : List ContactBatch :=
  splice contacts (contacts.findIdx? fun contactBatch => contactBatch.email == email)

/-- The batch after the loop over the contacts that were found. -/
def removeAll (contacts : List ContactBatch) (emails : List String) : List ContactBatch :=
  emails.foldl remove contacts

/-- `processTagBatch`, once its account and its tag are found. -/
def processTagBatch (b : TagBatch) (a : Account) : Outcome :=
  let emails := b.contacts.map (·.email)
  let contacts := findContactsByEmail l emails a
  let left := removeAll b.contacts (contacts.map (·.email))
  let parseContacts := contacts.map (·.id)
  match b.action with
  | .REMOVE => { deleted := parseContacts }
  | .ADD =>
      { tagged := parseContacts
        published := if !left.isEmpty && b.createContacts then left else [] }

/-- A contact of the account has the e-mail of the input, whatever the case. -/
def Known (a : Account) (i : ContactBatch) : Bool :=
  a.contacts.any fun c => l.toLowerCase c.email == l.toLowerCase i.email

/-- The contact's e-mail is in the batch, whatever the case. -/
def Occurs (batch : List ContactBatch) (c : Contact) : Prop :=
  ∃ i ∈ batch, l.toLowerCase i.email = l.toLowerCase c.email

/-- An import: exactly the contacts whose e-mail occurs are tagged, and exactly the inputs whose
e-mail does not exist are created. -/
structure Imports (a : Account) (batch : List ContactBatch) : Prop where
  tagged : ∀ c ∈ a.contacts, c.id ∈ (processTagBatch l ⟨.ADD, true, batch⟩ a).tagged ↔
    Occurs l batch c
  published : (processTagBatch l ⟨.ADD, true, batch⟩ a).published =
    batch.filter fun i => !Known l a i

/-- When a batch is imported. -/
structure Handled (a : Account) (batch : List ContactBatch) : Prop where
  stored : ∀ c ∈ a.contacts, Occurs l batch c → l.toLowerCase c.email = c.email
  once : ((batch.filter (Known l a)).map fun i => l.toLowerCase i.email).Nodup
  followed : batch.Pairwise fun i k =>
    Known l a i = true → l.toLowerCase i.email ≠ i.email → Known l a k = true

end

/-! ## Removals -/

section
variable {contacts : List ContactBatch} {email : String} {emails : List String}

/-- What one removal does: it takes out an input with the e-mail, or the last one where there is
none. -/
theorem remove_cases (email : String) (h : contacts ≠ []) : ∃ front i back,
    contacts = front ++ i :: back ∧ remove contacts email = front ++ back ∧
      (i.email = email ∨ (back = [] ∧ ∀ k ∈ contacts, k.email ≠ email)) := by
  cases hindex : contacts.findIdx? fun i => i.email == email with
  | none =>
      obtain ⟨front, i, rfl⟩ := (List.eq_nil_or_concat' contacts).resolve_left h
      refine ⟨front, i, [], rfl, ?_, .inr ⟨rfl, fun k hk => ?_⟩⟩
      · rw [remove, hindex, splice, List.dropLast_concat, List.append_nil]
      · have hno := List.findIdx?_eq_none_iff.mp hindex k hk
        exact beq_eq_false_iff_ne.mp hno
  | some n =>
      have herase : contacts.eraseP (fun i => i.email == email) = contacts.eraseIdx n := by
        rw [List.eraseP_eq_eraseIdx, hindex]
      have hsome : ∃ i ∈ contacts, (i.email == email) = true := by
        have hany : (contacts.findIdx? fun i => i.email == email).isSome = true := by
          rw [hindex, Option.isSome_some]
        rw [List.findIdx?_isSome, List.any_eq_true] at hany
        exact hany
      obtain ⟨k, hk, hemail⟩ := hsome
      obtain ⟨i, front, back, -, hi, hcontacts, hleft⟩ := 
        List.exists_of_eraseP (p := fun i : ContactBatch => i.email == email) hk hemail
      refine ⟨front, i, back, hcontacts, ?_, .inl (beq_iff_eq.mp hi)⟩
      rw [remove, hindex, splice, ← herase, hleft]

theorem remove_nil (email : String) : remove [] email = [] := rfl

theorem length_remove (contacts : List ContactBatch) (email : String) :
    (remove contacts email).length = contacts.length - 1 := by
  by_cases h : contacts = []
  · rw [h, remove_nil]
    rfl
  · obtain ⟨front, i, back, rfl, hremove, -⟩ := remove_cases email h
    rw [hremove, List.length_append, List.length_append, List.length_cons]
    omega

theorem length_removeAll (contacts : List ContactBatch) (emails : List String) :
    (removeAll contacts emails).length = contacts.length - emails.length := by
  induction emails generalizing contacts with
  | nil => rfl
  | cons email emails ih =>
      rw [removeAll, List.foldl_cons, ← removeAll, ih, length_remove, List.length_cons]
      omega

/-- Of the inputs that are asked about, a removal leaves no more than there were. -/
theorem filter_remove_le (q : ContactBatch → Bool) (contacts : List ContactBatch) (email : String) :
    ((remove contacts email).filter q).length ≤ (contacts.filter q).length := by
  by_cases h : contacts = []
  · rw [h, remove_nil]
  · obtain ⟨front, i, back, rfl, hremove, -⟩ := remove_cases email h
    rw [hremove]
    exact (((List.sublist_cons_self i back).append_left front).filter q).length_le

theorem filter_removeAll_le (q : ContactBatch → Bool) (contacts : List ContactBatch)
    (emails : List String) :
    ((removeAll contacts emails).filter q).length ≤ (contacts.filter q).length := by
  induction emails generalizing contacts with
  | nil => exact le_rfl
  | cons email emails ih =>
      rw [removeAll, List.foldl_cons, ← removeAll]
      exact (ih _).trans (filter_remove_le q contacts email)

end

/-! ## When the right inputs are removed -/

section
variable {l : LowerCase} {known : ContactBatch → Bool} {contacts : List ContactBatch}
  {email : String} {emails : List String}

/-- The e-mails still to come and the inputs still there. -/
structure Ready (l : LowerCase) (known : ContactBatch → Bool) (emails : List String)
    (contacts : List ContactBatch) : Prop where
  count : (contacts.filter known).length = emails.length
  once : ((contacts.filter known).map fun i => l.toLowerCase i.email).Nodup
  pending : ∀ i ∈ contacts, known i = true → l.toLowerCase i.email = i.email → i.email ∈ emails
  exact_ : ∀ i ∈ contacts, i.email ∈ emails → known i = true ∧ l.toLowerCase i.email = i.email
  followed : contacts.Pairwise fun i k =>
    known i = true → l.toLowerCase i.email ≠ i.email → known k = true

theorem Ready.known_removed (h : Ready l known (email :: emails) contacts) {front back : List ContactBatch}
    {i : ContactBatch} (hcontacts : contacts = front ++ i :: back)
    (hi : i.email = email ∨ (back = [] ∧ ∀ k ∈ contacts, k.email ≠ email)) : known i = true := by
  have hmem : i ∈ contacts := by
    rw [hcontacts]
    exact List.mem_append_right _ List.mem_cons_self
  rcases hi with hemail | ⟨rfl, hother⟩
  · refine (h.exact_ i hmem ?_).1
    rw [hemail]
    exact List.mem_cons_self
  · by_contra hunknown
    -- all known inputs then wait for an e-mail that is still to come, and there are too many
    have hsub : (contacts.filter known).map (fun i => l.toLowerCase i.email) ⊆ emails := by
      intro e he
      obtain ⟨k, hk, rfl⟩ := List.mem_map.mp he
      obtain ⟨hk, hknown⟩ := List.mem_filter.mp hk
      have hfront : k ∈ front := by
        rw [hcontacts] at hk
        rcases List.mem_append.mp hk with hk | hk
        · exact hk
        · rw [List.mem_singleton] at hk
          rw [hk] at hknown
          exact absurd hknown hunknown
      have hlower : l.toLowerCase k.email = k.email := by
        by_contra hupper
        have hpair := h.followed
        rw [hcontacts, List.pairwise_append] at hpair
        exact hunknown (hpair.2.2 k hfront i (List.mem_singleton_self i) hknown hupper)
      have hpending := h.pending k hk hknown hlower
      rw [hlower]
      exact (List.mem_cons.mp hpending).resolve_left (hother k hk)
    have hle := (List.subperm_of_subset h.once hsub).length_le
    rw [List.length_map, h.count, List.length_cons] at hle
    omega

/-- One removal of the loop. -/
theorem Ready.step (h : Ready l known (email :: emails) contacts) :
    Ready l known emails (remove contacts email) ∧
      (remove contacts email).filter (fun i => !known i) =
        contacts.filter fun i => !known i := by
  have hne : contacts ≠ [] := by
    rintro rfl
    exact absurd h.count (Nat.zero_ne_add_one _)
  obtain ⟨front, i, back, hcontacts, hremove, hi⟩ := remove_cases email hne
  have hknown := h.known_removed hcontacts hi
  have hsub : List.Sublist (front ++ back) contacts := by
    rw [hcontacts]
    exact (List.sublist_cons_self i back).append_left front
  have honce := h.once
  have hcount := h.count
  rw [hcontacts, List.filter_append, List.filter_cons_of_pos hknown] at honce hcount
  rw [hremove]
  refine ⟨⟨?_, ?_, ?_, ?_, h.followed.sublist hsub⟩, ?_⟩
  · rw [List.length_append, List.length_cons, List.length_cons] at hcount
    rw [List.filter_append, List.length_append]
    omega
  · exact h.once.sublist ((hsub.filter known).map _)
  · intro k hk hknown' hlower
    refine (List.mem_cons.mp (h.pending k (hsub.subset hk) hknown' hlower)).resolve_left fun heq => ?_
    rcases hi with hemail | ⟨-, hother⟩
    · -- two inputs of one existing e-mail
      have hlow : l.toLowerCase i.email = l.toLowerCase k.email := by rw [hemail, heq]
      rw [List.map_append, List.map_cons, List.nodup_middle, List.nodup_cons, ← List.map_append,
        ← List.filter_append, hlow] at honce
      exact honce.1 (List.mem_map.mpr ⟨k, List.mem_filter.mpr ⟨hk, hknown'⟩, rfl⟩)
    · exact hother k (hsub.subset hk) heq
  · exact fun k hk hemail => h.exact_ k (hsub.subset hk) (List.mem_cons_of_mem _ hemail)
  · have hout : ¬ (!known i) = true := by rw [hknown, Bool.not_true]; exact Bool.false_ne_true
    rw [hcontacts, List.filter_append, List.filter_append,
      List.filter_cons_of_neg (p := fun i => !known i) hout]

theorem removeAll_eq (h : Ready l known emails contacts) :
    removeAll contacts emails = contacts.filter fun i => !known i := by
  induction emails generalizing contacts with
  | nil =>
      have hnone : contacts.filter known = [] := List.length_eq_zero_iff.mp h.count
      rw [removeAll, List.foldl_nil, eq_comm, List.filter_eq_self]
      intro i hi
      rw [List.filter_eq_nil_iff] at hnone
      rw [Bool.not_eq_true', ← Bool.not_eq_true]
      exact hnone i hi
  | cons email emails ih =>
      obtain ⟨hready, hfilter⟩ := h.step
      rw [removeAll, List.foldl_cons, ← removeAll, ih hready, hfilter]

/-! ## When a wrong input is removed -/

/-- Where no unknown input is removed, one that is not in lower case stays as long as an unknown
one comes after it. -/
theorem pair_remove {j k : ContactBatch} (hemail : l.toLowerCase email = email)
    (hj : l.toLowerCase j.email ≠ j.email) (hk : known k = false)
    (hpair : List.Sublist [j, k] contacts)
    (hkeep : ((remove contacts email).filter fun i => !known i).length =
      (contacts.filter fun i => !known i).length) :
    List.Sublist [j, k] (remove contacts email) := by
  have hne : contacts ≠ [] := by
    rintro rfl
    cases hpair
  obtain ⟨front, i, back, rfl, hremove, hi⟩ := remove_cases email hne
  have hknown : known i = true := by
    by_contra hunknown
    rw [Bool.not_eq_true] at hunknown
    have hin : (!known i) = true := by rw [hunknown, Bool.not_false]
    rw [hremove, List.filter_append, List.filter_append,
      List.filter_cons_of_pos (p := fun i => !known i) hin,
      List.length_append, List.length_append, List.length_cons] at hkeep
    omega
  have hki : k ≠ i := by
    rintro rfl
    rw [hk] at hknown
    cases hknown
  rw [hremove]
  rcases hi with hmatch | ⟨rfl, -⟩
  · have hji : j ≠ i := by
      rintro rfl
      rw [hmatch] at hj
      exact hj hemail
    have hfilter := hpair.filter fun m => decide (m ≠ i)
    have hself : ¬ decide (i ≠ i) = true := by
      rw [decide_eq_true_eq]
      exact fun h => h rfl
    rw [List.filter_cons_of_pos (p := fun m => decide (m ≠ i)) (decide_eq_true hji),
      List.filter_cons_of_pos (p := fun m => decide (m ≠ i)) (decide_eq_true hki),
      List.filter_nil, List.filter_append,
      List.filter_cons_of_neg (p := fun m => decide (m ≠ i)) hself,
      ← List.filter_append] at hfilter
    exact hfilter.trans List.filter_sublist
  · -- the last input is not the unknown one
    rw [← List.reverse_sublist] at hpair ⊢
    rw [List.append_nil]
    rw [List.reverse_append, List.reverse_singleton, List.singleton_append] at hpair
    have hreverse : [j, k].reverse = [k, j] := rfl
    rw [hreverse] at hpair ⊢
    cases hpair with
    | cons _ h => exact h
    | cons_cons _ _ => exact absurd rfl hki

theorem pair_removeAll {j k : ContactBatch} (hemails : ∀ e ∈ emails, l.toLowerCase e = e)
    (hj : l.toLowerCase j.email ≠ j.email) (hk : known k = false)
    (hpair : List.Sublist [j, k] contacts)
    (hkeep : ((removeAll contacts emails).filter fun i => !known i).length =
      (contacts.filter fun i => !known i).length) :
    List.Sublist [j, k] (removeAll contacts emails) := by
  induction emails generalizing contacts with
  | nil => exact hpair
  | cons email emails ih =>
      rw [removeAll, List.foldl_cons, ← removeAll] at hkeep ⊢
      have hle := filter_removeAll_le (fun i => !known i) (remove contacts email) emails
      have hle' := filter_remove_le (fun i => !known i) contacts email
      have hstep := pair_remove (hemails email List.mem_cons_self) hj hk hpair
        (le_antisymm hle' (hkeep ▸ hle))
      refine ih (fun e he => hemails e (List.mem_cons_of_mem _ he)) hstep ?_
      exact le_antisymm hle (hkeep ▸ hle')

end

/-! ## Batches -/

section
variable (l : LowerCase) (a : Account) (batch : List ContactBatch)

/-- The e-mails of the contacts that are found. -/
def foundEmails : List String :=
  (findContactsByEmail l (batch.map (·.email)) a).map (·.email)

variable {l a batch}

theorem mem_found {c : Contact} : c ∈ findContactsByEmail l (batch.map (·.email)) a ↔
    c ∈ a.contacts ∧ ∃ i ∈ batch, l.toLowerCase i.email = c.email := by
  rw [findContactsByEmail, List.mem_filter, List.contains_iff_mem, List.map_map, List.mem_map]
  rfl

theorem nodup_foundEmails : (foundEmails l a batch).Nodup :=
  a.emails.sublist (List.filter_sublist.map _)

theorem mem_foundEmails {email : String} : email ∈ foundEmails l a batch ↔
    email ∈ a.contacts.map (·.email) ∧ ∃ i ∈ batch, l.toLowerCase i.email = email := by
  rw [foundEmails, List.mem_map, List.mem_map]
  constructor
  · rintro ⟨c, hc, rfl⟩
    obtain ⟨hmem, hbatch⟩ := mem_found.mp hc
    exact ⟨⟨c, hmem, rfl⟩, hbatch⟩
  · rintro ⟨⟨c, hmem, rfl⟩, hbatch⟩
    exact ⟨c, mem_found.mpr ⟨hmem, hbatch⟩, rfl⟩

theorem lower_foundEmails {email : String} (h : email ∈ foundEmails l a batch) :
    l.toLowerCase email = email := by
  obtain ⟨-, i, -, rfl⟩ := mem_foundEmails.mp h
  exact l.idem i.email

theorem known_iff {i : ContactBatch} : Known l a i = true ↔
    ∃ c ∈ a.contacts, l.toLowerCase c.email = l.toLowerCase i.email := by
  rw [Known, List.any_eq_true]
  exact exists_congr fun c => and_congr_right fun _ => beq_iff_eq

theorem known_iff_found (h : ∀ c ∈ a.contacts, Occurs l batch c → l.toLowerCase c.email = c.email)
    {i : ContactBatch} (hi : i ∈ batch) :
    Known l a i = true ↔ l.toLowerCase i.email ∈ foundEmails l a batch := by
  rw [known_iff, mem_foundEmails]
  constructor
  · rintro ⟨c, hc, hemail⟩
    refine ⟨List.mem_map.mpr ⟨c, hc, ?_⟩, i, hi, rfl⟩
    rw [← h c hc ⟨i, hi, hemail.symm⟩]
    exact hemail
  · rintro ⟨hmem, -⟩
    obtain ⟨c, hc, hemail⟩ := List.mem_map.mp hmem
    refine ⟨c, hc, ?_⟩
    rw [hemail]
    exact l.idem i.email

theorem tagged_iff : (∀ c ∈ a.contacts,
      c.id ∈ (processTagBatch l ⟨.ADD, true, batch⟩ a).tagged ↔ Occurs l batch c) ↔
    ∀ c ∈ a.contacts, Occurs l batch c → l.toLowerCase c.email = c.email := by
  have htagged : ∀ c ∈ a.contacts, c.id ∈ (processTagBatch l ⟨.ADD, true, batch⟩ a).tagged ↔
      ∃ i ∈ batch, l.toLowerCase i.email = c.email := by
    intro c hc
    have hids : (processTagBatch l ⟨.ADD, true, batch⟩ a).tagged =
        (findContactsByEmail l (batch.map (·.email)) a).map (·.id) := rfl
    rw [hids, List.mem_map]
    constructor
    · rintro ⟨c', hc', hid⟩
      obtain ⟨hmem, hbatch⟩ := mem_found.mp hc'
      rwa [List.inj_on_of_nodup_map a.ids hmem hc hid] at hbatch
    · exact fun hbatch => ⟨c, mem_found.mpr ⟨hc, hbatch⟩, rfl⟩
  refine forall₂_congr fun c hc => ?_
  rw [htagged c hc]
  constructor
  · rintro h hoccurs
    obtain ⟨i, -, hemail⟩ := h.mpr hoccurs
    rw [← hemail]
    exact l.idem i.email
  · intro h
    constructor
    · rintro ⟨i, hi, hemail⟩
      refine ⟨i, hi, ?_⟩
      rw [← hemail]
      exact (l.idem i.email).symm
    · intro hoccurs
      have hlower := h hoccurs
      obtain ⟨i, hi, hemail⟩ := hoccurs
      exact ⟨i, hi, hemail.trans hlower⟩

theorem published_eq : (processTagBatch l ⟨.ADD, true, batch⟩ a).published =
    removeAll batch (foundEmails l a batch) := by
  have hleft : (processTagBatch l ⟨.ADD, true, batch⟩ a).published =
      if !(removeAll batch (foundEmails l a batch)).isEmpty && true then
        removeAll batch (foundEmails l a batch)
      else [] := rfl
  rw [hleft, Bool.and_true]
  cases removeAll batch (foundEmails l a batch) with
  | nil => rfl
  | cons i contacts => rfl

section
variable (hstored : ∀ c ∈ a.contacts, Occurs l batch c → l.toLowerCase c.email = c.email)
include hstored

theorem foundEmails_subset :
    foundEmails l a batch ⊆ (batch.filter (Known l a)).map fun i => l.toLowerCase i.email := by
  intro email hemail
  obtain ⟨-, i, hi, rfl⟩ := mem_foundEmails.mp hemail
  exact List.mem_map.mpr
    ⟨i, List.mem_filter.mpr ⟨hi, (known_iff_found hstored hi).mpr hemail⟩, rfl⟩

theorem subset_foundEmails :
    ((batch.filter (Known l a)).map fun i => l.toLowerCase i.email) ⊆ foundEmails l a batch := by
  intro email hemail
  obtain ⟨i, hi, rfl⟩ := List.mem_map.mp hemail
  obtain ⟨hi, hknown⟩ := List.mem_filter.mp hi
  exact (known_iff_found hstored hi).mp hknown

/-- As many known inputs as e-mails that were found: no existing e-mail is in the batch twice. -/
theorem once_iff : ((batch.filter (Known l a)).map fun i => l.toLowerCase i.email).Nodup ↔
    (batch.filter (Known l a)).length = (foundEmails l a batch).length := by
  constructor
  · intro h
    have hle := (List.subperm_of_subset h (subset_foundEmails hstored)).length_le
    have hle' := (List.subperm_of_subset nodup_foundEmails (foundEmails_subset hstored)).length_le
    rw [List.length_map] at hle hle'
    exact le_antisymm hle hle'
  · intro h
    have hsubperm := List.subperm_of_subset (@nodup_foundEmails l a batch)
      (foundEmails_subset hstored)
    have hperm := hsubperm.perm_of_length_le (by rw [List.length_map, h])
    exact hperm.nodup_iff.mp nodup_foundEmails

theorem ready_of_handled (h : Handled l a batch) :
    Ready l (Known l a) (foundEmails l a batch) batch := by
  refine ⟨(once_iff hstored).mp h.once, h.once, fun i hi hknown hlower => ?_,
    fun i hi hemail => ?_, h.followed⟩
  · rw [← hlower]
    exact (known_iff_found hstored hi).mp hknown
  · have hlower := lower_foundEmails hemail
    refine ⟨(known_iff_found hstored hi).mpr ?_, hlower⟩
    rw [hlower]
    exact hemail

theorem handled_of_published
    (h : removeAll batch (foundEmails l a batch) = batch.filter fun i => !Known l a i) :
    Handled l a batch := by
  have hsplit : (batch.filter (Known l a)).length + (batch.filter fun i => !Known l a i).length =
      batch.length := by
    have hlength := List.length_eq_length_filter_add (l := batch) (Known l a)
    exact hlength.symm
  have hfewer := (List.subperm_of_subset (@nodup_foundEmails l a batch)
    (foundEmails_subset hstored)).length_le
  have hlength := length_removeAll batch (foundEmails l a batch)
  rw [h] at hlength
  rw [List.length_map] at hfewer
  refine ⟨hstored, (once_iff hstored).mpr (by omega), ?_⟩
  rw [List.pairwise_iff_forall_sublist]
  intro j k hpair hj hupper
  by_contra hunknown
  rw [Bool.not_eq_true] at hunknown
  have hkeep : ((removeAll batch (foundEmails l a batch)).filter fun i => !Known l a i).length =
      (batch.filter fun i => !Known l a i).length := by
    rw [h, List.filter_filter]
    simp only [Bool.and_self]
  have hstays := pair_removeAll (fun e he => lower_foundEmails he) hupper hunknown hpair hkeep
  rw [h] at hstays
  have hmem : j ∈ batch.filter fun i => !Known l a i := hstays.subset List.mem_cons_self
  rw [List.mem_filter, hj] at hmem
  exact absurd hmem.2 Bool.false_ne_true

end

theorem handled_of_imports (h : Imports l a batch) : Handled l a batch :=
  handled_of_published (tagged_iff.mp h.tagged) (published_eq.symm.trans h.published)

theorem imports_of_handled (h : Handled l a batch) : Imports l a batch := by
  refine ⟨tagged_iff.mpr h.stored, ?_⟩
  rw [published_eq]
  exact removeAll_eq (ready_of_handled h.stored h)

/-- No input is lost, and every contact tagged, iff the batch is one that is handled. -/
theorem imports_iff_handled (l : LowerCase) (a : Account) (batch : List ContactBatch) :
    Imports l a batch ↔ Handled l a batch :=
  ⟨handled_of_imports, imports_of_handled⟩

end

/-! ## A batch in which an input is lost -/

/-- Lower case, of ASCII. -/
def asciiLower : LowerCase where
  toLowerCase s := String.ofList (s.toList.map Char.toLower)
  idem s := by
    rw [String.toList_ofList, List.map_map]
    exact congrArg String.ofList (List.map_congr_left fun c _ => c.toLower_toLower_eq_toLower)

def bob : Account := ⟨[⟨1, "bob@x.com"⟩], by decide, by decide⟩

/-- `Bob@x.com` exists; the input after it, which does not, is taken out in its place. -/
theorem new_lost : ¬ Imports asciiLower bob [⟨"Bob@x.com", "Bob", ""⟩, ⟨"new@x.com", "New", ""⟩] := by
  intro h
  have hfollowed := (handled_of_imports h).followed
  rw [List.pairwise_cons] at hfollowed
  have hknown := hfollowed.1 ⟨"new@x.com", "New", ""⟩ (List.mem_singleton_self _) (by decide)
    (by decide)
  exact absurd hknown (by decide)

end OpenBms.TagProcess.Batch
