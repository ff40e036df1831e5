/-
# `OpenBms.SendEmail.Suppressed` — blocked addresses and the e-mails of an account

The API writes the key `${account}:blocked:${email}` after the commit of a block, and
the sender reads it before every e-mail of an automation and every batch.

**Proved here.**

    an e-mail whose contact has a category's key is not handed over (`not_handed_of_key`)
    from the key of a block on, whatever is requested but the
    account's own unblock, nothing is sent to the address (`blocked_unsent`)
-/
import OpenBms.Contacts.Suppressions
import OpenBms.SendEmail.Handling
import OpenBms.SendEmail.Batch

namespace OpenBms.SendEmail

open Contacts.Suppressions (State Request)

/-- Redis holds the keys of the blocks that are stored. -/
def Shows (redis : Redis) (s : State) : Prop :=
  ∀ (account : Nat) (email : String), s.blocked account email = true →
    redis (categoryKey account "blocked" email) = some "true"

/-- The request blocks the e-mail, and its key reaches Redis. -/
def Blocks (r : Request) (account : Nat) (email : String) : Prop :=
  r.Works ∧ r.action = .bulkUnsubscribe ∧ r.block = true ∧ r.accountId = account ∧
    email ∈ r.emails.take r.executed

section
variable {w : World} {m : SendEmailMessage} {b : Batch} {c : BatchContact} {redis : Redis}
  {account : Nat} {email : String}

theorem guards_of_handed (h : (handle w m).handed = true) : guards w m = .ok none := by
  unfold handle at h
  split at h
  · cases h
  · cases h
  · cases h
  · assumption

theorem not_handed_of_key {category : String}
    (hcategory : category ∈ ["disengaged", "unsubscribed", "blocked"])
    (hkey : (w.redis (numberText m.account ++ (":" ++ (category ++ (":" ++ m.email))))).isSome = true) :
    (handle w m).handed = false := by
  rw [Bool.eq_false_iff]
  intro hhanded
  have hguards := guards_of_handed hhanded
  have hany : (["disengaged", "unsubscribed", "blocked"].map fun category =>
      numberText m.account ++ (":" ++ (category ++ (":" ++ m.email)))).any
        (fun key => (w.redis key).isSome) = true :=
    List.any_eq_true.mpr ⟨_, List.mem_map.mpr ⟨category, hcategory, rfl⟩, hkey⟩
  unfold guards at hguards
  split at hguards
  · cases hguards
  · split at hguards
    · cases hguards
    · split at hguards
      · cases hguards
      · split at hguards
        · cases hguards
        · obtain ⟨-, hguards⟩ := run_bind_ok.mp hguards
          simp only [hany, if_true] at hguards
          cases hguards

/-- The key as the filters of a batch spell it. -/
theorem category_eq (category : String) :
    b.category category ++ (":" ++ email) = categoryKey b.accountId category email := by
  simp only [Batch.category, categoryKey, String.append_assoc]

theorem not_mem_campaignBatch {currentDate : String} {limit : Option Nat}
    (hkey : redis (categoryKey b.accountId "blocked" c.email) = some "true") :
    c ∉ campaignBatch redis currentDate limit b := by
  rw [mem_campaignBatch, mem_campaignContacts]
  rintro ⟨-, -, hkept⟩
  refine hkept (.inr (.inr (.inl ⟨"blocked", by decide, ?_⟩)))
  rw [category_eq, hkey]

theorem not_mem_automationContacts
    (hkey : redis (categoryKey b.accountId "blocked" c.email) = some "true") :
    c ∉ automationContacts redis b := by
  intro hmem
  simp only [automationContacts, mem_cleanup_category] at hmem
  exact hmem.2 (by rw [category_eq, hkey])

theorem blocked_of_blocks {s : State} {r : Request} (h : Blocks r account email) :
    (s.step r).blocked account email = true := by
  obtain ⟨hworks, haction, hblock, haccount, hemail⟩ := h
  rw [Contacts.Suppressions.step_bulkUnsubscribe hworks haction, State.bulkUnsubscribe,
    State.writeKeys, hblock, if_pos rfl]
  exact if_pos ⟨haccount.symm, hemail⟩

theorem blocked_run {s : State} {rs : List Request} (h : s.blocked account email = true)
    (hrs : ∀ r ∈ rs, ¬ r.Unblocks account email) :
    (rs.foldl State.step s).blocked account email = true := by
  induction rs generalizing s with
  | nil => exact h
  | cons r rs ih =>
      obtain ⟨hr, hrs⟩ := List.forall_mem_cons.mp hrs
      exact ih (Contacts.Suppressions.step_blockedKey h hr) hrs

end

/-- From the key of a block on, whatever requests follow but an unblock by the account,
no e-mail of an automation and no batch of the account goes to the address. -/
theorem blocked_unsent {stored : State} {before after : List Request} {r : Request}
    {account : Nat} {email : String} {redis : Redis} (hblocks : Blocks r account email)
    (hafter : ∀ r ∈ after, ¬ r.Unblocks account email)
    (hshows : Shows redis ((before ++ r :: after).foldl State.step stored)) :
    (∀ (w : World) (m : SendEmailMessage), w.redis = redis → m.accountId = account →
      m.contact.email = some email → (handle w m).handed = false) ∧
    ∀ (b : Batch) (c : BatchContact), b.accountId = account → c.email = email →
      (∀ currentDate limit, c ∉ campaignBatch redis currentDate limit b) ∧
        c ∉ automationContacts redis b := by
  have hkey : redis (categoryKey account "blocked" email) = some "true" := by
    refine hshows account email ?_
    rw [List.foldl_append, List.foldl_cons]
    exact blocked_run (blocked_of_blocks hblocks) hafter
  refine ⟨fun w m hredis haccount hemail => ?_, fun b c haccount hemail => ?_⟩
  · have hne : m.accountId ≠ 0 := by
      rw [haccount, ← hblocks.2.2.2.1]
      exact Int.natCast_ne_zero.mpr hblocks.1.2.1
    have hblocked : "blocked" ∈ ["disengaged", "unsubscribed", "blocked"] := by decide
    refine not_handed_of_key hblocked ?_
    have haccounts : m.account = some (account : Int) := by
      rw [SendEmailMessage.account, if_neg hne, haccount]
    have hemails : m.email = email := by rw [SendEmailMessage.email, hemail, Option.getD_some]
    have hspelled : numberText m.account ++ (":" ++ ("blocked" ++ (":" ++ m.email))) =
        categoryKey account "blocked" email := by
      rw [haccounts, hemails]
      rfl
    rw [hspelled, hredis, hkey]
    rfl
  · rw [← haccount, ← hemail] at hkey
    exact ⟨fun _ _ => not_mem_campaignBatch hkey, not_mem_automationContacts hkey⟩

/-- An account blocks an address and lifts a plain unsubscribe of it. -/
theorem blocked_unsent_sample :
    (handle { sampleWorld (fun _ => none) with
        redis := fun key => if key = "2:blocked:ana@example.com" then some "true" else none }
      sampleMessage).handed = false := by
  refine (@blocked_unsent State.empty []
    [⟨.bulkResubscribe, 2, ["ana@example.com"], false, 1, true, 1⟩]
    ⟨.bulkUnsubscribe, 2, ["ana@example.com"], true, 0, true, 1⟩ 2 "ana@example.com" _
    ⟨by decide, rfl, rfl, rfl, by decide⟩ (by decide) ?_).1 _ sampleMessage rfl rfl rfl
  intro account email hblocked
  have hkey : account = 2 ∧ email ∈ ["ana@example.com"] := of_decide_eq_true hblocked
  rw [hkey.1, List.mem_singleton.mp hkey.2]
  decide

end OpenBms.SendEmail
