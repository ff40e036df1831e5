/-
# `OpenBms.SendEmail.Batch` — the contacts of a campaign batch that are sent

`campaignBatch` takes contacts out of the batch one filter after the other, sends
the rest and writes a key for each contact sent; `automationBatch` does the same
for the batches of automations.

| filter | consults |
| :-- | :-- |
| `removeMicrosoft`, on account 1 | the address |
| `cleanupContacts(.., 'duplicated', name)` | `undefined:${email}:${slug}` |
| `cleanupContacts(.., category)` | `${account}:${category}:${email}` |
| `cleanupContactsQuantity` | `contact_send:${contact}:${date}` |

**Proved here.**

    the key a campaign consults is the key no send of an account writes (`sentKey_ne`)
    a recorded contact is left out of a second batch exactly when
    another filter takes it out (`campaign_dedup_iff`)
    the batches of automations consult the key they write (`automation_dedup`)
-/
import OpenBms.SendEmail.Types
import OpenBms.Lib.Text

namespace OpenBms.SendEmail

structure BatchContact where
  id : Int
  email : String
  deriving DecidableEq

/-- A batch of a campaign or an automation; `valid` says that the message has what
`validateCampaign` asks of it. -/
structure Batch where
  accountId : Int
  contacts : List BatchContact
  name : String
  ippool : String
  isWarmup : Bool
  isRateLimit : Bool
  sendLimitPerUser : Option String
  valid : Bool

abbrev Redis := String → Option String

namespace Batch

def emailName (b : Batch) : String := slugify b.name

/-- `sendLimitPerUser && batch.campaign.isRateLimit`, with `parseInt(sendLimitPerUser)`;
a text that is no number is never reached. -/
def limit (b : Batch) : Option Int :=
  match b.sendLimitPerUser with
  | some text => if text ≠ "" ∧ b.isRateLimit then (Js.Val.str text).parseInt else none
  | none => none

end Batch

/-- `cleanupContacts`, with the account id that only some callers pass. -/
def cleanupContacts (redis : Redis) (contacts : List BatchContact) (category : Option String)
    (emailTitle : String) (accountId : Option Int) : List BatchContact :=
  contacts.filter fun contact =>
    redis (match category with
      | none => sentKey accountId contact.email (slugify emailTitle)
      | some category => category ++ (":" ++ contact.email)) != some "true"

/-- `contactCount && parseInt(contactCount) >= sendLimitPerUser`. -/
def countReached (redis : Redis) (currentDate : String) (limit : Int) (contact : BatchContact) :
    Bool :=
  match redis (contactSendKey contact.id currentDate) with
  | some count =>
      match (Js.Val.str count).parseInt with
      | some n => count != "" && limit ≤ n
      | none => false
  | none => false

def cleanupContactsQuantity (redis : Redis) (contacts : List BatchContact) (limit : Int)
    (currentDate : String) : List BatchContact :=
  contacts.filter fun contact => !countReached redis currentDate limit contact

def removeMicrosoft (contacts : List BatchContact) : List BatchContact :=
  contacts.filter fun contact => isMicrosoft contact.email == false

/-- `batch.account.id === 1`, and the pool is not one of Microsoft's. -/
def Batch.stopMicrosoft (b : Batch) : Bool :=
  b.accountId == 1 && b.ippool != "m02_brmailsrv_com" && b.ippool != "microsoft_news_plusdin_com_br"

def Batch.category (b : Batch) (category : String) : String :=
  toString b.accountId ++ (":" ++ category)

/-- The contacts that `campaignBatch` keeps. -/
def campaignContacts (redis : Redis) (currentDate : String) (b : Batch) : List BatchContact :=
  let contacts := if b.stopMicrosoft then removeMicrosoft b.contacts else b.contacts
  let contacts := if b.isWarmup then contacts
    else cleanupContacts redis contacts none b.name none
  let contacts := cleanupContacts redis contacts (some (b.category "disengaged")) b.name none
  let contacts := cleanupContacts redis contacts (some (b.category "unsubscribed")) b.name none
  let contacts := cleanupContacts redis contacts (some (b.category "blocked")) b.name none
  match b.limit with
  | some limit => cleanupContactsQuantity redis contacts limit currentDate
  | none => contacts

/-- The contacts handed to the provider: none when `validateCampaign` throws. -/
def campaignBatch (redis : Redis) (currentDate : String) (limitContactBatch : Option Nat)
    (b : Batch) : List BatchContact :=
  let contacts := campaignContacts redis currentDate b
  let exceeded := match limitContactBatch with
    | some n => n < contacts.length
    | none => false
  if exceeded || !b.valid then [] else contacts

/-- The contacts that `automationBatch` keeps. -/
def automationContacts (redis : Redis) (b : Batch) : List BatchContact :=
  let contacts := if b.accountId = 1 ∧ b.ippool ≠ "m02_brmailsrv_com" then
    removeMicrosoft b.contacts else b.contacts
  let contacts := cleanupContacts redis contacts none b.name (some b.accountId)
  let contacts := cleanupContacts redis contacts (some (b.category "disengaged")) b.name none
  let contacts := cleanupContacts redis contacts (some (b.category "unsubscribed")) b.name none
  cleanupContacts redis contacts (some (b.category "blocked")) b.name none

/-- The key `saveBatchToRedis` sets for a contact. -/
def Batch.savedKey (b : Batch) (contact : BatchContact) : String :=
  sentKey (some b.accountId) contact.email b.emailName

/-- Redis after the keys of the contacts sent were set. -/
def saveBatchToRedis (redis : Redis) (b : Batch) (sent : List BatchContact) : Redis := fun key =>
  if key ∈ sent.map b.savedKey then some "true" else redis key

/-! ## The keys -/

theorem sentKey_ne (accountId : Int) (email email' emailName emailName' : String) :
    sentKey none email emailName ≠ sentKey (some accountId) email' emailName' := by
  intro heq
  have hlist := congrArg String.toList heq
  simp only [sentKey, numberText, String.toList_append, Text.colon_toList,
    List.singleton_append] at hlist
  have hu : ':' ∉ "undefined".toList := by decide
  have htext := (Text.separator_inj hu (Text.colon_not_mem_toString accountId) hlist).1
  have hfirst : ∀ n : Nat, ("undefined".toList) ≠ (toString n).toList := by
    intro n hn
    have hmem : 'u' ∈ (toString n).toList := hn ▸ by decide
    have hdigit : ('u' : Char).isDigit = true :=
      Nat.isDigit_of_mem_toDigits (by decide) (by decide) (Nat.toList_repr ▸ hmem)
    cases hdigit
  cases accountId with
  | ofNat n => exact hfirst n htext
  | negSucc n =>
      have hminus : (toString (Int.negSucc n)).toList = '-' :: (toString (n + 1)).toList := by
        have hm : "-".toList = ['-'] := by decide
        have h : toString (Int.negSucc n) = "-" ++ toString (n + 1) := rfl
        rw [h, String.toList_append, hm, List.singleton_append]
      rw [hminus] at htext
      exact absurd (List.cons.inj htext).1 (by decide)

/-! ## Which contacts are sent -/

/-- A filter of `campaignBatch` takes the contact out; `duplicated` is where the first
of them looks. -/
def TakenOut (duplicated redis : Redis) (currentDate : String) (b : Batch) (c : BatchContact) :
    Prop :=
  (b.stopMicrosoft = true ∧ isMicrosoft c.email = true) ∨
    (b.isWarmup = false ∧ duplicated (sentKey none c.email b.emailName) = some "true") ∨
    (∃ category ∈ ["disengaged", "unsubscribed", "blocked"],
      redis (b.category category ++ (":" ++ c.email)) = some "true") ∨
    ∃ limit, b.limit = some limit ∧ countReached redis currentDate limit c = true

/-- `validateCampaign` throws on what is left of the batch. -/
def refused (redis : Redis) (currentDate : String) (limitContactBatch : Option Nat) (b : Batch) :
    Prop :=
  b.valid = false ∨ ∃ n, limitContactBatch = some n ∧ n < (campaignContacts redis currentDate b).length

section
variable {redis : Redis} {currentDate : String} {b : Batch} {c : BatchContact}
  {contacts sent : List BatchContact}

theorem mem_cleanup_duplicated {accountId : Option Int} :
    c ∈ cleanupContacts redis contacts none b.name accountId ↔
      c ∈ contacts ∧ ¬ redis (sentKey accountId c.email b.emailName) = some "true" := by
  simp only [cleanupContacts, List.mem_filter, bne_iff_ne, ne_eq, Batch.emailName]

theorem mem_cleanup_category {category : String} {accountId : Option Int} :
    c ∈ cleanupContacts redis contacts (some category) b.name accountId ↔
      c ∈ contacts ∧ ¬ redis (category ++ (":" ++ c.email)) = some "true" := by
  simp only [cleanupContacts, List.mem_filter, bne_iff_ne, ne_eq]

theorem mem_removeMicrosoft : c ∈ removeMicrosoft contacts ↔
    c ∈ contacts ∧ ¬ isMicrosoft c.email = true := by
  simp only [removeMicrosoft, List.mem_filter, beq_iff_eq, Bool.not_eq_true]

/-- The three filters of one category each. -/
theorem not_category {p : String → Prop} :
    (¬ ∃ category ∈ ["disengaged", "unsubscribed", "blocked"], p category) ↔
      ¬ p "disengaged" ∧ ¬ p "unsubscribed" ∧ ¬ p "blocked" := by
  simp only [List.mem_cons, List.not_mem_nil, or_false, exists_eq_or_imp, exists_eq_left, not_or]

/-- A contact is kept unless one of the filters takes it out. -/
theorem mem_campaignContacts : c ∈ campaignContacts redis currentDate b ↔
    c ∈ b.contacts ∧ ¬ TakenOut redis redis currentDate b c := by
  have hlimit : ∀ {contacts : List BatchContact},
      (c ∈ (match b.limit with
        | some limit => cleanupContactsQuantity redis contacts limit currentDate
        | none => contacts)) ↔
      c ∈ contacts ∧ ¬ ∃ limit, b.limit = some limit ∧
        countReached redis currentDate limit c = true := by
    intro contacts
    cases b.limit with
    | none => simp only [reduceCtorEq, false_and, exists_false, not_false_eq_true, and_true]
    | some limit =>
        simp only [cleanupContactsQuantity, List.mem_filter, Bool.not_eq_true',
          Option.some.injEq, exists_eq_left', Bool.not_eq_true]
  have hdup : ∀ {contacts : List BatchContact},
      (c ∈ if b.isWarmup = true then contacts
        else cleanupContacts redis contacts none b.name none) ↔
      c ∈ contacts ∧ ¬ (b.isWarmup = false ∧
        redis (sentKey none c.email b.emailName) = some "true") := by
    intro contacts
    cases hwarm : b.isWarmup with
    | true => simp only [if_true, Bool.true_eq_false, false_and, not_false_eq_true, and_true]
    | false => simp only [Bool.false_eq_true, if_false, mem_cleanup_duplicated, true_and]
  have hmicrosoft : (c ∈ if b.stopMicrosoft = true then removeMicrosoft b.contacts
        else b.contacts) ↔
      c ∈ b.contacts ∧ ¬ (b.stopMicrosoft = true ∧ isMicrosoft c.email = true) := by
    cases hstop : b.stopMicrosoft with
    | true => simp only [if_true, mem_removeMicrosoft, true_and]
    | false => simp only [Bool.false_eq_true, if_false, false_and, not_false_eq_true, and_true]
  simp only [campaignContacts, hlimit, mem_cleanup_category, hdup, hmicrosoft, TakenOut, not_or,
    not_category, and_assoc]

/-- Saving a batch leaves the keys a campaign consults as they are. -/
theorem save_sentKey (email : String) :
    saveBatchToRedis redis b sent (sentKey none email b.emailName) =
      redis (sentKey none email b.emailName) := by
  refine if_neg fun hmem => ?_
  obtain ⟨contact, _, heq⟩ := List.mem_map.mp hmem
  exact sentKey_ne b.accountId email contact.email b.emailName b.emailName heq.symm

theorem mem_campaignBatch {limitContactBatch : Option Nat} :
    c ∈ campaignBatch redis currentDate limitContactBatch b ↔
      ¬ refused redis currentDate limitContactBatch b ∧ c ∈ campaignContacts redis currentDate b := by
  have hexceeded : ((match limitContactBatch with
      | some n => decide (n < (campaignContacts redis currentDate b).length)
      | none => false) || !b.valid) = true ↔ refused redis currentDate limitContactBatch b := by
    unfold refused
    cases limitContactBatch with
    | none =>
        simp only [Bool.false_or, Bool.not_eq_true', reduceCtorEq, false_and, exists_false, or_false]
    | some n =>
        simp only [Bool.or_eq_true, decide_eq_true_eq, Bool.not_eq_true', Option.some.injEq,
          exists_eq_left', or_comm]
  unfold campaignBatch
  by_cases hrefused : refused redis currentDate limitContactBatch b
  · simp only [hexceeded.mpr hrefused, if_true, List.not_mem_nil, hrefused, not_true_eq_false,
      false_and]
  · have hno := Bool.eq_false_iff.mpr (mt hexceeded.mp hrefused)
    simp only [hno, Bool.false_eq_true, if_false, hrefused, not_false_eq_true, true_and]

end

/-- A campaign consults a key that its own saves never write; so the contacts recorded
as sent are left out of the batch, when it is processed again, exactly when the batch
is refused or each of them is taken out for another reason. -/
theorem campaign_dedup_iff (redis : Redis) (currentDate : String) (limitContactBatch : Option Nat)
    (b : Batch) (sent : List BatchContact) (hsent : sent ⊆ b.contacts) :
    (∀ c, b.savedKey c ≠ sentKey none c.email b.emailName) ∧
      ((∀ c ∈ sent,
          c ∉ campaignBatch (saveBatchToRedis redis b sent) currentDate limitContactBatch b) ↔
        refused (saveBatchToRedis redis b sent) currentDate limitContactBatch b ∨
          ∀ c ∈ sent, TakenOut redis (saveBatchToRedis redis b sent) currentDate b c) := by
  refine ⟨fun c heq => sentKey_ne _ _ _ _ _ heq.symm, ?_⟩
  have htaken : ∀ c, TakenOut (saveBatchToRedis redis b sent) (saveBatchToRedis redis b sent)
      currentDate b c ↔ TakenOut redis (saveBatchToRedis redis b sent) currentDate b c := by
    intro c
    unfold TakenOut
    rw [save_sentKey]
  simp only [mem_campaignBatch, mem_campaignContacts, htaken]
  constructor
  · intro h
    by_cases hrefused : refused (saveBatchToRedis redis b sent) currentDate limitContactBatch b
    · exact .inl hrefused
    · refine .inr fun c hc => ?_
      by_contra htake
      exact h c hc ⟨hrefused, hsent hc, htake⟩
  · rintro (hrefused | htake) c hc ⟨hno, _, hkeep⟩
    · exact hno hrefused
    · exact hkeep (htake c hc)

/-- The batches of automations leave out every contact recorded. -/
theorem automation_dedup (redis : Redis) (b : Batch) (sent : List BatchContact) :
    ∀ c ∈ sent, c ∉ automationContacts (saveBatchToRedis redis b sent) b := by
  intro c hc hmem
  simp only [automationContacts, mem_cleanup_category, mem_cleanup_duplicated] at hmem
  exact hmem.1.1.1.2 (if_pos (List.mem_map.mpr ⟨c, hc, rfl⟩))

/-- One contact, sent and recorded. -/
def sampleBatch : Batch :=
  ⟨2, [⟨7, "ana@example.com"⟩], "news", "pool", false, false, none, true⟩

theorem campaign_dedup_sample :
    sampleBatch.savedKey ⟨7, "ana@example.com"⟩ ≠
      sentKey none "ana@example.com" sampleBatch.emailName :=
  (campaign_dedup_iff (fun _ => none) "2026-01-01" (some 100) sampleBatch sampleBatch.contacts
    (List.Subset.refl _)).1 ⟨7, "ana@example.com"⟩

/-- The batch is processed again, and its contact is sent again. -/
theorem campaign_sent_again :
    campaignBatch (saveBatchToRedis (fun _ => none) sampleBatch sampleBatch.contacts) "2026-01-01"
      (some 100) sampleBatch = sampleBatch.contacts := by decide +kernel

end OpenBms.SendEmail
