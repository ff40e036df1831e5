/-
# `OpenBms.Events.Association` — whose message an event belongs to

An event names its message and the campaign or automation by a `utm_campaign`.
`findMessageAssociation` looks among the campaigns of that name for one that has the message, and
then among the automations of that name for one whose steps, as a text, are like

    %"id": 5%

| the steps have | the text is like it |
| :-- | :-- |
| a message 5 | yes |
| a message 57, a tag 5, a key that ends in `"id` | yes |
| no such key | no |

**Proved here**, for every document.

    the text is like it iff some key `id`, or one that ends
    so, has a number that begins with the digits (`like_iff`)
    a step that refers to the message has such a key (`Doc.hasId_of_refers`)
    the lookup is right, whichever rows it gets, iff
    what is cached is, or the automations of the name
    with such a key refer to the message (`attributes_iff`)
-/
import OpenBms.Automation.References

namespace OpenBms.Events.Attribution

open Jsonb References

/-! ## Keys -/

/-- A number that begins with these digits. -/
def startsNumber (digits : List Char) : Doc → Bool
  | .num n => digits.isPrefixOf n.val
  | _ => false

section
variable (digits : List Char)

mutual

/-- A key `id`, or one that ends like it, has a number that begins with the digits. -/
def Doc.hasId : Doc → Bool
  | .arr items => Items.hasId items
  | .obj members => Members.hasId members
  | .null | .bool _ | .num _ | .str _ => false

def Items.hasId : Items → Bool
  | .nil => false
  | .cons item rest => Doc.hasId item || Items.hasId rest

def Members.hasId : Members → Bool
  | .nil => false
  | .cons key value rest =>
      idKey key && startsNumber digits value || Doc.hasId value || Members.hasId rest

end

end

/-- `"id": 5`, up to the last digit. -/
def pattern (digits : List Char) : List Char := fragment digits []

/-! ## Occurrences -/

section
variable {digits : List Char}

theorem pattern_eq (digits : List Char) :
    pattern digits = '"' :: 'i' :: 'd' :: '"' :: ':' :: ' ' :: digits := by
  simp [pattern, fragment, tail]

theorem infix_cons {a : Char} (ha : a ≠ '"') (r : List Char) :
    pattern digits <:+: a :: r ↔ pattern digits <:+: r := by
  rw [List.infix_cons_iff]
  refine or_iff_right fun hfront => ?_
  rw [pattern_eq] at hfront
  exact ha (List.cons_prefix_cons.mp hfront).1.symm

/-- A part without a quote. -/
theorem infix_block {block : List Char} (h : '"' ∉ block) (r : List Char) :
    pattern digits <:+: block ++ r ↔ pattern digits <:+: r := by
  induction block with
  | nil => exact Iff.rfl
  | cons a block ih =>
      have ha : a ≠ '"' := fun heq => h (heq ▸ List.mem_cons_self)
      rw [List.cons_append, infix_cons ha]
      exact ih fun hmem => h (List.mem_cons_of_mem a hmem)

/-- The rest of a string, up to its end. -/
theorem infix_escaped {v r : List Char} (hr : ∀ s, r ≠ 'i' :: s) :
    pattern digits <:+: escape v ++ '"' :: r ↔
      ['"', 'i', 'd'] <:+ v ∧ tail digits [] <+: r ∨ pattern digits <:+: r := by
  induction v with
  | nil =>
      show pattern digits <:+: '"' :: r ↔ _
      rw [List.infix_cons_iff]
      constructor
      · rintro (hfront | hinfix)
        · rw [pattern_eq] at hfront
          obtain ⟨t, ht⟩ := (List.cons_prefix_cons.mp hfront).2
          exact absurd ht.symm (hr _)
        · exact .inr hinfix
      · rintro (⟨hsuffix, -⟩ | hinfix)
        · exact absurd (List.suffix_nil.mp hsuffix) (by decide)
        · exact .inr hinfix
  | cons a v ih =>
      show pattern digits <:+: escapeChar a ++ escape v ++ '"' :: r ↔ _
      rw [List.append_assoc]
      rcases eq_or_ne a '"' with rfl | ha
      · show pattern digits <:+: '\\' :: '"' :: (escape v ++ '"' :: r) ↔ _
        have hfront : pattern digits <+: '"' :: (escape v ++ '"' :: r) ↔
            v = ['i', 'd'] ∧ tail digits [] <+: r := fragment_eq v r
        have hsuffix : ['"', 'i', 'd'] <:+ '"' :: v ↔ v = ['i', 'd'] ∨ ['"', 'i', 'd'] <:+ v := by
          rw [List.suffix_cons_iff, List.cons_eq_cons, eq_comm (a := ['i', 'd'])]
          simp
        rw [infix_cons (by decide), List.infix_cons_iff, hfront, ih, hsuffix]
        rw [or_and_right, or_assoc]
      · have hsuffix : ['"', 'i', 'd'] <:+ a :: v ↔ ['"', 'i', 'd'] <:+ v := by
          rw [List.suffix_cons_iff]
          refine or_iff_right fun heq => ?_
          exact ha (List.cons.inj heq).1.symm
        rw [infix_block (quote_not_mem_escapeChar ha), ih, hsuffix]

/-- A string and what follows it. -/
theorem infix_quoted {v r : List Char} (hr : ∀ s, r ≠ 'i' :: s) :
    pattern digits <:+: quoted v ++ r ↔
      idKey v = true ∧ tail digits [] <+: r ∨ pattern digits <:+: r := by
  have hfront : pattern digits <+: '"' :: (escape v ++ '"' :: r) ↔
      v = ['i', 'd'] ∧ tail digits [] <+: r := fragment_eq v r
  rw [quoted_append, List.infix_cons_iff, hfront, infix_escaped hr, idKey_iff]
  rw [or_and_right, or_assoc]

theorem infix_separator (first : Bool) (r : List Char) :
    pattern digits <:+: (if first then [] else [',', ' ']) ++ r ↔ pattern digits <:+: r := by
  cases first with
  | true => exact Iff.rfl
  | false => exact infix_block (by decide) r

theorem digits_prefix (hne : digits ≠ []) (hdigits : ∀ d ∈ digits, d.isDigit = true) (value : Doc)
    {r : List Char} (hr : After r) :
    digits <+: value.text ++ r ↔ startsNumber digits value = true := by
  obtain ⟨d, rest, rfl⟩ := List.exists_cons_of_ne_nil hne
  have hd := hdigits d List.mem_cons_self
  have hother {e : Char} {t : List Char} (htext : value.text = e :: t) (he : e.isDigit = false)
      (hkind : startsNumber (d :: rest) value = false) :
      d :: rest <+: value.text ++ r ↔ startsNumber (d :: rest) value = true := by
    rw [htext, hkind]
    refine ⟨fun h => ?_, fun h => (by cases h)⟩
    rw [(List.cons_prefix_cons.mp h).1, he] at hd
    cases hd
  cases value with
  | null => exact hother rfl (by decide) rfl
  | bool b =>
      cases b with
      | true => exact hother rfl (by decide) rfl
      | false => exact hother rfl (by decide) rfl
  | str s => exact hother rfl (by decide) rfl
  | arr items => exact hother rfl (by decide) rfl
  | obj members => exact hother rfl (by decide) rfl
  | num n =>
      show d :: rest <+: n.val ++ r ↔ (d :: rest).isPrefixOf n.val = true
      rw [List.isPrefixOf_iff_prefix]
      constructor
      · intro h
        refine List.prefix_of_prefix_length_le h (List.prefix_append _ _) ?_
        by_contra hlong
        -- a digit would stand after the number
        rw [not_le] at hlong
        obtain ⟨t, ht⟩ := List.prefix_of_prefix_length_le (List.prefix_append n.val r) h hlong.le
        rw [← ht] at h hlong
        have hrest := (List.prefix_append_right_inj n.val).mp h
        cases t with
        | nil =>
            rw [List.append_nil] at hlong
            exact absurd hlong (Nat.lt_irrefl _)
        | cons e t =>
            obtain ⟨u, hu⟩ := hrest
            have he : e.isDigit = true :=
              hdigits e (ht ▸ List.mem_append_right _ List.mem_cons_self)
            rcases hr e _ hu.symm with rfl | rfl | rfl <;> cases he
      · exact fun h => h.trans (List.prefix_append _ _)

end

/-! ## Documents -/

section
variable {digits : List Char} (hne : digits ≠ []) (hdigits : ∀ d ∈ digits, d.isDigit = true)
include hne hdigits

mutual

theorem Doc.infix_text (d : Doc) (r : List Char) (hr : After r) :
    pattern digits <:+: d.text ++ r ↔ Doc.hasId digits d = true ∨ pattern digits <:+: r := by
  have hplain {block : List Char} (h : '"' ∉ block) :
      pattern digits <:+: block ++ r ↔ false = true ∨ pattern digits <:+: r := by
    rw [infix_block h]
    simp
  cases d with
  | null => exact hplain (by decide)
  | bool b =>
      cases b with
      | true => exact hplain (by decide)
      | false => exact hplain (by decide)
  | num n =>
      refine hplain fun hmem => ?_
      cases n.2.2 _ hmem
  | str s =>
      have hnot : ∀ t, r ≠ 'i' :: t := hr.not_i
      have hother : ¬ tail digits [] <+: r := by
        intro hfront
        obtain ⟨t, ht⟩ := hfront
        rcases hr _ _ ht.symm with h | h | h <;> cases h
      show pattern digits <:+: quoted s ++ r ↔ _
      rw [infix_quoted hnot]
      simp [hother, Doc.hasId]
  | arr items =>
      have hitems := Items.infix_text items true r
      show pattern digits <:+: '[' :: (items.text true ++ [']'] ++ r) ↔ _
      rw [infix_cons (by decide), List.append_assoc]
      exact hitems
  | obj members =>
      have hmembers := Members.infix_text members true r
      show pattern digits <:+: '{' :: (members.text true ++ ['}'] ++ r) ↔ _
      rw [infix_cons (by decide), List.append_assoc]
      exact hmembers

theorem Items.infix_text (items : Items) (first : Bool) (r : List Char) :
    pattern digits <:+: items.text first ++ ']' :: r ↔
      Items.hasId digits items = true ∨ pattern digits <:+: r := by
  cases items with
  | nil =>
      show pattern digits <:+: ']' :: r ↔ false = true ∨ _
      rw [infix_cons (by decide)]
      simp
  | cons item rest =>
      have hitem := Doc.infix_text item (rest.text false ++ ']' :: r) .items
      have hrest := Items.infix_text rest false r
      show pattern digits <:+: (if first then [] else [',', ' ']) ++
        (item.text ++ rest.text false) ++ ']' :: r ↔ _
      rw [List.append_assoc, List.append_assoc, infix_separator, hitem, hrest, Items.hasId,
        Bool.or_eq_true, or_assoc]

theorem Members.infix_text (members : Members) (first : Bool) (r : List Char) :
    pattern digits <:+: members.text first ++ '}' :: r ↔
      Members.hasId digits members = true ∨ pattern digits <:+: r := by
  cases members with
  | nil =>
      show pattern digits <:+: '}' :: r ↔ false = true ∨ _
      rw [infix_cons (by decide)]
      simp
  | cons key value rest =>
      have hvalue := Doc.infix_text value (rest.text false ++ '}' :: r) .members
      have hrest := Members.infix_text rest false r
      have hnumber := digits_prefix hne hdigits value (r := rest.text false ++ '}' :: r) .members
      have hkey : tail digits [] <+: ':' :: ' ' :: (value.text ++ (rest.text false ++ '}' :: r)) ↔
          startsNumber digits value = true := by
        rw [← hnumber]
        show ':' :: ' ' :: (digits ++ []) <+: _ ↔ _
        rw [List.append_nil, List.cons_prefix_cons, List.cons_prefix_cons]
        simp
      show pattern digits <:+: (if first then [] else [',', ' ']) ++
        (quoted key ++ (':' :: ' ' :: (value.text ++ rest.text false))) ++ '}' :: r ↔ _
      rw [List.append_assoc, List.append_assoc, infix_separator]
      show pattern digits <:+:
        quoted key ++ (':' :: ' ' :: (value.text ++ rest.text false ++ '}' :: r)) ↔ _
      rw [List.append_assoc, infix_quoted not_i_colon, hkey, infix_cons (by decide),
        infix_cons (by decide), hvalue, hrest, Members.hasId, Bool.or_eq_true, Bool.or_eq_true,
        Bool.and_eq_true]
      rw [or_assoc, or_assoc]

end

end

/-! ## LIKE -/

/-- The digits of a message id. -/
def digitsOf (messageId : Nat) : List Char := (toString messageId).toList

theorem digitsOf_digit (messageId : Nat) : ∀ d ∈ digitsOf messageId, d.isDigit = true := by
  intro d hd
  have hmem : d ∈ (toString messageId).toList := hd
  exact Nat.isDigit_of_mem_toDigits (by decide) (by decide) (Nat.toList_repr ▸ hmem)

theorem digitsOf_ne (messageId : Nat) : digitsOf messageId ≠ [] := by
  rw [digitsOf, Nat.toString_eq_repr, Nat.toList_repr]
  exact Nat.toDigits_ne_nil

/-- `steps::text LIKE '%"id": ..%'`. -/
def stepsLike (messageId : Nat) (steps : Doc) : Bool :=
  Replace.like ('%' :: (pattern (digitsOf messageId) ++ ['%'])) steps.text

theorem like_iff (messageId : Nat) (steps : Doc) :
    stepsLike messageId steps = true ↔ Doc.hasId (digitsOf messageId) steps = true := by
  have hdigits := digitsOf_digit messageId
  have hmarks : ∀ c ∈ pattern (digitsOf messageId), c ≠ '%' ∧ c ≠ '_' ∧ c ≠ '\\' := by
    intro c hc
    have hletters : ∀ c ∈ ['"', 'i', 'd', '"', ':', ' '], c ≠ '%' ∧ c ≠ '_' ∧ c ≠ '\\' := by
      simp
    rw [pattern_eq] at hc
    have hfront : c ∈ ['"', 'i', 'd', '"', ':', ' '] ++ digitsOf messageId := hc
    rcases List.mem_append.mp hfront with hmem | hmem
    · exact hletters c hmem
    · have hdigit := hdigits c hmem
      refine ⟨?_, ?_, ?_⟩ <;>
      · rintro rfl
        cases hdigit
  have htext := Doc.infix_text (digitsOf_ne messageId) hdigits steps [] fun _ _ heq => by cases heq
  rw [List.append_nil] at htext
  have hnil : ¬ pattern (digitsOf messageId) <:+: [] := by
    rw [List.infix_nil, pattern_eq]
    exact List.cons_ne_nil _ _
  constructor
  · intro h
    exact (htext.mp (Replace.infix_of_like hmarks h)).resolve_right hnil
  · intro h
    exact Replace.like_of_infix (fun hmem => (hmarks _ hmem).2.2 rfl) (htext.mpr (.inl h))

/-! ## Steps -/

/-- The member of a key. -/
def get (key : List Char) : Members → Option Doc
  | .nil => none
  | .cons k value rest => if k = key then some value else get key rest

def idLetters : List Char := ['i', 'd']

/-- The `id` of an object is this number. -/
def hasMessageId (messageId : Nat) : Doc → Bool
  | .obj members =>
      match get idLetters members with
      | some (.num n) => n.val == digitsOf messageId
      | _ => false
  | _ => false

def anyMessage (messageId : Nat) : Items → Bool
  | .nil => false
  | .cons item rest => hasMessageId messageId item || anyMessage messageId rest

/-- The steps that send the message of their settings. -/
def MESSAGE_TYPES : List (List Char) :=
  ["email".toList, "webPush".toList, "mobilePush".toList, "sms".toList, "whatsapp".toList]

/-- The steps that send one of the messages of their settings. -/
def MESSAGES_TYPES : List (List Char) :=
  ["randomMessage".toList, "randomWebPush".toList, "randomMobilePush".toList, "testAB".toList]

/-- The step with these members refers to the message. -/
def stepRefers (messageId : Nat) (step : Members) : Bool :=
  match get "type".toList step, get "settings".toList step with
  | some (.str type), some settings =>
      if MESSAGE_TYPES.contains type then hasMessageId messageId settings
      else if MESSAGES_TYPES.contains type then
        match settings with
        | .obj members =>
            match get "messages".toList members with
            | some (.arr items) => anyMessage messageId items
            | _ => false
        | _ => false
      else false
  | _, _ => false

section
variable (messageId : Nat)

mutual

/-- A step of the tree, or of the list of trees, refers to the message. -/
def Doc.refers : Doc → Bool
  | .obj step => stepRefers messageId step || Members.refers step
  | .arr items => Items.refers items
  | .null | .bool _ | .num _ | .str _ => false

def Items.refers : Items → Bool
  | .nil => false
  | .cons item rest => Doc.refers item || Items.refers rest

/-- The steps below. -/
def Members.refers : Members → Bool
  | .nil => false
  | .cons key value rest => key == "child".toList && Doc.refers value || Members.refers rest

end

end

section
variable {messageId : Nat} {digits : List Char}

theorem hasId_of_get {key : List Char} {members : Members} {value : Doc}
    (h : get key members = some value) (hvalue : Doc.hasId digits value = true) :
    Members.hasId digits members = true := by
  induction members using Members.induction with
  | nil => cases h
  | cons k v rest ih =>
      rw [get] at h
      rw [Members.hasId, Bool.or_eq_true, Bool.or_eq_true]
      split at h
      · cases h
        exact .inl (.inr hvalue)
      · exact .inr (ih h)

theorem hasId_of_id {members : Members} {n : Number} (h : get idLetters members = some (.num n))
    (hdigits : n.val = digits) : Members.hasId digits members = true := by
  induction members using Members.induction with
  | nil => cases h
  | cons k v rest ih =>
      rw [get] at h
      rw [Members.hasId, Bool.or_eq_true, Bool.or_eq_true, Bool.and_eq_true]
      split at h
      · next hkey =>
        cases h
        refine .inl (.inl ⟨idKey_iff.mpr (.inl hkey), ?_⟩)
        rw [startsNumber, hdigits, List.isPrefixOf_iff_prefix]
      · exact .inr (ih h)

theorem hasId_of_hasMessageId {settings : Doc} (h : hasMessageId messageId settings = true) :
    Doc.hasId (digitsOf messageId) settings = true := by
  cases settings with
  | obj members =>
      rw [hasMessageId] at h
      split at h
      · next n hget =>
        exact hasId_of_id hget (beq_iff_eq.mp h)
      · cases h
  | null => cases h
  | bool b => cases h
  | num n => cases h
  | str s => cases h
  | arr items => cases h

theorem hasId_of_anyMessage : ∀ {items : Items}, anyMessage messageId items = true →
    Items.hasId (digitsOf messageId) items = true
  | .nil, h => by cases h
  | .cons item rest, h => by
      rw [anyMessage, Bool.or_eq_true] at h
      rw [Items.hasId, Bool.or_eq_true]
      exact h.imp hasId_of_hasMessageId hasId_of_anyMessage

theorem hasId_of_stepRefers {step : Members} (h : stepRefers messageId step = true) :
    Members.hasId (digitsOf messageId) step = true := by
  rw [stepRefers] at h
  split at h
  · next settings hsettings =>
    split at h
    · exact hasId_of_get hsettings (hasId_of_hasMessageId h)
    · split at h
      · split at h
        · split at h
          · next hmessages => exact hasId_of_get hsettings (hasId_of_get hmessages (hasId_of_anyMessage h))
          · cases h
        · cases h
      · cases h
  · cases h

mutual

theorem Doc.hasId_of_refers (d : Doc) (h : Doc.refers messageId d = true) :
    Doc.hasId (digitsOf messageId) d = true := by
  cases d with
  | null => cases h
  | bool b => cases h
  | num n => cases h
  | str s => cases h
  | arr items => exact Items.hasId_of_refers items h
  | obj step =>
      rw [Doc.refers, Bool.or_eq_true] at h
      rcases h with hstep | hbelow
      · exact hasId_of_stepRefers hstep
      · exact Members.hasId_of_refers step hbelow

theorem Items.hasId_of_refers (items : Items) (h : Items.refers messageId items = true) :
    Items.hasId (digitsOf messageId) items = true := by
  cases items with
  | nil => cases h
  | cons item rest =>
      rw [Items.refers, Bool.or_eq_true] at h
      rw [Items.hasId, Bool.or_eq_true]
      exact h.imp (Doc.hasId_of_refers item) (Items.hasId_of_refers rest)

theorem Members.hasId_of_refers (members : Members) (h : Members.refers messageId members = true) :
    Members.hasId (digitsOf messageId) members = true := by
  cases members with
  | nil => cases h
  | cons key value rest =>
      rw [Members.refers, Bool.or_eq_true, Bool.and_eq_true] at h
      rw [Members.hasId, Bool.or_eq_true, Bool.or_eq_true]
      rcases h with ⟨-, hvalue⟩ | hrest
      · exact .inl (.inr (Doc.hasId_of_refers value hvalue))
      · exact .inr (Members.hasId_of_refers rest hrest)

end

end

/-! ## The lookup -/

structure Campaign where
  id : Nat
  accountId : Nat
  name : String
  deleted : Bool

structure CampaignMessage where
  campaignId : Nat
  messageId : Nat

structure Automation where
  id : Nat
  accountId : Nat
  name : Option String
  deleted : Bool
  steps : Option Doc

/-- The rows, in the order a query meets them. -/
structure Rows where
  campaigns : List Campaign
  campaignsMessages : List CampaignMessage
  automations : List Automation
  /-- The primary keys. -/
  campaignIds : (campaigns.map (·.id)).Nodup
  automationIds : (automations.map (·.id)).Nodup

/-- The same rows in another order. -/
structure Rows.Same (db db' : Rows) : Prop where
  campaigns : db'.campaigns.Perm db.campaigns
  campaignsMessages : db'.campaignsMessages.Perm db.campaignsMessages
  automations : db'.automations.Perm db.automations

/-- `{ campaignId?, automationId? }`. -/
structure Association where
  campaignId : Option Nat := none
  automationId : Option Nat := none
  deriving DecidableEq

structure Caches where
  memory : String → Option Association
  redis : String → Option Association

section
variable (db : Rows) (accountId messageId : Nat) (name : String)

/-- The campaign has the message. -/
def Campaign.hasMessage (c : Campaign) : Bool :=
  db.campaignsMessages.any fun cm => cm.campaignId == c.id && cm.messageId == messageId

/-- The rows of `campaignQuery`. -/
def campaignQuery : List Campaign :=
  db.campaigns.filter fun c =>
    c.accountId == accountId && c.name == name && c.hasMessage db messageId && !c.deleted

/-- The condition of `automationQuery`; no text is like the pattern where there are no steps. -/
def Automation.selected (a : Automation) : Bool :=
  a.accountId == accountId && a.name == some name && !a.deleted && a.steps.any (stepsLike messageId)

def automationQuery : List Automation :=
  db.automations.filter (Automation.selected accountId messageId name)

/-- The two queries, each `LIMIT 1`. -/
def queries : Association :=
  match (campaignQuery db accountId messageId name).head? with
  | some campaign => { campaignId := some campaign.id }
  | none => { automationId := (automationQuery db accountId messageId name).head?.map (·.id) }

def cacheKey : String := toString accountId ++ ":" ++ toString messageId ++ ":" ++ name

/-- What a lookup finds cached. -/
def cached (caches : Caches) : Option Association :=
  (caches.memory (cacheKey accountId messageId name)).or
    (caches.redis ("message_association:" ++ cacheKey accountId messageId name))

/-- The association, and the caches afterwards. -/
def findMessageAssociation (caches : Caches) : Association × Caches :=
  let key := cacheKey accountId messageId name
  let redisKey := "message_association:" ++ key
  match caches.memory key with
  | some association => (association, caches)
  | none =>
      match caches.redis redisKey with
      | some parsed =>
          (parsed, { caches with memory := Function.update caches.memory key (some parsed) })
      | none =>
          let result := queries db accountId messageId name
          (result, ⟨Function.update caches.memory key (some result),
            Function.update caches.redis redisKey (some result)⟩)

/-- The automation's steps refer to the message. -/
def Automation.refers (a : Automation) : Bool := a.steps.any (Doc.refers messageId)

/-- What an association has to be: a campaign or an automation that refers to the message, and there
is one where any of the account does. -/
structure Attributes (a : Association) : Prop where
  campaign : ∀ id, a.campaignId = some id →
    ∃ c ∈ db.campaigns, c.id = id ∧ c.accountId = accountId ∧ c.hasMessage db messageId = true
  automation : ∀ id, a.automationId = some id →
    ∃ x ∈ db.automations, x.id = id ∧ x.accountId = accountId ∧ x.refers messageId = true
  found : ((∃ c ∈ db.campaigns, c.accountId = accountId ∧ c.deleted = false ∧
        c.hasMessage db messageId = true) ∨
      ∃ x ∈ db.automations, x.accountId = accountId ∧ x.deleted = false ∧
        x.refers messageId = true) →
    a.campaignId.isSome = true ∨ a.automationId.isSome = true

/-- An automation the second query can look at. -/
def Named (a : Automation) : Prop := a.accountId = accountId ∧ a.name = some name ∧ a.deleted = false

/-- An automation whose steps have a key `id`, or one that ends like it, with a number that begins
with the digits of the message id. -/
def Automation.hasId (a : Automation) : Bool := a.steps.any (Doc.hasId (digitsOf messageId))

/-- When the queries get it right. -/
structure Fits : Prop where
  exact_ : ∀ a ∈ db.automations, Named accountId name a → a.hasId messageId = true →
    a.refers messageId = true
  named : ((∃ c ∈ db.campaigns, c.accountId = accountId ∧ c.deleted = false ∧
        c.hasMessage db messageId = true) ∨
      ∃ x ∈ db.automations, x.accountId = accountId ∧ x.deleted = false ∧
        x.refers messageId = true) →
    ∃ a ∈ db.automations, Named accountId name a ∧ a.refers messageId = true

end

section
variable {db db' : Rows} {accountId messageId : Nat} {name : String}

theorem findMessageAssociation_fst (caches : Caches) :
    (findMessageAssociation db accountId messageId name caches).1 =
      (cached accountId messageId name caches).getD (queries db accountId messageId name) := by
  rw [findMessageAssociation, cached]
  cases caches.memory (cacheKey accountId messageId name) with
  | some association => rfl
  | none =>
      simp only
      cases caches.redis ("message_association:" ++ cacheKey accountId messageId name) with
      | some parsed => rfl
      | none => rfl

theorem hasId_of_refers {a : Automation} (h : a.refers messageId = true) :
    a.hasId messageId = true := by
  rw [Automation.refers, Option.any_eq_true] at h
  rw [Automation.hasId, Option.any_eq_true]
  obtain ⟨steps, hsteps, hrefers⟩ := h
  exact ⟨steps, hsteps, Doc.hasId_of_refers steps hrefers⟩

theorem mem_automationQuery {a : Automation} : a ∈ automationQuery db accountId messageId name ↔
    a ∈ db.automations ∧ Named accountId name a ∧ a.hasId messageId = true := by
  have hlike : a.steps.any (stepsLike messageId) = a.hasId messageId := by
    rw [Automation.hasId]
    cases a.steps with
    | none => rfl
    | some steps =>
        rw [Option.any_some, Option.any_some, Bool.eq_iff_iff]
        exact like_iff messageId steps
  rw [automationQuery, List.mem_filter, Automation.selected, hlike, Bool.and_eq_true, Bool.and_eq_true, Bool.and_eq_true,
    beq_iff_eq, beq_iff_eq, Bool.not_eq_true', Named]
  tauto

theorem mem_campaignQuery {c : Campaign} : c ∈ campaignQuery db accountId messageId name ↔
    c ∈ db.campaigns ∧ c.accountId = accountId ∧ c.name = name ∧
      c.hasMessage db messageId = true ∧ c.deleted = false := by
  rw [campaignQuery, List.mem_filter, Bool.and_eq_true, Bool.and_eq_true, Bool.and_eq_true,
    beq_iff_eq, beq_iff_eq, Bool.not_eq_true']
  tauto

theorem Rows.Same.first {a : Automation} (h : a ∈ db.automations) : ∃ db', db.Same db' ∧
    db'.campaigns = db.campaigns ∧ db'.campaignsMessages = db.campaignsMessages ∧
    ∃ rest, db'.automations = a :: rest := by
  obtain ⟨before, after, hsplit⟩ := List.append_of_mem h
  have hperm : (a :: (before ++ after)).Perm db.automations := by
    rw [hsplit]
    exact List.perm_middle.symm
  exact ⟨{ db with
      automations := a :: (before ++ after)
      automationIds := ((hperm.map _).nodup_iff).mpr db.automationIds },
    ⟨.refl _, .refl _, hperm⟩, rfl, rfl, _, rfl⟩

theorem hasMessage_same (h : db.Same db') (c : Campaign) :
    c.hasMessage db' messageId = c.hasMessage db messageId := by
  rw [Bool.eq_iff_iff, Campaign.hasMessage, Campaign.hasMessage, List.any_eq_true, List.any_eq_true]
  exact exists_congr fun cm => and_congr_left fun _ => h.campaignsMessages.mem_iff

theorem attributes_campaign (h : db.Same db')
    (hcampaign : ∃ c, c ∈ campaignQuery db accountId messageId name) :
    Attributes db accountId messageId (queries db' accountId messageId name) := by
  obtain ⟨c, hc⟩ := hcampaign
  have hc' : c ∈ campaignQuery db' accountId messageId name := by
    rw [mem_campaignQuery] at hc ⊢
    rw [hasMessage_same h]
    exact ⟨h.campaigns.mem_iff.mpr hc.1, hc.2⟩
  rw [queries]
  cases hhead : (campaignQuery db' accountId messageId name).head? with
  | none =>
      rw [List.head?_eq_none_iff] at hhead
      rw [hhead] at hc'
      cases hc'
  | some first =>
      have hfirst := mem_campaignQuery.mp (List.mem_of_mem_head? hhead)
      rw [hasMessage_same h] at hfirst
      refine ⟨fun id hid => ?_, fun id hid => (nomatch hid), fun _ => .inl rfl⟩
      cases hid
      exact ⟨first, h.campaigns.mem_iff.mp hfirst.1, rfl, hfirst.2.1, hfirst.2.2.2.1⟩

/-- What they answer where none has. -/
theorem queries_automation (h : db.Same db')
    (hno : ¬ ∃ c, c ∈ campaignQuery db accountId messageId name) :
    queries db' accountId messageId name =
      { automationId := (automationQuery db' accountId messageId name).head?.map (·.id) } := by
  have hnone : campaignQuery db' accountId messageId name = [] := by
    rw [List.eq_nil_iff_forall_not_mem]
    intro c hc
    rw [mem_campaignQuery, hasMessage_same h] at hc
    exact hno ⟨c, mem_campaignQuery.mpr ⟨h.campaigns.mem_iff.mp hc.1, hc.2⟩⟩
  rw [queries, hnone]
  rfl

theorem attributes_of_fits (h : db.Same db')
    (hno : ¬ ∃ c, c ∈ campaignQuery db accountId messageId name)
    (hfits : Fits db accountId messageId name) :
    Attributes db accountId messageId (queries db' accountId messageId name) := by
  rw [queries_automation h hno]
  refine ⟨fun id hid => (nomatch hid), fun id hid => ?_, fun hany => .inr ?_⟩
  · obtain ⟨a, hhead, rfl⟩ := Option.map_eq_some_iff.mp hid
    obtain ⟨hmem, hnamed, hhas⟩ := mem_automationQuery.mp (List.mem_of_mem_head? hhead)
    have hmem := h.automations.mem_iff.mp hmem
    exact ⟨a, hmem, rfl, hnamed.1, hfits.exact_ a hmem hnamed hhas⟩
  · obtain ⟨a, hmem, hnamed, hrefers⟩ := hfits.named hany
    have hquery := mem_automationQuery.mpr
      ⟨h.automations.mem_iff.mpr hmem, hnamed, hasId_of_refers hrefers⟩
    rw [Option.isSome_map, List.isSome_head?]
    exact List.ne_nil_of_mem hquery

theorem fits_of_attributes (hno : ¬ ∃ c, c ∈ campaignQuery db accountId messageId name)
    (h : ∀ db', db.Same db' →
      Attributes db accountId messageId (queries db' accountId messageId name)) :
    Fits db accountId messageId name := by
  have hexact : ∀ a ∈ db.automations, Named accountId name a → a.hasId messageId = true →
      a.refers messageId = true := by
    intro a ha hnamed hhas
    -- the query may get this automation
    obtain ⟨db', hsame, -, -, rest, hrest⟩ := Rows.Same.first ha
    have hattributes := h db' hsame
    have hquery : a ∈ automationQuery db' accountId messageId name :=
      mem_automationQuery.mpr ⟨hsame.automations.mem_iff.mpr ha, hnamed, hhas⟩
    have hhead : (automationQuery db' accountId messageId name).head? = some a := by
      rw [automationQuery, List.mem_filter] at hquery
      rw [automationQuery, hrest,
        List.filter_cons_of_pos (p := Automation.selected accountId messageId name) hquery.2]
      rfl
    rw [queries_automation hsame hno, hhead] at hattributes
    obtain ⟨x, hx, hid, -, hrefers⟩ := hattributes.automation a.id rfl
    rwa [List.inj_on_of_nodup_map db.automationIds hx ha hid] at hrefers
  refine ⟨hexact, fun hany => ?_⟩
  have hsame : db.Same db := ⟨.refl _, .refl _, .refl _⟩
  have hattributes := h db hsame
  rw [queries_automation hsame hno] at hattributes
  have hfound := (hattributes.found hany).resolve_left Bool.false_ne_true
  rw [Option.isSome_map, List.isSome_head?] at hfound
  obtain ⟨a, rest, hrest⟩ := List.exists_cons_of_ne_nil hfound
  have hquery : a ∈ automationQuery db accountId messageId name := by
    rw [hrest]
    exact List.mem_cons_self
  obtain ⟨hmem, hnamed, hhas⟩ := mem_automationQuery.mp hquery
  exact ⟨a, hmem, hnamed, hexact a hmem hnamed hhas⟩

/-- The lookup is right, in whatever order the rows are met, iff what is cached is right or, with
nothing cached, a campaign of the name has the message or the automations of the name fit. -/
theorem attributes_iff (db : Rows) (accountId messageId : Nat) (name : String) (caches : Caches) :
    (∀ db', db.Same db' → Attributes db accountId messageId
      (findMessageAssociation db' accountId messageId name caches).1) ↔
    match cached accountId messageId name caches with
    | some association => Attributes db accountId messageId association
    | none => (∃ c, c ∈ campaignQuery db accountId messageId name) ∨
        Fits db accountId messageId name := by
  simp only [findMessageAssociation_fst]
  cases cached accountId messageId name caches with
  | some association =>
      exact ⟨fun h => h db ⟨.refl _, .refl _, .refl _⟩, fun h _ _ => h⟩
  | none =>
      constructor
      · intro h
        by_cases hcampaign : ∃ c, c ∈ campaignQuery db accountId messageId name
        · exact .inl hcampaign
        · exact .inr (fits_of_attributes hcampaign h)
      · rintro (hcampaign | hfits) db' hsame
        · exact attributes_campaign hsame hcampaign
        · by_cases hcampaign : ∃ c, c ∈ campaignQuery db accountId messageId name
          · exact attributes_campaign hsame hcampaign
          · exact attributes_of_fits hsame hcampaign hfits

end

/-! ## A message with the first digit of another -/

/-- An e-mail step with message 57. -/
def welcomeSteps : Doc :=
  .arr (.cons (.obj (.cons "type".toList (.str "email".toList)
    (.cons "settings".toList (.obj (.cons idLetters (.num ⟨['5', '7'], by simp; decide⟩) .nil)) .nil))) .nil)

def welcome : Rows :=
  { campaigns := [], campaignsMessages := []
    automations := [⟨1, 1, some "welcome", false, some welcomeSteps⟩]
    campaignIds := List.nodup_nil, automationIds := by decide }

def noCaches : Caches := ⟨fun _ => none, fun _ => none⟩

/-- Message 5 is attributed to an automation with message 57. -/
theorem message_five : (findMessageAssociation welcome 1 5 "welcome" noCaches).1 =
      { automationId := some 1 } ∧
    ¬ Attributes welcome 1 5 (findMessageAssociation welcome 1 5 "welcome" noCaches).1 := by
  have hlike : stepsLike 5 welcomeSteps = true := (like_iff 5 welcomeSteps).mpr (by decide +kernel)
  have hresult : (findMessageAssociation welcome 1 5 "welcome" noCaches).1 =
      { automationId := some 1 } := by
    rw [findMessageAssociation_fst]
    have hquery : automationQuery welcome 1 5 "welcome" = welcome.automations := by
      rw [automationQuery, List.filter_eq_self]
      intro a ha
      rw [List.mem_singleton.mp ha]
      simp [Automation.selected, hlike]
    show queries welcome 1 5 "welcome" = _
    rw [queries, hquery]
    rfl
  refine ⟨hresult, fun h => ?_⟩
  rw [hresult] at h
  obtain ⟨x, hx, -, -, hrefers⟩ := h.automation 1 rfl
  rw [List.mem_singleton.mp hx] at hrefers
  have hno : Automation.refers 5 ⟨1, 1, some "welcome", false, some welcomeSteps⟩ = false := by
    decide +kernel
  rw [hno] at hrefers
  cases hrefers

end OpenBms.Events.Attribution
