/-
# `OpenBms.Authz.Regeneration` — a legacy key of an account is regenerated

A request stores a token for fifteen minutes; a confirmation with the token revokes the
account's regenerated keys, inserts a new one by its hash, writes the hash over the legacy
key, sets or deletes its expiry, and deletes the token at last.  Each statement is a step,
so that confirmations, requests and expiring tokens interleave, and any step may fail.

| reader | compares | caches |
| :-- | :-- | :-- |
| API, managed keys | the hash of what is presented with `key_hash` | five minutes |
| API, legacy keys | what is presented with `value` | five minutes |
| ingestion of events | what is presented with `value` | for good, and seven days |

**Proved here.**

    no confirmation replaces the key: the new one, whose hash is
    the value, is not accepted by the ingestion of events (`never_replaced`)
    the hash itself is accepted, and the regenerated key of the
    other type is revoked (`digest_accepted`)
    a token gives one new key, when no confirmation reads it
    while another that has read it goes on (`single_use`)
    two confirmations that both read it give two (`used_twice`)
-/
import OpenBms.Authz.Principals

namespace OpenBms.Authz.Regeneration

inductive KeyType where
  | apiKey
  | apiKeyTracker
  deriving DecidableEq

def KeyType.name : KeyType → String
  | .apiKey => "api_key"
  | .apiKeyTracker => "api_key_tracker"

def KeyType.expiresAtName (keyType : KeyType) : String := keyType.name ++ "_expires_at"

/-- The value of a hexadecimal digit. -/
def hexDigit (c : Char) : Option Nat :=
  if '0' ≤ c ∧ c ≤ '9' then some (c.toNat - '0'.toNat)
  else if 'a' ≤ c ∧ c ≤ 'f' then some (c.toNat - 'a'.toNat + 10)
  else if 'A' ≤ c ∧ c ≤ 'F' then some (c.toNat - 'A'.toNat + 10)
  else none

/-- `Buffer.from(text, 'hex')`: the bytes up to the first character that is no digit. -/
def fromHex : List Char → List Nat
  | a :: b :: rest =>
      match hexDigit a, hexDigit b with
      | some high, some low => (16 * high + low) :: fromHex rest
      | _, _ => []
  | _ => []

/-- A confirmation: its token, and the key that it will issue. -/
structure Confirmation where
  accountId : Nat
  keyType : KeyType
  token : String
  newKey : String

def Confirmation.tokenBuffer (c : Confirmation) : List Nat := fromHex c.token.toList

inductive Rejection where
  | expired
  | invalid
  | error
  deriving DecidableEq

def Rejection.message : Rejection → String
  | .expired => "Token expirado"
  | .invalid => "Token inválido"
  | .error => "Internal server error"

def Rejection.status : Rejection → Nat
  | .expired => 410
  | .invalid => 400
  | .error => 500

/-- Where a confirmation is; from `dated` on it has the expiry of the new key, in which an
inner `none` is an invalid date. -/
inductive Progress where
  | begun
  | checked
  | dated (expiresAt : Option (Option Nat))
  | revoked (expiresAt : Option (Option Nat))
  | inserted (expiresAt : Option Nat)
  | stored (expiresAt : Option Nat)
  | expirySet
  | returned
  | rejected (rejection : Rejection)
  deriving DecidableEq

/-- The confirmation has read the token, and goes on. -/
def Progress.holds : Progress → Bool
  | .begun | .returned | .rejected _ => false
  | _ => true

/-- The tables, the caches of the readers, and the stored tokens.  `issued` counts the tokens
given out, `returned` lists those for which a new key was returned. -/
structure State where
  tables : Tables
  principals : CacheKey → Option PrincipalContext
  memory : String → Nat
  accountIdByApiKey : String → Nat
  tokens : Nat → KeyType → Option (List Nat)
  expirations : Nat → KeyType → Option String
  confirmations : Nat → Option (Confirmation × Progress)
  issued : Nat
  returned : List (List Nat)

inductive Label where
  | request (accountId : Nat) (keyType : KeyType)
  | requestExpiresAt (accountId : Nat) (keyType : KeyType) (text : String)
  | expireToken (accountId : Nat) (keyType : KeyType)
  | expireExpiresAt (accountId : Nat) (keyType : KeyType)
  | confirm (r : Nat) (confirmation : Confirmation)
  | step (r now : Nat)
  | fail (r : Nat)

/-- What is outside: the bytes of the n-th token, the hash, the dates of texts, and texts of
dates. -/
structure Outside where
  randomBytes : Nat → List Nat
  md5 : String → String
  parseDate : String → Option Nat
  toIsoString : Nat → String

/-! ## Statements -/

namespace State

def setToken (s : State) (accountId : Nat) (keyType : KeyType) (token : Option (List Nat)) : State :=
  { s with
    tokens := fun a k => if a = accountId ∧ k = keyType then token else s.tokens a k }

def setExpiration (s : State) (accountId : Nat) (keyType : KeyType) (text : Option String) : State :=
  { s with
    expirations := fun a k => if a = accountId ∧ k = keyType then text else s.expirations a k }

def setProgress (s : State) (r : Nat) (c : Confirmation) (progress : Progress) : State :=
  { s with confirmations := Function.update s.confirmations r (some (c, progress)) }

def setApiKeys (s : State) (apiKeys : List ApiKey) : State :=
  { s with tables := { s.tables with apiKeys := apiKeys } }

def setConfigs (s : State) (configs : List Config) : State :=
  { s with tables := { s.tables with configs := configs } }

/-- The regenerated keys of the account, of either type, are revoked. -/
def revokeRegenerated (s : State) (accountId now : Nat) : State :=
  s.setApiKeys <| s.tables.apiKeys.map fun key =>
    if key.accountId = accountId ∧ key.regenerated = true ∧ key.active = true then
      { key with active := false, revokedAt := some now }
    else key

/-- The id is the next of the sequence. -/
def insertKey (md5 : String → String) (s : State) (c : Confirmation) (expiresAt : Option Nat) :
    State :=
  s.setApiKeys <| s.tables.apiKeys ++
    [⟨s.tables.apiKeys.length + 1, c.accountId, md5 c.newKey, .admin, true, true, none, expiresAt⟩]

def storeHash (md5 : String → String) (s : State) (c : Confirmation) : State :=
  s.setConfigs <| s.tables.configs.map fun config =>
    if config.accountId = c.accountId ∧ config.name = c.keyType.name then
      { config with value := md5 c.newKey }
    else config

/-- The expiry is updated, added or deleted. -/
@[grind =] def setExpiry (toIsoString : Nat → String) (s : State) (c : Confirmation) (expiresAt : Option Nat) :
    State :=
  let isExpiry (config : Config) : Bool :=
    config.accountId = c.accountId && config.name = c.keyType.expiresAtName
  match expiresAt with
  | none => s.setConfigs (s.tables.configs.filter (! isExpiry ·))
  | some date =>
      if s.tables.configs.any isExpiry then
        s.setConfigs <| s.tables.configs.map fun config =>
          if isExpiry config = true then { config with value := toIsoString date } else config
      else s.setConfigs (s.tables.configs ++ [⟨c.accountId, c.keyType.expiresAtName, toIsoString date⟩])

/-- The next statement of a confirmation. -/
@[grind =] def advance (o : Outside) (s : State) (r now : Nat) (c : Confirmation) : Progress → State
  | .begun =>
      match s.tokens c.accountId c.keyType with
      | none => s.setProgress r c (.rejected .expired)
      | some stored =>
          if c.tokenBuffer = stored then s.setProgress r c .checked
          else s.setProgress r c (.rejected .invalid)
  | .checked =>
      match s.expirations c.accountId c.keyType with
      | none => s.setProgress r c (.dated none)
      | some text =>
          if text = "" ∨ text = "never" then s.setProgress r c (.dated none)
          else s.setProgress r c (.dated (some (o.parseDate text)))
  | .dated expiresAt => (s.revokeRegenerated c.accountId now).setProgress r c (.revoked expiresAt)
  | .revoked none => (s.insertKey o.md5 c none).setProgress r c (.inserted none)
  | .revoked (some (some date)) =>
      (s.insertKey o.md5 c (some date)).setProgress r c (.inserted (some date))
  -- An invalid date cannot be saved.
  | .revoked (some none) => s.setProgress r c (.rejected .error)
  | .inserted expiresAt => (s.storeHash o.md5 c).setProgress r c (.stored expiresAt)
  | .stored expiresAt => (s.setExpiry o.toIsoString c expiresAt).setProgress r c .expirySet
  | .expirySet =>
      let s' := (s.setToken c.accountId c.keyType none).setExpiration c.accountId c.keyType none
      { s'.setProgress r c .returned with returned := c.tokenBuffer :: s.returned }
  | .returned | .rejected _ => s

/-- A step that cannot be taken changes nothing. -/
@[grind =] def step (o : Outside) (s : State) : Label → State
  | .request accountId keyType =>
      { s.setToken accountId keyType (some (o.randomBytes s.issued)) with issued := s.issued + 1 }
  | .requestExpiresAt accountId keyType text => s.setExpiration accountId keyType (some text)
  | .expireToken accountId keyType => s.setToken accountId keyType none
  | .expireExpiresAt accountId keyType => s.setExpiration accountId keyType none
  | .confirm r confirmation =>
      if (s.confirmations r).isSome then s else s.setProgress r confirmation .begun
  | .step r now =>
      match s.confirmations r with
      | some (c, progress) => s.advance o r now c progress
      | none => s
  | .fail r =>
      match s.confirmations r with
      | some (c, progress) =>
          if progress.holds = true ∨ progress = .begun then s.setProgress r c (.rejected .error) else s
      | none => s

/-- The statements of a confirmation one after the other. -/
def confirmRegeneration (o : Outside) (s : State) (r now : Nat) (c : Confirmation) : State :=
  (Label.confirm r c :: List.replicate 7 (.step r now)).foldl (State.step o) s

/-- `resolveApiKeyContext`. -/
def resolveApiKeyContext (md5 : String → String) (s : State) (rawApiKey : String) (now : Nat) :
    Option PrincipalContext :=
  (s.principals (.apiKey (md5 rawApiKey))).or (s.tables.resolveApiKey md5 rawApiKey now)

/-- `findAccountIdByApiKey`; zero stands for none, also in the caches. -/
def findAccountIdByApiKey (s : State) (apiKey : String) : Nat :=
  if s.memory apiKey ≠ 0 then s.memory apiKey
  else if s.accountIdByApiKey apiKey ≠ 0 then s.accountIdByApiKey apiKey
  else ((s.tables.legacyKey apiKey).map (·.accountId)).getD 0

end State

/-! ## Single use -/

/-- A confirmation that has read the token of its request and goes on. -/
def State.Holds (s : State) (r : Nat) (c : Confirmation) : Prop :=
  ∃ progress, s.confirmations r = some (c, progress) ∧ progress.holds = true

/-- No confirmation reads a token that it presents while another that has read it goes on. -/
def State.Alone (s : State) : Label → Prop
  | .step r _ => ∀ c, s.confirmations r = some (c, .begun) →
      s.tokens c.accountId c.keyType = some c.tokenBuffer →
        ∀ r' c', r' ≠ r → s.Holds r' c' → c'.tokenBuffer ≠ c.tokenBuffer
  | _ => True

/-- Tokens are given out once, are stored in one place, have one confirmation that goes on,
and are in neither once a new key was returned for them. -/
structure Single (o : Outside) (s : State) : Prop where
  once : s.returned.Nodup
  returned_issued : ∀ token ∈ s.returned, ∃ n < s.issued, token = o.randomBytes n
  stored_issued : ∀ a k token, s.tokens a k = some token → ∃ n < s.issued, token = o.randomBytes n
  held_issued : ∀ r c, s.Holds r c → ∃ n < s.issued, c.tokenBuffer = o.randomBytes n
  stored_once : ∀ a k a' k' token, s.tokens a k = some token → s.tokens a' k' = some token →
    a = a' ∧ k = k'
  held_place : ∀ r c, s.Holds r c → ∀ a k, s.tokens a k = some c.tokenBuffer →
    a = c.accountId ∧ k = c.keyType
  held_once : ∀ r c r' c', s.Holds r c → s.Holds r' c' → c.tokenBuffer = c'.tokenBuffer → r = r'
  not_stored : ∀ token ∈ s.returned, ∀ a k, s.tokens a k ≠ some token
  not_held : ∀ token ∈ s.returned, ∀ r c, s.Holds r c → c.tokenBuffer ≠ token

section single

variable {o : Outside} {s : State} {r : Nat} {c : Confirmation}

/-- Fewer holders and fewer stored tokens are as good. -/
theorem Single.anti {s' : State} (h : Single o s) (hreturned : s'.returned = s.returned)
    (hissued : s'.issued = s.issued)
    (htokens : ∀ a k token, s'.tokens a k = some token → s.tokens a k = some token)
    (hholds : ∀ r c, s'.Holds r c → s.Holds r c) : Single o s' := by
  refine ⟨?_, ?_, fun a k token hk => ?_, fun r c hc => ?_, fun a k a' k' token hk hk' => ?_,
    fun r c hc a k hk => ?_, fun r c r' c' hc hc' => ?_, ?_, ?_⟩
  · rw [hreturned]
    exact h.once
  · rw [hreturned, hissued]
    exact h.returned_issued
  · rw [hissued]
    exact h.stored_issued a k token (htokens a k token hk)
  · rw [hissued]
    exact h.held_issued r c (hholds r c hc)
  · exact h.stored_once a k a' k' token (htokens a k token hk) (htokens a' k' token hk')
  · exact h.held_place r c (hholds r c hc) a k (htokens a k _ hk)
  · exact h.held_once r c r' c' (hholds r c hc) (hholds r' c' hc')
  · rw [hreturned]
    exact fun token ht a k hk => h.not_stored token ht a k (htokens a k token hk)
  · rw [hreturned]
    exact fun token ht r c hc => h.not_held token ht r c (hholds r c hc)

theorem holds_setProgress {progress : Progress} {r' : Nat} {c' : Confirmation}
    (h : (s.setProgress r c progress).Holds r' c') :
    (r' = r ∧ c' = c ∧ progress.holds = true) ∨ (r' ≠ r ∧ s.Holds r' c') := by
  obtain ⟨progress', hc, hholds⟩ := h
  change Function.update s.confirmations r _ r' = _ at hc
  by_cases hsame : r' = r
  · subst hsame
    rw [Function.update_self] at hc
    obtain ⟨rfl, rfl⟩ := Prod.mk.inj (Option.some.inj hc)
    exact .inl ⟨rfl, rfl, hholds⟩
  · rw [Function.update_of_ne hsame] at hc
    exact .inr ⟨hsame, progress', hc, hholds⟩

/-- A confirmation goes on, or ends without a key. -/
theorem Single.setProgress {s' : State} (h : Single o s) {progress : Progress}
    (hreturned : s'.returned = s.returned) (hissued : s'.issued = s.issued)
    (htokens : s'.tokens = s.tokens) (hconfirmations : s'.confirmations = s.confirmations)
    (hheld : progress.holds = true → s.Holds r c) : Single o (s'.setProgress r c progress) := by
  refine h.anti hreturned hissued (fun a k token hk => ?_) fun r' c' hc => ?_
  · rw [← htokens]
    exact hk
  · rcases holds_setProgress hc with ⟨rfl, rfl, hholds⟩ | ⟨-, progress', hc, hholds⟩
    · exact hheld hholds
    · rw [hconfirmations] at hc
      exact ⟨progress', hc, hholds⟩

theorem Single.read (h : Single o s) (hstored : s.tokens c.accountId c.keyType = some c.tokenBuffer)
    (halone : ∀ r' c', r' ≠ r → s.Holds r' c' → c'.tokenBuffer ≠ c.tokenBuffer) :
    Single o (s.setProgress r c .checked) := by
  refine ⟨h.once, h.returned_issued, h.stored_issued, fun r' c' hc => ?_, h.stored_once,
    fun r' c' hc a k hk => ?_, fun r₁ c₁ r₂ c₂ h₁ h₂ heq => ?_, h.not_stored,
    fun token ht r' c' hc => ?_⟩
  · rcases holds_setProgress hc with ⟨rfl, rfl, -⟩ | ⟨-, hold⟩
    · exact h.stored_issued _ _ _ hstored
    · exact h.held_issued r' c' hold
  · rcases holds_setProgress hc with ⟨rfl, rfl, -⟩ | ⟨-, hold⟩
    · exact h.stored_once a k _ _ _ hk hstored
    · exact h.held_place r' c' hold a k hk
  · rcases holds_setProgress h₁ with ⟨rfl, rfl, -⟩ | ⟨hne₁, hold₁⟩
    · rcases holds_setProgress h₂ with ⟨rfl, -, -⟩ | ⟨hne₂, hold₂⟩
      · rfl
      · exact absurd heq.symm (halone r₂ c₂ hne₂ hold₂)
    · rcases holds_setProgress h₂ with ⟨rfl, rfl, -⟩ | ⟨-, hold₂⟩
      · exact absurd heq (halone r₁ c₁ hne₁ hold₁)
      · exact h.held_once r₁ c₁ r₂ c₂ hold₁ hold₂ heq
  · rcases holds_setProgress hc with ⟨rfl, rfl, -⟩ | ⟨-, hold⟩
    · intro heq
      exact h.not_stored token ht _ _ (heq ▸ hstored)
    · exact h.not_held token ht r' c' hold

theorem Single.finish {s' : State} (h : Single o s) (hheld : s.Holds r c)
    (hissued : s'.issued = s.issued)
    (htokens : ∀ a k, s'.tokens a k =
      if a = c.accountId ∧ k = c.keyType then none else s.tokens a k)
    (hreturned : s'.returned = c.tokenBuffer :: s.returned)
    (hholds : ∀ r' c', s'.Holds r' c' → r' ≠ r ∧ s.Holds r' c') : Single o s' := by
  have hkept : ∀ {a k token}, s'.tokens a k = some token →
      ¬ (a = c.accountId ∧ k = c.keyType) ∧ s.tokens a k = some token := by
    intro a k token hk
    rw [htokens] at hk
    split_ifs at hk with hplace
    exact ⟨hplace, hk⟩
  refine ⟨?_, ?_, fun a k token hk => ?_, fun r' c' hc => ?_, fun a k a' k' token hk hk' => ?_,
    fun r' c' hc a k hk => ?_, fun r₁ c₁ r₂ c₂ h₁ h₂ => ?_, ?_, ?_⟩
  · rw [hreturned]
    exact List.nodup_cons.mpr ⟨fun ht => h.not_held _ ht r c hheld rfl, h.once⟩
  · rw [hreturned, hissued]
    exact List.forall_mem_cons.mpr ⟨h.held_issued r c hheld, h.returned_issued⟩
  · rw [hissued]
    exact h.stored_issued a k token (hkept hk).2
  · rw [hissued]
    exact h.held_issued r' c' (hholds r' c' hc).2
  · exact h.stored_once a k a' k' token (hkept hk).2 (hkept hk').2
  · exact h.held_place r' c' (hholds r' c' hc).2 a k (hkept hk).2
  · exact h.held_once r₁ c₁ r₂ c₂ (hholds r₁ c₁ h₁).2 (hholds r₂ c₂ h₂).2
  · rw [hreturned]
    refine List.forall_mem_cons.mpr ⟨fun a k hk => ?_, fun token ht a k hk => ?_⟩
    · exact (hkept hk).1 (h.held_place r c hheld a k (hkept hk).2)
    · exact h.not_stored token ht a k (hkept hk).2
  · rw [hreturned]
    refine List.forall_mem_cons.mpr ⟨fun r' c' hc heq => ?_, fun token ht r' c' hc => ?_⟩
    · exact (hholds r' c' hc).1 (h.held_once r' c' r c (hholds r' c' hc).2 hheld heq)
    · exact h.not_held token ht r' c' (hholds r' c' hc).2

/-- A request stores a token that was never given out. -/
theorem Single.request (hrandom : Function.Injective o.randomBytes) (h : Single o s)
    (accountId : Nat) (keyType : KeyType) : Single o (s.step o (.request accountId keyType)) := by
  have hfresh : ∀ {token}, (∃ n < s.issued, token = o.randomBytes n) →
      token ≠ o.randomBytes s.issued := by
    rintro _ ⟨n, hn, rfl⟩ heq
    exact absurd (hrandom heq) (Nat.ne_of_lt hn)
  have hmore : ∀ {token}, (∃ n < s.issued, token = o.randomBytes n) →
      ∃ n < s.issued + 1, token = o.randomBytes n := by
    rintro _ ⟨n, hn, rfl⟩
    exact ⟨n, Nat.lt_succ_of_lt hn, rfl⟩
  have htoken : ∀ {a k token}, (s.step o (.request accountId keyType)).tokens a k = some token →
      (a = accountId ∧ k = keyType ∧ token = o.randomBytes s.issued) ∨ s.tokens a k = some token := by
    intro a k token hk
    change (if a = accountId ∧ k = keyType then some (o.randomBytes s.issued) else s.tokens a k) =
      some token at hk
    split_ifs at hk with hplace
    · exact .inl ⟨hplace.1, hplace.2, (Option.some.inj hk).symm⟩
    · exact .inr hk
  refine ⟨h.once, fun token ht => hmore (h.returned_issued token ht), fun a k token hk => ?_,
    fun r c hc => hmore (h.held_issued r c hc), fun a k a' k' token hk hk' => ?_,
    fun r c hc a k hk => ?_, h.held_once, fun token ht a k hk => ?_, h.not_held⟩
  · rcases htoken hk with ⟨-, -, rfl⟩ | hold
    · exact ⟨s.issued, Nat.lt_succ_self _, rfl⟩
    · exact hmore (h.stored_issued a k token hold)
  · rcases htoken hk with ⟨rfl, rfl, rfl⟩ | hold
    · rcases htoken hk' with ⟨rfl, rfl, -⟩ | hold'
      · exact ⟨rfl, rfl⟩
      · exact absurd rfl (hfresh (h.stored_issued a' k' _ hold'))
    · rcases htoken hk' with ⟨rfl, rfl, rfl⟩ | hold'
      · exact absurd rfl (hfresh (h.stored_issued a k _ hold))
      · exact h.stored_once a k a' k' token hold hold'
  · rcases htoken hk with ⟨-, -, heq⟩ | hold
    · exact absurd heq (hfresh (h.held_issued r c hc))
    · exact h.held_place r c hc a k hold
  · rcases htoken hk with ⟨-, -, heq⟩ | hold
    · exact hfresh (h.returned_issued token ht) heq
    · exact h.not_stored token ht a k hold

theorem Single.advance (h : Single o s) {now : Nat} {progress : Progress}
    (hc : s.confirmations r = some (c, progress)) (halone : s.Alone (.step r now)) :
    Single o (s.advance o r now c progress) := by
  have hheld : progress.holds = true → s.Holds r c := fun hholds => ⟨progress, hc, hholds⟩
  cases progress with
  | begun =>
      unfold State.advance
      cases hstored : s.tokens c.accountId c.keyType with
      | none => exact h.setProgress rfl rfl rfl rfl (fun hholds => by cases hholds)
      | some stored =>
          by_cases hmatch : c.tokenBuffer = stored
          · simp only [if_pos hmatch]
            subst hmatch
            exact h.read hstored (halone c hc hstored)
          · simp only [if_neg hmatch]
            exact h.setProgress rfl rfl rfl rfl (fun hholds => by cases hholds)
  | checked =>
      unfold State.advance
      cases s.expirations c.accountId c.keyType with
      | none => exact h.setProgress rfl rfl rfl rfl fun _ => hheld rfl
      | some text =>
          by_cases hnever : text = "" ∨ text = "never"
          · simp only [if_pos hnever]
            exact h.setProgress rfl rfl rfl rfl fun _ => hheld rfl
          · simp only [if_neg hnever]
            exact h.setProgress rfl rfl rfl rfl fun _ => hheld rfl
  | dated expiresAt => exact h.setProgress rfl rfl rfl rfl fun _ => hheld rfl
  | revoked expiresAt =>
      rcases expiresAt with _ | _ | date
      · exact h.setProgress rfl rfl rfl rfl fun _ => hheld rfl
      · exact h.setProgress rfl rfl rfl rfl (fun hholds => by cases hholds)
      · exact h.setProgress rfl rfl rfl rfl fun _ => hheld rfl
  | inserted expiresAt => exact h.setProgress rfl rfl rfl rfl fun _ => hheld rfl
  | stored expiresAt =>
      have hsame : (s.setExpiry o.toIsoString c expiresAt).returned = s.returned ∧
          (s.setExpiry o.toIsoString c expiresAt).issued = s.issued ∧
          (s.setExpiry o.toIsoString c expiresAt).tokens = s.tokens ∧
          (s.setExpiry o.toIsoString c expiresAt).confirmations = s.confirmations := by
        unfold State.setExpiry
        cases expiresAt with
        | none => exact ⟨rfl, rfl, rfl, rfl⟩
        | some date =>
            dsimp only
            split <;> exact ⟨rfl, rfl, rfl, rfl⟩
      exact h.setProgress hsame.1 hsame.2.1 hsame.2.2.1 hsame.2.2.2 fun _ => hheld rfl
  | expirySet =>
      refine h.finish (hheld rfl) rfl (fun a k => rfl) rfl fun r' c' hholds => ?_
      rcases holds_setProgress hholds with ⟨-, -, hreturned⟩ | hother
      · cases hreturned
      · exact hother
  | returned => exact h
  | rejected rejection => exact h

theorem advance_confirmations {now r' : Nat} {progress : Progress} (hr' : r' ≠ r) :
    (s.advance o r now c progress).confirmations r' = s.confirmations r' := by
  cases progress with
  | begun =>
      unfold State.advance
      dsimp only
      split
      · exact Function.update_of_ne hr' _ _
      · split <;> exact Function.update_of_ne hr' _ _
  | checked =>
      unfold State.advance
      dsimp only
      split
      · exact Function.update_of_ne hr' _ _
      · split <;> exact Function.update_of_ne hr' _ _
  | revoked expiresAt =>
      rcases expiresAt with _ | _ | date
      all_goals exact Function.update_of_ne hr' _ _
  | stored expiresAt =>
      refine (Function.update_of_ne hr' _ _).trans ?_
      unfold State.setExpiry
      cases expiresAt with
      | none => rfl
      | some date =>
          dsimp only
          split <;> rfl
  | returned => rfl
  | rejected rejection => rfl
  | _ => exact Function.update_of_ne hr' _ _

theorem advance_self {now : Nat} {progress : Progress}
    (hc : s.confirmations r = some (c, progress)) :
    ∃ progress', (s.advance o r now c progress).confirmations r = some (c, progress') := by
  cases progress with
  | begun =>
      unfold State.advance
      dsimp only
      split
      · exact ⟨_, Function.update_self _ _ _⟩
      · split <;> exact ⟨_, Function.update_self _ _ _⟩
  | checked =>
      unfold State.advance
      dsimp only
      split
      · exact ⟨_, Function.update_self _ _ _⟩
      · split <;> exact ⟨_, Function.update_self _ _ _⟩
  | revoked expiresAt =>
      rcases expiresAt with _ | _ | date
      all_goals exact ⟨_, Function.update_self _ _ _⟩
  | returned => exact ⟨_, hc⟩
  | rejected rejection => exact ⟨_, hc⟩
  | _ => exact ⟨_, Function.update_self _ _ _⟩

theorem Single.step (hrandom : Function.Injective o.randomBytes) (h : Single o s) {label : Label}
    (halone : s.Alone label) : Single o (s.step o label) := by
  cases label with
  | request accountId keyType => exact h.request hrandom accountId keyType
  | requestExpiresAt accountId keyType text =>
      exact h.anti rfl rfl (fun _ _ _ hk => hk) fun _ _ hc => hc
  | expireToken accountId keyType =>
      refine h.anti rfl rfl (fun a k token hk => ?_) fun _ _ hc => hc
      change (if a = accountId ∧ k = keyType then none else s.tokens a k) = some token at hk
      split_ifs at hk
      exact hk
  | expireExpiresAt accountId keyType =>
      exact h.anti rfl rfl (fun _ _ _ hk => hk) fun _ _ hc => hc
  | confirm r confirmation =>
      simp only [State.step]
      split_ifs
      · exact h
      · exact h.setProgress rfl rfl rfl rfl (fun hholds => by cases hholds)
  | step r now =>
      simp only [State.step]
      cases hc : s.confirmations r with
      | none => exact h
      | some confirmation => exact h.advance hc halone
  | fail r =>
      simp only [State.step]
      cases s.confirmations r with
      | none => exact h
      | some confirmation =>
          dsimp only
          split_ifs
          · exact h.setProgress rfl rfl rfl rfl (fun hholds => by cases hholds)
          · exact h

end single

/-- No token is stored, and nothing is being confirmed. -/
def State.initial (tables : Tables) (principals : CacheKey → Option PrincipalContext)
    (memory accountIdByApiKey : String → Nat) : State :=
  ⟨tables, principals, memory, accountIdByApiKey, fun _ _ => none, fun _ _ => none, fun _ => none,
    0, []⟩

theorem initial_single (o : Outside) (tables : Tables)
    (principals : CacheKey → Option PrincipalContext) (memory accountIdByApiKey : String → Nat) :
    Single o (.initial tables principals memory accountIdByApiKey) := by
  have hnone : ∀ r c, ¬ (State.initial tables principals memory accountIdByApiKey).Holds r c := by
    rintro r c ⟨_, h, -⟩
    cases h
  exact
    { once := List.nodup_nil
      returned_issued := fun _ h => by cases h
      stored_issued := fun _ _ _ h => by cases h
      held_issued := fun r c h => absurd h (hnone r c)
      stored_once := fun _ _ _ _ _ h => by cases h
      held_place := fun r c h => absurd h (hnone r c)
      held_once := fun r c _ _ h => absurd h (hnone r c)
      not_stored := fun _ h => by cases h
      not_held := fun _ h => by cases h }

/-- In a run in which no confirmation reads a token while another goes on with it, at most one
new key is returned for a token. -/
theorem single_use {o : Outside} (hrandom : Function.Injective o.randomBytes) (tables : Tables)
    (principals : CacheKey → Option PrincipalContext) (memory accountIdByApiKey : String → Nat)
    {labels : List Label}
    (halone : Runs.Meets (fun s label => some (s.step o label)) State.Alone
      (.initial tables principals memory accountIdByApiKey) labels) :
    ∀ before after, labels = before ++ after →
      (before.foldl (State.step o)
        (.initial tables principals memory accountIdByApiKey)).returned.Nodup := by
  have hsingle := (Runs.always_steps (I := Single o) (K := fun _ _ => True)
    (fun s label h halone => ⟨h.step hrandom halone, trivial⟩)
    (initial_single o tables principals memory accountIdByApiKey) halone).1
  exact fun before after heq => (hsingle before after heq).once

theorem alone_steps {o : Outside} {r now : Nat} (n : Nat) {s : State}
    (honly : ∀ r', r' ≠ r → s.confirmations r' = none) :
    Runs.Meets (fun s label => some (s.step o label)) State.Alone s
      (List.replicate n (.step r now)) := by
  induction n generalizing s with
  | zero => trivial
  | succ n ih =>
      refine .cons ?_ rfl (ih fun r' hr' => ?_)
      · rintro c - - r' c' hr' ⟨_, hc', -⟩
        cases (honly r' hr').symm.trans hc'
      · simp only [State.step]
        cases s.confirmations r with
        | none => exact honly r' hr'
        | some confirmation => exact (advance_confirmations hr').trans (honly r' hr')

/-! ## Two confirmations -/

def outside : Outside where
  randomBytes n := n :: List.replicate 31 0
  md5 text := if text = "mk_1" then "45944471b174cd97fab28cd992c8a563" else text
  parseDate _ := none
  toIsoString _ := ""

def noTables : Tables := ⟨[], List.nodup_nil, [], [], []⟩

/-- The confirmation of the first token of account 7. -/
def first : Confirmation :=
  ⟨7, .apiKey, "0000000000000000000000000000000000000000000000000000000000000000", "mk_1"⟩

def start : State := .initial noTables (fun _ => none) (fun _ => 0) fun _ => 0

/-- A token is requested, and confirmed once. -/
def once : List Label :=
  .request 7 .apiKey :: .confirm 0 first :: List.replicate 7 (.step 0 1)

/-- Two confirmations read the token before either deletes it. -/
def twice : List Label :=
  [.request 7 .apiKey, .confirm 0 first, .confirm 1 first, .step 0 1, .step 1 1] ++
    List.replicate 6 (.step 0 1) ++ List.replicate 6 (.step 1 1)

/-- One confirmation returns one key. -/
theorem single_use_once : (once.foldl (State.step outside) start).returned.Nodup := by
  refine @single_use outside (fun _ _ h => (List.cons.inj h).1) noTables _ _ _ once ?_ once []
    (List.append_nil _).symm
  refine .cons trivial rfl (.cons trivial rfl (alone_steps 7 fun r' hr' => ?_))
  exact Function.update_of_ne hr' _ _

/-- Both confirmations return a new key. -/
theorem used_twice : ¬ (twice.foldl (State.step outside) start).returned.Nodup := by
  have hreturned : (twice.foldl (State.step outside) start).returned =
      [first.tokenBuffer, first.tokenBuffer] := rfl
  rw [hreturned]
  exact fun h => (List.nodup_cons.mp h).1 List.mem_cons_self

/-! ## What a confirmation leaves -/

section replaced

variable {o : Outside}

/-- A value that the readers of legacy keys look at. -/
def Config.legacy (config : Config) : Prop :=
  config.name = "api_key" ∨ config.name = "api_key_tracker"

/-- The key is no legacy key, and no cache of the ingestion knows it. -/
structure Unused (s : State) (key : String) : Prop where
  configs : ∀ config ∈ s.tables.configs, Config.legacy config → config.value ≠ key
  memory : s.memory key = 0
  accountIdByApiKey : s.accountIdByApiKey key = 0

/-- The readers accept the text, at any time. -/
def Accepted (md5 : String → String) (s : State) (text : String) : Prop :=
  (∃ now, s.resolveApiKeyContext md5 text now ≠ none) ∨ s.findAccountIdByApiKey text ≠ 0

/-- The text is the key of a type, or its hash is stored as it. -/
def IsKey (md5 : String → String) (s : State) (accountId : Nat) (keyType : KeyType) (text : String) :
    Prop :=
  ∃ config ∈ s.tables.configs, config.accountId = accountId ∧ config.name = keyType.name ∧
    (config.value = text ∨ config.value = md5 text)

/-- The text is a key of its own. -/
def IsManaged (md5 : String → String) (s : State) (text : String) : Prop :=
  ∃ key ∈ s.tables.apiKeys, key.regenerated = false ∧ key.keyHash = md5 text

/-- A confirmation replaces one key: the new key is accepted everywhere while it has not
expired, the previous one and hashes nowhere, and all others as before. -/
structure Replaced (md5 : String → String) (s s' : State) (c : Confirmation) : Prop where
  authorised : ∀ now, (∀ key ∈ s'.tables.apiKeys, key.keyHash = md5 c.newKey →
    key.expiresAt.all (now < ·) = true) → s'.resolveApiKeyContext md5 c.newKey now ≠ none
  ingested : s'.findAccountIdByApiKey c.newKey ≠ 0
  previous : ∀ text, IsKey md5 s c.accountId c.keyType text → ¬ Accepted md5 s' text
  digests : ∀ key ∈ s'.tables.apiKeys, ¬ Accepted md5 s' key.keyHash
  others : ∀ text, (IsManaged md5 s text ∨
      ∃ keyType, keyType ≠ c.keyType ∧ IsKey md5 s c.accountId keyType text) →
    (∀ now, s'.resolveApiKeyContext md5 text now = s.resolveApiKeyContext md5 text now) ∧
      s'.findAccountIdByApiKey text = s.findAccountIdByApiKey text

theorem expiry_not_legacy (keyType : KeyType) {config : Config}
    (hname : config.name = keyType.expiresAtName) : ¬ Config.legacy config := by
  rintro (h | h)
  all_goals
    rw [hname] at h
    revert h
    cases keyType <;> decide

theorem Unused.findAccountIdByApiKey {s : State} {key : String} (h : Unused s key) :
    s.findAccountIdByApiKey key = 0 := by
  have hnone : s.tables.legacyKey key = none := by
    refine List.find?_eq_none.mpr fun config hconfig hfound => ?_
    simp only [Bool.and_eq_true, Bool.or_eq_true, decide_eq_true_eq] at hfound
    exact h.configs config hconfig hfound.1 hfound.2
  unfold State.findAccountIdByApiKey
  rw [if_neg (not_not.mpr h.memory), if_neg (not_not.mpr h.accountIdByApiKey), hnone]
  rfl

theorem Unused.of_configs {s s' : State} {key : String} (h : Unused s key)
    (hmemory : s'.memory = s.memory) (hredis : s'.accountIdByApiKey = s.accountIdByApiKey)
    (hconfigs : ∀ config ∈ s'.tables.configs, Config.legacy config →
      config.value ≠ key ∨ config ∈ s.tables.configs) : Unused s' key := by
  refine ⟨fun config hconfig hlegacy => ?_, hmemory ▸ h.memory, hredis ▸ h.accountIdByApiKey⟩
  exact (hconfigs config hconfig hlegacy).elim id fun hold => h.configs config hold hlegacy

theorem Unused.storeHash {s : State} {key : String} (h : Unused s key) (c : Confirmation)
    (hmd5 : o.md5 c.newKey ≠ key) : Unused (s.storeHash o.md5 c) key := by
  refine h.of_configs rfl rfl fun config hconfig _ => ?_
  obtain ⟨old, hold, rfl⟩ := List.mem_map.mp hconfig
  split_ifs
  · exact .inl hmd5
  · exact .inr hold

theorem Unused.setExpiry {s : State} {key : String} (h : Unused s key) (c : Confirmation)
    (expiresAt : Option Nat) : Unused (s.setExpiry o.toIsoString c expiresAt) key := by
  unfold State.setExpiry
  cases expiresAt with
  | none => exact h.of_configs rfl rfl fun config hconfig _ => .inr (List.mem_filter.mp hconfig).1
  | some date =>
      dsimp only
      split
      · refine h.of_configs rfl rfl fun config hconfig hlegacy => ?_
        obtain ⟨old, hold, rfl⟩ := List.mem_map.mp hconfig
        split_ifs at hlegacy ⊢ with hexpiry
        · simp only [Bool.and_eq_true, decide_eq_true_eq] at hexpiry
          exact absurd hlegacy (expiry_not_legacy c.keyType hexpiry.2)
        · exact .inr hold
      · refine h.of_configs rfl rfl fun config hconfig hlegacy => ?_
        rcases List.mem_append.mp hconfig with hold | hnew
        · exact .inr hold
        · obtain rfl := List.mem_singleton.mp hnew
          exact absurd hlegacy (expiry_not_legacy c.keyType rfl)

/-- No statement of a confirmation stores a text that is no hash as a legacy key, or caches it. -/
theorem Unused.advance {s : State} {key : String} (h : Unused s key) {r now : Nat}
    (c : Confirmation) (progress : Progress) (hmd5 : o.md5 c.newKey ≠ key) :
    Unused (s.advance o r now c progress) key := by
  have hsame : ∀ {s' : State}, Unused s' key → ∀ progress, Unused (s'.setProgress r c progress) key :=
    fun h' _ => ⟨h'.configs, h'.memory, h'.accountIdByApiKey⟩
  have hkeys : ∀ apiKeys, Unused (s.setApiKeys apiKeys) key :=
    fun _ => ⟨h.configs, h.memory, h.accountIdByApiKey⟩
  cases progress with
  | begun =>
      unfold State.advance
      dsimp only
      split
      · exact hsame h _
      · split <;> exact hsame h _
  | checked =>
      unfold State.advance
      dsimp only
      split
      · exact hsame h _
      · split <;> exact hsame h _
  | dated expiresAt => exact hsame (hkeys _) _
  | revoked expiresAt =>
      rcases expiresAt with _ | _ | date
      · exact hsame (hkeys _) _
      · exact hsame h _
      · exact hsame (hkeys _) _
  | inserted expiresAt => exact hsame (h.storeHash c hmd5) _
  | stored expiresAt => exact hsame (h.setExpiry c expiresAt) _
  | expirySet => exact ⟨h.configs, h.memory, h.accountIdByApiKey⟩
  | returned => exact h
  | rejected rejection => exact h

theorem Unused.steps {key : String} {r now : Nat} {c : Confirmation}
    (hmd5 : o.md5 c.newKey ≠ key) (n : Nat) :
    ∀ {s : State}, (∃ progress, s.confirmations r = some (c, progress)) → Unused s key →
      Unused ((List.replicate n (Label.step r now)).foldl (State.step o) s) key := by
  induction n with
  | zero => exact fun _ h => h
  | succ n ih =>
      rintro s ⟨progress, hc⟩ h
      have hstep : s.step o (.step r now) = s.advance o r now c progress := by
        simp only [State.step, hc]
      rw [List.replicate_succ, List.foldl_cons, hstep]
      exact ih (advance_self hc) (h.advance c progress hmd5)

/-- A confirmation never replaces the key: its hash is 32 characters long, and the new key,
which is 51 long and unused before, is not accepted by the ingestion of events. -/
theorem never_replaced (hmd5 : ∀ text, (o.md5 text).length = 32) {s : State} {r : Nat}
    (hidle : s.confirmations r = none) {c : Confirmation} (hkey : c.newKey.length = 51)
    (hunused : Unused s c.newKey) (now : Nat) :
    ¬ Replaced o.md5 s (s.confirmRegeneration o r now c) c := by
  intro h
  have hne : o.md5 c.newKey ≠ c.newKey := fun heq => by
    have := hmd5 c.newKey
    rw [heq, hkey] at this
    cases this
  have hbegun : s.step o (.confirm r c) = s.setProgress r c .begun := by
    simp only [State.step, hidle, Option.isSome_none, Bool.false_eq_true, if_false]
  refine h.ingested (Unused.findAccountIdByApiKey ?_)
  unfold State.confirmRegeneration
  rw [List.foldl_cons, hbegun]
  exact Unused.steps hne 7 ⟨_, Function.update_self _ _ _⟩
    ⟨hunused.configs, hunused.memory, hunused.accountIdByApiKey⟩

end replaced

/-! ## A regenerated account -/

/-- The outside with the digests of two keys. -/
def digests : Outside where
  randomBytes n := n :: List.replicate 31 0
  md5 text :=
    if text = "mk_111111111111111111111111111111111111111111111111" then "8e559a825fc172762d0c9c6298566319"
    else if text = "mk_222222222222222222222222222222222222222222222222" then "f658b3069fb3f11b2cb511782a3b8b35"
    else "00000000000000000000000000000000"
  parseDate _ := none
  toIsoString _ := ""

/-- Account 7 has a legacy key, and a tracker key that was regenerated before. -/
def account : State :=
  .initial
    ⟨[], List.nodup_nil, [],
      [⟨1, 7, "f658b3069fb3f11b2cb511782a3b8b35", .admin, true, true, none, none⟩],
      [⟨7, "api_key", "old"⟩, ⟨7, "api_key_tracker", "f658b3069fb3f11b2cb511782a3b8b35"⟩]⟩
    (fun _ => none) (fun _ => 0) fun _ => 0

/-- The confirmation of the token that was requested for its API key. -/
def confirmation : Confirmation :=
  ⟨7, .apiKey, "0000000000000000000000000000000000000000000000000000000000000000",
    "mk_111111111111111111111111111111111111111111111111"⟩

/-- The account after a request of a token. -/
def asked : State := account.step digests (.request 7 .apiKey)

theorem never_replaced_api_key :
    ¬ Replaced digests.md5 asked (asked.confirmRegeneration digests 0 1 confirmation) confirmation := by
  refine never_replaced (o := digests) (fun text => ?_) rfl rfl ⟨?_, rfl, rfl⟩ 1
  · unfold digests
    dsimp only
    split_ifs <;> rfl
  · intro config hconfig _
    simp only [asked, account, State.initial, State.step, State.setToken, List.mem_cons,
      List.not_mem_nil, or_false] at hconfig
    rcases hconfig with rfl | rfl <;> decide

/-- The confirmation returns.  The ingestion rejects the new key and accepts its hash, which the
API accepts too; the tracker key, which the API accepted, is rejected. -/
theorem digest_accepted :
    let s := asked.confirmRegeneration digests 0 1 confirmation
    s.confirmations 0 = some (confirmation, .returned) ∧
    s.findAccountIdByApiKey confirmation.newKey = 0 ∧
    s.findAccountIdByApiKey "8e559a825fc172762d0c9c6298566319" = 7 ∧
    s.resolveApiKeyContext digests.md5 "8e559a825fc172762d0c9c6298566319" 2 =
      some (.apiKey 7 7 .admin) ∧
    asked.resolveApiKeyContext digests.md5 "mk_222222222222222222222222222222222222222222222222" 0 =
      some (.apiKey 1 7 .admin) ∧
    s.resolveApiKeyContext digests.md5 "mk_222222222222222222222222222222222222222222222222" 2 = none :=
  ⟨rfl, rfl, rfl, rfl, rfl, rfl⟩

end OpenBms.Authz.Regeneration
