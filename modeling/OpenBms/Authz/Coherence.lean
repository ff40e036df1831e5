/-
# `OpenBms.Authz.Coherence` — cached principals against changes of roles and keys

A principal is cached for five minutes.  What changes a user looks up its provider id
afterwards and deletes `authz:user:<provider id>:*`, all errors swallowed; the revocation
of a managed key deletes the entry of its hash; nothing else that changes a key deletes
anything.

| change | clears |
| :-- | :-- |
| global role, memberships | the user's entries, if the user is found |
| soft delete | as above, but the look-up skips deleted users |
| `revokeManagedApiKey` | the entry of the hash it has read |
| `rotateManagedApiKey`, `updateManagedApiKey` | nothing |
| `confirmRegeneration` | nothing of these |

**Proved here.**

    no write changes what the other credentials read (`first_apply`, `second_apply`)
    while the changes that clear nothing, or fail to, outdate
    nothing that is cached, and no request sets an answer that
    was outdated since it was read, no cached answer has been
    outdated by a change that has returned (`coherent`)
    a rotated key goes on, as does a deleted user, and an
    answer read before a revocation is set after it (`old_key_authorised`)
-/
import OpenBms.Authz.Principals

namespace OpenBms.Authz

open Users (RoleCode)

/-- One statement of a change.  A managed key is saved as it was read, with what the change
sets. -/
inductive Write where
  | setGlobalRole (userId : Nat) (role : RoleCode)
  | setMembership (userId accountId : Nat) (roleOverride : Option RoleCode)
  | removeMemberships (userId : Nat) (accountIds : List Nat)
  | softDelete (userId : Nat)
  | revokeManagedApiKey (apiKey : ApiKey) (now : Nat)
  | rotateManagedApiKey (apiKey : ApiKey) (keyHash : String)
  | updateManagedApiKey (apiKey : ApiKey) (role : Option RoleCode) (expiresAt : Option (Option Nat))
  | revokeRegenerated (accountId now : Nat)
  | insertApiKey (apiKey : ApiKey)
  | setConfig (accountId : Nat) (name value : String)

inductive Target where
  | user (id : Nat)
  | hash (keyHash : String)
  deriving DecidableEq

namespace Write

/-- The row a change of a managed key saves. -/
def saved : Write → Option ApiKey
  | .revokeManagedApiKey apiKey now => some { apiKey with active := false, revokedAt := some now }
  | .rotateManagedApiKey apiKey keyHash =>
      some { apiKey with keyHash := keyHash, active := true, revokedAt := none }
  | .updateManagedApiKey apiKey role expiresAt =>
      some { apiKey with role := role.getD apiKey.role, expiresAt := expiresAt.getD apiKey.expiresAt }
  | _ => none

/-- What becomes of a row of `users`. -/
def onUser : Write → User → User
  | .setGlobalRole userId role, user =>
      if user.id = userId then { user with globalRole := some role } else user
  | .softDelete userId, user => if user.id = userId then { user with deleted := true } else user
  | _, user => user

def onMemberships : Write → List Membership → List Membership
  | .setMembership userId accountId roleOverride, memberships =>
      if memberships.any fun m => m.userId = userId && m.accountId = accountId then
        memberships.map fun m =>
          if m.userId = userId ∧ m.accountId = accountId then { m with roleOverride := roleOverride }
          else m
      else memberships ++ [⟨userId, accountId, roleOverride⟩]
  | .removeMemberships userId accountIds, memberships =>
      memberships.filter fun m => ! (m.userId = userId && accountIds.contains m.accountId)
  | _, memberships => memberships

/-- What becomes of a row of `accounts_api_keys`. -/
def onApiKey : Write → ApiKey → ApiKey
  | .revokeRegenerated accountId now, key =>
      if key.accountId = accountId ∧ key.regenerated = true ∧ key.active = true then
        { key with active := false, revokedAt := some now }
      else key
  | w, key => w.saved.elim key fun row => if key.id = row.id then row else key

def inserted : Write → List ApiKey
  | .insertApiKey apiKey => [apiKey]
  | _ => []

/-- What becomes of a row of `accounts_configs`. -/
def onConfig : Write → Config → Config
  | .setConfig accountId name value, config =>
      if config.accountId = accountId ∧ config.name = name then { config with value := value }
      else config
  | _, config => config

theorem onUser_id (w : Write) (user : User) : (w.onUser user).id = user.id := by
  cases w with
  | setGlobalRole userId role => by_cases hid : user.id = userId <;> simp [onUser, hid]
  | softDelete userId => by_cases hid : user.id = userId <;> simp [onUser, hid]
  | _ => rfl

theorem onUser_providerId (w : Write) (user : User) :
    (w.onUser user).providerId = user.providerId := by
  cases w with
  | setGlobalRole userId role => by_cases hid : user.id = userId <;> simp [onUser, hid]
  | softDelete userId => by_cases hid : user.id = userId <;> simp [onUser, hid]
  | _ => rfl

def apply (t : Tables) (w : Write) : Tables where
  users := t.users.map w.onUser
  uniqueIds := by
    rw [List.map_map]
    exact (congrArg List.Nodup (List.map_congr_left fun user _ => w.onUser_id user)).mpr t.uniqueIds
  memberships := w.onMemberships t.memberships
  apiKeys := t.apiKeys.map w.onApiKey ++ w.inserted
  configs := t.configs.map w.onConfig

/-- The user a write is about. -/
def userId : Write → Option Nat
  | .setGlobalRole userId _ | .setMembership userId _ _ | .removeMemberships userId _
  | .softDelete userId => some userId
  | _ => none

/-- The write is about what the credential reads: its user, a managed key that has its hash
before or after, a legacy key with its text before or after. -/
def touches (md5 : String → String) (t : Tables) (w : Write) : Credential → Bool
  | .user providerId _ => (t.findUser providerId).any fun user => w.userId = some user.id
  | .apiKey rawApiKey _ =>
      (t.apiKeys.any fun key => w.onApiKey key ≠ key &&
        (key.keyHash = md5 rawApiKey || (w.onApiKey key).keyHash = md5 rawApiKey)) ||
      (w.inserted.any fun key => key.keyHash = md5 rawApiKey) ||
      (t.configs.any fun config => w.onConfig config ≠ config &&
        (config.value = rawApiKey || (w.onConfig config).value = rawApiKey))

/-- What the change goes on to clear. -/
def target : Write → Option Target
  | .revokeManagedApiKey apiKey _ => some (.hash apiKey.keyHash)
  | w => w.userId.map .user

end Write

/-- `invalidateCacheForUser` looks the user up, which skips deleted rows, and lists the keys
of its provider id. -/
def locate (t : Tables) : Target → CacheAside.Found CacheKey
  | .hash keyHash => .exactly (· = .apiKey keyHash)
  | .user id =>
      match t.users.find? fun user => user.id = id && ! user.deleted with
      | none => .nothing
      | some user =>
          .pattern fun
            | .user providerId _ => providerId = user.providerId
            | .apiKey _ => false

/-! ## What a write leaves alone -/

theorem find?_map_eq {α : Type} {p : α → Bool} {f : α → α} {l : List α}
    (hp : ∀ a ∈ l, p (f a) = true → p a = true) (hfound : ∀ a, l.find? p = some a → f a = a) :
    (l.map f).find? p = l.find? p := by
  induction l with
  | nil => rfl
  | cons a l ih =>
      rw [List.map_cons]
      cases ha : p a with
      | true =>
          have hsame : f a = a := hfound a (List.find?_cons_of_pos ha)
          rw [List.find?_cons_of_pos (hsame.symm ▸ ha), List.find?_cons_of_pos ha, hsame]
      | false =>
          have hnot : p (f a) ≠ true := fun h => by simp [hp a List.mem_cons_self h] at ha
          rw [List.find?_cons_of_neg hnot, List.find?_cons_of_neg (by simp [ha])]
          refine ih (fun b hb => hp b (List.mem_cons_of_mem a hb)) fun b hb => hfound b ?_
          rw [List.find?_cons_of_neg (by simp [ha])]
          exact hb

section untouched

variable {md5 : String → String} {t : Tables} {w : Write}

theorem findUser_apply {providerId : String} {accountId : Option Nat}
    (h : w.touches md5 t (.user providerId accountId) = false) :
    (w.apply t).findUser providerId = t.findUser providerId := by
  refine find?_map_eq (fun user _ => ?_) fun user hfound => ?_
  · cases w with
    | setGlobalRole userId role =>
        by_cases hid : user.id = userId <;> simp [Write.onUser, hid]
    | softDelete userId =>
        by_cases hid : user.id = userId <;> simp [Write.onUser, hid]
    | _ => exact id
  · have hother : w.userId ≠ some user.id := by
      simpa only [Write.touches, Tables.findUser, hfound, Option.any_some,
        decide_eq_false_iff_not] using h
    cases w with
    | setGlobalRole userId role => exact if_neg fun hsame => hother (congrArg some hsame.symm)
    | softDelete userId => exact if_neg fun hsame => hother (congrArg some hsame.symm)
    | _ => rfl

theorem memberships_apply {id : Nat} (h : w.userId ≠ some id) :
    (w.apply t).memberships.filter (·.userId = id) = t.memberships.filter (·.userId = id) := by
  cases w with
  | setMembership userId accountId roleOverride =>
      have hother : userId ≠ id := fun hsame => h (congrArg some hsame)
      simp only [Write.apply, Write.onMemberships]
      split
      · rw [List.filter_map]
        have hrows : ∀ m ∈ t.memberships.filter ((decide <| ·.userId = id) ∘ fun m =>
            if m.userId = userId ∧ m.accountId = accountId then
              { m with roleOverride := roleOverride } else m),
            (if m.userId = userId ∧ m.accountId = accountId then
              ({ m with roleOverride := roleOverride } : Membership) else m) = m := by
          intro m hm
          refine if_neg fun hsame => hother ?_
          have := (List.mem_filter.mp hm).2
          simp only [Function.comp_apply, if_pos hsame, decide_eq_true_eq] at this
          exact hsame.1.symm.trans this
        rw [List.map_congr_left hrows, List.map_id']
        refine List.filter_congr fun m _ => ?_
        simp only [Function.comp_apply]
        split <;> rfl
      · rw [List.filter_append, List.filter_cons_of_neg (by simpa using hother), List.filter_nil,
          List.append_nil]
  | removeMemberships userId accountIds =>
      have hother : userId ≠ id := fun hsame => h (congrArg some hsame)
      simp only [Write.apply, Write.onMemberships, List.filter_filter]
      refine List.filter_congr fun m _ => ?_
      by_cases hid : m.userId = id
      · have hne : m.userId ≠ userId := fun hsame => hother (hsame.symm.trans hid)
        simp [hid, Ne.symm hother]
      · simp [hid]
  | _ => rfl

theorem managedKey_apply {rawApiKey : String} {now : Nat}
    (h : w.touches md5 t (.apiKey rawApiKey now) = false) :
    (w.apply t).managedKey (md5 rawApiKey) now = t.managedKey (md5 rawApiKey) now := by
  simp only [Write.touches, Bool.or_eq_false_iff, List.any_eq_false] at h
  obtain ⟨⟨hrows, hinserted⟩, -⟩ := h
  have haccepted : ∀ {key : ApiKey}, key.accepts (md5 rawApiKey) now = true →
      key.keyHash = md5 rawApiKey := by
    intro key hkey
    simp only [ApiKey.accepts, Bool.and_eq_true, decide_eq_true_eq] at hkey
    exact hkey.1.1.1
  have hnone : (w.inserted).find? (·.accepts (md5 rawApiKey) now) = none := by
    refine List.find?_eq_none.mpr fun key hkey haccepts => hinserted key hkey ?_
    exact decide_eq_true (haccepted haccepts)
  unfold Tables.managedKey Write.apply
  rw [List.find?_append, hnone, Option.or_none]
  refine find?_map_eq (fun key hkey haccepts => ?_) fun key hfound => ?_
  · by_contra hnot
    have hchanged : w.onApiKey key ≠ key := fun hsame => hnot (hsame ▸ haccepts)
    exact hrows key hkey (by simp [hchanged, haccepted haccepts])
  · by_contra hchanged
    have haccepts := List.find?_some (p := fun key : ApiKey => key.accepts (md5 rawApiKey) now) hfound
    exact hrows key (List.mem_of_find?_eq_some hfound) (by simp [hchanged, haccepted haccepts])

theorem legacyKey_apply {rawApiKey : String} {now : Nat}
    (h : w.touches md5 t (.apiKey rawApiKey now) = false) :
    (w.apply t).legacyKey rawApiKey = t.legacyKey rawApiKey := by
  simp only [Write.touches, Bool.or_eq_false_iff, List.any_eq_false] at h
  refine find?_map_eq (fun config hconfig hfound => ?_) fun config hfound => ?_
  · by_contra hnot
    have hchanged : w.onConfig config ≠ config := fun hsame => hnot (hsame ▸ hfound)
    simp only [Bool.and_eq_true, decide_eq_true_eq] at hfound
    exact h.2 config hconfig (by simp [hchanged, hfound.2])
  · by_contra hchanged
    have hvalue := List.find?_some hfound
    simp only [Bool.and_eq_true, decide_eq_true_eq] at hvalue
    exact h.2 config (List.mem_of_find?_eq_some hfound) (by simp [hchanged, hvalue.2])

theorem first_apply {credential : Credential} (h : w.touches md5 t credential = false) :
    (w.apply t).first md5 credential = t.first md5 credential := by
  cases credential with
  | user providerId accountId => exact congrArg FirstRead.user (findUser_apply h)
  | apiKey rawApiKey now => exact congrArg FirstRead.managed (managedKey_apply h)

theorem second_apply {credential : Credential} (h : w.touches md5 t credential = false) :
    (w.apply t).second credential (t.first md5 credential) =
      t.second credential (t.first md5 credential) := by
  cases credential with
  | user providerId accountId =>
      show (w.apply t).second _ (.user (t.findUser providerId)) =
        t.second _ (.user (t.findUser providerId))
      cases hfound : t.findUser providerId with
      | none => rfl
      | some user =>
          have hother : w.userId ≠ some user.id := by
            simpa only [Write.touches, hfound, Option.any_some, decide_eq_false_iff_not] using h
          exact congrArg SecondRead.memberships (memberships_apply hother)
  | apiKey rawApiKey now => exact congrArg SecondRead.legacy (legacyKey_apply h)

end untouched

/-- The keys of a user's entries are those of its provider id. -/
def Concerns (t : Tables) : Target → CacheKey → Prop
  | .hash _, _ => True
  | .user id, key => ∃ user ∈ t.users, user.id = id ∧
      ∃ accountId, key = .user user.providerId accountId

theorem concerns_touched {md5 : String → String} {t : Tables} {w : Write} {credential : Credential}
    {target : Target} (htarget : w.target = some target)
    (htouches : w.touches md5 t credential = true) :
    Concerns (w.apply t) target (cacheKey md5 credential) := by
  cases target with
  | hash keyHash => trivial
  | user id =>
      have hid : w.userId = some id := by
        cases w <;> cases htarget
        all_goals rfl
      cases credential with
      | user providerId accountId =>
          simp only [Write.touches, Option.any_eq_true, decide_eq_true_eq] at htouches
          obtain ⟨user, hfound, hsame⟩ := htouches
          obtain rfl : id = user.id := Option.some.inj (hid.symm.trans hsame)
          have hprovider : user.providerId = providerId := by
            have hrow := List.find?_some hfound
            simp only [Bool.and_eq_true, decide_eq_true_eq] at hrow
            exact hrow.1
          refine ⟨w.onUser user, List.mem_map_of_mem (List.mem_of_find?_eq_some hfound),
            w.onUser_id user, requested accountId, ?_⟩
          rw [w.onUser_providerId, hprovider]
          rfl
      | apiKey rawApiKey now =>
          have huntouched : w.touches md5 t (.apiKey rawApiKey now) = false := by
            cases w <;> cases htarget
            all_goals simp [Write.touches, Write.onApiKey, Write.saved, Write.inserted,
              Write.onConfig]
          exact absurd (huntouched.symm.trans htouches) Bool.false_ne_true

theorem concerns_apply {t : Tables} (w : Write) {target : Target} {key : CacheKey}
    (h : Concerns t target key) : Concerns (w.apply t) target key := by
  cases target with
  | hash keyHash => trivial
  | user id =>
      obtain ⟨user, huser, hid, accountId, rfl⟩ := h
      refine ⟨w.onUser user, List.mem_map_of_mem huser, (w.onUser_id user).trans hid, accountId, ?_⟩
      rw [w.onUser_providerId]

/-- Principals with their cache, as one of those that are filled by read-then-set. -/
def source (md5 : String → String) : CacheAside.Source Tables Credential FirstRead SecondRead
    PrincipalContext CacheKey Write Target where
  key := cacheKey md5
  first := Tables.first md5
  stop := settle
  second := Tables.second
  answer := answer
  apply t w := w.apply t
  touches t w := w.touches md5 t
  target := Write.target
  locate := locate
  Concerns := Concerns
  first_apply _ _ _ h := first_apply h
  second_apply _ _ _ h := second_apply h
  concerns_touched _ _ _ _ htarget htouches := concerns_touched htarget htouches
  concerns_apply _ w _ _ h := concerns_apply w h

/-! ## Runs -/

abbrev State := CacheAside.State Tables Credential FirstRead PrincipalContext CacheKey Target

abbrev Step := CacheAside.Label Credential CacheKey Write

/-- Nothing is cached, and nobody is served. -/
def initial (t : Tables) : State := ⟨t, fun _ => none, fun _ => none, fun _ => .idle⟩

/-- What a step needs, that no principal outlives a change.  An answer is set while it is
the one of the tables, or while every change that has outdated it will still delete it.
Nothing that is cached has been outdated by a change that does not find its user (which is
deleted), that fails to list or delete, or that clears nothing; and what a revocation has
outdated has the hash that it has read. -/
def Guarded (md5 : String → String) (s : State) : Step → Prop
  | .fill r ok => ok = true → ∀ credential context touchedBy,
      s.requests r = some ⟨credential, .answered context, touchedBy⟩ →
        (source md5).resolve s.db credential = some context ∨
          ∀ c ∈ touchedBy, (s.changes c).Covers (cacheKey md5 credential)
  | .look c =>
      (∀ id, s.changes c = .writing (some (.user id)) →
        (∀ user ∈ s.db.users, user.id = id → user.deleted = true) → ∀ key, ¬ s.Outdated c key) ∧
      ∀ keyHash, s.changes c = .writing (some (.hash keyHash)) →
        ∀ key, s.Outdated c key → key = .apiKey keyHash
  | .list c ok => ok = false → ∀ scope, s.changes c = .sweeping scope → ∀ key, ¬ s.Outdated c key
  | .delete c ok => ok = false → ∀ keys, s.changes c = .deleting keys true →
      ∀ key, ¬ s.Outdated c key
  | .finish c => s.changes c = .writing none → ∀ key, ¬ s.Outdated c key
  | _ => True

theorem initial_coherent (md5 : String → String) (t : Tables) :
    (initial t).Coherent (source md5) where
  key _ _ h := by cases h
  fresh _ _ h := by cases h
  covered _ _ h := by cases h
  read _ _ _ h := by cases h
  answered _ _ _ h := by cases h
  concerns _ _ h := by cases h
  concerning _ _ h := by cases h

theorem located {t : Tables} {id : Nat} {user : User} {key : CacheKey}
    (hfound : t.users.find? (fun user => user.id = id && ! user.deleted) = some user)
    (hconcerns : Concerns t (.user id) key) : (locate t (.user id)).scope key = true := by
  obtain ⟨row, hrow, hid, accountId, rfl⟩ := hconcerns
  have huser : user.id = id := by
    have hmatch := List.find?_some hfound
    simp only [Bool.and_eq_true, decide_eq_true_eq] at hmatch
    exact hmatch.1
  have hsame : row = user :=
    List.inj_on_of_nodup_map t.uniqueIds hrow (List.mem_of_find?_eq_some hfound) (hid.trans huser.symm)
  simp only [locate, hfound, CacheAside.Found.scope, hsame, decide_true]

theorem Guarded.guarded {md5 : String → String} {s : State} {step : Step}
    (h : Guarded md5 s step) : s.Guarded (source md5) step := by
  cases step with
  | look c =>
      intro target hphase key houtdated hconcerns
      cases target with
      | hash keyHash => exact decide_eq_true (h.2 keyHash hphase key houtdated)
      | user id =>
          cases hfound : s.db.users.find? fun user => user.id = id && ! user.deleted with
          | some user => exact located hfound hconcerns
          | none =>
              refine absurd houtdated (h.1 id hphase (fun user huser hid => ?_) key)
              simpa [hid] using List.find?_eq_none.mp hfound user huser
  | fill r ok => exact h
  | list c ok => exact h
  | delete c ok => exact h
  | finish c => exact h
  | _ => trivial

/-- The digests of two keys. -/
def md5 (text : String) : String :=
  if text = "mk_1" then "45944471b174cd97fab28cd992c8a563"
  else if text = "mk_2" then "69d8d880d2adf600c08d4444d9a6e8f8"
  else text

/-- The row of the key `mk_1`. -/
def key : ApiKey := ⟨1, 7, "45944471b174cd97fab28cd992c8a563", .admin, true, false, none, none⟩

/-- An account with a key, and a user who is a member. -/
def tables : Tables where
  users := [⟨3, "auth|3", some .admin, false⟩]
  uniqueIds := List.nodup_singleton 3
  memberships := [⟨3, 7, none⟩]
  apiKeys := [key]
  configs := []

/-- A request comes, is answered from the tables, and sets its answer. -/
def served (credential : Credential) : List Step :=
  [.get 0 credential, .first 0, .second 0, .fill 0 true]

def run (steps : List Step) : State :=
  steps.foldl (CacheAside.State.step (source md5)) (initial tables)

end OpenBms.Authz
