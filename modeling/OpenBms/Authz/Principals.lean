/-
# `OpenBms.Authz.Principals` — how a credential becomes a principal

A request comes with a token of a user and perhaps an account, or with an API key.  Two
reads decide: the user and then its memberships, or a managed key by its hash and then a
legacy key by its text.  The answer is cached, by the provider id and the account, or by
the hash.

| credential | first read | settles it | second read |
| :-- | :-- | :-- | :-- |
| user | row of the provider id | no row, `super_admin` | memberships |
| API key | active row of the hash | a row | `accounts_configs` with the text |
-/
import OpenBms.Lib.CacheAside
import OpenBms.Users.Principals

namespace OpenBms.Authz

open Users (RoleCode)

/-- A row of `users`, `deleted` when `deleted_at` is set. -/
structure User where
  id : Nat
  providerId : String
  globalRole : Option RoleCode
  deleted : Bool
  deriving DecidableEq

/-- A row of `users_accounts`. -/
structure Membership where
  userId : Nat
  accountId : Nat
  roleOverride : Option RoleCode
  deriving DecidableEq

/-- A row of `accounts_api_keys`; `active` is its status. -/
structure ApiKey where
  id : Nat
  accountId : Nat
  keyHash : String
  role : RoleCode
  active : Bool
  regenerated : Bool
  revokedAt : Option Nat
  expiresAt : Option Nat
  deriving DecidableEq

/-- A row of `accounts_configs`. -/
structure Config where
  accountId : Nat
  name : String
  value : String
  deriving DecidableEq

/-- The tables; `id` is the primary key of `users`. -/
structure Tables where
  users : List User
  uniqueIds : (users.map (·.id)).Nodup
  memberships : List Membership
  apiKeys : List ApiKey
  configs : List Config

/-- Who asks: the provider id of a token with the header `account-id`, or an API key at a
time. -/
inductive Credential where
  | user (providerId : String) (requestedAccountId : Option Nat)
  | apiKey (rawApiKey : String) (now : Nat)
  deriving DecidableEq

/-- A principal; its permissions are those of the effective role. -/
inductive PrincipalContext where
  | user (userId : Nat) (sub : String) (accountId : Option Nat) (globalRole effectiveRole : RoleCode)
      (isSuperAdmin : Bool)
  | apiKey (apiKeyId accountId : Nat) (effectiveRole : RoleCode)
  deriving DecidableEq

inductive CacheKey where
  | user (providerId : String) (accountId : Option Nat)
  | apiKey (hash : String)
  deriving DecidableEq

inductive FirstRead where
  | user (user : Option User)
  | managed (key : Option ApiKey)
  deriving DecidableEq

inductive SecondRead where
  | memberships (memberships : List Membership)
  | legacy (config : Option Config)
  deriving DecidableEq

/-- An account of zero counts as none. -/
def requested (accountId : Option Nat) : Option Nat := accountId.filter (· ≠ 0)

def cacheKey (md5 : String → String) : Credential → CacheKey
  | .user providerId accountId => .user providerId (requested accountId)
  | .apiKey rawApiKey _ => .apiKey (md5 rawApiKey)

/-- The condition of the look-up of a managed key. -/
def ApiKey.accepts (key : ApiKey) (hash : String) (now : Nat) : Bool :=
  key.keyHash = hash && key.active && key.revokedAt.isNone && key.expiresAt.all (now < ·)

namespace Tables

def findUser (t : Tables) (providerId : String) : Option User :=
  t.users.find? fun user => user.providerId = providerId && ! user.deleted

def managedKey (t : Tables) (hash : String) (now : Nat) : Option ApiKey :=
  t.apiKeys.find? (·.accepts hash now)

def legacyKey (t : Tables) (rawApiKey : String) : Option Config :=
  t.configs.find? fun config =>
    (config.name = "api_key" || config.name = "api_key_tracker") && config.value = rawApiKey

def first (md5 : String → String) (t : Tables) : Credential → FirstRead
  | .user providerId _ => .user (t.findUser providerId)
  | .apiKey rawApiKey now => .managed (t.managedKey (md5 rawApiKey) now)

def second (t : Tables) : Credential → FirstRead → SecondRead
  | .user .., .user (some user) => .memberships (t.memberships.filter (·.userId = user.id))
  | .user .., _ => .memberships []
  | .apiKey rawApiKey _, _ => .legacy (t.legacyKey rawApiKey)

end Tables

/-- What the first read settles; the outer `none` goes on to the second. -/
def settle : Credential → FirstRead → Option (Option PrincipalContext)
  | .user providerId accountId, .user user =>
      match user with
      | none => some none
      | some user =>
          if user.globalRole = some .superAdmin then
            some (some (.user user.id providerId accountId .superAdmin .superAdmin true))
          else none
  | .apiKey .., .managed (some key) => some (some (.apiKey key.id key.accountId key.role))
  | _, _ => none

/-- The answer of both reads; `none` stands for the 401 and the 403. -/
def answer : Credential → FirstRead → SecondRead → Option PrincipalContext
  | .user providerId accountId, .user (some user), .memberships memberships =>
      ((requested accountId).or (memberships.head?.map (·.accountId))).bind fun accountId =>
        (memberships.find? (·.accountId = accountId)).map fun membership =>
          let globalRole := user.globalRole.getD .editor
          .user user.id providerId (some accountId) globalRole
            (membership.roleOverride.getD globalRole) false
  | .apiKey .., _, .legacy config =>
      config.map fun config => .apiKey config.accountId config.accountId .admin
  | _, _, _ => none

/-- What an API key authenticates as, by the tables. -/
def Tables.resolveApiKey (md5 : String → String) (t : Tables) (rawApiKey : String) (now : Nat) :
    Option PrincipalContext :=
  match t.managedKey (md5 rawApiKey) now with
  | some key => some (.apiKey key.id key.accountId key.role)
  | none => (t.legacyKey rawApiKey).map fun config => .apiKey config.accountId config.accountId .admin

end OpenBms.Authz
