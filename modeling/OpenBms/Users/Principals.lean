/-
# `OpenBms.Users.Principals` — users, memberships, and what a principal may do

A principal is a user with an active account, or an API key of an account.  Its role is
the override of the membership in the active account, or else the global role; the
permissions are those of the role.  `super_admin` as a global role needs no membership.

| | role | super admin |
| :-- | :-- | :-- |
| user with the global role `super_admin` | `super_admin` | yes |
| member with an override | the override | no |
| other member | the global role, or `editor` | no |
| API key | its role | no |
-/
import Mathlib

namespace OpenBms.Users

/-- `ROLE_CODES`, and any other code of the table or of a request. -/
inductive RoleCode where
  | superAdmin
  | admin
  | editor
  | analyst
  | support
  | billing
  | other (code : String)
  deriving DecidableEq

/-- The permissions that the management of users asks for. -/
inductive Permission where
  | usersInvite
  | usersUpdateRoles
  deriving DecidableEq

/-- `ROLE_PERMISSIONS`. -/
def RoleCode.permissions : RoleCode → List Permission
  | .superAdmin | .admin => [.usersInvite, .usersUpdateRoles]
  | _ => []

inductive Provider where
  | auth0
  | local
  deriving DecidableEq

/-- A row of `users`, `deleted` when `deleted_at` is set. -/
structure User where
  id : Nat
  email : String
  provider : Provider
  globalRole : Option RoleCode
  deleted : Bool

/-- A row of `users_accounts`. -/
structure Membership where
  isMasterUser : Bool
  roleOverride : Option RoleCode
  deriving DecidableEq

/-- The tables: users, memberships by user and account, passwords by user, and which roles
and accounts there are. -/
structure State where
  users : List User
  memberships : Nat → Nat → Option Membership
  passwords : Nat → Option String
  roles : List RoleCode
  accounts : List Nat

namespace State

/-- The row of an id, deleted or not. -/
def user (s : State) (id : Nat) : Option User := s.users.find? (·.id = id)

/-- `findOne`, which skips deleted rows. -/
def findOne (s : State) (id : Nat) : Option User := (s.user id).filter (! ·.deleted)

end State

/-- Who makes a request.  A user comes with the active account; `found` is the user that a
look-up without a provider id returns. -/
inductive Principal where
  | user (id accountId : Nat)
  | apiKey (accountId : Nat) (role : RoleCode) (found : Nat)
  deriving DecidableEq

structure PrincipalContext where
  userId : Option Nat
  accountId : Nat
  effectiveRole : RoleCode
  isSuperAdmin : Bool
  permissions : List Permission

/-- The context of a member, by the role. -/
def memberContext (userId : Option Nat) (accountId : Nat) (role : RoleCode) : PrincipalContext :=
  ⟨userId, accountId, role, false, role.permissions⟩

/-- `resolveUserContext`; `none` stands for its 401 and 403. -/
def resolveUserContext (s : State) (id accountId : Nat) : Option PrincipalContext :=
  (s.findOne id).bind fun user =>
    let globalRole := user.globalRole.getD .editor
    if globalRole = .superAdmin then
      some ⟨some id, accountId, .superAdmin, true, RoleCode.superAdmin.permissions⟩
    else
      (s.memberships id accountId).map fun membership =>
        memberContext (some id) accountId (membership.roleOverride.getD globalRole)

def resolveContext (s : State) : Principal → Option PrincipalContext
  | .user id accountId => resolveUserContext s id accountId
  | .apiKey accountId role _ => some (memberContext none accountId role)

def PrincipalContext.hasPermission (context : PrincipalContext) (permission : Permission) : Bool :=
  context.isSuperAdmin || context.effectiveRole = .superAdmin || permission ∈ context.permissions

/-- `findOneByProviderId` of the principal. -/
def Principal.currentUser : Principal → Nat
  | .user id _ => id
  | .apiKey _ _ found => found

/-- The principal with another active account. -/
def Principal.at : Principal → Nat → Principal
  | .user id _, accountId => .user id accountId
  | .apiKey account role found, _ => .apiKey account role found

/-- The account is one in which the principal may change roles. -/
def Manages (s : State) (p : Principal) (accountId : Nat) : Prop :=
  ∃ context, resolveContext s (p.at accountId) = some context ∧ context.accountId = accountId ∧
    context.hasPermission .usersUpdateRoles = true

/-- The principal is no super admin. -/
def Ordinary (s : State) (p : Principal) : Prop :=
  ∀ context, resolveContext s p = some context → context.isSuperAdmin = false

/-- The user has the global role `super_admin`. -/
def SuperAdmin (s : State) (id : Nat) : Prop :=
  ∃ user, s.user id = some user ∧ user.globalRole = some .superAdmin

/-- The user is a member of an account that the principal manages. -/
def InScope (s : State) (p : Principal) (id : Nat) : Prop :=
  ∃ accountId, Manages s p accountId ∧ s.memberships id accountId ≠ none

end OpenBms.Users
