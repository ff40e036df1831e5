/-
# `OpenBms.Users.Management` — the requests that manage users

Eight endpoints write global roles, memberships and passwords.  The guard asks for a
permission in the active account only; what else is checked differs.

| endpoint | asks for | refuses `super_admin` | refuses oneself |
| :-- | :-- | :-- | :-- |
| `create`, `invite` | `users_invite` | unless super admin | — |
| `update` | `users_update_roles` | unless super admin | unless super admin |
| `updateGlobalRole` | `users_update_roles` | no | no |
| `updatePassword` | `users_update_roles` | — | no |
| `addAccountMembership` | `users_update_roles` | yes | no |
| `updateAccountRole`, `removeAccountMembership` | `users_update_roles` | yes | unless super admin |
| `permissionsAccounts` | `users_update_roles` | yes | no |

No endpoint compares the user or the account it writes with the accounts of the requester.
-/
import OpenBms.Users.Principals

namespace OpenBms.Users

structure HttpException where
  message : String
  status : Nat
  deriving DecidableEq

/-- An account of a request with the membership it asks for. -/
structure AccountItem where
  accountId : Nat
  isMasterUser : Bool
  roleOverrideCode : Option RoleCode
  deriving DecidableEq

/-- `CreateUserDto`, without the texts of a profile. -/
structure CreateUserDto where
  id : Option Nat
  email : Option String
  password : Option String
  accounts : Option (List AccountItem)
  globalRoleCode : Option RoleCode

/-- `newId` is what the sequence of `users` gives. -/
inductive Request where
  | create (dto : CreateUserDto) (newId : Nat)
  | permissionsAccounts (userId : Nat) (userMasterId : Option Nat) (accounts : List AccountItem)
  | update (id : Nat) (dto : CreateUserDto)
  | updatePassword (id : Nat) (password : String)
  | updateGlobalRole (id : Nat) (roleCode : Option RoleCode)
  | addAccountMembership (id accountId : Nat) (roleOverrideCode : Option RoleCode)
  | updateAccountRole (id accountId : Nat) (roleOverrideCode : Option RoleCode)
  | removeAccountMembership (id accountId : Nat)

/-- What a request leaves, and what it is answered. -/
abbrev Outcome := State × Except HttpException Unit

def forbidden : HttpException := ⟨"Cannot assign super_admin role", 403⟩

def selfModify : HttpException := ⟨"Cannot modify your own role/membership", 403⟩

def conflict : HttpException := ⟨"User already exists", 409⟩

namespace State

variable (lower : String → String) (s : State)

def findRoleByCode (roleCode : Option RoleCode) : Except HttpException RoleCode :=
  let code := roleCode.getD .editor
  if code ∈ s.roles then .ok code
  else if .editor ∈ s.roles then .ok .editor
  else .error ⟨"Role not found", 400⟩

def resolveAccountOverrideRoleId : Option RoleCode → Except HttpException (Option RoleCode)
  | none => .ok none
  | some .superAdmin => .error ⟨"Invalid role override", 422⟩
  | some code => (s.findRoleByCode (some code)).map some

/-- The row with the id of the user becomes the user. -/
def setUser (id : Nat) (user : User) : State :=
  { s with users := s.users.map fun row => if row.id = id then user else row }

def setMembership (userId accountId : Nat) (membership : Option Membership) : State :=
  { s with
    memberships := fun user account =>
      if user = userId ∧ account = accountId then membership else s.memberships user account }

def setPassword (userId : Nat) (password : String) : State :=
  { s with passwords := Function.update s.passwords userId (some password) }

/-- The accounts of the items, with the memberships they ask for. -/
def resolveItems : List AccountItem → Except HttpException (List (Nat × Membership))
  | [] => .ok []
  | item :: items =>
      if item.roleOverrideCode = some .superAdmin then .error forbidden
      else
        match s.resolveAccountOverrideRoleId item.roleOverrideCode with
        | .error e => .error e
        | .ok role =>
            match resolveItems items with
            | .error e => .error e
            | .ok rest => .ok ((item.accountId, ⟨item.isMasterUser, role⟩) :: rest)

/-- `DELETE` of the memberships in the accounts whose master the other user is. -/
def deleteMastered (userId masterId : Nat) : State :=
  { s with
    memberships := fun user account =>
      if user = userId ∧ ∃ membership ∈ s.memberships masterId account, membership.isMasterUser = true
      then none else s.memberships user account }

/-- The items one after the other. -/
def saveItems (userId : Nat) : List (Nat × Membership) → State → State
  | [], s => s
  | (accountId, membership) :: rest, s =>
      saveItems userId rest (s.setMembership userId accountId (some membership))

/-- All items are resolved before anything is written; those that are saved are rolled back
when a user or an account does not exist. -/
def permissionsAccounts (userId : Nat) (userMasterId : Option Nat) (accounts : List AccountItem) :
    Outcome :=
  match s.resolveItems accounts with
  | .error e => (s, .error e)
  | .ok usersAccounts =>
      let s' := userMasterId.elim s fun masterId =>
        if masterId = 0 then s else s.deleteMastered userId masterId
      if usersAccounts = [] ∨ ((s.user userId).isSome ∧ ∀ item ∈ usersAccounts, item.1 ∈ s.accounts)
      then (saveItems userId usersAccounts s', .ok ())
      else (s', .error ⟨"Cannot permission accounts to user", 500⟩)

/-- A soft-deleted user is restored with the role, the password and only the accounts of the
request. -/
def restore (existing : User) (dto : CreateUserDto) : Outcome :=
  match s.findRoleByCode dto.globalRoleCode with
  | .error e => (s, .error e)
  | .ok role =>
      let restored := s.setUser existing.id { existing with deleted := false, globalRole := some role }
      let accounts := dto.accounts.getD []
      let clear (s : State) : State :=
        { s with
          memberships := fun user account =>
            if user = existing.id then none else s.memberships user account }
      let share (s : State) : Outcome :=
        if accounts = [] then (s, .ok ()) else s.permissionsAccounts existing.id none accounts
      match dto.password with
      | none => share (clear restored)
      | some password =>
          if existing.provider = .local then share (clear (restored.setPassword existing.id password))
          else (restored, .error ⟨"LocalAuthProvider cannot update non-local provider user", 400⟩)

/-- `save` of a new user.  With the id of a row, it is an update of that row. -/
def saveUser (dto : CreateUserDto) (newId : Nat) (role : RoleCode) : Except HttpException (State × User) :=
  match dto.id.bind s.user with
  | some row =>
      let user : User :=
        { row with email := dto.email.getD row.email, provider := .local, globalRole := some role }
      if ∃ other ∈ s.users, other.email = user.email ∧ other.id ≠ row.id then .error conflict
      else .ok (s.setUser row.id user, user)
  | none =>
      match dto.email with
      | none => .error ⟨"Failed to create user", 500⟩
      | some email =>
          let user : User := ⟨dto.id.getD newId, lower email, .local, some role, false⟩
          if ∃ other ∈ s.users, other.id = user.id ∨ other.email = user.email then .error conflict
          else .ok ({ s with users := s.users ++ [user] }, user)

/-- The first row with the e-mail, deleted or not; without an e-mail, the first row. -/
def findByEmail (email : Option String) : Option User :=
  s.users.find? fun user => ∀ e ∈ email, user.email = e

def create (dto : CreateUserDto) (newId : Nat) (isSuperAdmin : Bool) : Outcome :=
  if dto.globalRoleCode = some .superAdmin ∧ isSuperAdmin = false then (s, .error forbidden)
  else
    match (s.findByEmail dto.email).filter (·.deleted) with
    | some existing => s.restore existing dto
    | none =>
        match s.findRoleByCode dto.globalRoleCode with
        | .error e => (s, .error e)
        | .ok role =>
            match s.saveUser lower dto newId role with
            | .error e => (s, .error e)
            | .ok (s', user) =>
                let accounts := dto.accounts.getD []
                let share (s : State) : Outcome :=
                  if accounts = [] then (s, .ok ()) else s.permissionsAccounts user.id none accounts
                match dto.password with
                | none => share s'
                | some password =>
                    if user.deleted then (s', .error ⟨"User not found", 404⟩)
                    else share (s'.setPassword user.id password)

/-- The row of `update`: a merged id moves it, which rows that refer to it forbid. -/
def updateRow (user : User) (dto : CreateUserDto) (globalRole : Option RoleCode) :
    Except HttpException State :=
  let row : User :=
    { user with
      id := dto.id.getD user.id, email := dto.email.getD user.email, globalRole := globalRole }
  if (∃ other ∈ s.users, other.id ≠ user.id ∧ (other.email = row.email ∨ other.id = row.id)) ∨
      (row.id ≠ user.id ∧ ((s.passwords user.id).isSome ∨
        ∃ account ∈ s.accounts, (s.memberships user.id account).isSome)) then
    .error ⟨"Internal Server Error", 500⟩
  else .ok (s.setUser user.id row)

def update (id : Nat) (dto : CreateUserDto) (currentUser : Nat) (isSuperAdmin : Bool) : Outcome :=
  if dto.globalRoleCode = some .superAdmin ∧ isSuperAdmin = false then (s, .error forbidden)
  else if isSuperAdmin = false ∧ id = currentUser ∧ (dto.globalRoleCode.isSome ∨ dto.accounts.isSome) then
    (s, .error selfModify)
  else
    match s.findOne id with
    | none => (s, .error ⟨"User not found", 404⟩)
    | some user =>
        let globalRole : Except HttpException (Option RoleCode) :=
          match dto.globalRoleCode with
          | none => .ok user.globalRole
          | some code => (s.findRoleByCode (some code)).map some
        match globalRole.bind (s.updateRow user dto) with
        | .error e => (s, .error e)
        | .ok s' =>
            match dto.accounts with
            | none => (s', .ok ())
            | some accounts =>
                s'.permissionsAccounts (dto.id.getD user.id) (some currentUser) accounts

/-- A user that is not found is no error. -/
def updatePassword (id : Nat) (password : String) : Outcome :=
  match s.findOne id with
  | none => (s, .ok ())
  | some user =>
      if user.provider = .local then (s.setPassword id password, .ok ())
      else (s, .error ⟨"User provider does not match active provider 'local'", 400⟩)

/-- `UPDATE users`, also of a deleted row. -/
def updateGlobalRole (id : Nat) (roleCode : Option RoleCode) : Outcome :=
  match s.findRoleByCode roleCode with
  | .error e => (s, .error e)
  | .ok role =>
      match s.user id with
      | none => (s, .error ⟨"User not found by id", 404⟩)
      | some user => (s.setUser id { user with globalRole := some role }, .ok ())

def addAccountMembership (userId accountId : Nat) (roleOverrideCode : Option RoleCode) : Outcome :=
  if roleOverrideCode = some .superAdmin then (s, .error forbidden)
  else
    match s.resolveAccountOverrideRoleId roleOverrideCode with
    | .error e => (s, .error e)
    | .ok role =>
        if (s.user userId).isSome ∧ accountId ∈ s.accounts then
          (s.setMembership userId accountId (some ⟨false, role⟩), .ok ())
        else (s, .error ⟨"Internal server error", 500⟩)

def updateAccountRole (userId accountId : Nat) (roleOverrideCode : Option RoleCode)
    (requester : Option Nat) (isSuperAdmin : Bool) : Outcome :=
  if roleOverrideCode = some .superAdmin then (s, .error forbidden)
  else if isSuperAdmin = false ∧ requester = some userId then (s, .error selfModify)
  else
    match s.memberships userId accountId with
    | none => (s, .error ⟨"User does not belong to account", 403⟩)
    | some membership =>
        match s.resolveAccountOverrideRoleId roleOverrideCode with
        | .error e => (s, .error e)
        | .ok role =>
            (s.setMembership userId accountId (some { membership with roleOverride := role }), .ok ())

def removeAccountMembership (userId accountId : Nat) (requester : Option Nat) (isSuperAdmin : Bool) :
    Outcome :=
  if isSuperAdmin = false ∧ requester = some userId then (s, .error selfModify)
  else if (s.memberships userId accountId).isSome then
    (s.setMembership userId accountId none, .ok ())
  else (s, .error ⟨"User does not belong to account", 403⟩)

end State

/-- The permission an endpoint asks for. -/
def Request.requires : Request → Permission
  | .create .. => .usersInvite
  | _ => .usersUpdateRoles

/-- A request of a principal, by the guard and the controller. -/
def State.handle (lower : String → String) (s : State) (p : Principal) (r : Request) : Outcome :=
  match resolveContext s p with
  | none => (s, .error ⟨"Unauthorized", 401⟩)
  | some context =>
      if context.hasPermission r.requires = false then (s, .error ⟨"Missing required permission", 403⟩)
      else
        match r with
        | .create dto newId => s.create lower dto newId context.isSuperAdmin
        | .permissionsAccounts userId userMasterId accounts =>
            s.permissionsAccounts userId userMasterId accounts
        | .update id dto => s.update id dto p.currentUser context.isSuperAdmin
        | .updatePassword id password => s.updatePassword id password
        | .updateGlobalRole id roleCode => s.updateGlobalRole id roleCode
        | .addAccountMembership id accountId code => s.addAccountMembership id accountId code
        | .updateAccountRole id accountId code =>
            s.updateAccountRole id accountId code context.userId context.isSuperAdmin
        | .removeAccountMembership id accountId =>
            s.removeAccountMembership id accountId context.userId context.isSuperAdmin

def State.step (lower : String → String) (s : State) (pr : Principal × Request) : State :=
  (s.handle lower pr.1 pr.2).1

end OpenBms.Users
