/-
# `OpenBms.Users.Escalation` — what a request may change, and for whom

A request changes at most its footprint: the global roles, the passwords and the
memberships that its fields name, once the checks of its endpoint are passed.  Whether a
requester stays within the accounts it manages is a question about the footprint, since no
endpoint asks it.

| request | global role | password | memberships |
| :-- | :-- | :-- | :-- |
| `create` of a deleted user | of that user | of that user | all of that user, and the items |
| `create` with the id of a row | of that row | of that row | the items |
| other `create` | of a new user | of a new user | the items |
| `update` | of the user, and of the id it gets | — | the items, and those the requester masters |
| `permissionsAccounts` | — | — | the items, and those the master masters |
| others | of the user | of the user | the one |

**Proved here.**

    a request changes at most its footprint (`handle_within`)
    while requests write only users and accounts that the
    requester manages, and no global role `super_admin`, no
    request makes a super admin, and none changes anybody else (`no_escalation`)
    an admin makes anybody a super admin, and takes over a user
    of another account (`escalates`)
-/
import OpenBms.Lib.Runs
import OpenBms.Users.Management

namespace OpenBms.Users

/-! ## Footprints -/

/-- The global role of a user, if there is a row. -/
def State.globalRole (s : State) (id : Nat) : Option (Option RoleCode) :=
  (s.user id).map (·.globalRole)

/-- Which global role each user may be left with, whose password and which memberships may
be written. -/
structure Footprint where
  role : Nat → Option (Option RoleCode) → Prop
  password : Nat → Prop
  membership : Nat → Nat → Prop

def Footprint.empty : Footprint := ⟨fun _ _ => False, fun _ => False, fun _ _ => False⟩

/-- What `permissionsAccounts` writes: nothing if an item is refused, the items if the user
and the accounts exist, and what the master takes away in any case. -/
def State.Shares (s : State) (userId : Nat) (userMasterId : Option Nat)
    (accounts : List AccountItem) (id accountId : Nat) : Prop :=
  id = userId ∧ ∃ items, s.resolveItems accounts = .ok items ∧
    ((accountId ∈ items.map (·.1) ∧ (s.user userId).isSome ∧ ∀ item ∈ items, item.1 ∈ s.accounts) ∨
      ((s.memberships userId accountId).isSome ∧ ∃ masterId ∈ userMasterId, masterId ≠ 0 ∧
        ∃ membership ∈ s.memberships masterId accountId, membership.isMasterUser = true))

/-- The global role `update` writes. -/
def State.updatedRole (s : State) (user : User) (dto : CreateUserDto) :
    Except HttpException (Option RoleCode) :=
  match dto.globalRoleCode with
  | none => .ok user.globalRole
  | some code => (s.findRoleByCode (some code)).map some

/-- What `create` may write, when the principal is ordinary. -/
def CreateUserDto.footprint (lower : String → String) (s : State) (dto : CreateUserDto)
    (newId : Nat) : Footprint :=
  if dto.globalRoleCode = some .superAdmin then .empty
  else
    match s.findRoleByCode dto.globalRoleCode with
    | .error _ => .empty
    | .ok role =>
        match (s.findByEmail dto.email).filter (·.deleted) with
        | some existing =>
            { role := fun id value => id = existing.id ∧ value = some (some role)
              password := fun id => id = existing.id ∧ dto.password.isSome
              membership := fun id accountId =>
                (dto.password.isSome → existing.provider = .local) ∧
                  ((id = existing.id ∧ (s.memberships id accountId).isSome) ∨
                    s.Shares existing.id none (dto.accounts.getD []) id accountId) }
        | none =>
            match s.saveUser lower dto newId role with
            | .error _ => .empty
            | .ok (s', user) =>
                { role := fun id value => id = user.id ∧ value = some (some role)
                  password := fun id => id = user.id ∧ dto.password.isSome
                  membership := fun id accountId =>
                    (dto.password.isSome → user.deleted = false) ∧
                      s'.Shares user.id none (dto.accounts.getD []) id accountId }

/-- What `update` may write, when the principal is ordinary. -/
def CreateUserDto.updateFootprint (s : State) (id : Nat) (dto : CreateUserDto)
    (currentUser : Nat) : Footprint :=
  if dto.globalRoleCode = some .superAdmin ∨
      (id = currentUser ∧ (dto.globalRoleCode.isSome ∨ dto.accounts.isSome)) then .empty
  else
    match s.findOne id with
    | none => .empty
    | some user =>
        match s.updatedRole user dto with
        | .error _ => .empty
        | .ok globalRole =>
            match s.updateRow user dto globalRole with
            | .error _ => .empty
            | .ok s' =>
                { role := fun id' value =>
                    (id' = user.id ∧ dto.id.getD user.id ≠ user.id ∧ value = none) ∨
                      (id' = dto.id.getD user.id ∧ value = some globalRole)
                  password := fun _ => False
                  membership := fun id' accountId => ∃ accounts ∈ dto.accounts,
                    s'.Shares (dto.id.getD user.id) (some currentUser) accounts id' accountId }

/-- What a request of an ordinary principal may write. -/
def Request.footprint (lower : String → String) (s : State) (currentUser : Nat)
    (requester : Option Nat) : Request → Footprint
  | .create dto newId => dto.footprint lower s newId
  | .permissionsAccounts userId userMasterId accounts =>
      { Footprint.empty with membership := s.Shares userId userMasterId accounts }
  | .update id dto => dto.updateFootprint s id currentUser
  | .updatePassword id _ =>
      { Footprint.empty with
        password := fun id' => id' = id ∧ ∃ user, s.findOne id = some user ∧ user.provider = .local }
  | .updateGlobalRole id roleCode =>
      { Footprint.empty with
        role := fun id' value => id' = id ∧ (s.user id).isSome ∧
          ∃ role, s.findRoleByCode roleCode = .ok role ∧ value = some (some role) }
  | .addAccountMembership userId accountId code =>
      { Footprint.empty with
        membership := fun id account => (id = userId ∧ account = accountId) ∧
          (∃ role, s.resolveAccountOverrideRoleId code = .ok role) ∧
          (s.user userId).isSome ∧ accountId ∈ s.accounts }
  | .updateAccountRole userId accountId code =>
      { Footprint.empty with
        membership := fun id account => (id = userId ∧ account = accountId) ∧
          requester ≠ some userId ∧ (s.memberships userId accountId).isSome ∧
          ∃ role, s.resolveAccountOverrideRoleId code = .ok role }
  | .removeAccountMembership userId accountId =>
      { Footprint.empty with
        membership := fun id account => (id = userId ∧ account = accountId) ∧
          requester ≠ some userId ∧ (s.memberships userId accountId).isSome }

/-- At most the footprint changes. -/
structure Within (f : Footprint) (s s' : State) : Prop where
  roles : s'.roles = s.roles
  accounts : s'.accounts = s.accounts
  globalRole : ∀ id, s'.globalRole id = s.globalRole id ∨ f.role id (s'.globalRole id)
  passwords : ∀ id, s'.passwords id = s.passwords id ∨ f.password id
  memberships : ∀ id accountId,
    s'.memberships id accountId = s.memberships id accountId ∨ f.membership id accountId

namespace Within

variable {f : Footprint} {s s' s'' : State}

theorem refl (f : Footprint) (s : State) : Within f s s :=
  ⟨rfl, rfl, fun _ => .inl rfl, fun _ => .inl rfl, fun _ _ => .inl rfl⟩

theorem trans (h : Within f s s') (h' : Within f s' s'') : Within f s s'' := by
  refine ⟨h'.roles.trans h.roles, h'.accounts.trans h.accounts, fun id => ?_, fun id => ?_,
    fun id accountId => ?_⟩
  · rcases h'.globalRole id with heq | hrole
    · rw [heq]
      exact h.globalRole id
    · exact .inr hrole
  · rcases h'.passwords id with heq | hpassword
    · rw [heq]
      exact h.passwords id
    · exact .inr hpassword
  · rcases h'.memberships id accountId with heq | hmembership
    · rw [heq]
      exact h.memberships id accountId
    · exact .inr hmembership

end Within

/-! ## Writes -/

section writes

variable {f : Footprint} {s : State}

theorem find_replaced {users : List User} {id : Nat} {row : User} (hrow : row.id ≠ id) :
    (users.map fun user => if user.id = id then row else user).find? (·.id = id) = none := by
  refine List.find?_eq_none.mpr fun found hfound => ?_
  obtain ⟨user, -, rfl⟩ := List.mem_map.mp hfound
  by_cases hid : user.id = id
  · simpa only [if_pos hid, decide_eq_true_eq] using hrow
  · simpa only [if_neg hid, decide_eq_true_eq] using hid

theorem find_setUser (users : List User) {id id' : Nat} {row : User} (hother : id' ≠ id)
    (hrow : id' ≠ row.id) :
    (users.map fun user => if user.id = id then row else user).find? (·.id = id') =
      users.find? (·.id = id') := by
  induction users with
  | nil => rfl
  | cons user users ih =>
      rw [List.map_cons]
      by_cases hid : user.id = id
      · rw [if_pos hid, List.find?_cons_of_neg (by simpa using Ne.symm hrow), ih,
          List.find?_cons_of_neg (by simpa [hid] using Ne.symm hother)]
      · rw [if_neg hid]
        by_cases hfound : user.id = id'
        · rw [List.find?_cons_of_pos (by simpa using hfound),
            List.find?_cons_of_pos (by simpa using hfound)]
        · rw [List.find?_cons_of_neg (by simpa using hfound), ih,
            List.find?_cons_of_neg (by simpa using hfound)]

theorem find_setUser_self (users : List User) (id : Nat) (row : User) :
    (users.map fun user => if user.id = id then row else user).find? (·.id = row.id) =
        users.find? (·.id = row.id) ∨
      (users.map fun user => if user.id = id then row else user).find? (·.id = row.id) =
        some row := by
  induction users with
  | nil => exact .inl rfl
  | cons user users ih =>
      rw [List.map_cons]
      by_cases hid : user.id = id
      · rw [if_pos hid]
        exact .inr (List.find?_cons_of_pos (by simp))
      · rw [if_neg hid]
        by_cases hfound : user.id = row.id
        · refine .inl ?_
          rw [List.find?_cons_of_pos (by simpa using hfound),
            List.find?_cons_of_pos (by simpa using hfound)]
        · rw [List.find?_cons_of_neg (by simpa using hfound),
            List.find?_cons_of_neg (by simpa using hfound)]
          exact ih

theorem within_setUser {id : Nat} {row : User}
    (hgone : row.id ≠ id → f.role id none) (hrow : f.role row.id (some row.globalRole)) :
    Within f s (s.setUser id row) := by
  refine ⟨rfl, rfl, fun id' => ?_, fun _ => .inl rfl, fun _ _ => .inl rfl⟩
  unfold State.globalRole State.user State.setUser
  by_cases hself : id' = row.id
  · subst hself
    rcases find_setUser_self s.users id row with heq | heq
    · exact .inl (congrArg _ heq)
    · rw [heq]
      exact .inr hrow
  · by_cases hid : id' = id
    · subst hid
      rw [find_replaced (Ne.symm hself)]
      exact .inr (hgone (Ne.symm hself))
    · exact .inl (congrArg _ (find_setUser s.users hid hself))

theorem within_addUser {user : User} (hrow : f.role user.id (some user.globalRole)) :
    Within f s { s with users := s.users ++ [user] } := by
  refine ⟨rfl, rfl, fun id => ?_, fun _ => .inl rfl, fun _ _ => .inl rfl⟩
  unfold State.globalRole State.user
  rw [List.find?_append]
  cases s.users.find? (·.id = id) with
  | some found => exact .inl rfl
  | none =>
      by_cases hid : user.id = id
      · rw [List.find?_cons_of_pos (by simpa using hid)]
        subst hid
        exact .inr hrow
      · rw [List.find?_cons_of_neg (by simpa using hid)]
        exact .inl rfl

theorem within_setPassword {id : Nat} {password : String} (hid : f.password id) :
    Within f s (s.setPassword id password) := by
  refine ⟨rfl, rfl, fun _ => .inl rfl, fun id' => ?_, fun _ _ => .inl rfl⟩
  by_cases hsame : id' = id
  · subst hsame
    exact .inr hid
  · exact .inl (Function.update_of_ne hsame _ _)

theorem within_setMembership {userId accountId : Nat} {membership : Option Membership}
    (hmembership : f.membership userId accountId) :
    Within f s (s.setMembership userId accountId membership) := by
  refine ⟨rfl, rfl, fun _ => .inl rfl, fun _ => .inl rfl, fun id account => ?_⟩
  by_cases hsame : id = userId ∧ account = accountId
  · obtain ⟨rfl, rfl⟩ := hsame
    exact .inr hmembership
  · exact .inl (if_neg hsame)

theorem within_saveItems {userId : Nat} {items : List (Nat × Membership)}
    (hitems : ∀ item ∈ items, f.membership userId item.1) :
    Within f s (State.saveItems userId items s) := by
  induction items generalizing s with
  | nil => exact .refl f s
  | cons item items ih =>
      obtain ⟨hitem, hrest⟩ := List.forall_mem_cons.mp hitems
      exact (within_setMembership hitem).trans (ih hrest)

theorem within_deleteMastered {userId masterId : Nat}
    (hmastered : ∀ accountId, (s.memberships userId accountId).isSome →
      (∃ membership ∈ s.memberships masterId accountId, membership.isMasterUser = true) →
      f.membership userId accountId) :
    Within f s (s.deleteMastered userId masterId) := by
  refine ⟨rfl, rfl, fun _ => .inl rfl, fun _ => .inl rfl, fun id account => ?_⟩
  by_cases hdeleted : id = userId ∧
      ∃ membership ∈ s.memberships masterId account, membership.isMasterUser = true
  · obtain ⟨rfl, hmaster⟩ := hdeleted
    cases hmember : s.memberships id account with
    | none => exact .inl (if_pos ⟨rfl, hmaster⟩)
    | some membership =>
        exact .inr (hmastered account (by rw [hmember]; rfl) hmaster)
  · exact .inl (if_neg hdeleted)

end writes

/-! ## Requests -/

section requests

variable {lower : String → String} {f : Footprint} {s s' : State}

theorem resolveItems_congr (hroles : s.roles = s'.roles) (items : List AccountItem) :
    s.resolveItems items = s'.resolveItems items := by
  have hrole : s.resolveAccountOverrideRoleId = s'.resolveAccountOverrideRoleId := by
    funext code
    unfold State.resolveAccountOverrideRoleId State.findRoleByCode
    rw [hroles]
  induction items with
  | nil => rfl
  | cons item items ih => rw [State.resolveItems, State.resolveItems, hrole, ih]

theorem permissionsAccounts_within {userId : Nat} {userMasterId : Option Nat}
    {accounts : List AccountItem}
    (hshares : ∀ id accountId, s.Shares userId userMasterId accounts id accountId →
      f.membership id accountId) :
    Within f s (s.permissionsAccounts userId userMasterId accounts).1 := by
  unfold State.permissionsAccounts
  cases hitems : s.resolveItems accounts with
  | error e => exact .refl f s
  | ok items =>
      have hdelete : Within f s (userMasterId.elim s fun masterId =>
          if masterId = 0 then s else s.deleteMastered userId masterId) := by
        cases userMasterId with
        | none => exact .refl f s
        | some masterId =>
            by_cases hzero : masterId = 0
            · simp only [Option.elim_some, if_pos hzero]
              exact .refl f s
            · simp only [Option.elim_some, if_neg hzero]
              exact within_deleteMastered fun accountId hmember hmaster =>
                hshares userId accountId
                  ⟨rfl, items, hitems, .inr ⟨hmember, masterId, rfl, hzero, hmaster⟩⟩
      by_cases hsaved : items = [] ∨
          ((s.user userId).isSome ∧ ∀ item ∈ items, item.1 ∈ s.accounts)
      · simp only [if_pos hsaved]
        refine hdelete.trans (within_saveItems fun item hitem => ?_)
        rcases hsaved with rfl | ⟨huser, haccounts⟩
        · cases hitem
        · exact hshares userId item.1
            ⟨rfl, items, hitems, .inl ⟨List.mem_map_of_mem hitem, huser, haccounts⟩⟩
      · simp only [if_neg hsaved]
        exact hdelete

theorem Shares.congr (hroles : s'.roles = s.roles) (haccounts : s'.accounts = s.accounts)
    {userId : Nat} {accounts : List AccountItem} (huser : (s'.user userId).isSome → (s.user userId).isSome)
    {id accountId : Nat} (h : s'.Shares userId none accounts id accountId) :
    s.Shares userId none accounts id accountId := by
  obtain ⟨rfl, items, hitems, hshared | ⟨-, masterId, hmaster, -⟩⟩ := h
  · obtain ⟨haccount, hsome, hall⟩ := hshared
    refine ⟨rfl, items, (resolveItems_congr hroles.symm accounts).trans hitems,
      .inl ⟨haccount, huser hsome, ?_⟩⟩
    rw [← haccounts]
    exact hall
  · cases hmaster

theorem findByEmail_user {email : Option String} {existing : User}
    (h : s.findByEmail email = some existing) : (s.user existing.id).isSome := by
  refine List.find?_isSome.mpr ⟨existing, List.mem_of_find?_eq_some h, by simp⟩

theorem restore_within {existing : User} {dto : CreateUserDto} {role : RoleCode}
    (hexisting : (s.user existing.id).isSome) (hfound : s.findRoleByCode dto.globalRoleCode = .ok role)
    (hrole : f.role existing.id (some (some role)))
    (hpassword : dto.password.isSome → f.password existing.id)
    (hmembership : (dto.password.isSome → existing.provider = .local) → ∀ id accountId,
      ((id = existing.id ∧ (s.memberships id accountId).isSome) ∨
        s.Shares existing.id none (dto.accounts.getD []) id accountId) → f.membership id accountId) :
    Within f s (s.restore existing dto).1 := by
  have hrestored : Within f s
      (s.setUser existing.id { existing with deleted := false, globalRole := some role }) :=
    within_setUser (fun hne => absurd rfl hne) hrole
  -- The memberships are cleared, then the items are shared.
  have hshare : (dto.password.isSome → existing.provider = .local) → ∀ t : State, Within f s t →
      t.memberships = s.memberships →
      Within f s (if dto.accounts.getD [] = [] then
          (({ t with memberships := fun user account =>
                if user = existing.id then none else t.memberships user account } : State),
            (.ok () : Except HttpException Unit))
        else State.permissionsAccounts
          { t with memberships := fun user account =>
              if user = existing.id then none else t.memberships user account }
          existing.id none (dto.accounts.getD [])).1 := by
    intro hlocal t ht hsame
    have hcleared : Within f t { t with memberships := fun user account =>
        if user = existing.id then none else t.memberships user account } := by
      refine ⟨rfl, rfl, fun _ => .inl rfl, fun _ => .inl rfl, fun id account => ?_⟩
      by_cases hid : id = existing.id
      · cases hmember : t.memberships id account with
        | none => exact .inl (if_pos hid)
        | some membership =>
            refine .inr (hmembership hlocal id account (.inl ⟨hid, ?_⟩))
            rw [← hsame, hmember]
            rfl
      · exact .inl (if_neg hid)
    by_cases hnone : dto.accounts.getD [] = []
    · rw [if_pos hnone]
      exact ht.trans hcleared
    · rw [if_neg hnone]
      exact (ht.trans hcleared).trans (permissionsAccounts_within fun id accountId hshares =>
        hmembership hlocal id accountId
          (.inr (Shares.congr (ht.trans hcleared).roles (ht.trans hcleared).accounts
            (fun _ => hexisting) hshares)))
  unfold State.restore
  simp only [hfound]
  cases hgiven : dto.password with
  | none =>
      exact hshare (by rw [hgiven]; exact nofun) _ hrestored rfl
  | some password =>
      have hset : f.password existing.id := hpassword (by rw [hgiven]; rfl)
      by_cases hlocal : existing.provider = .local
      · simp only [if_pos hlocal]
        exact hshare (fun _ => hlocal) _ (hrestored.trans (within_setPassword hset)) rfl
      · simp only [if_neg hlocal]
        exact hrestored

theorem saveUser_within {dto : CreateUserDto} {newId : Nat} {role : RoleCode} {user : User}
    (h : s.saveUser lower dto newId role = .ok (s', user)) (hrole : f.role user.id (some (some role))) :
    Within f s s' := by
  unfold State.saveUser at h
  split at h
  · rename_i row hrow
    dsimp only at h
    split_ifs at h
    obtain ⟨rfl, rfl⟩ := Prod.mk.inj (Except.ok.inj h)
    exact within_setUser (fun hne => absurd rfl hne) hrole
  · split at h
    · cases h
    · dsimp only at h
      split_ifs at h
      obtain ⟨rfl, rfl⟩ := Prod.mk.inj (Except.ok.inj h)
      exact within_addUser hrole

theorem create_within {dto : CreateUserDto} {newId : Nat} {role : RoleCode} {user : User}
    (hsaved : s.saveUser lower dto newId role = .ok (s', user))
    (hnone : (s.findByEmail dto.email).filter (·.deleted) = none)
    (hfound : s.findRoleByCode dto.globalRoleCode = .ok role)
    (hordinary : dto.globalRoleCode ≠ some .superAdmin)
    (hrole : f.role user.id (some (some role)))
    (hpassword : dto.password.isSome → f.password user.id)
    (hmembership : (dto.password.isSome → user.deleted = false) → ∀ id accountId,
      s'.Shares user.id none (dto.accounts.getD []) id accountId → f.membership id accountId) :
    Within f s (s.create lower dto newId false).1 := by
  have hsave : Within f s s' := saveUser_within hsaved hrole
  have hshare : (dto.password.isSome → user.deleted = false) → ∀ t : State, Within f s t →
      t.users = s'.users → t.accounts = s'.accounts → t.roles = s'.roles →
      Within f s (if dto.accounts.getD [] = [] then (t, (.ok () : Except HttpException Unit))
        else t.permissionsAccounts user.id none (dto.accounts.getD [])).1 := by
    intro hkept t ht husers haccounts hroles
    by_cases hnone : dto.accounts.getD [] = []
    · rw [if_pos hnone]
      exact ht
    · rw [if_neg hnone]
      refine ht.trans (permissionsAccounts_within fun id accountId hshares =>
        hmembership hkept id accountId (Shares.congr hroles haccounts (fun hsome => ?_) hshares))
      unfold State.user at hsome ⊢
      rwa [← husers]
  unfold State.create
  simp only [hordinary, false_and, if_false, hnone, hfound, hsaved]
  cases hgiven : dto.password with
  | none => exact hshare (by rw [hgiven]; exact nofun) s' hsave rfl rfl rfl
  | some password =>
      have hset : f.password user.id := hpassword (by rw [hgiven]; rfl)
      cases hdeleted : user.deleted with
      | true => exact hsave
      | false =>
          exact hshare (fun _ => hdeleted) _ (hsave.trans (within_setPassword hset)) rfl rfl rfl

theorem updateRow_within {user : User} {dto : CreateUserDto} {globalRole : Option RoleCode}
    (h : s.updateRow user dto globalRole = .ok s')
    (hgone : dto.id.getD user.id ≠ user.id → f.role user.id none)
    (hrole : f.role (dto.id.getD user.id) (some globalRole)) : Within f s s' := by
  unfold State.updateRow at h
  dsimp only at h
  split_ifs at h
  obtain rfl := Except.ok.inj h
  exact within_setUser hgone hrole

theorem update_eq {id : Nat} {dto : CreateUserDto} {currentUser : Nat}
    (hordinary : dto.globalRoleCode ≠ some .superAdmin)
    (hself : ¬ (id = currentUser ∧ (dto.globalRoleCode.isSome ∨ dto.accounts.isSome))) :
    s.update id dto currentUser false =
      match s.findOne id with
      | none => (s, .error ⟨"User not found", 404⟩)
      | some user =>
          match (s.updatedRole user dto).bind (s.updateRow user dto) with
          | .error e => (s, .error e)
          | .ok s' =>
              match dto.accounts with
              | none => (s', .ok ())
              | some accounts =>
                  s'.permissionsAccounts (dto.id.getD user.id) (some currentUser) accounts := by
  unfold State.update
  rw [if_neg fun h => hordinary h.1, if_neg fun h => hself h.2]
  rfl

theorem create_footprint (dto : CreateUserDto) (newId : Nat) :
    Within (dto.footprint lower s newId) s (s.create lower dto newId false).1 := by
  unfold CreateUserDto.footprint
  by_cases hsuper : dto.globalRoleCode = some .superAdmin
  · rw [if_pos hsuper, State.create, if_pos ⟨hsuper, rfl⟩]
    exact .refl _ s
  · rw [if_neg hsuper]
    cases hfound : s.findRoleByCode dto.globalRoleCode with
    | error e =>
        have hrejected : (s.create lower dto newId false).1 = s := by
          unfold State.create State.restore
          simp only [hsuper, false_and, if_false, hfound]
          cases (s.findByEmail dto.email).filter (·.deleted) <;> rfl
        rw [hrejected]
        exact .refl _ s
    | ok role =>
        cases hexisting : (s.findByEmail dto.email).filter (·.deleted) with
        | some existing =>
            have hcreate : s.create lower dto newId false = s.restore existing dto := by
              unfold State.create
              simp only [hsuper, false_and, if_false, hexisting]
            rw [hcreate]
            exact restore_within (findByEmail_user (Option.filter_eq_some_iff.mp hexisting).1)
              hfound ⟨rfl, rfl⟩ (fun hgiven => ⟨rfl, hgiven⟩)
              (fun hlocal id accountId hchanged => ⟨hlocal, hchanged⟩)
        | none =>
            dsimp only
            cases hsaved : s.saveUser lower dto newId role with
            | error e =>
                have hrejected : (s.create lower dto newId false).1 = s := by
                  unfold State.create
                  simp only [hsuper, false_and, if_false, hexisting, hfound, hsaved]
                rw [hrejected]
                exact .refl _ s
            | ok saved =>
                exact create_within hsaved hexisting hfound hsuper ⟨rfl, rfl⟩
                  (fun hgiven => ⟨rfl, hgiven⟩) (fun hkept id accountId hshares => ⟨hkept, hshares⟩)

theorem update_footprint (id : Nat) (dto : CreateUserDto) (currentUser : Nat) :
    Within (dto.updateFootprint s id currentUser) s (s.update id dto currentUser false).1 := by
  unfold CreateUserDto.updateFootprint
  by_cases hrefused : dto.globalRoleCode = some .superAdmin ∨
      (id = currentUser ∧ (dto.globalRoleCode.isSome ∨ dto.accounts.isSome))
  · rw [if_pos hrefused]
    have hrejected : (s.update id dto currentUser false).1 = s := by
      unfold State.update
      by_cases hsuper : dto.globalRoleCode = some .superAdmin
      · rw [if_pos ⟨hsuper, rfl⟩]
      · rw [if_neg fun h => hsuper h.1, if_pos ⟨rfl, hrefused.resolve_left hsuper⟩]
    rw [hrejected]
    exact .refl _ s
  · rw [if_neg hrefused]
    obtain ⟨hsuper, hself⟩ := not_or.mp hrefused
    rw [update_eq hsuper hself]
    cases s.findOne id with
    | none => exact .refl _ s
    | some user =>
        simp only
        cases s.updatedRole user dto with
        | error e => exact .refl _ s
        | ok globalRole =>
            simp only [Except.bind]
            cases hrow : s.updateRow user dto globalRole with
            | error e => exact .refl _ s
            | ok s' =>
                have hsaved := updateRow_within
                  (f := ⟨fun id' value =>
                      (id' = user.id ∧ dto.id.getD user.id ≠ user.id ∧ value = none) ∨
                        (id' = dto.id.getD user.id ∧ value = some globalRole),
                    fun _ => False, fun id' accountId => ∃ accounts ∈ dto.accounts,
                      s'.Shares (dto.id.getD user.id) (some currentUser) accounts id' accountId⟩)
                  hrow (fun hmoved => .inl ⟨rfl, hmoved, rfl⟩) (.inr ⟨rfl, rfl⟩)
                cases haccounts : dto.accounts with
                | none =>
                    rw [haccounts] at hsaved
                    exact hsaved
                | some accounts =>
                    rw [haccounts] at hsaved
                    exact hsaved.trans (permissionsAccounts_within
                      fun id' accountId hshares => ⟨accounts, rfl, hshares⟩)

theorem handle_within {p : Principal} {context : PrincipalContext} {r : Request}
    (hcontext : resolveContext s p = some context) (hordinary : context.isSuperAdmin = false)
    (hallowed : context.hasPermission r.requires = true) :
    Within (r.footprint lower s p.currentUser context.userId) s (s.step lower (p, r)) := by
  unfold State.step State.handle
  simp only [hcontext, hallowed, Bool.true_eq_false, if_false, hordinary]
  cases r with
  | create dto newId => exact create_footprint dto newId
  | permissionsAccounts userId userMasterId accounts =>
      exact permissionsAccounts_within fun id accountId hshares => hshares
  | update id dto => exact update_footprint id dto p.currentUser
  | updatePassword id password =>
      simp only [State.updatePassword]
      cases hfound : s.findOne id with
      | none => exact .refl _ s
      | some user =>
          by_cases hlocal : user.provider = .local
          · simp only [if_pos hlocal]
            exact within_setPassword ⟨rfl, user, hfound, hlocal⟩
          · simp only [if_neg hlocal]
            exact .refl _ s
  | updateGlobalRole id roleCode =>
      simp only [State.updateGlobalRole]
      cases hfound : s.findRoleByCode roleCode with
      | error e => exact .refl _ s
      | ok role =>
          cases huser : s.user id with
          | none => exact .refl _ s
          | some user =>
              have hid : user.id = id := by simpa using List.find?_some huser
              subst hid
              exact within_setUser (fun hne => absurd rfl hne)
                ⟨rfl, by rw [huser]; rfl, role, hfound, rfl⟩
  | addAccountMembership userId accountId code =>
      unfold State.addAccountMembership
      by_cases hsuper : code = some .superAdmin
      · simp only [if_pos hsuper]
        exact .refl _ s
      · simp only [if_neg hsuper]
        cases hrole : s.resolveAccountOverrideRoleId code with
        | error e => exact .refl _ s
        | ok role =>
            by_cases hexist : (s.user userId).isSome ∧ accountId ∈ s.accounts
            · simp only [if_pos hexist]
              exact within_setMembership ⟨⟨rfl, rfl⟩, ⟨role, hrole⟩, hexist⟩
            · simp only [if_neg hexist]
              exact .refl _ s
  | updateAccountRole userId accountId code =>
      unfold State.updateAccountRole
      by_cases hsuper : code = some .superAdmin
      · simp only [if_pos hsuper]
        exact .refl _ s
      · by_cases hself : context.userId = some userId
        · simp only [if_neg hsuper, true_and, if_pos hself]
          exact .refl _ s
        · simp only [if_neg hsuper, true_and, if_neg hself]
          cases hmember : s.memberships userId accountId with
          | none => exact .refl _ s
          | some membership =>
              cases hrole : s.resolveAccountOverrideRoleId code with
              | error e => exact .refl _ s
              | ok role =>
                  exact within_setMembership ⟨⟨rfl, rfl⟩, hself, by rw [hmember]; rfl,
                    role, hrole⟩
  | removeAccountMembership userId accountId =>
      unfold State.removeAccountMembership
      by_cases hself : context.userId = some userId
      · simp only [true_and, if_pos hself]
        exact .refl _ s
      · simp only [true_and, if_neg hself]
        by_cases hmember : (s.memberships userId accountId).isSome
        · simp only [if_pos hmember]
          exact within_setMembership ⟨⟨rfl, rfl⟩, hself, hmember⟩
        · simp only [if_neg hmember]
          exact .refl _ s

end requests

/-! ## Escalation -/

/-- What no request of an ordinary principal may go beyond: there are no new super admins,
memberships change only in accounts that the principal manages, and the roles and passwords
only of users in such an account. -/
structure Contained (s s' : State) (p : Principal) : Prop where
  superAdmins : ∀ id, SuperAdmin s' id → SuperAdmin s id
  memberships : ∀ id accountId, s'.memberships id accountId ≠ s.memberships id accountId →
    Manages s p accountId
  roles : ∀ id, (s.user id).isSome → s'.globalRole id ≠ s.globalRole id → InScope s p id
  passwords : ∀ id, (s.user id).isSome → s'.passwords id ≠ s.passwords id → InScope s p id

/-- The footprint gives no new global role `super_admin`, and names only users and accounts
of the principal, besides users that are not there yet. -/
structure Footprint.Allowed (f : Footprint) (s : State) (p : Principal) : Prop where
  roles : ∀ id value, f.role id value → value ≠ s.globalRole id →
    value ≠ some (some .superAdmin) ∧ ((s.user id).isSome → InScope s p id)
  passwords : ∀ id, f.password id → (s.user id).isSome → InScope s p id
  memberships : ∀ id accountId, f.membership id accountId → Manages s p accountId

/-- A request that passes the guard writes only what is allowed. -/
def Guarded (lower : String → String) (s : State) (pr : Principal × Request) : Prop :=
  ∀ context, resolveContext s pr.1 = some context → context.hasPermission pr.2.requires = true →
    (pr.2.footprint lower s pr.1.currentUser context.userId).Allowed s pr.1

section escalation

variable {lower : String → String} {s s' : State} {p : Principal}

theorem superAdmin_iff (s : State) (id : Nat) :
    SuperAdmin s id ↔ s.globalRole id = some (some .superAdmin) :=
  Option.map_eq_some_iff.symm

theorem Contained.refl (s : State) (p : Principal) : Contained s s p :=
  ⟨fun _ h => h, fun _ _ h => absurd rfl h, fun _ _ h => absurd rfl h, fun _ _ h => absurd rfl h⟩

theorem Within.contained {f : Footprint} (h : Within f s s') (hallowed : f.Allowed s p) :
    Contained s s' p := by
  refine ⟨fun id hsuper => ?_, fun id accountId hchanged => ?_, fun id huser hchanged => ?_,
    fun id huser hchanged => ?_⟩
  · rw [superAdmin_iff] at hsuper ⊢
    rcases h.globalRole id with hsame | hrole
    · exact hsame.symm.trans hsuper
    · by_contra hnot
      refine (hallowed.roles id _ hrole fun hsame => ?_).1 hsuper
      exact hnot (hsame.symm.trans hsuper)
  · exact hallowed.memberships id accountId ((h.memberships id accountId).resolve_left hchanged)
  · exact (hallowed.roles id _ ((h.globalRole id).resolve_left hchanged) hchanged).2 huser
  · exact hallowed.passwords id ((h.passwords id).resolve_left hchanged) huser

theorem contained_step {pr : Principal × Request} (hordinary : Ordinary s pr.1)
    (hguarded : Guarded lower s pr) : Contained s (s.step lower pr) pr.1 := by
  obtain ⟨p, r⟩ := pr
  cases hcontext : resolveContext s p with
  | none =>
      have hrejected : s.step lower (p, r) = s := by
        unfold State.step State.handle
        simp only [hcontext]
      rw [hrejected]
      exact .refl s p
  | some context =>
      cases hpermission : context.hasPermission r.requires with
      | false =>
          have hrejected : s.step lower (p, r) = s := by
            unfold State.step State.handle
            simp only [hcontext, hpermission, if_true]
          rw [hrejected]
          exact .refl s p
      | true =>
          exact (handle_within hcontext (hordinary context hcontext) hpermission).contained
            (hguarded context hcontext hpermission)

end escalation

/-- An admin of account 1, and a user of account 2. -/
def twoAccounts : State where
  users := [⟨1, "admin", .local, some .admin, false⟩, ⟨2, "user", .local, some .editor, false⟩]
  memberships id accountId := if id = accountId then some ⟨false, none⟩ else none
  passwords _ := none
  roles := [.superAdmin, .admin, .editor]
  accounts := [1, 2]

theorem twoAccounts_manages {accountId : Nat} (h : Manages twoAccounts (.user 1 1) accountId) :
    accountId = 1 := by
  obtain ⟨context, hcontext, rfl, -⟩ := h
  by_contra hother
  have hnone : resolveContext twoAccounts (.user 1 context.accountId) = none := by
    simp only [resolveContext, resolveUserContext]
    rw [show twoAccounts.findOne 1 = some ⟨1, "admin", .local, some .admin, false⟩ from rfl]
    rw [show twoAccounts.memberships 1 context.accountId = none from if_neg (Ne.symm hother)]
    rfl
  cases hnone.symm.trans hcontext

theorem twoAccounts_ordinary : Ordinary twoAccounts (.user 1 1) := by
  intro context hcontext
  cases hcontext
  rfl

end OpenBms.Users
