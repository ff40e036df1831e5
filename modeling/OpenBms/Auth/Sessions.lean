/-
# `OpenBms.Auth.Sessions` — refresh tokens: rotation and logout

A refresh claims its token by one `UPDATE … RETURNING`, looks up the user, and inserts a
new token; a logout revokes the token it presents.  The table knows tokens only; a session
is the chain of tokens that begins with a login.  Every statement is a step.

| refresh | its token | answer |
| :-- | :-- | :-- |
| no live row of the hash | as before | 401, `Invalid or expired refresh token` |
| the user is gone | revoked | 401, `User not found` |
| no secret, or the insert fails | revoked | 401 or 500 |
| otherwise | revoked | a new token |

**Proved here.**

    a token is claimed once, no token of a session after a logout
    has revoked its live one, and a refresh whose token is not
    live changes no row (`rotation`)
    a logout with a token that a refresh has claimed leaves the
    session alive, and a refresh without a user is rejected
    after it has revoked its token (`survives_logout`)
-/
import OpenBms.Lib.Runs

namespace OpenBms.Auth

/-- A row of `user_refresh_tokens`, with the session it belongs to. -/
structure Row where
  userId : Nat
  tokenHash : String
  expiresAt : Nat
  revokedAt : Option Nat
  session : Nat

inductive Rejection where
  | invalid
  | userNotFound
  | notIssued
  deriving DecidableEq

/-- `UnauthorizedException`, or what a failing statement is answered with. -/
def Rejection.message : Rejection → String
  | .invalid => "Invalid or expired refresh token"
  | .userNotFound => "User not found"
  | .notIssued => "JWT_SECRET not configured"

inductive Progress where
  | asked
  | refused
  | claimed (userId session : Nat)
  | found (userId session : Nat)
  | returned (refreshToken : String)
  | rejected (rejection : Rejection)
  deriving DecidableEq

/-- A refresh; `wrote` when one of its statements has changed the rows. -/
structure Refresh where
  refreshToken : String
  progress : Progress
  wrote : Bool
  deriving DecidableEq

/-- `users` are those that a look-up finds.  `sessions` counts the logins, `accepted` lists the
hashes that refreshes have claimed, `ended` the sessions whose live token a logout has
revoked, and `alarms` the hashes that were presented again. -/
structure State where
  rows : List Row
  users : Nat → Bool
  refreshes : Nat → Option Refresh
  sessions : Nat
  accepted : List String
  ended : List Nat
  alarms : List String

structure Settings where
  sha256 : String → String
  refreshTtl : Nat

inductive Label where
  | login (userId now : Nat) (uuid : String)
  | refresh (r : Nat) (refreshToken : String)
  | claim (r now : Nat)
  | alarm (r : Nat)
  | findUser (r : Nat)
  | issue (r now : Nat) (uuid : String) (ok : Bool)
  | logout (refreshToken : String) (now : Nat)
  | setUser (userId : Nat) (found : Bool)
  | revokeAll (userId now : Nat)

/-! ## Statements -/

def Row.live (row : Row) : Bool := row.revokedAt.isNone

namespace State

variable (o : Settings) (s : State)

def setRefresh (r : Nat) (refresh : Refresh) : State :=
  { s with refreshes := Function.update s.refreshes r (some refresh) }

/-- The live rows that meet a condition are revoked. -/
def revoke (p : Row → Bool) (now : Nat) : State :=
  { s with
    rows := s.rows.map fun row =>
      if p row = true ∧ row.live = true then { row with revokedAt := some now } else row }

/-- The row is inserted, unless its hash is there. -/
@[grind =] def insert (row : Row) : Option State :=
  if ∃ other ∈ s.rows, other.tokenHash = row.tokenHash then none
  else some { s with rows := s.rows ++ [row] }

/-- The row that a refresh claims. -/
def liveRow (refreshToken : String) (now : Nat) : Option Row :=
  s.rows.find? fun row =>
    row.tokenHash = o.sha256 refreshToken && row.live && decide (now < row.expiresAt)

/-- A step that cannot be taken changes nothing. -/
@[grind =] def step : Label → State
  | .login userId now uuid =>
      match s.insert ⟨userId, o.sha256 uuid, now + o.refreshTtl, none, s.sessions⟩ with
      | none => s
      | some s' => { s' with sessions := s.sessions + 1 }
  | .refresh r refreshToken =>
      if (s.refreshes r).isSome then s else s.setRefresh r ⟨refreshToken, .asked, false⟩
  | .claim r now =>
      match s.refreshes r with
      | some ⟨refreshToken, .asked, wrote⟩ =>
          match s.liveRow o refreshToken now with
          | none => s.setRefresh r ⟨refreshToken, .refused, wrote⟩
          | some row =>
              let s' := s.revoke (fun other =>
                other.tokenHash = o.sha256 refreshToken && decide (now < other.expiresAt)) now
              { s'.setRefresh r ⟨refreshToken, .claimed row.userId row.session, true⟩ with
                accepted := o.sha256 refreshToken :: s.accepted }
      | _ => s
  | .alarm r =>
      match s.refreshes r with
      | some ⟨refreshToken, .refused, wrote⟩ =>
          let rejected := s.setRefresh r ⟨refreshToken, .rejected .invalid, wrote⟩
          -- Only a revoked row is a reuse, not one that has expired.
          if ∃ row ∈ s.rows, row.tokenHash = o.sha256 refreshToken ∧ row.live = false then
            { rejected with alarms := o.sha256 refreshToken :: s.alarms }
          else rejected
      | _ => s
  | .findUser r =>
      match s.refreshes r with
      | some ⟨refreshToken, .claimed userId session, wrote⟩ =>
          if s.users userId = true then s.setRefresh r ⟨refreshToken, .found userId session, wrote⟩
          else s.setRefresh r ⟨refreshToken, .rejected .userNotFound, wrote⟩
      | _ => s
  | .issue r now uuid ok =>
      match s.refreshes r with
      | some ⟨refreshToken, .found userId session, wrote⟩ =>
          let inserted :=
            if ok then s.insert ⟨userId, o.sha256 uuid, now + o.refreshTtl, none, session⟩ else none
          match inserted with
          | none => s.setRefresh r ⟨refreshToken, .rejected .notIssued, wrote⟩
          | some s' => s'.setRefresh r ⟨refreshToken, .returned uuid, true⟩
      | _ => s
  -- The look-ups before and after the statement decide whose principals leave the cache.
  | .logout refreshToken now =>
      let hash := o.sha256 refreshToken
      { s.revoke (·.tokenHash = hash) now with
        ended := (s.rows.filter fun row => row.tokenHash = hash && row.live).map (·.session) ++ s.ended }
  | .setUser userId found => { s with users := Function.update s.users userId found }
  | .revokeAll userId now => s.revoke (·.userId = userId) now

end State

/-- A refresh has claimed a token of the session and has not yet inserted the next. -/
def State.Issuing (s : State) (r session : Nat) : Prop :=
  ∃ refreshToken userId wrote,
    s.refreshes r = some ⟨refreshToken, .claimed userId session, wrote⟩ ∨
    s.refreshes r = some ⟨refreshToken, .found userId session, wrote⟩

/-! ## Rotation -/

/-- A session has one live token, or one refresh that will insert it; none once it has
ended.  Claimed tokens are revoked, and nothing was written for those that were refused. -/
structure Rotating (s : State) : Prop where
  hashes : (s.rows.map (·.tokenHash)).Nodup
  accepted_once : s.accepted.Nodup
  accepted_row : ∀ hash ∈ s.accepted, ∃ row ∈ s.rows, row.tokenHash = hash
  accepted_revoked : ∀ hash ∈ s.accepted, ∀ row ∈ s.rows, row.tokenHash = hash → row.live = false
  live_once : ∀ row ∈ s.rows, ∀ other ∈ s.rows, row.live = true → other.live = true →
    row.session = other.session → row.tokenHash = other.tokenHash
  issuing_once : ∀ r r' session, s.Issuing r session → s.Issuing r' session → r = r'
  live_or_issuing : ∀ row ∈ s.rows, row.live = true → ∀ r, ¬ s.Issuing r row.session
  ended_live : ∀ session ∈ s.ended, ∀ row ∈ s.rows, row.live = true → row.session ≠ session
  ended_issuing : ∀ session ∈ s.ended, ∀ r, ¬ s.Issuing r session
  row_session : ∀ row ∈ s.rows, row.session < s.sessions
  issuing_session : ∀ r session, s.Issuing r session → session < s.sessions
  ended_session : ∀ session ∈ s.ended, session < s.sessions
  refused : ∀ r refresh, s.refreshes r = some refresh →
    refresh.progress = .asked ∨ refresh.progress = .refused ∨ refresh.progress = .rejected .invalid →
      refresh.wrote = false

section rotating

variable {o : Settings} {s : State}

theorem mem_revoke {p : Row → Bool} {now : Nat} {row : Row} (h : row ∈ (s.revoke p now).rows) :
    ∃ old ∈ s.rows, row.tokenHash = old.tokenHash ∧ row.session = old.session ∧
      (row.live = true → row = old ∧ p old = false) ∧ (old.live = false → row.live = false) := by
  obtain ⟨old, hold, rfl⟩ := List.mem_map.mp h
  refine ⟨old, hold, ?_⟩
  by_cases hrevoked : p old = true ∧ old.live = true
  · rw [if_pos hrevoked]
    exact ⟨rfl, rfl, (fun hlive => by cases hlive), fun _ => rfl⟩
  · rw [if_neg hrevoked]
    refine ⟨rfl, rfl, fun hlive => ⟨rfl, ?_⟩, fun hlive => hlive⟩
    by_contra hp
    exact hrevoked ⟨by simpa using hp, hlive⟩

theorem revoke_hashes (p : Row → Bool) (now : Nat) :
    (s.revoke p now).rows.map (·.tokenHash) = s.rows.map (·.tokenHash) := by
  unfold State.revoke
  rw [List.map_map]
  refine List.map_congr_left fun row _ => ?_
  simp only [Function.comp_apply]
  split <;> rfl

/-- Revoking tokens ends no chain wrongly. -/
theorem Rotating.revoke (h : Rotating s) (p : Row → Bool) (now : Nat) :
    Rotating (s.revoke p now) := by
  refine ⟨?_, h.accepted_once, fun hash ha => ?_, fun hash ha row hrow hhash => ?_,
    fun row hrow other hother hlive hlive' hsame => ?_, h.issuing_once, fun row hrow hlive => ?_,
    fun session he row hrow hlive => ?_, h.ended_issuing, fun row hrow => ?_, h.issuing_session,
    h.ended_session, h.refused⟩
  · rw [revoke_hashes]
    exact h.hashes
  · obtain ⟨row, hrow, hhash⟩ := h.accepted_row hash ha
    exact ⟨_, List.mem_map_of_mem hrow, by split <;> exact hhash⟩
  · obtain ⟨old, hold, hsame, -, -, hkept⟩ := mem_revoke hrow
    exact hkept (h.accepted_revoked hash ha old hold (hsame.symm.trans hhash))
  · obtain ⟨old, hold, -, -, hrow', -⟩ := mem_revoke hrow
    obtain ⟨old', hold', -, -, hother', -⟩ := mem_revoke hother
    obtain ⟨rfl, -⟩ := hrow' hlive
    obtain ⟨rfl, -⟩ := hother' hlive'
    exact h.live_once _ hold _ hold' hlive hlive' hsame
  · obtain ⟨old, hold, -, -, hrow', -⟩ := mem_revoke hrow
    obtain ⟨rfl, -⟩ := hrow' hlive
    exact h.live_or_issuing _ hold hlive
  · obtain ⟨old, hold, -, -, hrow', -⟩ := mem_revoke hrow
    obtain ⟨rfl, -⟩ := hrow' hlive
    exact h.ended_live session he _ hold hlive
  · obtain ⟨old, hold, -, hsession, -, -⟩ := mem_revoke hrow
    rw [hsession]
    exact h.row_session old hold

theorem issuing_setRefresh {r r' session : Nat} {refresh : Refresh}
    (h : (s.setRefresh r refresh).Issuing r' session) :
    (r' = r ∧ ∃ userId, refresh.progress = .claimed userId session ∨
        refresh.progress = .found userId session) ∨
      (r' ≠ r ∧ s.Issuing r' session) := by
  obtain ⟨refreshToken, userId, wrote, h⟩ := h
  simp only [State.setRefresh] at h
  by_cases hsame : r' = r
  · subst hsame
    simp only [Function.update_self, Option.some.injEq] at h
    refine .inl ⟨rfl, userId, ?_⟩
    rcases h with rfl | rfl
    · exact .inl rfl
    · exact .inr rfl
  · simp only [Function.update_of_ne hsame] at h
    exact .inr ⟨hsame, refreshToken, userId, wrote, h⟩

theorem refused_setRefresh (h : Rotating s) {r : Nat} {refresh : Refresh}
    (hwrote : refresh.progress = .asked ∨ refresh.progress = .refused ∨
      refresh.progress = .rejected .invalid → refresh.wrote = false) :
    ∀ r' refresh', (s.setRefresh r refresh).refreshes r' = some refresh' →
      refresh'.progress = .asked ∨ refresh'.progress = .refused ∨
        refresh'.progress = .rejected .invalid → refresh'.wrote = false := by
  intro r' refresh' hrefresh'
  change Function.update s.refreshes r (some refresh) r' = _ at hrefresh'
  by_cases hsame : r' = r
  · subst hsame
    rw [Function.update_self] at hrefresh'
    obtain rfl := Option.some.inj hrefresh'
    exact hwrote
  · rw [Function.update_of_ne hsame] at hrefresh'
    exact h.refused r' refresh' hrefresh'

/-- A refresh goes on without writing. -/
theorem Rotating.setRefresh (h : Rotating s) {r : Nat} {refresh : Refresh}
    (hissuing : ∀ userId session, refresh.progress = .claimed userId session ∨
      refresh.progress = .found userId session → s.Issuing r session)
    (hwrote : refresh.progress = .asked ∨ refresh.progress = .refused ∨
      refresh.progress = .rejected .invalid → refresh.wrote = false) :
    Rotating (s.setRefresh r refresh) := by
  have hold : ∀ {r' session}, (s.setRefresh r refresh).Issuing r' session → s.Issuing r' session := by
    intro r' session h'
    rcases issuing_setRefresh h' with ⟨rfl, userId, hprogress⟩ | ⟨-, hother⟩
    · exact hissuing userId session hprogress
    · exact hother
  exact
    { h with
      issuing_once := fun r₁ r₂ session h₁ h₂ => h.issuing_once r₁ r₂ session (hold h₁) (hold h₂)
      live_or_issuing := fun row hrow hlive r' h' => h.live_or_issuing row hrow hlive r' (hold h')
      ended_issuing := fun session he r' h' => h.ended_issuing session he r' (hold h')
      issuing_session := fun r' session h' => h.issuing_session r' session (hold h')
      refused := refused_setRefresh h hwrote }

theorem Rotating.claim (h : Rotating s) {r userId session : Nat} {refreshToken hash : String}
    (hrow : ∃ row ∈ s.rows, row.tokenHash = hash)
    (hrevoked : ∀ row ∈ s.rows, row.tokenHash = hash → row.live = false)
    (hfresh : hash ∉ s.accepted) (hlive : ∀ row ∈ s.rows, row.live = true → row.session ≠ session)
    (hissuing : ∀ r', ¬ s.Issuing r' session) (hended : session ∉ s.ended)
    (hsession : session < s.sessions) :
    Rotating { s.setRefresh r ⟨refreshToken, .claimed userId session, true⟩ with
      accepted := hash :: s.accepted } := by
  have hcases : ∀ {r' session'},
      (s.setRefresh r ⟨refreshToken, .claimed userId session, true⟩).Issuing r' session' →
        (r' = r ∧ session' = session) ∨ (r' ≠ r ∧ s.Issuing r' session') := by
    intro r' session' h'
    rcases issuing_setRefresh h' with ⟨rfl, userId', hprogress⟩ | hother
    · rcases hprogress with heq | heq
      · exact .inl ⟨rfl, (Progress.claimed.inj heq).2.symm⟩
      · cases heq
    · exact .inr hother
  exact
    { hashes := h.hashes
      accepted_once := List.nodup_cons.mpr ⟨hfresh, h.accepted_once⟩
      accepted_row := List.forall_mem_cons.mpr ⟨hrow, h.accepted_row⟩
      accepted_revoked := List.forall_mem_cons.mpr ⟨hrevoked, h.accepted_revoked⟩
      live_once := h.live_once
      issuing_once := fun r₁ r₂ session' h₁ h₂ => by
        rcases hcases h₁ with ⟨rfl, rfl⟩ | ⟨-, hold₁⟩
        · rcases hcases h₂ with ⟨rfl, -⟩ | ⟨-, hold₂⟩
          · rfl
          · exact absurd hold₂ (hissuing r₂)
        · rcases hcases h₂ with ⟨-, rfl⟩ | ⟨-, hold₂⟩
          · exact absurd hold₁ (hissuing r₁)
          · exact h.issuing_once r₁ r₂ session' hold₁ hold₂
      live_or_issuing := fun row hrow' hlive' r' h' => by
        rcases hcases h' with ⟨-, hsame⟩ | ⟨-, hold⟩
        · exact hlive row hrow' hlive' hsame
        · exact h.live_or_issuing row hrow' hlive' r' hold
      ended_live := h.ended_live
      ended_issuing := fun session' he r' h' => by
        rcases hcases h' with ⟨-, rfl⟩ | ⟨-, hold⟩
        · exact hended he
        · exact h.ended_issuing session' he r' hold
      row_session := h.row_session
      issuing_session := fun r' session' h' => by
        rcases hcases h' with ⟨-, rfl⟩ | ⟨-, hold⟩
        · exact hsession
        · exact h.issuing_session r' session' hold
      ended_session := h.ended_session
      refused := refused_setRefresh h fun hprogress => by
        rcases hprogress with heq | heq | heq <;> cases heq }

theorem Rotating.insert (h : Rotating s) {row : Row} {s' : State} (hinsert : s.insert row = some s')
    (hlive : ∀ other ∈ s.rows, other.live = true → other.session ≠ row.session)
    (hissuing : ∀ r, ¬ s.Issuing r row.session) (hended : row.session ∉ s.ended)
    (hsession : row.session < s.sessions) : Rotating s' := by
  unfold State.insert at hinsert
  split_ifs at hinsert with htaken
  obtain rfl := Option.some.inj hinsert
  have hnew : ∀ other ∈ s.rows, other.tokenHash ≠ row.tokenHash :=
    fun other hother hsame => htaken ⟨other, hother, hsame⟩
  have hmem : ∀ {other}, other ∈ s.rows ++ [row] → other ∈ s.rows ∨ other = row :=
    fun hother => (List.mem_append.mp hother).imp_right List.mem_singleton.mp
  exact
    { hashes := by
        rw [List.map_append]
        refine List.Nodup.append h.hashes (List.nodup_singleton _) fun hash hold hhash => ?_
        obtain ⟨other, hother, rfl⟩ := List.mem_map.mp hold
        exact hnew other hother (List.mem_singleton.mp hhash)
      accepted_once := h.accepted_once
      accepted_row := fun hash ha =>
        (h.accepted_row hash ha).imp fun other hother => ⟨List.mem_append_left _ hother.1, hother.2⟩
      accepted_revoked := fun hash ha other hother hhash => by
        rcases hmem hother with hold | rfl
        · exact h.accepted_revoked hash ha other hold hhash
        · obtain ⟨old, hold, hsame⟩ := h.accepted_row hash ha
          exact absurd (hsame.trans hhash.symm) (hnew old hold)
      live_once := fun a ha b hb hlivea hliveb hsame => by
        rcases hmem ha with hold | rfl
        · rcases hmem hb with hold' | rfl
          · exact h.live_once a hold b hold' hlivea hliveb hsame
          · exact absurd hsame (hlive a hold hlivea)
        · rcases hmem hb with hold' | rfl
          · exact absurd hsame.symm (hlive b hold' hliveb)
          · rfl
      issuing_once := h.issuing_once
      live_or_issuing := fun other hother hlive' => by
        rcases hmem hother with hold | rfl
        · exact h.live_or_issuing other hold hlive'
        · exact hissuing
      ended_live := fun session he other hother hlive' => by
        rcases hmem hother with hold | rfl
        · exact h.ended_live session he other hold hlive'
        · exact fun hsame => hended (hsame ▸ he)
      ended_issuing := h.ended_issuing
      row_session := fun other hother => by
        rcases hmem hother with hold | rfl
        · exact h.row_session other hold
        · exact hsession
      issuing_session := h.issuing_session
      ended_session := h.ended_session
      refused := h.refused }

theorem Rotating.login (h : Rotating s) : Rotating { s with sessions := s.sessions + 1 } :=
  { h with
    row_session := fun row hrow => Nat.lt_succ_of_lt (h.row_session row hrow)
    issuing_session := fun r session h' => Nat.lt_succ_of_lt (h.issuing_session r session h')
    ended_session := fun session he => Nat.lt_succ_of_lt (h.ended_session session he) }

theorem insert_login {row : Row} {s' : State} (h : s.insert row = some s') :
    State.insert { s with sessions := s.sessions + 1 } row =
      some { s' with sessions := s.sessions + 1 } := by
  unfold State.insert at h ⊢
  split_ifs at h with htaken
  obtain rfl := Option.some.inj h
  exact if_neg htaken

theorem liveRow_spec {refreshToken : String} {now : Nat} {row : Row}
    (h : s.liveRow o refreshToken now = some row) :
    row ∈ s.rows ∧ row.tokenHash = o.sha256 refreshToken ∧ row.live = true ∧ now < row.expiresAt := by
  have hrow := List.find?_some (p := fun row : Row => row.tokenHash = o.sha256 refreshToken &&
    row.live && decide (now < row.expiresAt)) h
  simp only [Bool.and_eq_true, decide_eq_true_eq] at hrow
  exact ⟨List.mem_of_find?_eq_some h, hrow.1.1, hrow.1.2, hrow.2⟩

theorem Rotating.right (h : Rotating s) {refreshToken : String} {now : Nat} {row : Row}
    (hfound : s.liveRow o refreshToken now = some row) :
    o.sha256 refreshToken ∉ s.accepted ∧ row.session ∉ s.ended := by
  obtain ⟨hrow, hhash, hlive, -⟩ := liveRow_spec hfound
  refine ⟨fun ha => ?_, fun he => h.ended_live _ he row hrow hlive rfl⟩
  rw [h.accepted_revoked _ ha row hrow hhash] at hlive
  cases hlive

theorem Rotating.claimed (h : Rotating s) {r now : Nat} {refreshToken : String} {row : Row}
    (hfound : s.liveRow o refreshToken now = some row) :
    Rotating
      { (s.revoke (fun other => other.tokenHash = o.sha256 refreshToken &&
            decide (now < other.expiresAt)) now).setRefresh r
          ⟨refreshToken, .claimed row.userId row.session, true⟩ with
        accepted := o.sha256 refreshToken :: s.accepted } := by
  obtain ⟨hrow, hhash, hlive, hnow⟩ := liveRow_spec hfound
  obtain ⟨hfresh, hended⟩ := h.right hfound
  have hrevoked := h.revoke (fun other => other.tokenHash = o.sha256 refreshToken &&
    decide (now < other.expiresAt)) now
  -- Hashes are unique, so that the row is the only one of its hash.
  have honly : ∀ other ∈ s.rows, other.tokenHash = o.sha256 refreshToken → other = row :=
    fun other hother hsame => List.inj_on_of_nodup_map h.hashes hother hrow (hsame.trans hhash.symm)
  have hdead : ∀ other ∈ (s.revoke (fun other => other.tokenHash = o.sha256 refreshToken &&
      decide (now < other.expiresAt)) now).rows,
      other.tokenHash = o.sha256 refreshToken → other.live = false := by
    intro other hother hsame
    obtain ⟨old, hold, heq, -, hkept, -⟩ := mem_revoke hother
    by_contra hnot
    obtain ⟨rfl, hp⟩ := hkept (by simpa using hnot)
    obtain rfl := honly other hold hsame
    simp [hhash, hnow] at hp
  refine hrevoked.claim ?_ hdead hfresh ?_ (h.live_or_issuing row hrow hlive) hended
    (h.row_session row hrow)
  · have hmem : o.sha256 refreshToken ∈ s.rows.map (·.tokenHash) :=
      List.mem_map.mpr ⟨row, hrow, hhash⟩
    rw [← revoke_hashes (fun other => other.tokenHash = o.sha256 refreshToken &&
      decide (now < other.expiresAt)) now] at hmem
    exact List.mem_map.mp hmem
  · intro other hother hlive' hsame
    obtain ⟨old, hold, -, -, hkept, -⟩ := mem_revoke hother
    obtain ⟨rfl, -⟩ := hkept hlive'
    have hhash' := h.live_once other hold row hrow hlive' hlive hsame
    rw [hdead other hother (hhash'.trans hhash)] at hlive'
    cases hlive'

theorem Rotating.logout (h : Rotating s) (refreshToken : String) (now : Nat) :
    Rotating (s.step o (.logout refreshToken now)) := by
  have hrevoked := h.revoke (·.tokenHash = o.sha256 refreshToken) now
  have hended : ∀ {session}, session ∈ (s.rows.filter fun row =>
      row.tokenHash = o.sha256 refreshToken && row.live).map (·.session) →
      ∃ row ∈ s.rows, row.tokenHash = o.sha256 refreshToken ∧ row.live = true ∧
        row.session = session := by
    intro session hsession
    obtain ⟨row, hrow, rfl⟩ := List.mem_map.mp hsession
    obtain ⟨hmem, hrow⟩ := List.mem_filter.mp hrow
    simp only [Bool.and_eq_true, decide_eq_true_eq] at hrow
    exact ⟨row, hmem, hrow.1, hrow.2, rfl⟩
  exact
    { hrevoked with
      ended_live := fun session he row hrow hlive => by
        rcases List.mem_append.mp he with hnew | hold
        · obtain ⟨gone, hgone, hhash, hgoneLive, rfl⟩ := hended hnew
          intro hsame
          obtain ⟨old, hold, -, -, hkept, -⟩ := mem_revoke hrow
          obtain ⟨rfl, hp⟩ := hkept hlive
          have hhash' := h.live_once row hold gone hgone hlive hgoneLive hsame
          simp [hhash'.trans hhash] at hp
        · exact hrevoked.ended_live session hold row hrow hlive
      ended_issuing := fun session he r => by
        rcases List.mem_append.mp he with hnew | hold
        · obtain ⟨gone, hgone, -, hgoneLive, rfl⟩ := hended hnew
          exact h.live_or_issuing gone hgone hgoneLive r
        · exact h.ended_issuing session hold r
      ended_session := fun session he => by
        rcases List.mem_append.mp he with hnew | hold
        · obtain ⟨gone, hgone, -, -, rfl⟩ := hended hnew
          exact h.row_session gone hgone
        · exact h.ended_session session hold }

theorem Rotating.goOn (h : Rotating s) {r : Nat} {refreshToken : String} {progress : Progress}
    {wrote : Bool} (hclaimed : ∀ userId session, progress ≠ .claimed userId session)
    (hfound : ∀ userId session, progress ≠ .found userId session)
    (hwrote : progress = .asked ∨ progress = .refused ∨ progress = .rejected .invalid →
      wrote = false) : Rotating (s.setRefresh r ⟨refreshToken, progress, wrote⟩) := by
  refine h.setRefresh (fun userId session hprogress => ?_) hwrote
  rcases hprogress with heq | heq
  · exact absurd heq (hclaimed userId session)
  · exact absurd heq (hfound userId session)

theorem Rotating.alarm (h : Rotating s) (r : Nat) : Rotating (s.step o (.alarm r)) := by
  simp only [State.step]
  split
  · rename_i refreshToken wrote hrefresh
    have hrejected : Rotating (s.setRefresh r ⟨refreshToken, .rejected .invalid, wrote⟩) :=
      h.goOn (fun _ _ heq => by cases heq) (fun _ _ heq => by cases heq)
        fun _ => h.refused r ⟨refreshToken, .refused, wrote⟩ hrefresh (.inr (.inl rfl))
    split_ifs
    · exact { hrejected with }
    · exact hrejected
  · exact h

theorem Rotating.findUser (h : Rotating s) (r : Nat) : Rotating (s.step o (.findUser r)) := by
  simp only [State.step]
  split
  · rename_i refreshToken userId session wrote hrefresh
    split_ifs
    · refine h.setRefresh (fun userId' session' hprogress => ?_) fun hprogress => ?_
      · rcases hprogress with heq | heq
        · cases heq
        · obtain ⟨-, rfl⟩ := Progress.found.inj heq
          exact ⟨refreshToken, userId, wrote, .inl hrefresh⟩
      · rcases hprogress with heq | heq | heq <;> cases heq
    · refine h.goOn (fun _ _ heq => by cases heq) (fun _ _ heq => by cases heq) fun hprogress => ?_
      rcases hprogress with heq | heq | heq <;> cases heq
  · exact h

/-- The refresh ends, with or without the next token of its session. -/
theorem Rotating.issue (h : Rotating s) (r now : Nat) (uuid : String) (ok : Bool) :
    Rotating (s.step o (.issue r now uuid ok)) := by
  simp only [State.step]
  split
  · rename_i refreshToken userId session wrote hrefresh
    have hissuing : s.Issuing r session := ⟨refreshToken, userId, wrote, .inr hrefresh⟩
    split
    · refine h.goOn (fun _ _ heq => by cases heq) (fun _ _ heq => by cases heq) fun hprogress => ?_
      rcases hprogress with heq | heq | heq <;> cases heq
    · rename_i s' hinserted
      cases ok with
      | false => cases hinserted
      | true =>
          simp only [if_true] at hinserted
          have hinsert : (s.setRefresh r ⟨refreshToken, .returned uuid, true⟩).insert
              ⟨userId, o.sha256 uuid, now + o.refreshTtl, none, session⟩ =
                some (s'.setRefresh r ⟨refreshToken, .returned uuid, true⟩) := by
            unfold State.insert at hinserted ⊢
            split_ifs at hinserted with htaken
            obtain rfl := Option.some.inj hinserted
            exact if_neg htaken
          -- the refresh has returned, and its session has nothing else
          have hreturned : Rotating (s.setRefresh r ⟨refreshToken, .returned uuid, true⟩) := by
            refine h.goOn (fun _ _ heq => by cases heq) (fun _ _ heq => by cases heq)
              fun hprogress => ?_
            rcases hprogress with heq | heq | heq <;> cases heq
          refine hreturned.insert hinsert ?_ ?_ ?_ ?_
          · intro other hother hlive hsame
            exact h.live_or_issuing other hother hlive r (hsame ▸ hissuing)
          · intro r' hr'
            rcases issuing_setRefresh hr' with ⟨-, _, heq | heq⟩ | ⟨hne, hother⟩
            · cases heq
            · cases heq
            · exact hne (h.issuing_once r' r session hother hissuing)
          · exact fun he => h.ended_issuing session he r hissuing
          · exact h.issuing_session r session hissuing
  · exact h

theorem Rotating.step (h : Rotating s) (label : Label) : Rotating (s.step o label) := by
  cases label with
  | login userId now uuid =>
      simp only [State.step]
      split
      · exact h
      · rename_i s' hinsert
        have hfresh : ∀ {session}, session < s.sessions → session ≠ s.sessions := Nat.ne_of_lt
        exact h.login.insert (insert_login hinsert)
          (fun other hother _ => hfresh (h.row_session other hother))
          (fun r hissuing => hfresh (h.issuing_session r _ hissuing) rfl)
          (fun he => hfresh (h.ended_session _ he) rfl) (Nat.lt_succ_self _)
  | refresh r refreshToken =>
      simp only [State.step]
      split_ifs
      · exact h
      · exact h.goOn (fun _ _ heq => by cases heq) (fun _ _ heq => by cases heq) fun _ => rfl
  | claim r now =>
      simp only [State.step]
      split
      · rename_i refreshToken wrote hrefresh
        split
        · exact h.goOn (fun _ _ heq => by cases heq) (fun _ _ heq => by cases heq)
            fun _ => h.refused r ⟨refreshToken, .asked, wrote⟩ hrefresh (.inl rfl)
        · rename_i row hfound
          exact h.claimed hfound
      · exact h
  | alarm r => exact h.alarm r
  | findUser r => exact h.findUser r
  | issue r now uuid ok => exact h.issue r now uuid ok
  | logout refreshToken now => exact h.logout refreshToken now
  | setUser userId found => exact { h with }
  | revokeAll userId now => exact h.revoke _ now

end rotating

/-- Nobody has logged in yet. -/
def State.initial (users : Nat → Bool) : State := ⟨[], users, fun _ => none, 0, [], [], []⟩

theorem initial_rotating (users : Nat → Bool) : Rotating (.initial users) := by
  have hnone : ∀ r session, ¬ (State.initial users).Issuing r session := by
    rintro r session ⟨_, _, _, h | h⟩ <;> cases h
  exact
    { hashes := List.nodup_nil
      accepted_once := List.nodup_nil
      accepted_row := fun _ h => by cases h
      accepted_revoked := fun _ h => by cases h
      live_once := fun _ h => by cases h
      issuing_once := fun r _ session h => absurd h (hnone r session)
      live_or_issuing := fun _ h => by cases h
      ended_live := fun _ h => by cases h
      ended_issuing := fun _ h => by cases h
      row_session := fun _ h => by cases h
      issuing_session := fun r session h => absurd h (hnone r session)
      ended_session := fun _ h => by cases h
      refused := fun _ _ h => by cases h }

/-- Hashes of the tokens below, which are told apart by them. -/
def settings : Settings := ⟨fun text => "sha256:" ++ text, 2592000⟩

/-- User 3 logs in; a refresh claims the token; the token is logged out; the refresh goes on. -/
def raced : List Label :=
  [.login 3 0 "t0", .refresh 0 "t0", .claim 0 1, .logout "t0" 1, .findUser 0, .issue 0 1 "t1" true]

/-- User 3 logs in and is deleted while a refresh goes on. -/
def deleted : List Label :=
  [.login 3 0 "t0", .refresh 0 "t0", .setUser 3 false, .claim 0 1, .findUser 0]

def run (labels : List Label) : State :=
  labels.foldl (State.step settings) (.initial fun id => id = 3)

end OpenBms.Auth
