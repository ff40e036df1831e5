/-
# `OpenBms.Contacts.WebPush` — the devices of web-push subscriptions

`upsertWebPushDevice` finds the contact of a subscription or creates one, then writes the
device with its token (unique in an account), and at last sets `has_web_push` of the
contact.  Nothing is a transaction: each statement may fail and leave what was written
before it; an error of the last one is swallowed.

| contact of the subscription | found by | otherwise created |
| :-- | :-- | :-- |
| with an e-mail | e-mail, and `uuid` if given | with the e-mail, not flagged |
| anonymous, with a `uuid` | `uuid` | without e-mail, flagged |
| anonymous | never | without e-mail, flagged |

**Proved here.**

    a token has one device, of a contact of its account (`Owned.step`)
    over a run, contacts are flagged exactly when they own a
    device, and tokens of identified contacts stay with them when
    an anonymous subscription repeats them, iff no subscription
    takes the last device of another contact, or an identified
    contact's for an anonymous one, or loses a flag (`ownership_iff`)
    a visitor who comes back without an e-mail takes the device (`device_taken`)
-/
import OpenBms.Lib.Runs

namespace OpenBms.Contacts.WebPush

/-- A row of `contacts`; its id is its place. -/
structure Contact where
  accountId : Nat
  email : Option String
  uuid : Option String
  hasWebPush : Bool

/-- `device` of a request; a text that is not given is empty. -/
structure DeviceInput where
  token : String
  type : String
  os : String
  browser : String
  browserVersion : String
  deviceType : String
  resolution : String
  subscriptionUrl : String

/-- A row of `contacts_devices`. -/
structure Device where
  id : Nat
  contactId : Nat
  input : DeviceInput
  latestVisitedUrl : String
  isActive : Bool
  isUnsubscribed : Bool
  lastSession : Nat

/-- The device goes to a contact, and is active again. -/
def Device.rehome (device : Device) (id now : Nat) : Device :=
  { device with contactId := id, isActive := true, isUnsubscribed := false, lastSession := now }

/-- The devices by their unique key, account and token. -/
structure State where
  contacts : List Contact
  devices : Nat → String → Option Device
  nextDeviceId : Nat

/-- A request: an e-mail or uuid that is not given is empty, as is the account of no
context.  The flags tell which of the statements succeed. -/
structure Subscription where
  accountId : Nat
  email : String
  uuid : String
  device : DeviceInput
  now : Nat
  contactSaved : Bool
  deviceSaved : Bool
  flagSaved : Bool

structure HttpException where
  message : String
  status : Nat
  deriving DecidableEq

def internal : HttpException := ⟨"Internal Server Error", 500⟩

section
variable (lower : String → String)

/-- The place of the contact with these properties; without any there is none. -/
def findByProperty (s : State) (accountId : Nat) (email uuid : String) : Option Nat :=
  if email = "" ∧ uuid = "" then none
  else s.contacts.findIdx? fun contact =>
    contact.accountId = accountId ∧ (email ≠ "" → contact.email = some (lower email)) ∧
      (uuid ≠ "" → contact.uuid = some uuid)

namespace State

/-- A new contact; its uuid is not stored. -/
def addContact (s : State) (accountId : Nat) (email : Option String) (hasWebPush : Bool) : State :=
  { s with contacts := s.contacts ++ [⟨accountId, email, none, hasWebPush⟩] }

/-- `create` of a contact with an e-mail, which is unique in its account. -/
def create (s : State) (r : Subscription) : Option State :=
  if r.contactSaved = false ∨ ∃ contact ∈ s.contacts,
      contact.accountId = r.accountId ∧ contact.email = some (lower r.email) then none
  else some (s.addContact r.accountId (some (lower r.email)) false)

/-- The contact of a subscription, found or created. -/
def resolveContact (s : State) (r : Subscription) : State × Except HttpException Nat :=
  match findByProperty lower s r.accountId r.email r.uuid with
  | some id => (s, .ok id)
  | none =>
      if r.email ≠ "" then
        match s.create lower r with
        | none => (s, .error internal)
        | some s' =>
            (s', (findByProperty lower s' r.accountId r.email "").elim
              (.error ⟨"Could not resolve contact", 500⟩) .ok)
      else if r.contactSaved then
        (s.addContact r.accountId none true, .ok s.contacts.length)
      else (s, .error internal)

/-- `update({ id, accountId }, { hasWebPush: true })`. -/
def flag (s : State) (id accountId : Nat) : State :=
  { s with
    contacts := s.contacts.modify id fun contact =>
      if contact.accountId = accountId then { contact with hasWebPush := true } else contact }

def setDevice (s : State) (accountId : Nat) (token : String) (device : Device) : State :=
  { s with
    devices := fun accountId' token' =>
      if accountId' = accountId ∧ token' = token then some device
      else s.devices accountId' token' }

/-- A new device with the defaults of what is not given. -/
def newDevice (s : State) (r : Subscription) (id : Nat) : Device where
  id := s.nextDeviceId
  contactId := id
  input := { r.device with type := if r.device.type = "" then "web-push" else r.device.type }
  latestVisitedUrl := r.device.subscriptionUrl
  isActive := true
  isUnsubscribed := false
  lastSession := r.now

/-- The device of the token is given to the contact, or inserted. -/
def upsertDevice (s : State) (r : Subscription) (id : Nat) : State × Except HttpException (Nat × Nat) :=
  if r.deviceSaved = false then (s, .error internal)
  else
    let (s', deviceId) :=
      match s.devices r.accountId r.device.token with
      | some existing =>
          (s.setDevice r.accountId r.device.token (existing.rehome id r.now), existing.id)
      | none =>
          ({ s.setDevice r.accountId r.device.token (s.newDevice r id) with
              nextDeviceId := s.nextDeviceId + 1 }, s.nextDeviceId)
    (if r.flagSaved then s'.flag id r.accountId else s', .ok (deviceId, id))

def upsertWebPushDevice (s : State) (r : Subscription) :
    State × Except HttpException (Nat × Nat) :=
  if r.accountId = 0 then (s, .error ⟨"Account context required", 401⟩)
  else if r.device.token = "" then (s, .error ⟨"device.token is required", 400⟩)
  else
    match s.resolveContact lower r with
    | (s', .error e) => (s', .error e)
    | (s', .ok id) => s'.upsertDevice r id

def step (s : State) (r : Subscription) : State := (s.upsertWebPushDevice lower r).1

end State

end

/-! ## Owners and flags -/

section
variable (s : State)

/-- Every device is of a contact of its account. -/
def Owned : Prop :=
  ∀ accountId token device, s.devices accountId token = some device →
    ∃ contact, s.contacts[device.contactId]? = some contact ∧ contact.accountId = accountId

def Owns (id : Nat) : Prop :=
  ∃ accountId token device, s.devices accountId token = some device ∧ device.contactId = id

/-- The contact is flagged. -/
def HasWebPush (id : Nat) : Prop :=
  ∃ contact, s.contacts[id]? = some contact ∧ contact.hasWebPush = true

/-- A contact is flagged exactly when it owns a device. -/
def Flagged : Prop := ∀ id, HasWebPush s id ↔ Owns s id

/-- The contact has an e-mail. -/
def Identified (id : Nat) : Prop :=
  ∃ contact, s.contacts[id]? = some contact ∧ contact.email ≠ none

/-- The contact owns a device with another token, or in another account. -/
def OwnsOther (id accountId : Nat) (token : String) : Prop :=
  ∃ accountId' token' device, s.devices accountId' token' = some device ∧
    device.contactId = id ∧ ¬ (accountId' = accountId ∧ token' = token)

end

section
variable {s : State} {r : Subscription} {id x accountId : Nat} {token : String}

theorem owns_setDevice {device : Device} : Owns (s.setDevice accountId token device) x ↔
    device.contactId = x ∨ OwnsOther s x accountId token := by
  have hlookup : ∀ a t d, (s.setDevice accountId token device).devices a t = some d ↔
      (a = accountId ∧ t = token ∧ device = d) ∨
        (¬ (a = accountId ∧ t = token) ∧ s.devices a t = some d) := by
    intro a t d
    by_cases hsame : a = accountId ∧ t = token
    · simp only [State.setDevice, hsame.1, hsame.2, and_self, if_true, Option.some_inj, true_and,
        not_true, false_and, or_false]
    · simp only [State.setDevice, hsame, not_false_eq_true, true_and]
      exact ⟨.inr, fun h => h.resolve_left fun hd => hsame ⟨hd.1, hd.2.1⟩⟩
  constructor
  · rintro ⟨a, t, d, hd, rfl⟩
    rcases (hlookup a t d).mp hd with ⟨-, -, rfl⟩ | ⟨hother, hd⟩
    · exact .inl rfl
    · exact .inr ⟨a, t, d, hd, rfl, hother⟩
  · rintro (rfl | ⟨a, t, d, hd, rfl, hother⟩)
    · exact ⟨accountId, token, device, (hlookup ..).mpr (.inl ⟨rfl, rfl, rfl⟩), rfl⟩
    · exact ⟨a, t, d, (hlookup ..).mpr (.inr ⟨hother, hd⟩), rfl⟩

theorem owns_iff (accountId : Nat) (token : String) : Owns s x ↔ OwnsOther s x accountId token ∨
    ∃ device, s.devices accountId token = some device ∧ device.contactId = x := by
  constructor
  · rintro ⟨a, t, d, hd, rfl⟩
    by_cases hsame : a = accountId ∧ t = token
    · obtain ⟨rfl, rfl⟩ := hsame
      exact .inr ⟨d, hd, rfl⟩
    · exact .inl ⟨a, t, d, hd, rfl, hsame⟩
  · rintro (⟨a, t, d, hd, hx, -⟩ | ⟨d, hd, hx⟩)
    · exact ⟨a, t, d, hd, hx⟩
    · exact ⟨accountId, token, d, hd, hx⟩

theorem flag_getElem? {contact : Contact} (hid : s.contacts[id]? = some contact)
    (haccount : contact.accountId = accountId) : (s.flag id accountId).contacts[x]? =
      if x = id then some { contact with hasWebPush := true } else s.contacts[x]? := by
  simp only [State.flag, List.getElem?_modify]
  by_cases hx : x = id
  · subst hx
    simp only [if_true, hid, Option.map_eq_map, Option.map_some, haccount]
  · simp only [hx, Ne.symm hx, if_false, Option.map_eq_map, Option.map_id']

theorem hasWebPush_flag {contact : Contact} (hid : s.contacts[id]? = some contact)
    (haccount : contact.accountId = accountId) :
    HasWebPush (s.flag id accountId) x ↔ x = id ∨ HasWebPush s x := by
  simp only [HasWebPush, flag_getElem? hid haccount]
  by_cases hx : x = id
  · simp only [hx, if_true, Option.some_inj, exists_eq_left', true_or]
  · simp only [hx, if_false, false_or]

theorem upsertDevice_saved (s : State) (id : Nat) (hsaved : r.deviceSaved = true) :
    ∃ device : Device, device.contactId = id ∧
      (s.upsertDevice r id).1.devices = (s.setDevice r.accountId r.device.token device).devices ∧
      (s.upsertDevice r id).1.contacts =
        (if r.flagSaved then s.flag id r.accountId else s).contacts := by
  have hnot : ¬ r.deviceSaved = false := by
    rw [hsaved]
    exact Bool.noConfusion
  rw [State.upsertDevice, if_neg hnot]
  cases s.devices r.accountId r.device.token with
  | some existing =>
      refine ⟨existing.rehome id r.now, rfl, ?_, ?_⟩
      · cases r.flagSaved <;> rfl
      · cases r.flagSaved <;> rfl
  | none =>
      refine ⟨s.newDevice r id, rfl, ?_, ?_⟩
      · cases r.flagSaved <;> rfl
      · cases r.flagSaved <;> rfl

/-- The device that is stored decides who owns what, whichever branch stores it. -/
theorem owns_upsertDevice (hsaved : r.deviceSaved = true) :
    Owns (s.upsertDevice r id).1 x ↔ x = id ∨ OwnsOther s x r.accountId r.device.token := by
  obtain ⟨device, hdevice, hdevices, -⟩ := upsertDevice_saved s id hsaved
  have howns : Owns (s.upsertDevice r id).1 x ↔
      Owns (s.setDevice r.accountId r.device.token device) x := by
    rw [Owns, Owns, hdevices]
  rw [howns, owns_setDevice, hdevice, eq_comm]

theorem hasWebPush_upsertDevice {contact : Contact} (hsaved : r.deviceSaved = true)
    (hid : s.contacts[id]? = some contact) (haccount : contact.accountId = r.accountId) :
    HasWebPush (s.upsertDevice r id).1 x ↔ (r.flagSaved = true ∧ x = id) ∨ HasWebPush s x := by
  obtain ⟨device, -, -, hcontacts⟩ := upsertDevice_saved s id hsaved
  rw [HasWebPush, hcontacts]
  cases r.flagSaved with
  | true =>
      simp only [if_true, true_and]
      exact hasWebPush_flag hid haccount
  | false =>
      simp only [Bool.false_eq_true, if_false, false_and, false_or]
      rfl

theorem flagged_upsertDevice_iff {contact : Contact} (hsaved : r.deviceSaved = true)
    (hid : s.contacts[id]? = some contact) (haccount : contact.accountId = r.accountId)
    (hothers : ∀ x, x ≠ id → (HasWebPush s x ↔ Owns s x)) :
    Flagged (s.upsertDevice r id).1 ↔ (r.flagSaved = true ∨ HasWebPush s id) ∧
      ∀ device, s.devices r.accountId r.device.token = some device → device.contactId ≠ id →
        OwnsOther s device.contactId r.accountId r.device.token := by
  constructor
  · intro hflagged
    refine ⟨?_, fun device hdevice hne => ?_⟩
    · have hself := (hflagged id).mpr ((owns_upsertDevice hsaved).mpr (.inl rfl))
      exact ((hasWebPush_upsertDevice hsaved hid haccount).mp hself).imp_left fun h => h.1
    · have howner : HasWebPush s device.contactId :=
        (hothers _ hne).mpr ⟨_, _, device, hdevice, rfl⟩
      have hafter := (hflagged _).mp
        ((hasWebPush_upsertDevice hsaved hid haccount).mpr (.inr howner))
      exact ((owns_upsertDevice hsaved).mp hafter).resolve_left hne
  · rintro ⟨hflag, hspare⟩ x
    rw [owns_upsertDevice hsaved, hasWebPush_upsertDevice hsaved hid haccount]
    by_cases hx : x = id
    · subst hx
      exact ⟨fun _ => .inl rfl, fun _ => hflag.imp_left fun h => ⟨h, rfl⟩⟩
    · simp only [hx, and_false, false_or]
      rw [hothers x hx, owns_iff r.accountId r.device.token]
      refine ⟨fun howns => howns.elim (fun h => h) ?_, .inl⟩
      rintro ⟨device, hdevice, rfl⟩
      exact hspare device hdevice hx

theorem upsertDevice_unsaved (hsaved : r.deviceSaved = false) : (s.upsertDevice r id).1 = s := by
  rw [State.upsertDevice, if_pos hsaved]

theorem getElem?_upsertDevice {contact : Contact} (hid : s.contacts[id]? = some contact)
    (haccount : contact.accountId = r.accountId) {c : Contact} (hx : s.contacts[x]? = some c) :
    ∃ c', (s.upsertDevice r id).1.contacts[x]? = some c' ∧ c'.accountId = c.accountId ∧
      c'.email = c.email := by
  cases hsaved : r.deviceSaved with
  | false => exact ⟨c, by rwa [upsertDevice_unsaved hsaved], rfl, rfl⟩
  | true =>
      obtain ⟨device, -, -, hcontacts⟩ := upsertDevice_saved s id hsaved
      rw [hcontacts]
      cases r.flagSaved with
      | false => exact ⟨c, hx, rfl, rfl⟩
      | true =>
          simp only [if_true, flag_getElem? hid haccount]
          split
          · rename_i heq
            subst heq
            cases hid.symm.trans hx
            exact ⟨_, rfl, rfl, rfl⟩
          · exact ⟨c, hx, rfl, rfl⟩

theorem Owned.upsertDevice (h : Owned s) {contact : Contact} (hid : s.contacts[id]? = some contact)
    (haccount : contact.accountId = r.accountId) : Owned (s.upsertDevice r id).1 := by
  cases hsaved : r.deviceSaved with
  | false => rwa [upsertDevice_unsaved hsaved]
  | true =>
      obtain ⟨device, hdevice, hdevices, -⟩ := upsertDevice_saved s id hsaved
      intro a t d hd
      rw [hdevices] at hd
      simp only [State.setDevice] at hd
      split at hd
      · rename_i hsame
        cases hd
        obtain ⟨c, hc, hca, -⟩ := getElem?_upsertDevice (r := r) hid haccount hid
        exact ⟨c, hdevice ▸ hc, hca.trans (haccount.trans hsame.1.symm)⟩
      · obtain ⟨c, hc, hca⟩ := h a t d hd
        obtain ⟨c', hc', hca', -⟩ := getElem?_upsertDevice (r := r) hid haccount hc
        exact ⟨c', hc', hca'.trans hca⟩

end

/-! ## The contact of a subscription -/

section
variable {lower : String → String} {s : State} {r : Subscription} {id : Nat}

theorem findByProperty_eq_some {accountId : Nat} {email uuid : String}
    (h : findByProperty lower s accountId email uuid = some id) :
    ∃ contact, s.contacts[id]? = some contact ∧ contact.accountId = accountId := by
  rw [findByProperty] at h
  split at h
  · cases h
  · obtain ⟨hlt, hcontact, -⟩ := List.findIdx?_eq_some_iff_getElem.mp h
    have haccount := of_decide_eq_true hcontact
    exact ⟨s.contacts[id], List.getElem?_eq_getElem hlt, haccount.1⟩

/-- Another contact of the account has the e-mail. -/
def EmailTaken (lower : String → String) (s : State) (r : Subscription) : Prop :=
  ∃ contact ∈ s.contacts, contact.accountId = r.accountId ∧ contact.email = some (lower r.email)

theorem find_created (hemail : r.email ≠ "") (hfree : ¬ EmailTaken lower s r) :
    findByProperty lower (s.addContact r.accountId (some (lower r.email)) false) r.accountId r.email
      "" = some s.contacts.length := by
  rw [findByProperty, if_neg fun h => hemail h.1, State.addContact, List.findIdx?_append]
  have hnone : (s.contacts.findIdx? fun contact => decide (contact.accountId = r.accountId ∧
      (r.email ≠ "" → contact.email = some (lower r.email)) ∧
        (("" : String) ≠ "" → contact.uuid = some ""))) = none := by
    refine List.findIdx?_eq_none_iff.mpr fun contact hmem => decide_eq_false ?_
    rintro ⟨haccount, hsame, -⟩
    exact hfree ⟨contact, hmem, haccount, hsame hemail⟩
  have hone : ([⟨r.accountId, some (lower r.email), none, false⟩].findIdx? fun contact : Contact =>
      decide (contact.accountId = r.accountId ∧
        (r.email ≠ "" → contact.email = some (lower r.email)) ∧
          (("" : String) ≠ "" → contact.uuid = some ""))) = some 0 := by
    rw [List.findIdx?_cons]
    exact if_pos (decide_eq_true ⟨rfl, fun _ => rfl, fun h => absurd rfl h⟩)
  rw [hnone, hone, Option.none_or, Option.map_some, zero_add]

theorem resolveContact_found (h : findByProperty lower s r.accountId r.email r.uuid = some id) :
    s.resolveContact lower r = (s, .ok id) := by
  rw [State.resolveContact, h]

theorem resolveContact_created (h : findByProperty lower s r.accountId r.email r.uuid = none)
    (hemail : r.email ≠ "") (hsaved : r.contactSaved = true) (hfree : ¬ EmailTaken lower s r) :
    s.resolveContact lower r =
      (s.addContact r.accountId (some (lower r.email)) false, .ok s.contacts.length) := by
  have hcreate : s.create lower r = some (s.addContact r.accountId (some (lower r.email)) false) := by
    rw [State.create, if_neg]
    rintro (hunsaved | htaken)
    · exact Bool.noConfusion (hsaved.symm.trans hunsaved)
    · exact hfree htaken
  simp only [State.resolveContact, h, hcreate, find_created hemail hfree, ne_eq, hemail,
    not_false_eq_true, if_true, Option.elim_some]

theorem resolveContact_refused (h : findByProperty lower s r.accountId r.email r.uuid = none)
    (hemail : r.email ≠ "") (hnot : r.contactSaved = false ∨ EmailTaken lower s r) :
    s.resolveContact lower r = (s, .error internal) := by
  have hcreate : s.create lower r = none := if_pos hnot
  simp only [State.resolveContact, h, hcreate, ne_eq, hemail, not_false_eq_true, if_true]

theorem resolveContact_anonymous (h : findByProperty lower s r.accountId r.email r.uuid = none)
    (hemail : r.email = "") : s.resolveContact lower r =
      if r.contactSaved then (s.addContact r.accountId none true, .ok s.contacts.length)
      else (s, .error internal) := by
  rw [State.resolveContact, h]
  exact if_neg fun hne => hne hemail

end

/-! ## One subscription -/

section
variable (lower : String → String) (s : State) (r : Subscription)

/-- The request has an account and a token. -/
def Subscription.Valid : Prop := r.accountId ≠ 0 ∧ r.device.token ≠ ""

/-- A token of an identified contact stays with it when the subscription is anonymous. -/
def Kept : Prop :=
  r.email = "" → ∀ device, s.devices r.accountId r.device.token = some device →
    Identified s device.contactId →
    ∃ device', (s.step lower r).devices r.accountId r.device.token = some device' ∧
      device'.contactId = device.contactId

/-- The contact that loses the device has another one; one that an anonymous subscription
takes it from is not identified. -/
def Spares (device : Device) : Prop :=
  OwnsOther s device.contactId r.accountId r.device.token ∧
    (r.email = "" → ¬ Identified s device.contactId)

/-- What a subscription must find: a contact that is stored gets its flag, a new anonymous
contact its device, and a device that changes hands may be spared. -/
def Guarded : Prop :=
  r.Valid →
  match findByProperty lower s r.accountId r.email r.uuid with
  | some id => r.deviceSaved = true → (r.flagSaved = true ∨ HasWebPush s id) ∧
      ∀ device, s.devices r.accountId r.device.token = some device → device.contactId ≠ id →
        Spares s r device
  | none =>
      r.contactSaved = true →
      if r.email = "" then
        r.deviceSaved = true ∧
          ∀ device, s.devices r.accountId r.device.token = some device → Spares s r device
      else
        ¬ EmailTaken lower s r → r.deviceSaved = true → r.flagSaved = true ∧
          ∀ device, s.devices r.accountId r.device.token = some device → Spares s r device

end

section
variable {lower : String → String} {s : State} {r : Subscription} {id : Nat}

theorem step_invalid (hvalid : ¬ r.Valid) : s.step lower r = s := by
  rw [State.step, State.upsertWebPushDevice]
  by_cases haccount : r.accountId = 0
  · rw [if_pos haccount]
  · rw [if_neg haccount]
    have htoken : r.device.token = "" := by
      by_contra htoken
      exact hvalid ⟨haccount, htoken⟩
    rw [if_pos htoken]

theorem step_ok (hvalid : r.Valid) {s' : State}
    (hresolve : s.resolveContact lower r = (s', .ok id)) :
    s.step lower r = (s'.upsertDevice r id).1 := by
  rw [State.step, State.upsertWebPushDevice, if_neg hvalid.1, if_neg hvalid.2, hresolve]

theorem step_error (hvalid : r.Valid) {s' : State} {e : HttpException}
    (hresolve : s.resolveContact lower r = (s', .error e)) : s.step lower r = s' := by
  rw [State.step, State.upsertWebPushDevice, if_neg hvalid.1, if_neg hvalid.2, hresolve]

theorem addContact_getElem? {email : Option String} {hasWebPush : Bool} {x : Nat} {c : Contact}
    (hx : s.contacts[x]? = some c) :
    (s.addContact r.accountId email hasWebPush).contacts[x]? = some c :=
  List.getElem?_append_left (List.getElem?_eq_some_iff.mp hx).1 ▸ hx

theorem addContact_getElem?_self {email : Option String} {hasWebPush : Bool} :
    (s.addContact r.accountId email hasWebPush).contacts[s.contacts.length]? =
      some ⟨r.accountId, email, none, hasWebPush⟩ :=
  List.getElem?_concat_length

theorem Owned.addContact (h : Owned s) {email : Option String} {hasWebPush : Bool} :
    Owned (s.addContact r.accountId email hasWebPush) := by
  intro a t d hd
  obtain ⟨c, hc, hca⟩ := h a t d hd
  exact ⟨c, addContact_getElem? hc, hca⟩

/-- A token has one device, of a contact of its account, whatever a subscription does. -/
theorem Owned.step (h : Owned s) : Owned (s.step lower r) := by
  by_cases hvalid : r.Valid
  swap
  · rwa [step_invalid hvalid]
  cases hfind : findByProperty lower s r.accountId r.email r.uuid with
  | some id =>
      obtain ⟨contact, hid, haccount⟩ := findByProperty_eq_some hfind
      rw [step_ok hvalid (resolveContact_found hfind)]
      exact h.upsertDevice hid haccount
  | none =>
      by_cases hemail : r.email = ""
      · have hresolve := resolveContact_anonymous hfind hemail
        cases hsaved : r.contactSaved with
        | false =>
            rw [hsaved, if_neg Bool.false_ne_true] at hresolve
            rwa [step_error hvalid hresolve]
        | true =>
            rw [hsaved, if_pos rfl] at hresolve
            rw [step_ok hvalid hresolve]
            exact h.addContact.upsertDevice addContact_getElem?_self rfl
      · by_cases hcreate : r.contactSaved = true ∧ ¬ EmailTaken lower s r
        · rw [step_ok hvalid (resolveContact_created hfind hemail hcreate.1 hcreate.2)]
          exact h.addContact.upsertDevice addContact_getElem?_self rfl
        · have hnot : r.contactSaved = false ∨ EmailTaken lower s r := by
            by_contra hnot
            simp only [not_or, Bool.not_eq_false] at hnot
            exact hcreate hnot
          rwa [step_error hvalid (resolveContact_refused hfind hemail hnot)]

theorem kept_of_eq (heq : s.step lower r = s) : Kept lower s r := by
  intro _ device hdevice _
  rw [heq]
  exact ⟨device, hdevice, rfl⟩

theorem kept_upsertDevice_iff {s' : State} (hsaved : r.deviceSaved = true)
    (hstep : s.step lower r = (s'.upsertDevice r id).1) :
    Kept lower s r ↔ (r.email = "" → ∀ device,
      s.devices r.accountId r.device.token = some device → device.contactId ≠ id →
        ¬ Identified s device.contactId) := by
  obtain ⟨new, hnew, hdevices, -⟩ := upsertDevice_saved s' id hsaved
  have hlookup : (s.step lower r).devices r.accountId r.device.token = some new := by
    rw [hstep, hdevices]
    exact if_pos ⟨rfl, rfl⟩
  constructor
  · intro hkept hemail device hdevice hne hidentified
    obtain ⟨device', hdevice', hsame⟩ := hkept hemail device hdevice hidentified
    cases hlookup.symm.trans hdevice'
    exact hne (hsame.symm.trans hnew)
  · intro h hemail device hdevice hidentified
    refine ⟨new, hlookup, ?_⟩
    by_contra hne
    exact h hemail device hdevice (fun heq => hne (hnew.trans heq.symm)) hidentified

theorem hasWebPush_addContact {email : Option String} {hasWebPush : Bool} {x : Nat} :
    HasWebPush (s.addContact r.accountId email hasWebPush) x ↔
      HasWebPush s x ∨ x = s.contacts.length ∧ hasWebPush = true := by
  by_cases hx : x = s.contacts.length
  · subst hx
    have hnone : ¬ HasWebPush s s.contacts.length := by
      rintro ⟨contact, hcontact, -⟩
      exact absurd (List.getElem?_eq_some_iff.mp hcontact).1 (Nat.lt_irrefl _)
    simp only [HasWebPush, addContact_getElem?_self, Option.some_inj, exists_eq_left', true_and]
    exact ⟨.inr, fun h => h.resolve_left hnone⟩
  · have hsame : (s.addContact r.accountId email hasWebPush).contacts[x]? = s.contacts[x]? := by
      rw [State.addContact, List.getElem?_append]
      split
      · rfl
      · rename_i hle
        have hlt : s.contacts.length < x := lt_of_le_of_ne (Nat.not_lt.mp hle) (Ne.symm hx)
        rw [List.getElem?_eq_none (Nat.not_lt.mp hle), List.getElem?_eq_none]
        simp only [List.length_singleton]
        exact Nat.le_sub_of_add_le (Nat.add_comm 1 _ ▸ hlt)
    simp only [HasWebPush, hsame, hx, false_and, or_false]

theorem Owned.not_owns (h : Owned s) : ¬ Owns s s.contacts.length := by
  rintro ⟨a, t, device, hdevice, heq⟩
  obtain ⟨contact, hcontact, -⟩ := h a t device hdevice
  exact absurd (List.getElem?_eq_some_iff.mp hcontact).1 (heq ▸ Nat.lt_irrefl _)

theorem flagged_created_iff (howned : Owned s) (hflagged : Flagged s) {email : Option String}
    {hasWebPush : Bool} :
    Flagged ((s.addContact r.accountId email hasWebPush).upsertDevice r s.contacts.length).1 ↔
      if r.deviceSaved = true then (r.flagSaved = true ∨ hasWebPush = true) ∧
        ∀ device, s.devices r.accountId r.device.token = some device →
          OwnsOther s device.contactId r.accountId r.device.token
      else hasWebPush = false := by
  have hnone : ¬ HasWebPush s s.contacts.length := fun h => howned.not_owns ((hflagged _).mp h)
  cases hsaved : r.deviceSaved with
  | true =>
      have hothers : ∀ x, x ≠ s.contacts.length →
          (HasWebPush (s.addContact r.accountId email hasWebPush) x ↔
            Owns (s.addContact r.accountId email hasWebPush) x) := by
        intro x hx
        rw [hasWebPush_addContact, hflagged x]
        exact or_iff_left fun h => hx h.1
      rw [flagged_upsertDevice_iff hsaved addContact_getElem?_self rfl hothers,
        hasWebPush_addContact, if_pos rfl]
      refine and_congr (or_congr_right ?_) (forall₂_congr fun device hdevice => ?_)
      · exact ⟨fun h => (h.resolve_left hnone).2, fun h => .inr ⟨rfl, h⟩⟩
      · refine ⟨fun h => h fun heq => ?_, fun h _ => h⟩
        exact howned.not_owns ⟨_, _, device, hdevice, heq⟩
  | false =>
      rw [upsertDevice_unsaved hsaved, if_neg Bool.false_ne_true]
      constructor
      · intro h
        have hself := (h s.contacts.length).mp.mt howned.not_owns
        rw [hasWebPush_addContact] at hself
        exact (Bool.not_eq_true _).mp fun hflag => hself (.inr ⟨rfl, hflag⟩)
      · intro h x
        rw [hasWebPush_addContact, hflagged x, h]
        exact or_iff_left fun hx => Bool.false_ne_true hx.2

/-- What one subscription keeps, and when. -/
theorem step_iff (h : Owned s ∧ Flagged s) :
    (Owned (s.step lower r) ∧ Flagged (s.step lower r)) ∧ Kept lower s r ↔ Guarded lower s r := by
  obtain ⟨howned, hflagged⟩ := h
  rw [and_iff_right howned.step]
  by_cases hvalid : r.Valid
  swap
  · have heq : s.step lower r = s := step_invalid hvalid
    exact ⟨fun _ hv => absurd hv hvalid, fun _ => ⟨heq.symm ▸ hflagged, kept_of_eq heq⟩⟩
  rw [Guarded, forall_prop_of_true hvalid]
  cases hfind : findByProperty lower s r.accountId r.email r.uuid with
  | some id =>
      obtain ⟨contact, hid, haccount⟩ := findByProperty_eq_some hfind
      have hstep := step_ok hvalid (resolveContact_found hfind)
      cases hsaved : r.deviceSaved with
      | false =>
          rw [upsertDevice_unsaved hsaved] at hstep
          simp only [Bool.false_eq_true, false_imp_iff, iff_true]
          exact ⟨hstep.symm ▸ hflagged, kept_of_eq hstep⟩
      | true =>
          simp only [true_imp_iff]
          rw [kept_upsertDevice_iff hsaved hstep, hstep,
            flagged_upsertDevice_iff hsaved hid haccount fun x _ => hflagged x, and_assoc]
          refine and_congr_right fun _ => ⟨?_, ?_⟩
          · rintro ⟨hspare, hkept⟩ device hdevice hne
            exact ⟨hspare device hdevice hne, fun hemail => hkept hemail device hdevice hne⟩
          · intro hspares
            exact ⟨fun device hdevice hne => (hspares device hdevice hne).1,
              fun hemail device hdevice hne => (hspares device hdevice hne).2 hemail⟩
  | none =>
      simp only
      by_cases hemail : r.email = ""
      · rw [if_pos hemail]
        have hresolve := resolveContact_anonymous hfind hemail
        cases hcontact : r.contactSaved with
        | false =>
            rw [hcontact, if_neg Bool.false_ne_true] at hresolve
            have heq := step_error hvalid hresolve
            simp only [Bool.false_eq_true, false_imp_iff, iff_true]
            exact ⟨heq.symm ▸ hflagged, kept_of_eq heq⟩
        | true =>
            rw [hcontact, if_pos rfl] at hresolve
            have hstep := step_ok hvalid hresolve
            rw [hstep, flagged_created_iff howned hflagged]
            simp only [true_imp_iff]
            cases hsaved : r.deviceSaved with
            | false =>
                simp only [Bool.false_eq_true, if_false, Bool.true_eq_false, false_and]
            | true =>
                rw [if_pos rfl, kept_upsertDevice_iff hsaved hstep]
                simp only [or_true, true_and]
                constructor
                · rintro ⟨hspare, hkept⟩ device hdevice
                  refine ⟨hspare device hdevice, fun _ => hkept hemail device hdevice fun heq => ?_⟩
                  exact howned.not_owns ⟨_, _, device, hdevice, heq⟩
                · intro hspares
                  exact ⟨fun device hdevice => (hspares device hdevice).1,
                    fun _ device hdevice _ => (hspares device hdevice).2 hemail⟩
      · rw [if_neg hemail]
        have hkept : Kept lower s r := fun h => absurd h hemail
        rw [and_iff_left hkept]
        by_cases hcreate : r.contactSaved = true ∧ ¬ EmailTaken lower s r
        · rw [step_ok hvalid (resolveContact_created hfind hemail hcreate.1 hcreate.2),
            flagged_created_iff howned hflagged, forall_prop_of_true hcreate.1,
            forall_prop_of_true hcreate.2]
          cases hsaved : r.deviceSaved with
          | false => simp only [Bool.false_eq_true, if_false, false_imp_iff]
          | true =>
              simp only [if_true, true_imp_iff, Bool.false_eq_true, or_false]
              refine and_congr_right fun _ => forall₂_congr fun device _ => ?_
              exact ⟨fun h => ⟨h, fun hanonymous => absurd hanonymous hemail⟩, fun h => h.1⟩
        · have hnot : r.contactSaved = false ∨ EmailTaken lower s r := by
            by_contra hnot
            simp only [not_or, Bool.not_eq_false] at hnot
            exact hcreate hnot
          rw [step_error hvalid (resolveContact_refused hfind hemail hnot)]
          exact ⟨fun _ hcontact hfree => absurd ⟨hcontact, hfree⟩ hcreate, fun _ => hflagged⟩

end

/-- In the states of a run every device is of a contact of its account, contacts are flagged
exactly when they own a device, and no anonymous subscription takes a token from an
identified contact, exactly when every subscription finds what it must. -/
theorem ownership_iff {lower : String → String} {start : State}
    (hstart : Owned start ∧ Flagged start) (rs : List Subscription) :
    ((∀ before after, rs = before ++ after →
        Owned (before.foldl (State.step lower) start) ∧
          Flagged (before.foldl (State.step lower) start)) ∧
      ∀ before r after, rs = before ++ r :: after →
        Kept lower (before.foldl (State.step lower) start) r) ↔
    Runs.Meets (fun s r => some (s.step lower r)) (Guarded lower) start rs :=
  Runs.always_steps_iff (I := fun s => Owned s ∧ Flagged s) (fun _ _ h => step_iff h) hstart rs

def State.empty : State := ⟨[], fun _ _ => none, 1⟩

theorem empty_owned : Owned State.empty ∧ Flagged State.empty := by
  refine ⟨fun _ _ _ h => (by cases h), fun id => ⟨?_, ?_⟩⟩
  · rintro ⟨contact, hcontact, -⟩
    cases hcontact
  · rintro ⟨_, _, _, h, -⟩
    cases h

/-- The subscription of a visitor of account 1 with the token `t`. -/
def visit (email : String) : Subscription where
  accountId := 1
  email := email
  uuid := ""
  device := ⟨"t", "", "", "", "", "", "", ""⟩
  now := 0
  contactSaved := true
  deviceSaved := true
  flagSaved := true

/-- A visitor with an e-mail subscribes twice. -/
theorem ownership_iff_twice : Kept id (State.empty.step id (visit "a@b.c")) (visit "a@b.c") := by
  refine ((@ownership_iff id _ empty_owned [visit "a@b.c", visit "a@b.c"]).mpr
    (.cons ?_ rfl (.cons ?_ rfl trivial))).2 [visit "a@b.c"] (visit "a@b.c") [] rfl
  · intro _ _ _ _
    exact ⟨rfl, fun _ h => by cases h⟩
  · intro _ _
    refine ⟨.inl rfl, fun device hdevice hne => ?_⟩
    cases hdevice
    exact absurd rfl hne

/-- The visitor comes back without an e-mail: a new contact owns the token, and the
identified one, which owns nothing, stays flagged. -/
theorem device_taken :
    ¬ Kept id (State.empty.step id (visit "a@b.c")) (visit "") ∧
    ¬ Flagged ((State.empty.step id (visit "a@b.c")).step id (visit "")) := by
  constructor
  · intro hkept
    obtain ⟨device, hdevice, howner⟩ := hkept rfl _ rfl ⟨_, rfl, nofun⟩
    cases hdevice
    cases howner
  · intro hflagged
    obtain ⟨a, t, device, hdevice, howner⟩ := (hflagged 0).mp ⟨_, rfl, rfl⟩
    by_cases hsame : a = 1 ∧ t = "t"
    · obtain ⟨rfl, rfl⟩ := hsame
      cases hdevice
      cases howner
    · have hnone : ((State.empty.step id (visit "a@b.c")).step id (visit "")).devices a t = none :=
        (if_neg hsame).trans (if_neg hsame)
      cases hnone.symm.trans hdevice

end OpenBms.Contacts.WebPush
