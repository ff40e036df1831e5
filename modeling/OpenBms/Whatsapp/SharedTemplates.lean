/-
# `OpenBms.Whatsapp.SharedTemplates` — whose template a deleted message takes with it

A WhatsApp message refers to its template at Meta by the template's name.  When the message is
deleted, the template is deleted first; the code does not ask who else refers to it.

| operation | name of the template |
| :-- | :-- |
| `createMessage`, `updateOneById` | the one that Meta accepts, or the one of the request |
| `updatePart` | the one of the request |
| `createCopy` | the one of the source |
| `syncTemplatesFromMeta` | one that no message of the account has |

**Proved here.**

    an import gives no message the template of another one (`Apart.sync`)
    what a row that is written keeps (`Apart.write`)
    in an allowed run no deletion takes the template of
    another message (`deletions_spare`)
-/
import OpenBms.Lib.Runs

namespace OpenBms.Whatsapp.Shared

/-! ## Messages -/

structure Message where
  accountId : Nat
  type : Option String
  title : String
  status : Option String
  providerMessageId : Option String
  version : Nat
  deleted : Bool

/-- A request: what it leaves out is `none`, what it sets to null is `some none`. -/
structure MessageDto where
  type : Option String := none
  title : Option String := none
  status : Option (Option String) := none
  providerMessageId : Option (Option String) := none
  accountId : Option Nat := none
  deleted : Option Bool := none

def Message.merge (message : Message) (dto : MessageDto) : Message where
  accountId := dto.accountId.getD message.accountId
  type := dto.type.or message.type
  title := dto.title.getD message.title
  status := dto.status.getD message.status
  providerMessageId := dto.providerMessageId.getD message.providerMessageId
  version := message.version
  deleted := dto.deleted.getD message.deleted

/-- The columns of a row that is inserted, before those of the request. -/
def Message.default (accountId : Nat) : Message := ⟨accountId, none, "", none, none, 0, false⟩

def isWhatsapp (type : Option String) : Bool := type == some "2FA-whatsapp" || type == some "whatsapp"

/-- The template that a message refers to. -/
def Message.template (message : Message) : Option String :=
  message.providerMessageId.filter (· ≠ "")

structure State where
  messages : Nat → Option Message
  nextId : Nat

/-- The name and the verdict of a template that Meta lists. -/
structure Template where
  name : String
  status : String
  deriving DecidableEq

namespace State

variable (s : State)

/-- A message of the account that is not deleted. -/
def find (accountId id : Nat) : Option Message :=
  (s.messages id).filter fun message => message.accountId == accountId && ! message.deleted

def setMessage (id : Nat) (message : Message) : State :=
  { s with
    messages := Function.update s.messages id (some message)
    nextId := max s.nextId (id + 1) }

/-! ## Operations -/

end State

/-- A WhatsApp message is submitted for approval; `approval` is the name that Meta accepts, or the
id of Twilio, and `none` when one of them refuses. -/
def submit (type : Option String) (dto : MessageDto) (approval : Option String) : Option MessageDto :=
  if isWhatsapp type && dto.status == some (some "send_approval") then
    approval.map fun name =>
      { dto with providerMessageId := some (some name), status := some (some "sent_approval") }
  else some dto

/-- `findOneById` and the columns that `createCopy` takes from it. -/
def Message.copied (message : Message) (lastCopy : Nat) : MessageDto where
  type := message.type
  title := some (message.title ++ " (Cópia " ++ toString lastCopy ++ ")")
  status := some message.status
  providerMessageId := some message.providerMessageId

namespace State

variable (s : State)

/-- The row that `createMessage` saves: a request may have the id of a row. -/
def created (accountId id : Nat) (dto : MessageDto) : Message :=
  ((s.messages id).getD (.default accountId)).merge { dto with accountId := some accountId }

def createMessage (accountId id : Nat) (dto : MessageDto) (approval : Option String) (saved : Bool) :
    State :=
  match submit dto.type dto approval with
  | none => s
  | some dto => if saved then s.setMessage id (s.created accountId id dto) else s

def createCopy (accountId source id : Nat) (approval : Option String) (saved : Bool) : State :=
  match s.find accountId source with
  | none => s
  | some message =>
      let lastCopy := message.version + 1
      (s.setMessage source { message with version := lastCopy }).createMessage accountId id
        (message.copied lastCopy) approval saved

/-- The row that `updateOneById` saves, if it gets there; `inUse` by a campaign that is sent. -/
def updated (accountId id : Nat) (dto : MessageDto) (inUse : Bool) (approval : Option String) :
    Option Message :=
  match s.find accountId id with
  | none => none
  | some message =>
      if inUse then none
      else if isWhatsapp message.type && message.status != some "draft" then none
      else (submit message.type dto approval).map message.merge

def updateOneById (accountId id : Nat) (dto : MessageDto) (inUse : Bool) (approval : Option String)
    (saved : Bool) : State :=
  match s.updated accountId id dto inUse approval with
  | none => s
  | some message => if saved then s.setMessage id message else s

/-- The body is not validated: it may have any column; nulls are left out. -/
def updatePart (accountId id : Nat) (dto : MessageDto) (saved : Bool) : State :=
  match s.find accountId id with
  | none => s
  | some message => if saved then s.setMessage id (message.merge dto) else s

/-- Whether a message of the account has the name. -/
def named (accountId : Nat) (name : String) (id : Nat) : Bool :=
  (s.find accountId id).any (·.providerMessageId == some name)

/-- The message that `findOne` gives for a name. -/
def existing (accountId : Nat) (name : String) : Option Nat :=
  (List.range s.nextId).find? (s.named accountId name)

def syncTemplate (accountId : Nat) (template : Template) : State :=
  if template.name = "" then s
  else
    match s.existing accountId template.name with
    | some id =>
        match s.messages id with
        | none => s
        | some message => s.setMessage id { message with status := some template.status }
    | none =>
        s.setMessage s.nextId
          ⟨accountId, some "whatsapp", template.name, some template.status, some template.name, 0, false⟩

/-- The templates of the list up to the one at which a query fails. -/
def syncTemplatesFromMeta (accountId : Nat) (templates : List Template) : State :=
  templates.foldl (fun s template => s.syncTemplate accountId template) s

/-- The message that `deleteOneById` deletes, if it is used nowhere. -/
def deleting (accountId id : Nat) (inUse : Bool) : Option Message :=
  (s.find accountId id).filter fun _ => ! inUse

/-- The account and the name of the template that `deleteOneById` asks Meta to delete. -/
def deletesAtMeta (twilio : Bool) (accountId id : Nat) (inUse : Bool) : Option (Nat × String) :=
  (s.deleting accountId id inUse).bind fun message =>
    if isWhatsapp message.type && ! twilio then message.template.map fun name => (message.accountId, name)
    else none

/-- `answered`: Meta does not refuse. -/
def deleteOneById (twilio : Bool) (accountId id : Nat) (inUse answered saved : Bool) : State :=
  match s.deleting accountId id inUse with
  | none => s
  | some message =>
      if (s.deletesAtMeta twilio accountId id inUse).isSome && ! answered then s
      else if saved then
        s.setMessage id
          { message with title := message.title ++ "-deleted-" ++ toString id, deleted := true }
      else s

/-- Meta's webhook, or a poll: the status of all the messages with the name. -/
def updateStatus (name status : String) : State :=
  { s with messages := fun id => (s.messages id).map fun message =>
      if message.providerMessageId = some name then { message with status := some status }
      else message }

end State

inductive Op where
  | create (accountId id : Nat) (dto : MessageDto) (approval : Option String) (saved : Bool)
  | copy (accountId source id : Nat) (approval : Option String) (saved : Bool)
  | sync (accountId : Nat) (templates : List Template)
  | update (accountId id : Nat) (dto : MessageDto) (inUse : Bool) (approval : Option String)
      (saved : Bool)
  | updatePart (accountId id : Nat) (dto : MessageDto) (saved : Bool)
  | delete (accountId id : Nat) (inUse answered saved : Bool)
  | status (name status : String)

def State.init : State := ⟨fun _ => none, 0⟩

section
variable (twilio : Bool)

def State.step (s : State) : Op → State
  | .create accountId id dto approval saved => s.createMessage accountId id dto approval saved
  | .copy accountId source id approval saved => s.createCopy accountId source id approval saved
  | .sync accountId templates => s.syncTemplatesFromMeta accountId templates
  | .update accountId id dto inUse approval saved =>
      s.updateOneById accountId id dto inUse approval saved
  | .updatePart accountId id dto saved => s.updatePart accountId id dto saved
  | .delete accountId id inUse answered saved =>
      s.deleteOneById twilio accountId id inUse answered saved
  | .status name status => s.updateStatus name status

/-! ## Templates of several messages -/

/-- A deletion takes no template that another message of the account refers to. -/
def Spares (s : State) : Op → Prop
  | .delete accountId id inUse _ _ => ∀ account name,
      s.deletesAtMeta twilio accountId id inUse = some (account, name) →
        ∀ id' message, id' ≠ id → s.messages id' = some message → message.accountId = account →
          message.deleted = false → message.template ≠ some name
  | _ => True

end

/-- Two messages of an account that refer to one template, which a deletion can take. -/
def Shares (m m' : Message) : Prop :=
  m.deleted = false ∧ m'.deleted = false ∧ m.accountId = m'.accountId ∧
    (isWhatsapp m.type = true ∨ isWhatsapp m'.type = true) ∧
      m.template ≠ none ∧ m.template = m'.template

/-- A row would share its template with no other one. -/
def Alone (s : State) (id : Nat) (message : Message) : Prop :=
  ∀ id' other, id' ≠ id → s.messages id' = some other → ¬ Shares message other

/-- A row that is created, copied or changed shares its template with no other one. -/
def Guarded (s : State) : Op → Prop
  | .create accountId id dto approval true => ∀ dto', submit dto.type dto approval = some dto' →
      Alone s id (s.created accountId id dto')
  | .copy accountId source id approval true => ∀ message dto', s.find accountId source = some message →
      submit message.type (message.copied (message.version + 1)) approval = some dto' →
        let s := s.setMessage source { message with version := message.version + 1 }
        Alone s id (s.created accountId id dto')
  | .update accountId id dto inUse approval true => ∀ message,
      s.updated accountId id dto inUse approval = some message → Alone s id message
  | .updatePart accountId id dto true => ∀ message, s.find accountId id = some message →
      Alone s id (message.merge dto)
  | _ => True

/-- No two messages share a template. -/
structure Apart (s : State) : Prop where
  apart : ∀ id message, s.messages id = some message → Alone s id message
  fresh : ∀ id message, s.messages id = some message → id < s.nextId

section
variable {s : State} {id : Nat} {message : Message}

theorem Shares.symm {m m' : Message} (h : Shares m m') : Shares m' m := by
  obtain ⟨hm, hm', haccount, htype, htemplate, heq⟩ := h
  exact ⟨hm', hm, haccount.symm, htype.symm, heq ▸ htemplate, heq.symm⟩

theorem messages_set_self : (s.setMessage id message).messages id = some message :=
  Function.update_self ..

theorem messages_set_ne {i : Nat} (h : i ≠ id) : (s.setMessage id message).messages i = s.messages i :=
  Function.update_of_ne h ..

/-- A row that shares with no other one is written. -/
theorem Apart.write (h : Apart s) (halone : Alone s id message) : Apart (s.setMessage id message) := by
  constructor
  · intro i m hm i' m' hne hm'
    rcases eq_or_ne i id with rfl | hi
    · cases messages_set_self.symm.trans hm
      exact halone i' m' hne ((messages_set_ne hne).symm.trans hm')
    · have hold : s.messages i = some m := (messages_set_ne hi).symm.trans hm
      by_cases hi' : i' = id
      · subst hi'
        cases messages_set_self.symm.trans hm'
        exact fun hshares => halone i m hi hold hshares.symm
      · exact h.apart i m hold i' m' hne ((messages_set_ne hi').symm.trans hm')
  · intro i m hm
    show i < max s.nextId (id + 1)
    rcases eq_or_ne i id with rfl | hi
    · exact lt_max_of_lt_right (Nat.lt_succ_self i)
    · exact lt_max_of_lt_left (h.fresh i m ((messages_set_ne hi).symm.trans hm))

theorem Shares.of_same {m m' other : Message} (haccount : m'.accountId = m.accountId)
    (htype : m'.type = m.type) (hprovider : m'.providerMessageId = m.providerMessageId)
    (hdeleted : m'.deleted = false → m.deleted = false) (h : Shares m' other) : Shares m other := by
  obtain ⟨hm, hother, ha, ht, htemplate, heq⟩ := h
  unfold Message.template at htemplate heq
  rw [hprovider] at htemplate heq
  exact ⟨hdeleted hm, hother, haccount ▸ ha, htype ▸ ht, htemplate, heq⟩

/-- A row that changes in nothing that is shared. -/
theorem Apart.same {m m' : Message} (h : Apart s) (hm : s.messages id = some m)
    (haccount : m'.accountId = m.accountId) (htype : m'.type = m.type)
    (hprovider : m'.providerMessageId = m.providerMessageId)
    (hdeleted : m'.deleted = false → m.deleted = false) : Apart (s.setMessage id m') :=
  h.write fun i other hi hother hshares =>
    h.apart id m hm i other hi hother (hshares.of_same haccount htype hprovider hdeleted)

theorem find_some {accountId : Nat} (h : s.find accountId id = some message) :
    s.messages id = some message ∧ message.accountId = accountId ∧ message.deleted = false := by
  obtain ⟨hmessage, hfound⟩ := Option.filter_eq_some_iff.mp h
  rw [Bool.and_eq_true, beq_iff_eq, Bool.not_eq_true'] at hfound
  exact ⟨hmessage, hfound.1, hfound.2⟩

/-! ### The operations -/

theorem Apart.syncTemplate (h : Apart s) (accountId : Nat) (template : Template) :
    Apart (s.syncTemplate accountId template) := by
  unfold State.syncTemplate
  split
  · exact h
  next hname =>
  cases hexisting : s.existing accountId template.name with
  | some id =>
      show Apart (match s.messages id with | none => s | some message => _)
      cases hmessage : s.messages id with
      | none => exact h
      | some m => exact h.same hmessage rfl rfl rfl fun hdeleted => hdeleted
  | none =>
      -- no message of the account has the name
      refine h.write fun i other _ hother hshares => ?_
      obtain ⟨-, hdeleted, haccount, -, -, htemplate⟩ := hshares
      have hnamed := List.find?_eq_none.mp hexisting i (List.mem_range.mpr (h.fresh i other hother))
      refine hnamed ?_
      have hfind : s.find accountId i = some other := by
        unfold State.find
        rw [hother, Option.filter_some, ← haccount, hdeleted, beq_self_eq_true]
        rfl
      have hprovider : other.providerMessageId = some template.name := by
        unfold Message.template at htemplate
        rw [Option.filter_some, if_pos (by simpa using hname)] at htemplate
        exact (Option.filter_eq_some_iff.mp htemplate.symm).1
      unfold State.named
      rw [hfind, Option.any_some, hprovider, beq_self_eq_true]

/-- An import gives no message the template of another one. -/
theorem Apart.sync (h : Apart s) (accountId : Nat) (templates : List Template) :
    Apart (s.syncTemplatesFromMeta accountId templates) := by
  unfold State.syncTemplatesFromMeta
  induction templates generalizing s with
  | nil => exact h
  | cons template templates ih => exact ih (h.syncTemplate accountId template)

theorem Apart.status (h : Apart s) (name status : String) : Apart (s.updateStatus name status) := by
  -- a row keeps all but its status
  have hold : ∀ id m, (s.updateStatus name status).messages id = some m →
      ∃ old, s.messages id = some old ∧ m.accountId = old.accountId ∧ m.type = old.type ∧
        m.providerMessageId = old.providerMessageId ∧ m.deleted = old.deleted := by
    intro id m hm
    obtain ⟨old, hmessage, rfl⟩ := Option.map_eq_some_iff.mp hm
    refine ⟨old, hmessage, ?_⟩
    split <;> exact ⟨rfl, rfl, rfl, rfl⟩
  constructor
  · intro id m hm id' m' hne hm' hshares
    obtain ⟨old, hmessage, haccount, htype, hprovider, hdeleted⟩ := hold id m hm
    obtain ⟨old', hmessage', haccount', htype', hprovider', hdeleted'⟩ := hold id' m' hm'
    have hfirst := hshares.of_same haccount htype hprovider fun hm => hdeleted ▸ hm
    exact h.apart id old hmessage id' old' hne hmessage'
      (hfirst.symm.of_same haccount' htype' hprovider' fun hm => hdeleted' ▸ hm).symm
  · intro id m hm
    obtain ⟨old, hmessage, -⟩ := hold id m hm
    exact h.fresh id old hmessage

theorem Apart.create (h : Apart s) {accountId : Nat} {dto : MessageDto} {approval : Option String}
    {saved : Bool} (hguarded : saved = true → ∀ dto', submit dto.type dto approval = some dto' →
      Alone s id (s.created accountId id dto')) :
    Apart (s.createMessage accountId id dto approval saved) := by
  unfold State.createMessage
  cases hsubmit : submit dto.type dto approval with
  | none => exact h
  | some dto' =>
      cases saved with
      | false => exact h
      | true => exact h.write (hguarded rfl dto' hsubmit)

/-- What an allowed operation keeps. -/
theorem step_apart {twilio : Bool} (h : Apart s) {op : Op} (hguarded : Guarded s op) :
    Apart (s.step twilio op) := by
  cases op with
  | create accountId id dto approval saved =>
      refine h.create fun hsaved => ?_
      subst hsaved
      exact hguarded
  | copy accountId source id approval saved =>
      show Apart (s.createCopy accountId source id approval saved)
      unfold State.createCopy
      cases hfind : s.find accountId source with
      | none => exact h
      | some message =>
          have hversion : Apart (s.setMessage source { message with version := message.version + 1 }) :=
            h.same (find_some hfind).1 rfl rfl rfl fun hdeleted => hdeleted
          refine hversion.create fun hsaved dto' hsubmit => ?_
          subst hsaved
          exact hguarded message dto' hfind hsubmit
  | sync accountId templates => exact h.sync accountId templates
  | update accountId id dto inUse approval saved =>
      show Apart (s.updateOneById accountId id dto inUse approval saved)
      unfold State.updateOneById
      cases hupdated : s.updated accountId id dto inUse approval with
      | none => exact h
      | some message =>
          cases saved with
          | false => exact h
          | true => exact h.write (hguarded message hupdated)
  | updatePart accountId id dto saved =>
      show Apart (s.updatePart accountId id dto saved)
      unfold State.updatePart
      cases hfind : s.find accountId id with
      | none => exact h
      | some message =>
          cases saved with
          | false => exact h
          | true => exact h.write (hguarded message hfind)
  | delete accountId id inUse answered saved =>
      show Apart (s.deleteOneById twilio accountId id inUse answered saved)
      unfold State.deleteOneById
      cases hdeleting : s.deleting accountId id inUse with
      | none => exact h
      | some message =>
          have hmessage := (find_some (Option.filter_eq_some_iff.mp hdeleting).1).1
          dsimp only
          split
          · exact h
          · split
            · exact h.same hmessage rfl rfl rfl fun hdeleted => (by cases hdeleted)
            · exact h
  | status name status => exact h.status name status

/-- Where no two messages share a template, a deletion takes that of no other one. -/
theorem Apart.spares (h : Apart s) (twilio : Bool) (op : Op) : Spares twilio s op := by
  cases op with
  | delete accountId id inUse answered saved =>
      intro account name hdeletes id' other hne hother haccount hlive htemplate
      obtain ⟨message, hdeleting, hmeta⟩ := Option.bind_eq_some_iff.mp hdeletes
      obtain ⟨hmessage, -, hdeleted⟩ := find_some (Option.filter_eq_some_iff.mp hdeleting).1
      split at hmeta
      · next htype =>
          rw [Bool.and_eq_true] at htype
          obtain ⟨name', hname', heq⟩ := Option.map_eq_some_iff.mp hmeta
          cases heq
          refine h.apart id message hmessage id' other hne hother ?_
          exact ⟨hdeleted, hlive, haccount.symm, .inl htype.1, by rw [hname']; simp,
            hname'.trans htemplate.symm⟩
      · cases hmeta
  | _ => exact trivial

end

theorem apart_init : Apart .init := ⟨fun _ _ h => (by cases h), fun _ _ h => (by cases h)⟩

/-- In an allowed run no deletion takes a template that another message refers to. -/
theorem deletions_spare (twilio : Bool) (ops : List Op)
    (hguarded : Runs.Meets (fun s op => some (State.step twilio s op)) Guarded .init ops)
    (before : List Op) (op : Op) (after : List Op) (heq : ops = before ++ op :: after) :
    Spares twilio (before.foldl (State.step twilio) .init) op :=
  (Runs.always_steps (I := Apart) (K := Spares twilio)
    (fun _ op h hguarded => ⟨step_apart h hguarded, h.spares twilio op⟩) apart_init hguarded).2
      before op after heq

/-- A draft is submitted and approved by Meta under the name of its template. -/
def promo : Op :=
  .create 1 7 { type := some "whatsapp", title := some "Promo", status := some (some "send_approval") }
    (some "promo") true

theorem deletions_spare_single : Spares false ([promo].foldl (State.step false) .init)
    (.delete 1 7 false true true) := by
  refine deletions_spare false [promo, .delete 1 7 false true true] ?_ [promo] _ [] rfl
  refine .cons (fun dto' _ id' other _ hother => ?_) rfl (.cons trivial rfl trivial)
  cases hother

/-- A copy of an approved message is deleted, and with it the template of the source. -/
theorem copy_takes_template : ¬ ∀ (twilio : Bool) (ops before : List Op) (op : Op) (after : List Op),
    ops = before ++ op :: after → Spares twilio (before.foldl (State.step twilio) .init) op := by
  intro h
  have hspares := h false _ [promo, .copy 1 7 8 none true] (.delete 1 8 false true true) [] rfl
  refine hspares 1 "promo" ?_ 7 ⟨1, some "whatsapp", "Promo", some "sent_approval", some "promo", 1, false⟩
    (by decide) ?_ rfl rfl ?_
  · rfl
  · rfl
  · rfl

end OpenBms.Whatsapp.Shared
