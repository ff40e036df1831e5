/-
# `OpenBms.Whatsapp.TemplateStatus` — the verdicts of the provider on templates

`processMetaEvent` walks the changes of a webhook body.  A
`message_template_status_update` says which business account it is for (the id of its
entry), and which template, by name and language.  `applyTemplateStatusUpdate` updates
the messages with that name.

| the change is for | the update reads it |
| :-- | :-- |
| the business account | no |
| the name of the template | yes, as `provider_message_id` |
| the language of the template | no |

**Proved here.**

    an update writes the status of the messages with its name, and
    nothing else (`apply_getElem?`)
    an update stays in its tenant iff every message with its name,
    and not yet its status, is of the account and the language (`update_confined_iff`)
-/
import Mathlib

namespace OpenBms.Whatsapp.TemplateStatus

/-- A row of `messages`. -/
structure Message where
  id : Nat
  accountId : Nat
  providerMessageId : Option String
  status : String
  updatedAt : Nat
  deriving DecidableEq

/-- A row of `whatsapp_channels`; accounts may share a business account. -/
structure Channel where
  accountId : Nat
  wabaId : Option String
  deriving DecidableEq

/-- `change.value` of a `message_template_status_update`. -/
structure Value where
  event : Option String
  messageTemplateName : Option String
  messageTemplateLanguage : Option String
  deriving DecidableEq

/-- A change, by its `field`.  Those of `messages` write other tables, or throw. -/
inductive Change where
  | messageTemplateStatusUpdate (value : Value)
  | messages (throws : Bool)
  | other
  deriving DecidableEq

/-- An entry; `id` is the business account. -/
structure Entry where
  id : String
  changes : List Change
  deriving DecidableEq

section
variable (toUpperCase : String → String) (now : Nat)

/-- Maps the Meta event verb to the BMS message status taxonomy. -/
def normaliseMetaStatus (event : String) : String :=
  match toUpperCase event with
  | "APPROVED" => "approved"
  | "REJECTED" => "rejected"
  | "PAUSED" | "DISABLED" | "PENDING_DELETION" => "rejected"
  | _ => "pending"

/-- `SET status`, with the update date the ORM adds. -/
def Message.set (message : Message) (status : String) : Message :=
  { message with status := status, updatedAt := now }

/-- What the update is about, when it is complete. -/
def Value.complete (value : Value) : Option (String × String) :=
  match value.messageTemplateName, value.event with
  | some templateName, some event =>
      if templateName = "" ∨ event = "" then none else some (templateName, event)
  | _, _ => none

def applyTemplateStatusUpdate (value : Value) (messages : List Message) : List Message :=
  match value.complete with
  | none => messages
  | some (templateName, event) =>
      messages.map fun message =>
        if message.providerMessageId = some templateName then
          message.set now (normaliseMetaStatus toUpperCase event)
        else message

/-- The changes in order, up to the first that throws. -/
def processChanges : List Change → List Message → List Message
  | [], messages => messages
  | .messageTemplateStatusUpdate value :: changes, messages =>
      processChanges changes (applyTemplateStatusUpdate toUpperCase now value messages)
  | .messages true :: _, messages => messages
  | .messages false :: changes, messages => processChanges changes messages
  | .other :: changes, messages => processChanges changes messages

def processMetaEvent (entries : List Entry) (messages : List Message) : List Message :=
  processChanges toUpperCase now (entries.flatMap (·.changes)) messages

/-! ## What an update writes -/

/-- The update is complete and names this message. -/
def Value.Names (value : Value) (message : Message) : Prop :=
  ∃ templateName event, value.complete = some (templateName, event) ∧
    message.providerMessageId = some templateName

/-- What the update makes of the status of a message it names. -/
def Value.status (value : Value) : String :=
  normaliseMetaStatus toUpperCase (value.event.getD "")

variable {value : Value} {messages : List Message} {message : Message} {i : Nat}

theorem complete_eq_some {templateName event : String}
    (h : value.complete = some (templateName, event)) :
    value.messageTemplateName = some templateName ∧ value.event = some event := by
  simp only [Value.complete] at h
  split at h
  · rename_i hname hevent
    split at h
    · cases h
    · cases h
      exact ⟨hname, hevent⟩
  · cases h

theorem apply_getElem? (h : messages[i]? = some message) :
    (value.Names message →
      (applyTemplateStatusUpdate toUpperCase now value messages)[i]? =
        some (message.set now (value.status toUpperCase))) ∧
    (¬ value.Names message →
      (applyTemplateStatusUpdate toUpperCase now value messages)[i]? = some message) := by
  cases hcomplete : value.complete with
  | none =>
      refine ⟨?_, fun _ => ?_⟩
      · rintro ⟨_, _, hsome, _⟩
        cases hcomplete.symm.trans hsome
      · simpa only [applyTemplateStatusUpdate, hcomplete] using h
  | some about =>
      obtain ⟨templateName, event⟩ := about
      have hevent := (complete_eq_some hcomplete).2
      refine ⟨?_, fun hnot => ?_⟩
      · rintro ⟨name, _, hsome, hid⟩
        cases hcomplete.symm.trans hsome
        simp only [applyTemplateStatusUpdate, hcomplete, List.getElem?_map, h, Option.map_some, hid,
          if_true, Value.status, hevent, Option.getD_some]
      · have hid : message.providerMessageId ≠ some templateName :=
          fun hid => hnot ⟨templateName, event, hcomplete, hid⟩
        simp only [applyTemplateStatusUpdate, hcomplete, List.getElem?_map, h, Option.map_some, hid,
          if_false]

/-! ## Tenants -/

variable (channels : List Channel) (language : Message → String)

/-- The account has a channel of the business account. -/
def Owns (wabaId : String) (accountId : Nat) : Prop :=
  ∃ channel ∈ channels, channel.wabaId = some wabaId ∧ channel.accountId = accountId

/-- The message belongs to the account and to the template the update is for.  No column
holds the language a template was submitted in. -/
def IsAbout (wabaId : String) (value : Value) (message : Message) : Prop :=
  Owns channels wabaId message.accountId ∧
    message.providerMessageId = value.messageTemplateName ∧
    some (language message) = value.messageTemplateLanguage

/-- An update changes only the messages it is about, exactly when every message it names,
and that is not yet as the update leaves it, is of an account of the business account and
in the language of the update. -/
theorem update_confined_iff (wabaId : String) (value : Value) (messages : List Message) :
    (∀ (i : Nat) (message : Message), messages[i]? = some message →
      (applyTemplateStatusUpdate toUpperCase now value messages)[i]? ≠ some message →
      IsAbout channels language wabaId value message) ↔
    ∀ message ∈ messages, value.Names message →
      message.set now (value.status toUpperCase) ≠ message →
      Owns channels wabaId message.accountId ∧
        some (language message) = value.messageTemplateLanguage := by
  constructor
  · intro h message hmem hnames hset
    obtain ⟨i, hi⟩ := List.mem_iff_getElem?.mp hmem
    have hafter := (apply_getElem? toUpperCase now hi).1 hnames
    have habout := h i message hi (hafter ▸ fun heq => hset (Option.some_inj.mp heq))
    exact ⟨habout.1, habout.2.2⟩
  · intro h i message hi hchanged
    by_cases hnames : value.Names message
    · have hafter := (apply_getElem? toUpperCase now hi).1 hnames
      obtain ⟨howns, hlanguage⟩ := h message (List.mem_of_getElem? hi) hnames
        fun heq => hchanged (hafter.trans (congrArg some heq))
      obtain ⟨templateName, event, hcomplete, hid⟩ := hnames
      exact ⟨howns, hid.trans (complete_eq_some hcomplete).1.symm, hlanguage⟩
    · exact absurd ((apply_getElem? toUpperCase now hi).2 hnames) hchanged

end

/-- A rejection for the business account of one account rejects the message of another. -/
theorem update_crosses_tenants :
    ∃ message : Message,
      [message][0]? = some message ∧
      (applyTemplateStatusUpdate String.toUpper 5
        ⟨some "REJECTED", some "order_update", some "pt_BR"⟩ [message])[0]? =
          some { message with status := "rejected", updatedAt := 5 } ∧
      message.status = "approved" ∧
      ¬ IsAbout [⟨1, some "waba1"⟩, ⟨2, some "waba2"⟩] (fun _ => "pt_BR") "waba1"
        ⟨some "REJECTED", some "order_update", some "pt_BR"⟩ message := by
  refine ⟨⟨7, 2, some "order_update", "approved", 0⟩, rfl, by decide +kernel, rfl, ?_⟩
  rintro ⟨⟨channel, hchannel, hwaba, haccount⟩, -⟩
  simp only [List.mem_cons, List.not_mem_nil, or_false] at hchannel
  rcases hchannel with rfl | rfl
  · cases haccount
  · exact absurd hwaba (by decide)

end OpenBms.Whatsapp.TemplateStatus
