/-
# `OpenBms.MessageTrigger.UtmList` — the list of the UTMs of an automation

The list is made from the stored tree: an e-mail step is numbered by the e-mail steps
above it, whatever stands between.  A run numbers the e-mails it sends.  The two read
a tree differently:

| a step of type | the list | a run |
| :-- | :-- | :-- |
| `email` | lists and counts it | sends and counts it |
| `randomMessage`, `testAB` | only goes on | sends and counts an e-mail of one of the messages |
| `split`, `conditional` | goes on with every arm | goes on with one of the arms that it can choose |
| any other | goes on with every child | goes on with the first child, or ends |

**Proved here.**

    the UTMs of the list are those of its numbers (`parse_utm`)
    what is listed is an e-mail step, with a number
    that is not lower than that of the tree (`email_of_numbered`)
    of trees that fit, runs send what is listed (`Fits.sends_iff`)
-/
import OpenBms.MessageTrigger.Branches

namespace OpenBms.MessageTrigger

variable {α : Type}

/-! ## The list -/

/-- What the list takes of a message. -/
structure MessageEntity where
  name : Option String
  fromName : Option String
  fromMail : Option String
  ippool : Option String
  subject : Option String
  previewText : Option String
  content : Option String
  type : Option String
  url : Option String

structure FormattedUtm where
  id : Int
  name : String
  accountId : Int
  accountName : String
  utmCampaign : String
  messageName : String
  senderName : String
  senderEmail : String
  ippool : String
  subject : String
  previewText : String
  html : String
  type : String
  url : String

/-- A row of the automations that are listed. -/
structure AutomationRow (α : Type) where
  id : Int
  name : String
  accountId : Int
  accountName : String
  steps : List (Step α)

/-- `name_eN_id`. -/
def utmCampaign (name : String) (emailNumber : Nat) (messageId : Int) : String :=
  name ++ "_e" ++ toString emailNumber ++ "_" ++ toString messageId

/-- The row of an e-mail step; the messages are those that were read. -/
def formatUtm (messagesProcess : Int → Option MessageEntity) (automation : AutomationRow α)
    (emailNumber : Nat) (settings : Message) : FormattedUtm :=
  let field (f : MessageEntity → Option String) : String :=
    ((messagesProcess settings.id).bind f).getD ""
  { id := automation.id
    name := automation.name
    accountId := automation.accountId
    accountName := automation.accountName
    utmCampaign := utmCampaign automation.name emailNumber settings.id
    messageName := field MessageEntity.name
    senderName := field MessageEntity.fromName
    senderEmail := field MessageEntity.fromMail
    ippool := field MessageEntity.ippool
    subject := field MessageEntity.subject
    previewText := field MessageEntity.previewText
    html := field MessageEntity.content
    type := field MessageEntity.type
    url := field MessageEntity.url }

mutual

/-- The e-mail steps of a tree.  A stored step always has its list of children. -/
def parseUtmAutomations (messagesProcess : Int → Option MessageEntity)
    (automation : AutomationRow α) (emailNumber : Nat) : Step α → List FormattedUtm
  | .mk _ type _ child =>
      match type with
      | .email settings => formatUtm messagesProcess automation emailNumber settings ::
          parseChildren messagesProcess automation (emailNumber + 1) child
      | _ => parseChildren messagesProcess automation emailNumber child

def parseChildren (messagesProcess : Int → Option MessageEntity)
    (automation : AutomationRow α) (emailNumber : Nat) : List (Step α) → List FormattedUtm
  | [] => []
  | step :: steps => parseUtmAutomations messagesProcess automation emailNumber step ++
      parseChildren messagesProcess automation emailNumber steps

end

/-- `automationFormatted`: what is listed of the first step. -/
def automationFormatted (messagesProcess : Int → Option MessageEntity)
    (automation : AutomationRow α) : List FormattedUtm :=
  (automation.steps.head?.map (parseUtmAutomations messagesProcess automation 1)).getD []

/-- The list has the UTMs of the e-mails that runs from the root send. -/
def Lists (messagesProcess : Int → Option MessageEntity) (automation : AutomationRow α)
    (root : LeadStateMessage α) : Prop :=
  ∀ utm, utm ∈ (automationFormatted messagesProcess automation).map FormattedUtm.utmCampaign ↔
    ∃ p, Sent root p ∧ utm = utmCampaign automation.name p.1 p.2

/-! ## The numbers of the list -/

/-- The e-mail of a step of the type, as it is listed. -/
def StepType.listed (n : Nat) : StepType α → List (Nat × Int)
  | .email settings => [(n, settings.id)]
  | _ => []

/-- The number that is listed below. -/
def StepType.listedNext (n : Nat) : StepType α → Nat
  | .email _ => n + 1
  | _ => n

mutual

/-- The numbers and messages listed of a tree. -/
def Step.numbered (n : Nat) : Step α → List (Nat × Int)
  | .mk _ type _ child => type.listed n ++ numberedAll (type.listedNext n) child

def numberedAll (n : Nat) : List (Step α) → List (Nat × Int)
  | [] => []
  | s :: ss => s.numbered n ++ numberedAll n ss

end

/-- No e-mail step stands in the trees. -/
def NoEmail (ss : List (Step α)) : Prop := ∀ s, Below ss s → ∀ settings, s.type ≠ .email settings

section
variable {messagesProcess : Int → Option MessageEntity} {automation : AutomationRow α}
  {n : Nat} {s a : Step α} {ss rest before after : List (Step α)} {p : Nat × Int}
  {messageIdAt : Nat → Message → Int} {w : World α}

mutual

theorem parse_utm (s : Step α) (n : Nat) :
    (parseUtmAutomations messagesProcess automation n s).map FormattedUtm.utmCampaign =
      (s.numbered n).map fun p => utmCampaign automation.name p.1 p.2 := by
  cases s with
  | mk id type mode child =>
      cases type with
      | email settings =>
          simp only [parseUtmAutomations, Step.numbered, StepType.listed, StepType.listedNext,
            List.map_cons, List.singleton_append, parse_children_utm child (n + 1)]
          rfl
      | _ => exact parse_children_utm child n

theorem parse_children_utm (ss : List (Step α)) (n : Nat) :
    (parseChildren messagesProcess automation n ss).map FormattedUtm.utmCampaign =
      (numberedAll n ss).map fun p => utmCampaign automation.name p.1 p.2 := by
  cases ss with
  | nil => rfl
  | cons s ss =>
      simp only [parseChildren, numberedAll, List.map_append, parse_utm s n,
        parse_children_utm ss n]

end

theorem numbered_eq (s : Step α) (n : Nat) :
    s.numbered n = s.type.listed n ++ numberedAll (s.type.listedNext n) s.child := by
  cases s
  rfl

theorem mem_numberedAll : p ∈ numberedAll n ss ↔ ∃ s ∈ ss, p ∈ s.numbered n := by
  induction ss with
  | nil =>
      constructor
      · intro h
        cases h
      · rintro ⟨s, hs, _⟩
        cases hs
  | cons s ss ih =>
      rw [numberedAll, List.mem_append, ih]
      constructor
      · rintro (h | ⟨t, ht, h⟩)
        · exact ⟨s, List.mem_cons_self, h⟩
        · exact ⟨t, List.mem_cons_of_mem _ ht, h⟩
      · rintro ⟨t, ht, h⟩
        rcases List.mem_cons.mp ht with rfl | ht
        · exact .inl h
        · exact .inr ⟨t, ht, h⟩

/-- Of a step that is no e-mail, what is below it is listed. -/
theorem numbered_of_ne_email (h : ∀ settings, s.type ≠ .email settings) :
    s.numbered n = numberedAll n s.child := by
  rw [numbered_eq]
  cases htype : s.type with
  | email settings => exact absurd htype (h settings)
  | _ => rfl

theorem numbered_of_email {settings : Message} (h : s.type = .email settings) :
    s.numbered n = (n, settings.id) :: numberedAll (n + 1) s.child := by
  rw [numbered_eq, h]
  rfl

mutual

/-- What is listed is an e-mail step of the tree, with a number that is not lower. -/
theorem email_of_numbered (s : Step α) {n : Nat} (h : p ∈ s.numbered n) :
    ∃ t settings, Below [s] t ∧ t.type = .email settings ∧ settings.id = p.2 ∧ n ≤ p.1 := by
  cases s with
  | mk id type mode child =>
      rw [Step.numbered] at h
      rcases List.mem_append.mp h with h | h
      · cases type with
        | email settings =>
            obtain rfl := List.mem_singleton.mp h
            exact ⟨_, settings, .here (List.mem_singleton_self _), rfl, rfl, le_refl _⟩
        | _ => cases h
      · obtain ⟨t, settings, hbelow, htype, hid, hle⟩ := email_of_numberedAll child h
        have hnext : n ≤ type.listedNext n := by
          cases type with
          | email settings => exact Nat.le_succ n
          | _ => exact le_refl n
        exact ⟨t, settings, .child (List.mem_singleton_self _) hbelow, htype, hid,
          le_trans hnext hle⟩

theorem email_of_numberedAll (ss : List (Step α)) {n : Nat} (h : p ∈ numberedAll n ss) :
    ∃ t settings, Below ss t ∧ t.type = .email settings ∧ settings.id = p.2 ∧ n ≤ p.1 := by
  cases ss with
  | nil => cases h
  | cons s ss =>
      rw [numberedAll] at h
      rcases List.mem_append.mp h with h | h
      · obtain ⟨t, settings, hbelow, hrest⟩ := email_of_numbered s h
        exact ⟨t, settings, hbelow.mono fun x hx => List.mem_singleton.mp hx ▸ List.mem_cons_self,
          hrest⟩
      · obtain ⟨t, settings, hbelow, hrest⟩ := email_of_numberedAll ss h
        exact ⟨t, settings, hbelow.mono fun x hx => List.mem_cons_of_mem _ hx, hrest⟩

end

theorem numberedAll_of_noEmail (h : NoEmail ss) : numberedAll n ss = [] := by
  rw [List.eq_nil_iff_forall_not_mem]
  intro p hp
  obtain ⟨t, settings, hbelow, htype, -⟩ := email_of_numberedAll ss hp
  exact h t hbelow settings htype

/-- An e-mail step is listed, with some number. -/
theorem numbered_of_email_below (h : Below ss s) {settings : Message}
    (htype : s.type = .email settings) : ∀ n, ∃ k, (k, settings.id) ∈ numberedAll n ss := by
  induction h with
  | here hmem =>
      intro n
      refine ⟨n, mem_numberedAll.mpr ⟨_, hmem, ?_⟩⟩
      rw [numbered_of_email htype]
      exact List.mem_cons_self
  | @child ss t s hmem hbelow ih =>
      intro n
      obtain ⟨k, hk⟩ := ih htype (t.type.listedNext n)
      refine ⟨k, mem_numberedAll.mpr ⟨t, hmem, ?_⟩⟩
      rw [numbered_eq]
      exact List.mem_append_right _ hk

theorem noEmail_of_numberedAll (h : numberedAll n ss = []) : NoEmail ss := by
  intro s hbelow settings htype
  obtain ⟨k, hk⟩ := numbered_of_email_below hbelow htype n
  rw [h] at hk
  cases hk

end

/-! ## Trees that fit -/

/-- The e-mails listed of the steps are those that runs from the first one send, and have their
own messages: an A/B test or a random message that a run comes to has none to send, and no
e-mail step stands where no run comes to. -/
inductive Fits (messageIdAt : Nat → Message → Int) : Nat → List (Step α) → Prop where
  | nil {n : Nat} : Fits messageIdAt n []
  | stops {n : Nat} {s : Step α} {rest : List (Step α)}
      (h : s.type.ready = false ∨ s.type = .end_) (hno : NoEmail (s :: rest)) :
      Fits messageIdAt n (s :: rest)
  | email {n : Nat} {s : Step α} {rest : List (Step α)} {settings : Message}
      (h : s.type = .email settings) (hid : messageIdAt n settings = settings.id)
      (hchild : Fits messageIdAt (n + 1) s.child) (hrest : NoEmail rest) :
      Fits messageIdAt n (s :: rest)
  | follows {n : Nat} {s : Step α} {rest : List (Step α)} (hready : s.type.ready = true)
      (h : s.Follows) (hemail : ∀ settings, s.type ≠ .email settings) (hpicks : s.type.picks = [])
      (hchild : Fits messageIdAt n s.child) (hrest : NoEmail rest) : Fits messageIdAt n (s :: rest)
  | branches {n : Nat} {s : Step α} {rest : List (Step α)} (h : s.Branches)
      (harms : ∀ before a after, s.child = before ++ a :: after → s.Chooses before a →
        Fits messageIdAt n a.child)
      (hothers : ∀ before a after, s.child = before ++ a :: after → ¬ s.Chooses before a →
        NoEmail [a])
      (hrest : NoEmail rest) : Fits messageIdAt n (s :: rest)

section
variable {n x : Nat} {s a : Step α} {ss rest before after : List (Step α)} {p : Nat × Int}
  {messageIdAt : Nat → Message → Int}

theorem Step.Branches.ne_email (h : s.Branches) : ∀ settings, s.type ≠ .email settings := by
  intro settings hemail
  rcases h with h | ⟨h, -⟩
  · cases h.symm.trans hemail
  · cases h.symm.trans hemail

/-- An arm that can be chosen is no e-mail step itself. -/
theorem Step.Chooses.ne_email (h : s.Chooses before a) : ∀ settings, a.type ≠ .email settings := by
  intro settings hemail
  cases htype : s.type with
  | split =>
      rw [Step.Chooses, htype] at h
      obtain ⟨v, hv, -⟩ := h
      cases hv.symm.trans hemail
  | conditional =>
      rw [Step.Chooses, htype] at h
      obtain ⟨b, hb, -⟩ := h
      rw [hemail] at hb
      cases hb
  | _ =>
      rw [Step.Chooses, htype] at h
      cases h

/-- Runs from the first of fitting trees send what is listed of the trees. -/
theorem Fits.sends_iff (h : Fits messageIdAt n ss) :
    ∀ p, Sends messageIdAt n ss p ↔ p ∈ numberedAll n ss := by
  induction h with
  | nil =>
      intro p
      exact ⟨fun h => (nomatch h), fun h => (nomatch h)⟩
  | stops h hno =>
      intro p
      rw [numberedAll_of_noEmail hno]
      exact ⟨fun hsends => absurd hsends (not_sends_of_stops h), fun h => (nomatch h)⟩
  | email h hid hchild hrest ih =>
      intro p
      rw [sends_of_type_email h, ih, hid, numberedAll, numbered_of_email h,
        numberedAll_of_noEmail hrest, List.append_nil, List.mem_cons]
  | follows hready h hemail hpicks hchild hrest ih =>
      intro p
      rw [sends_of_follows hready h hemail hpicks, ih, numberedAll, numbered_of_ne_email hemail,
        numberedAll_of_noEmail hrest, List.append_nil]
  | @branches n s rest h harms hothers hrest ih =>
      intro p
      rw [sends_of_branches h, numberedAll, numbered_of_ne_email h.ne_email,
        numberedAll_of_noEmail hrest, List.append_nil, mem_numberedAll]
      constructor
      · rintro ⟨before, a, after, hchild, hchooses, hsends⟩
        refine ⟨a, hchild ▸ List.mem_append_right _ List.mem_cons_self, ?_⟩
        rw [numbered_of_ne_email hchooses.ne_email]
        exact (ih before a after hchild hchooses p).mp hsends
      · rintro ⟨a, ha, hp⟩
        obtain ⟨before, after, hchild⟩ := List.append_of_mem ha
        by_cases hchooses : s.Chooses before a
        · rw [numbered_of_ne_email hchooses.ne_email] at hp
          exact ⟨before, a, after, hchild, hchooses,
            (ih before a after hchild hchooses p).mpr hp⟩
        · have hnone := numberedAll_of_noEmail (n := n) (hothers before a after hchild hchooses)
          have hmem : p ∈ numberedAll n [a] := mem_numberedAll.mpr ⟨a, List.mem_singleton_self _, hp⟩
          rw [hnone] at hmem
          cases hmem

end

end OpenBms.MessageTrigger
