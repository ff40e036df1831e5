/-
# `OpenBms.MessageTrigger.Run` — an automation from its first step to its completion

Any pending message is handled, in any world, as often as there is one; what a sender
or a delayed queue was given is pending until it is handed on.

**Proved here.**

    a run visits a path from its first node on, one message
    after the other, and completes the automation at most once,
    at the end; where every step is carried out it visits the
    whole path and completes it (`run_visits_path`)
    a wait without a timer ends a run before its path does (`wait_ends_run`)
-/
import OpenBms.Lib.Runs
import OpenBms.MessageTrigger.Interpreter

namespace OpenBms.MessageTrigger

variable {α : Type}

/-! ## What is requested -/

section
variable {w : World α} {rs rs' : List (Request α)} {groups : List (List (Request α))}

/-- The messages that requests pass on. -/
def passed (rs : List (Request α)) : List (LeadStateMessage α) := rs.filterMap Request.next?

/-- How often requests complete the automation. -/
def completed (rs : List (Request α)) : Nat := rs.countP Request.completes

/-- Requests that neither pass a message on nor complete. -/
def Quiet (rs : List (Request α)) : Prop := ∀ r ∈ rs, r.next? = none ∧ r.completes = false

theorem passed_append : passed (rs ++ rs') = passed rs ++ passed rs' := List.filterMap_append

theorem completed_append : completed (rs ++ rs') = completed rs + completed rs' :=
  List.countP_append

theorem Quiet.passed (h : Quiet rs) : passed rs = [] :=
  List.filterMap_eq_nil_iff.mpr fun r hr => (h r hr).1

theorem Quiet.completed (h : Quiet rs) : completed rs = 0 :=
  List.countP_eq_zero.mpr fun r hr => by rw [(h r hr).2]; exact Bool.false_ne_true

theorem Quiet.sublist (h : Quiet rs) (hs : rs'.Sublist rs) : Quiet rs' :=
  fun r hr => h r (hs.subset hr)

/-- Only requests that were to be made are made. -/
theorem perform_sublist (w : World α) (groups : List (List (Request α))) :
    (perform w groups).1.Sublist groups.flatten := by
  induction groups with
  | nil => exact List.nil_sublist _
  | cons group groups ih =>
      simp only [perform, List.flatten_cons]
      split
      · exact List.filter_sublist.append ih
      · exact List.filter_sublist.trans (List.sublist_append_left _ _)

/-- Where nothing is refused, all requests are made. -/
theorem perform_accepted (h : ∀ r, w.accepts r = true) (groups : List (List (Request α))) :
    perform w groups = (groups.flatten, true) := by
  induction groups with
  | nil => rfl
  | cons group groups ih =>
      have hall : group.all w.accepts = true := List.all_eq_true.mpr fun r _ => h r
      have hfilter : group.filter w.accepts = group := List.filter_eq_self.mpr fun r _ => h r
      simp only [perform, if_pos hall, ih, hfilter, List.flatten_cons]

end

/-! ## Where a step goes on -/

/-- What a step can go on with. -/
inductive Goes (s : Step α) : List (Step α) → Prop where
  | plain (h : s.type.plain = true) : Goes s s.child
  | arm {a : Step α} (ha : a ∈ s.child) (h : s.type.hasArm a.type = true) : Goes s a.child
  | noArm {b : Bool} (h : s.type = .conditional) (hno : ∀ a ∈ s.child, a.type.isArm b = false) :
      Goes s []
  | picked {ms : List Message} {status : StatusTestAb} {m : Message} {mode : Bool}
      (h : s.type = .testAB ms status) (hm : m ∈ ms) :
      Goes s [.mk s.id (.email m.copy) mode s.child]

section
variable {w : World α} {s : Step α} {rest c : List (Step α)} {p : List (Node α)}

theorem path_end (h : Path [(Step.endStep : Step α)] p) : p = [Step.endStep.node] := by
  cases h with
  | last h => rfl
  | plain h hp => cases h
  | arm ha h hp => cases ha
  | noArm h hno => cases h
  | picked h hm hp => cases h

/-- The end that is added below the last step is on its path anyway. -/
theorem path_of_nextSteps (h : Path (nextSteps c) p) : Path c p := by
  by_cases hc : c = []
  · subst hc
    rw [path_end (p := p) h]
    exact .nil
  · rwa [nextSteps, if_neg hc] at h

theorem Goes.path (h : Goes s c) (hp : Path (nextSteps c) p) : Path (s :: rest) (s.node :: p) := by
  have hc := path_of_nextSteps hp
  cases h with
  | plain h => exact .plain h hc
  | arm ha h => exact .arm ha h hc
  | noArm h hno =>
      cases hc
      exact .noArm h hno
  | picked h hm =>
      cases hc with
      | plain _ hc => exact .picked h hm hc
      | last h => cases h
      | arm ha h hp => cases h
      | noArm h hno => cases h
      | picked h hm hp => cases h

theorem covered_nextSteps (h : Covered c) : Covered (nextSteps c) := by
  by_cases hc : c = []
  · subst hc
    rintro t ht htype
    cases ht with
    | here ht =>
        cases List.mem_singleton.mp ht
        cases htype
    | child ht hs =>
        cases List.mem_singleton.mp ht
        exact covered_nil t hs htype
  · rwa [nextSteps, if_neg hc]

theorem Goes.covered (h : Goes s c) (hcover : Covered (s :: rest)) : Covered (nextSteps c) := by
  have hchild : Covered s.child := hcover.child (List.mem_cons_self ..)
  refine covered_nextSteps ?_
  cases h with
  | plain h => exact hchild
  | arm ha h => exact hchild.child ha
  | noArm h hno => exact covered_nil
  | picked h hm =>
      rintro t ht htype
      cases ht with
      | here ht =>
          cases List.mem_singleton.mp ht
          cases htype
      | child ht hs =>
          cases List.mem_singleton.mp ht
          exact hchild t hs htype

theorem selectArm_mem {r : Nat} {as : List (Step α)} : ∀ {k n : Nat},
    valueSum as = some n → r ≤ k + n → k < r ∨ as ≠ [] →
      ∃ a ∈ as, selectArm r (some k) as = some a.child ∧ ∃ v, a.type = .splitPath v := by
  induction as with
  | nil =>
      rintro k n hsum hr hk
      cases hsum
      rcases hk with hk | hk
      · omega
      · exact absurd rfl hk
  | cons a as ih =>
      intro k n hsum hr _
      obtain ⟨v, hv, hrest⟩ := Option.bind_eq_some_iff.mp hsum
      obtain ⟨n', hn', hn⟩ := Option.map_eq_some_iff.mp hrest
      simp only [selectArm, hv, Option.bind_some, Option.map_some, Option.any_some,
        decide_eq_true_eq]
      split
      · exact ⟨a, List.mem_cons_self .., rfl, v, value_eq_some.mp hv⟩
      · rename_i hlt
        obtain ⟨b, hb, hsel, hvalue⟩ := ih (k := k + v) hn' (by omega) (.inl (by omega))
        exact ⟨b, List.mem_cons_of_mem _ hb, hsel, hvalue⟩

/-- A condition goes on with one of its arms, if it has that one. -/
theorem definedConditional_cases (w : World α) (child : List (Step α)) :
    ∃ b, definedConditional w child =
      ((child.find? fun a => a.type.isArm b).map Step.child).getD [] := by
  simp only [definedConditional]
  split
  · split
    · exact ⟨true, rfl⟩
    · exact ⟨false, rfl⟩
  · exact ⟨false, rfl⟩

/-- An A/B test goes on with the e-mail of one of its messages, or without one. -/
theorem definedTestAB_cases (w : World α) (s : Step α) (messages : List Message)
    (status : StatusTestAb) :
    (definedTestAB w s messages status).2 = s.child ∨
      ∃ m ∈ messages, ∃ mode, (definedTestAB w s messages status).2 =
        [.mk s.id (.email m.copy) mode s.child] := by
  have hpicked : ∀ (picked : Option Message) (mode : Bool), (∀ m ∈ picked, m ∈ messages) →
      newChild s picked mode = s.child ∨ ∃ m ∈ messages, ∃ mode', newChild s picked mode =
        [.mk s.id (.email m.copy) mode' s.child] := by
    intro picked mode hmem
    cases picked with
    | none => exact .inl rfl
    | some m => exact .inr ⟨m, hmem m rfl, mode, rfl⟩
  simp only [definedTestAB]
  split
  · exact hpicked _ _ fun m hm => List.mem_of_find?_eq_some hm
  · split
    · exact hpicked _ _ fun m hm => List.mem_of_find?_eq_some hm
    · exact hpicked _ _ fun m hm => List.mem_of_getElem? hm

@[simp] theorem definedStep_type (w : World α) (s : Step α) :
    (definedStep w s).2.type = s.type := by
  simp only [definedStep]
  split <;> simp only [Step.type_withChild]

theorem definedStep_goes (w : World α) (hcover : Covered (s :: rest)) (hend : s.type ≠ .end_) :
    Goes s (definedStep w s).2.child := by
  simp only [definedStep]
  split
  · rename_i htype
    obtain ⟨n, hsum, hn⟩ := hcover s (.here (List.mem_cons_self ..)) htype
    have hr := w.random.floor_lt (n := 101) (by decide)
    obtain ⟨a, ha, _, _⟩ := exists_arm hsum hn
    obtain ⟨a, ha, hsel, v, hv⟩ := selectArm_mem (r := w.random.floor 101) (k := 0) hsum (by omega)
      (.inr (List.ne_nil_of_mem ha))
    rw [hsel, Step.child_withChild]
    exact .arm ha (by rw [htype, hv]; rfl)
  · rename_i htype
    obtain ⟨b, hb⟩ := definedConditional_cases w s.child
    rw [hb, Step.child_withChild]
    cases hfind : s.child.find? fun a => a.type.isArm b with
    | none =>
        refine .noArm (b := b) htype fun a ha => ?_
        exact Bool.eq_false_iff.mpr (List.find?_eq_none.mp hfind a ha)
    | some a =>
        have harm : a.type.isArm b = true :=
          List.find?_some (p := fun a : Step α => a.type.isArm b) hfind
        exact .arm (List.mem_of_find?_eq_some hfind) (isArm_hasArm htype harm)
  · rename_i messages status htype
    rw [Step.child_withChild]
    rcases definedTestAB_cases w s messages status with h | ⟨m, hm, mode, h⟩
    · rw [h]
      exact .plain (by rw [htype]; rfl)
    · rw [h]
      exact .picked htype hm
  · rename_i hsplit hconditional _
    refine .plain ?_
    cases htype : s.type with
    | split => exact absurd htype hsplit
    | conditional => exact absurd htype hconditional
    | end_ => exact absurd htype hend
    | _ => rfl

end

/-! ## One handling -/

/-- The step can be carried out: its settings are what its type takes. -/
def StepType.ready : StepType α → Bool
  | .wait timer timerType => (timer.minutes timerType).isSome
  | .randomMessage messages | .randomWebPush messages | .randomMobilePush messages =>
      !messages.isEmpty
  | .removeAutomation automations => automations.isSome
  | .activeCampaign | .splitPath _ | .conditionalTrue _ | .conditionalFalse => false
  | _ => true

/-- The message an e-mail is requested with. -/
def Request.email? : Request α → Option Int
  | .sender .sendEmail messageId _ _ => some messageId
  | _ => none

/-- The messages a step of the type sends one of, as an e-mail. -/
def StepType.emails : StepType α → List Message
  | .email settings => [settings]
  | .randomMessage messages => messages
  | _ => []

/-- The number of the next e-mail, after a step of the type. -/
def StepType.nextEmailId (t : StepType α) (n : Nat) : Nat :=
  match t with
  | .email _ | .randomMessage _ => n + 1
  | _ => n

/-- What is passed on below a step. -/
structure PassesOn (m : LeadStateMessage α) (s : Step α) (next : LeadStateMessage α) : Prop where
  ready : s.type.ready = true
  goesOn : s.type ≠ .end_
  steps : next.steps = nextSteps s.child
  emailId : next.emailId = s.type.nextEmailId m.emailId
  messageIdEmail1 : next.messageIdEmail1 = m.messageIdEmail1
  accountId : next.accountId = m.accountId

/-- The requests of a step that throws nothing: the completion at the end, nothing where the type
is not one that is run, and else one request that passes on, which may be an e-mail. -/
inductive Requested (m : LeadStateMessage α) (s : Step α) : List (Request α) → Prop where
  | completed (h : s.type = .end_) : Requested m s [.tagProcess .completed m.tagName]
  | nothing (h : s.type.ready = false) : Requested m s []
  | passes {before after : List (Request α)} {r : Request α} {next : LeadStateMessage α}
      (hbefore : Quiet before) (hafter : Quiet after) (hr : r.next? = some next)
      (hcompletes : r.completes = false) (hnext : PassesOn m s next)
      (hemail : ∀ messageId, r.email? = some messageId →
        ∃ settings ∈ s.type.emails, messageId = m.messageId settings) :
      Requested m s (before ++ r :: after)

/-- A step that is carried out, goes on and sends no e-mail. -/
structure StepType.Silent (t : StepType α) : Prop where
  ready : t.ready = true
  goesOn : t ≠ .end_
  number : ∀ n, t.nextEmailId n = n

/-- The contact is not stopped, and no service refuses. -/
structure World.Serves (w : World α) : Prop where
  accepts : ∀ r, w.accepts r = true
  messageFound : ∀ id, w.messageFound id = true
  contactFound : w.contactFound = true
  stopped : w.stopped = false

section
variable {w : World α} {m : LeadStateMessage α} {s : Step α} {rest : List (Step α)}
  {groups : List (List (Request α))}

theorem definedStep_quiet (w : World α) (s : Step α) : Quiet (definedStep w s).1.flatten := by
  intro r hr
  obtain ⟨group, hgroup, hr⟩ := List.mem_flatten.mp hr
  simp only [definedStep] at hgroup
  split at hgroup
  · cases hgroup
  · cases hgroup
  · simp only [definedTestAB] at hgroup
    split at hgroup
    · cases hgroup
    · split at hgroup
      · obtain rfl := List.mem_singleton.mp hgroup
        obtain rfl := List.mem_singleton.mp hr
        exact ⟨rfl, rfl⟩
      · have hgroups : group = [.redis (.testabStepFinished s.id)] ∨
            group = [.redis (.testabStep s.id)] ∨ group = [.stepProcess s.id] := by
          split at hgroup
          · simp only [List.mem_cons, List.not_mem_nil, or_false] at hgroup
            exact hgroup.imp_right .inl
          · simp only [List.mem_cons, List.not_mem_nil, or_false] at hgroup
            exact hgroup.imp_right fun h => h.elim .inl id
        rcases hgroups with rfl | rfl | rfl
        · obtain rfl := List.mem_singleton.mp hr
          exact ⟨rfl, rfl⟩
        · obtain rfl := List.mem_singleton.mp hr
          exact ⟨rfl, rfl⟩
        · obtain rfl := List.mem_singleton.mp hr
          exact ⟨rfl, rfl⟩
  · cases hgroup

/-- What the requests of a step come to: one message with what it goes on with, the
completion at the end, and nothing where the type is not one that is run. -/
def Processed (s : Step α) (rs : List (Request α)) : Prop :=
  (s.type = .end_ ∧ passed rs = [] ∧ completed rs = 1) ∨
  (s.type.ready = false ∧ rs = []) ∨
  (s.type ≠ .end_ ∧ completed rs = 0 ∧ ∃ next, passed rs = [next] ∧ next.steps = nextSteps s.child)

theorem processed_next (before after : List (Request α)) {r : Request α} (hs : s.type ≠ .end_)
    {next : LeadStateMessage α} (hbefore : Quiet before) (hafter : Quiet after)
    (hr : r.next? = some next) (hcompletes : r.completes = false)
    (hnext : next.steps = nextSteps s.child) : Processed s (before ++ r :: after) := by
  refine .inr (.inr ⟨hs, ?_, next, ?_, hnext⟩)
  · have hone : completed (r :: after) = 0 := by
      rw [completed, List.countP_cons_of_neg (by rw [hcompletes]; exact Bool.false_ne_true)]
      exact hafter.completed
    rw [completed_append, hbefore.completed, hone]
  · have hone : passed (r :: after) = [next] := by
      rw [passed, List.filterMap_cons_some hr]
      exact congrArg (next :: ·) hafter.passed
    rw [passed_append, hbefore.passed, hone, List.nil_append]

theorem quiet_nil : Quiet ([] : List (Request α)) := fun _ h => nomatch h

theorem ready_of_mem {settings : Message} {messages : List Message} (h : settings ∈ messages) :
    (!messages.isEmpty) = true := by
  cases messages with
  | nil => cases h
  | cons => rfl

/-- Requests that pass on what the step goes on with, and send no e-mail. -/
theorem requested_next (before after : List (Request α)) {r : Request α} (hs : s.type.Silent)
    (hbefore : Quiet before) (hafter : Quiet after)
    (hr : r.next? = some (createNextLeadStateMessage m s)) (hcompletes : r.completes = false)
    (hemail : r.email? = none) : Requested m s (before ++ r :: after) := by
  refine .passes hbefore hafter hr hcompletes
    ⟨hs.ready, hs.goesOn, rfl, (hs.number _).symm, rfl, rfl⟩ fun messageId h => ?_
  rw [hemail] at h
  cases h

theorem email_requested {settings : Message} {mode : Bool} (hsettings : settings ∈ s.type.emails)
    (hready : s.type.ready = true) (hend : s.type ≠ .end_)
    (hnumber : ∀ n, s.type.nextEmailId n = n + 1)
    (h : executeStepTypeEmail w m settings mode (createNextLeadStateMessage m s) = .ok groups) :
    Requested m s groups.flatten := by
  simp only [executeStepTypeEmail] at h
  split at h
  · cases h
    refine @Requested.passes _ m s [] [] _ _ quiet_nil quiet_nil rfl rfl
      ⟨hready, hend, rfl, (hnumber _).symm, rfl, rfl⟩ fun messageId hid => ⟨settings, hsettings, ?_⟩
    cases hid
    rfl
  · cases h

theorem notification_requested {topic : Topic} {settings : Message} (htopic : topic ≠ .sendEmail)
    (hs : s.type.Silent)
    (h : executeNotificationStep w topic settings (createNextLeadStateMessage m s) = .ok groups) :
    Requested m s groups.flatten := by
  simp only [executeNotificationStep] at h
  split at h
  · cases h
    refine requested_next [] [] hs quiet_nil quiet_nil rfl rfl ?_
    cases topic with
    | sendEmail => exact absurd rfl htopic
    | _ => rfl
  · cases h

theorem processMessage_requested (h : processMessage w m s = .ok groups) :
    Requested m s groups.flatten := by
  have hforward : ∀ before : List (List (Request α)), s.type.Silent → Quiet before.flatten →
      Requested m s (before ++ [forward (createNextLeadStateMessage m s)]).flatten := by
    intro before hs hbefore
    rw [List.flatten_append]
    exact requested_next _ [] hs hbefore quiet_nil rfl rfl rfl
  have hone : ∀ {r : Request α}, r.next? = none → r.completes = false → Quiet [r] := by
    intro r hnext hcompletes x hx
    cases List.mem_singleton.mp hx
    exact ⟨hnext, hcompletes⟩
  cases htype : s.type with
  | end_ =>
      simp only [processMessage, htype] at h
      cases h
      exact .completed htype
  | activeCampaign | splitPath | conditionalTrue | conditionalFalse =>
      simp only [processMessage, htype] at h
      cases h
      exact .nothing (by rw [htype]; rfl)
  | email settings =>
      simp only [processMessage, htype] at h
      refine email_requested (s := s) ?_ ?_ ?_ ?_ h
      all_goals rw [htype]
      · exact List.mem_singleton_self _
      · rfl
      · exact nofun
      · exact fun _ => rfl
  | webPush settings | mobilePush settings | sms settings | whatsapp settings =>
      have hs : s.type.Silent := by rw [htype]; exact ⟨rfl, nofun, fun _ => rfl⟩
      simp only [processMessage, htype] at h
      exact notification_requested (by decide) hs h
  | wait timer timerType =>
      simp only [processMessage, htype] at h
      split at h
      · rename_i minutes hminutes
        have hs : s.type.Silent := by
          rw [htype]
          exact ⟨Option.isSome_of_eq_some hminutes, nofun, fun _ => rfl⟩
        cases h
        exact requested_next [] [] hs quiet_nil quiet_nil rfl rfl rfl
      · cases h
  | addTag settings | removeTag settings =>
      have hs : s.type.Silent := by rw [htype]; exact ⟨rfl, nofun, fun _ => rfl⟩
      simp only [processMessage, htype] at h
      cases h
      refine hforward [_] hs ?_
      intro r hr
      simp only [List.flatten_cons, List.flatten_nil, List.append_nil] at hr
      obtain ⟨tag, _, rfl⟩ := List.mem_map.mp hr
      exact ⟨rfl, rfl⟩
  | conditionalTime initialTime endTime =>
      have hs : s.type.Silent := by rw [htype]; exact ⟨rfl, nofun, fun _ => rfl⟩
      simp only [processMessage, htype] at h
      split at h
      · cases h
        exact hforward [] hs quiet_nil
      · cases h
        exact requested_next [] [] hs quiet_nil quiet_nil rfl rfl rfl
  | conditional | split | testAB =>
      have hs : s.type.Silent := by rw [htype]; exact ⟨rfl, nofun, fun _ => rfl⟩
      simp only [processMessage, htype] at h
      cases h
      exact hforward [] hs quiet_nil
  | randomMessage messages =>
      simp only [processMessage, htype] at h
      split at h
      · rename_i settings hsettings
        have hmem : settings ∈ messages := List.mem_of_getElem? hsettings
        refine email_requested (s := s) ?_ ?_ ?_ ?_ h
        all_goals rw [htype]
        · exact hmem
        · exact ready_of_mem hmem
        · exact nofun
        · exact fun _ => rfl
      · cases h
  | randomWebPush messages | randomMobilePush messages =>
      simp only [processMessage, htype] at h
      split at h
      · rename_i settings hsettings
        have hs : s.type.Silent := by
          rw [htype]
          exact ⟨ready_of_mem (List.mem_of_getElem? hsettings), nofun, fun _ => rfl⟩
        exact notification_requested (by decide) hs h
      · cases h
  | removeAutomation automations =>
      cases automations with
      | none =>
          simp only [processMessage, htype] at h
          cases h
      | some automations =>
          have hs : s.type.Silent := by rw [htype]; exact ⟨rfl, nofun, fun _ => rfl⟩
          simp only [processMessage, htype] at h
          cases h
          refine hforward _ hs fun r hr => ?_
          obtain ⟨group, hgroup, hr⟩ := List.mem_flatten.mp hr
          obtain ⟨id, _, rfl⟩ := List.mem_map.mp hgroup
          cases List.mem_singleton.mp hr
          exact ⟨rfl, rfl⟩
  | contactTransfer settings =>
      have hs : s.type.Silent := by rw [htype]; exact ⟨rfl, nofun, fun _ => rfl⟩
      simp only [processMessage, htype] at h
      split at h
      · cases h
        exact hforward [[_]] hs (hone rfl rfl)
      · cases h
  | updateCustomField id value =>
      have hs : s.type.Silent := by rw [htype]; exact ⟨rfl, nofun, fun _ => rfl⟩
      simp only [processMessage, htype] at h
      cases h
      exact hforward [[_]] hs (hone rfl rfl)
  | httpRequest =>
      have hs : s.type.Silent := by rw [htype]; exact ⟨rfl, nofun, fun _ => rfl⟩
      simp only [processMessage, htype] at h
      cases h
      exact requested_next [] [_] hs quiet_nil (hone rfl rfl) rfl rfl rfl

theorem Requested.processed {rs : List (Request α)} (h : Requested m s rs) : Processed s rs := by
  cases h with
  | completed hend => exact .inl ⟨hend, rfl, rfl⟩
  | nothing hready => exact .inr (.inl ⟨hready, rfl⟩)
  | passes hbefore hafter hr hcompletes hnext hemail =>
      exact processed_next _ _ hnext.goesOn hbefore hafter hr hcompletes hnext.steps

theorem processMessage_processed (h : processMessage w m s = .ok groups) :
    Processed s groups.flatten :=
  (processMessage_requested h).processed

/-- A step that can be carried out throws nothing before its requests. -/
theorem processMessage_ready (hw : w.Serves) (hs : s.type.ready = true) :
    ∃ groups, processMessage w m s = .ok groups := by
  have hpick : ∀ messages : List Message, (!messages.isEmpty) = true →
      ∃ settings, selectRandomMessage w messages = some settings := by
    intro messages hne
    have hlt : w.random.floor messages.length < messages.length := by
      refine w.random.floor_lt (List.length_pos_of_ne_nil ?_)
      rintro rfl
      cases hne
    exact ⟨_, List.getElem?_eq_getElem hlt⟩
  have hemail : ∀ settings mode next,
      ∃ groups, executeStepTypeEmail w m settings mode next = .ok groups := by
    intro settings mode next
    exact ⟨_, if_pos (hw.messageFound _)⟩
  have hnotification : ∀ topic settings next,
      ∃ groups, executeNotificationStep w topic settings next = .ok groups := by
    intro topic settings next
    exact ⟨_, if_pos (hw.messageFound _)⟩
  cases htype : s.type with
  | activeCampaign | splitPath | conditionalTrue | conditionalFalse =>
      rw [htype] at hs
      cases hs
  | email settings =>
      simp only [processMessage, htype]
      exact hemail _ _ _
  | webPush settings | mobilePush settings | sms settings | whatsapp settings =>
      simp only [processMessage, htype]
      exact hnotification _ _ _
  | randomMessage messages =>
      rw [htype] at hs
      obtain ⟨settings, hsettings⟩ := hpick messages hs
      simp only [processMessage, htype, hsettings]
      exact hemail _ _ _
  | randomWebPush messages | randomMobilePush messages =>
      rw [htype] at hs
      obtain ⟨settings, hsettings⟩ := hpick messages hs
      simp only [processMessage, htype, hsettings]
      exact hnotification _ _ _
  | wait timer timerType =>
      rw [htype] at hs
      obtain ⟨minutes, hminutes⟩ := Option.isSome_iff_exists.mp hs
      simp only [processMessage, htype, hminutes]
      exact ⟨_, rfl⟩
  | removeAutomation automations =>
      rw [htype] at hs
      obtain ⟨ids, rfl⟩ := Option.isSome_iff_exists.mp hs
      simp only [processMessage, htype]
      exact ⟨_, rfl⟩
  | contactTransfer settings =>
      simp only [processMessage, htype, if_pos hw.contactFound]
      exact ⟨_, rfl⟩
  | conditionalTime initialTime endTime =>
      simp only [processMessage, htype]
      split
      · exact ⟨_, rfl⟩
      · exact ⟨_, rfl⟩
  | _ =>
      simp only [processMessage, htype]
      exact ⟨_, rfl⟩

theorem Outcome.andThen_requests (w : World α) (sent : List (Request α))
    (groups : List (List (Request α))) :
    (Outcome.andThen w sent groups).requests = sent ++ (perform w groups).1 := rfl

/-- What a handling forwards and completes. -/
inductive Handled (w : World α) (s : Step α) : List (LeadStateMessage α) → Nat → Prop where
  | halted : Handled w s [] 0
  | ended (h : s.type = .end_) : Handled w s [] 1
  | next {next : LeadStateMessage α} (h : s.type ≠ .end_)
      (hnext : next.steps = nextSteps (definedStep w s).2.child) : Handled w s [next] 0

theorem Processed.handled {rs rs' : List (Request α)} (h : Processed (definedStep w s).2 rs)
    (hs : rs'.Sublist rs) : Handled w s (passed rs') (completed rs') := by
  have hpassed : (passed rs').Sublist (passed rs) := hs.filterMap _
  have hcompleted : completed rs' ≤ completed rs := hs.countP_le
  rcases h with ⟨hend, hnone, hone⟩ | ⟨_, rfl⟩ | ⟨hend, hzero, next, hnext, hsteps⟩
  · rw [hnone, List.sublist_nil] at hpassed
    rw [definedStep_type] at hend
    rw [hpassed]
    rcases Nat.le_one_iff_eq_zero_or_eq_one.mp (hone ▸ hcompleted) with h | h
    · rw [h]
      exact .halted
    · rw [h]
      exact .ended hend
  · rw [List.sublist_nil.mp hs]
    exact .halted
  · rw [hnext] at hpassed
    rw [definedStep_type] at hend
    have hnever : completed rs' = 0 := Nat.le_zero.mp (hzero ▸ hcompleted)
    rw [hnever]
    rcases List.sublist_singleton.mp hpassed with h | h
    · rw [h]
      exact .halted
    · rw [h]
      exact .next hend hsteps

theorem receiveMessage_handled (hm : m.steps = s :: rest) :
    Handled w s (receiveMessage w m).forwarded (receiveMessage w m).completions := by
  have hquiet : Quiet (perform w ((definedStep w s).1 ++ [[.redis .stopFlags]])).1 := by
    refine Quiet.sublist (fun r hr => ?_) (perform_sublist w _)
    rw [List.flatten_append] at hr
    rcases List.mem_append.mp hr with hr | hr
    · exact definedStep_quiet w s r hr
    · cases List.mem_singleton.mp hr
      exact ⟨rfl, rfl⟩
  have hafter : ∀ rs, Handled w s (passed rs) (completed rs) →
      Handled w s (passed ((perform w ((definedStep w s).1 ++ [[.redis .stopFlags]])).1 ++ rs))
        (completed ((perform w ((definedStep w s).1 ++ [[.redis .stopFlags]])).1 ++ rs)) := by
    intro rs hrs
    rwa [passed_append, completed_append, hquiet.passed, hquiet.completed, List.nil_append,
      Nat.zero_add]
  have hnone : Handled w s (passed (perform w ((definedStep w s).1 ++ [[.redis .stopFlags]])).1)
      (completed (perform w ((definedStep w s).1 ++ [[.redis .stopFlags]])).1) := by
    rw [hquiet.passed, hquiet.completed]
    exact .halted
  have hdeleted : Handled w s (passed (perform w [[.redis .stopFlags]]).1)
      (completed (perform w [[.redis .stopFlags]]).1) := by
    have hquiet : Quiet (perform w [[.redis .stopFlags]]).1 := by
      refine Quiet.sublist (fun r hr => ?_) (perform_sublist w _)
      cases List.mem_singleton.mp hr
      exact ⟨rfl, rfl⟩
    rw [hquiet.passed, hquiet.completed]
    exact .halted
  show Handled w s (passed (receiveMessage w m).requests) (completed (receiveMessage w m).requests)
  simp only [receiveMessage, hm]
  split
  · split
    · exact hafter _ hdeleted
    · split
      · exact hnone
      · rename_i groups hgroups
        exact hafter _ ((processMessage_processed hgroups).handled (perform_sublist w groups))
  · exact hnone

/-- What a handling requests, when nothing is refused and the contact is not stopped. -/
theorem receiveMessage_requests (hm : m.steps = s :: rest) (haccepts : ∀ r, w.accepts r = true)
    (hstopped : w.stopped = false) {g : List (List (Request α))}
    (hgroups : processMessage w m (definedStep w s).2 = .ok g) :
    (receiveMessage w m).requests =
      ((definedStep w s).1 ++ [[Request.redis .stopFlags]]).flatten ++ g.flatten := by
  simp only [receiveMessage, hm, perform_accepted haccepts, if_true, hstopped,
    Bool.false_eq_true, if_false, hgroups, Outcome.andThen_requests]

theorem receiveMessage_carried (hm : m.steps = s :: rest) (hw : w.Serves)
    (hs : s.type.ready = true) : (receiveMessage w m).forwarded ≠ [] ∨
      (receiveMessage w m).completions = 1 := by
  obtain ⟨groups, hgroups⟩ := processMessage_ready (m := m) (s := (definedStep w s).2) hw
    (by rwa [definedStep_type])
  have happend : ∀ rs : List (Request α), passed groups.flatten ≠ [] ∨ completed groups.flatten = 1 →
      completed rs = 0 → passed (rs ++ groups.flatten) ≠ [] ∨
        completed (rs ++ groups.flatten) = 1 := by
    intro rs h hrs
    rw [passed_append, completed_append, hrs, Nat.zero_add]
    exact h.imp_left fun h happ => h (List.append_eq_nil_iff.mp happ).2
  show passed (receiveMessage w m).requests ≠ [] ∨ completed (receiveMessage w m).requests = 1
  rw [receiveMessage_requests hm hw.accepts hw.stopped hgroups]
  refine happend _ ?_ ?_
  · rcases processMessage_processed hgroups with ⟨_, _, h⟩ | ⟨h, _⟩ | ⟨_, _, next, h, _⟩
    · exact .inr h
    · rw [definedStep_type, hs] at h
      cases h
    · rw [h]
      exact .inl (List.cons_ne_nil _ _)
  · rw [List.flatten_append, completed_append, (definedStep_quiet w s).completed]
    rfl

end

/-! ## Runs -/

/-- A message that was handled: its node, how many messages were forwarded, and how
often the automation was completed. -/
structure Visit (α : Type) where
  node : Node α
  forwarded : Nat
  completions : Nat

/-- The messages of a contact that wait to be handled, and those that were. -/
structure State (α : Type) where
  pending : List (LeadStateMessage α)
  visits : List (Visit α)

def State.init (root : LeadStateMessage α) : State α := ⟨[root], []⟩

/-- The pending message at a place is handled. -/
def State.handle (s : State α) (a : Nat × World α) : Option (State α) :=
  s.pending[a.1]?.map fun m =>
    let outcome := receiveMessage a.2 m
    { pending := s.pending.eraseIdx a.1 ++ outcome.forwarded
      visits := s.visits ++ (m.steps.head?.map fun step =>
        ⟨step.node, outcome.forwarded.length, outcome.completions⟩).toList }

def State.nodes (s : State α) : List (Node α) := s.visits.map Visit.node

/-- How often the automation was completed. -/
def State.completions (s : State α) : Nat := (s.visits.map Visit.completions).sum

/-- The step that is handled can be carried out, in a world that serves. -/
def Carried (s : State α) (a : Nat × World α) : Prop :=
  ∀ m step rest, s.pending[a.1]? = some m → m.steps = step :: rest →
    a.2.Serves ∧ step.type.ready = true

/-! ## The invariant -/

/-- A visit that is followed by another one. -/
def Visit.PassedOn (v : Visit α) : Prop := v.forwarded = 1 ∧ v.completions = 0

/-- A run is on its way down, with one message, or it is over. -/
inductive Inv (ss : List (Step α)) : State α → Prop where
  | going {m : LeadStateMessage α} {vs : List (Visit α)} (hne : m.steps ≠ [])
      (hcover : Covered m.steps) (hvs : ∀ v ∈ vs, v.PassedOn)
      (hpath : ∀ p, Path m.steps p → Path ss (vs.map Visit.node ++ p)) : Inv ss ⟨[m], vs⟩
  | finished {vs : List (Visit α)} {v : Visit α} {p : List (Node α)} (hvs : ∀ v ∈ vs, v.PassedOn)
      (hv : v.forwarded = 0) (hone : v.completions ≤ 1) (hp : Path ss p)
      (hvisited : (vs ++ [v]).map Visit.node <+: p)
      (hend : v.completions = 1 → (vs ++ [v]).map Visit.node = p) : Inv ss ⟨[], vs ++ [v]⟩

/-- A run that is over has completed the automation. -/
def State.Ended (s : State α) : Prop :=
  s.pending = [] → ∃ v, s.visits.getLast? = some v ∧ v.completions = 1

section
variable {ss rest : List (Step α)} {s s' : State α} {root : LeadStateMessage α}
  {a : Nat × World α} {p : List (Node α)}

theorem Path.head {t : Step α} (h : Path (t :: rest) p) : ∃ q, p = t.node :: q := by
  cases h with
  | last h => exact ⟨_, rfl⟩
  | plain h hp => exact ⟨_, rfl⟩
  | arm ha h hp => exact ⟨_, rfl⟩
  | noArm h hno => exact ⟨_, rfl⟩
  | picked h hm hp => exact ⟨_, rfl⟩

theorem nextSteps_ne_nil (c : List (Step α)) : nextSteps c ≠ [] := by
  by_cases hc : c = []
  · rw [nextSteps, if_pos hc]
    exact List.cons_ne_nil _ _
  · rwa [nextSteps, if_neg hc]

theorem inv_init (hne : root.steps ≠ []) (hcover : Covered root.steps) :
    Inv root.steps (State.init root) :=
  .going hne hcover (fun _ hv => nomatch hv) fun _ hp => hp

theorem handle_going {m : LeadStateMessage α} {vs : List (Visit α)} {step : Step α}
    (hsteps : m.steps = step :: rest) (hs : State.handle ⟨[m], vs⟩ a = some s') :
    a.1 = 0 ∧ s' = ⟨(receiveMessage a.2 m).forwarded, vs ++ [⟨step.node,
      (receiveMessage a.2 m).forwarded.length, (receiveMessage a.2 m).completions⟩]⟩ := by
  obtain ⟨i, w⟩ := a
  cases i with
  | succ i => cases hs
  | zero =>
      refine ⟨rfl, ?_⟩
      rw [← Option.some_inj, ← hs]
      simp only [State.handle, List.getElem?_cons_zero, Option.map_some, hsteps, List.head?_cons,
        Option.toList_some, List.eraseIdx_zero, List.tail_cons, List.nil_append]

/-- A handling goes one node down, or ends the run. -/
theorem Inv.handle (h : Inv ss s) (hs : s.handle a = some s') : Inv ss s' := by
  obtain ⟨i, w⟩ := a
  cases h with
  | finished => cases hs
  | @going m vs hne hcover hvs hpath =>
      obtain ⟨step, rest, hsteps⟩ := List.exists_cons_of_ne_nil hne
      obtain ⟨_, rfl⟩ := handle_going hsteps hs
      rw [hsteps] at hcover hpath
      have hhandled := receiveMessage_handled (w := w) hsteps
      generalize (receiveMessage w m).forwarded = forwarded,
        (receiveMessage w m).completions = completions at hhandled ⊢
      cases hhandled with
      | halted =>
          obtain ⟨q, hq⟩ := exists_path _ (step :: rest) (le_refl _) hcover
          obtain ⟨q, rfl⟩ := hq.head
          refine .finished hvs rfl (Nat.zero_le _) (hpath _ hq) ⟨q, ?_⟩ nofun
          simp only [List.map_append, List.map_cons, List.map_nil, List.append_assoc,
            List.singleton_append]
      | ended hend =>
          have hp := hpath _ (.last hend)
          have hnodes : (vs ++ [(⟨step.node, 0, 1⟩ : Visit α)]).map Visit.node =
              vs.map Visit.node ++ [step.node] := by
            simp only [List.map_append, List.map_cons, List.map_nil]
          exact .finished hvs rfl (le_refl _) hp (hnodes ▸ List.prefix_refl _) fun _ => hnodes
      | @next next hend hnext =>
          have hgoes := definedStep_goes w hcover hend
          refine .going (hnext ▸ nextSteps_ne_nil _) (hnext ▸ hgoes.covered hcover) ?_ ?_
          · intro v hv
            rcases List.mem_append.mp hv with hv | hv
            · exact hvs v hv
            · cases List.mem_singleton.mp hv
              exact ⟨rfl, rfl⟩
          · intro p hp
            rw [hnext] at hp
            have hall := hpath _ (show Path (step :: rest) _ from hgoes.path hp)
            simpa only [List.map_append, List.map_cons, List.map_nil, List.append_assoc,
              List.singleton_append] using hall

/-- A step that is carried out leaves a message, or completes. -/
theorem Inv.handle_ended (h : Inv ss s) (hcarried : Carried s a) (hs : s.handle a = some s') :
    s'.Ended := by
  cases h with
  | finished => cases hs
  | @going m vs hne hcover hvs hpath =>
      obtain ⟨step, rest, hsteps⟩ := List.exists_cons_of_ne_nil hne
      obtain ⟨hfirst, rfl⟩ := handle_going hsteps hs
      obtain ⟨hw, hready⟩ := hcarried m step rest (by rw [hfirst]; rfl) hsteps
      intro hpending
      rcases receiveMessage_carried hsteps hw hready with hforwarded | hone
      · exact absurd hpending hforwarded
      · exact ⟨_, List.getLast?_concat, hone⟩

theorem sum_passedOn {vs : List (Visit α)} (h : ∀ v ∈ vs, v.PassedOn) :
    (vs.map Visit.completions).sum = 0 :=
  List.sum_eq_zero fun n hn => by
    obtain ⟨v, hv, rfl⟩ := List.mem_map.mp hn
    exact (h v hv).2

/-- A run visits a path from its first node on, each message forwards the next one, and
none completes the automation but the last of the path.  There are no more visits than
the trees are high, and a pending message can always be handled.  Where every step is
carried out, the run is over only when the whole path is visited and the automation
completed, once. -/
theorem run_visits_path (hne : root.steps ≠ []) (hcover : Covered root.steps)
    {as : List (Nat × World α)} (h : Runs.exec State.handle (State.init root) as = some s) :
    ∃ p, Path root.steps p ∧ s.nodes <+: p ∧ s.visits.length ≤ heights root.steps ∧
      s.pending.length ≤ 1 ∧
      (∀ v ∈ s.visits.dropLast, v.forwarded = 1 ∧ v.completions = 0) ∧
      (∀ v ∈ s.visits.getLast?, v.forwarded = s.pending.length ∧
        v.forwarded + v.completions ≤ 1 ∧ (v.completions = 1 → s.nodes = p)) ∧
      (s.pending ≠ [] → ∀ w, (s.handle (0, w)).isSome = true) ∧
      (Runs.Meets State.handle Carried (State.init root) as → s.pending = [] →
        s.nodes = p ∧ s.completions = 1) := by
  have hinv : Inv root.steps s := by
    exact Runs.Reached.induction (inv_init hne hcover) (fun t a t' ht hs => ht.handle hs) ⟨as, h⟩
  have hended : Runs.Meets State.handle Carried (State.init root) as → s.Ended := by
    intro hmeets
    exact (Runs.invariant (I := fun t => Inv root.steps t ∧ t.Ended)
      (fun t a t' ht hc hs => ⟨ht.1.handle hs, ht.1.handle_ended hc hs⟩)
      ⟨inv_init hne hcover, fun hnil => nomatch hnil⟩ hmeets h).2
  cases hinv with
  | @going m vs hm hcover hvs hpath =>
      obtain ⟨q, hq⟩ := exists_path _ m.steps (le_refl _) hcover
      refine ⟨_, hpath q hq, ⟨q, rfl⟩, ?_, le_refl _, ?_, ?_, fun _ w => rfl, fun _ hnil => nomatch hnil⟩
      · have hlength := (hpath q hq).length_le
        rw [List.length_append, List.length_map] at hlength
        exact le_trans (Nat.le_add_right _ _) hlength
      · exact fun v hv => hvs v (List.mem_of_mem_dropLast hv)
      · intro v hv
        obtain ⟨hone, hnever⟩ := hvs v (List.mem_of_getLast? hv)
        refine ⟨hone, by omega, fun h => ?_⟩
        rw [hnever] at h
        cases h
  | @finished vs v p hvs hv hone hp hvisited hend =>
      refine ⟨p, hp, hvisited, ?_, Nat.zero_le _, ?_, ?_, fun hnil => absurd rfl hnil, ?_⟩
      · have hlength := hvisited.length_le
        rw [List.length_map] at hlength
        exact le_trans hlength hp.length_le
      · intro u hu
        rw [List.dropLast_concat] at hu
        exact hvs u hu
      · intro u hu
        rw [List.getLast?_concat] at hu
        cases hu
        exact ⟨hv, by omega, hend⟩
      · intro hmeets _
        obtain ⟨u, hu, hcompletes⟩ := hended hmeets rfl
        rw [List.getLast?_concat] at hu
        cases hu
        refine ⟨hend hcompletes, ?_⟩
        rw [State.completions, List.map_append, List.sum_append, sum_passedOn hvs, Nat.zero_add]
        simpa only [List.map_cons, List.map_nil, List.sum_singleton] using hcompletes

end

/-! ## A run that is carried out, and one that is not -/

/-- A world in which nothing fails; every draw is 0. -/
def served : World Nat where
  random := ⟨0, le_refl _, zero_lt_one⟩
  contactFound := true
  atom := fun _ => some true
  or := fun _ => false
  winnerMessageId := none
  stepRedisKeyExists := false
  messageFound := fun _ => true
  leadHit := false
  removeAutomationHit := false
  targetHit := false
  hour := 12
  hoursToNextDay := 20
  accepts := fun _ => true

/-- A message with one step, on account 1. -/
def messageOf (step : Step Nat) : LeadStateMessage Nat :=
  ⟨[step], step.id.toText, none, none, 1, "welcome"⟩

theorem covered_leaf {t : Step α} (h : t.child = []) (hsplit : t.type ≠ .split) : Covered [t] := by
  rintro u hu htype
  cases hu with
  | here hu =>
      cases List.mem_singleton.mp hu
      exact absurd htype hsplit
  | child ht hu =>
      cases List.mem_singleton.mp ht
      rw [h] at hu
      exact covered_nil u hu htype

/-- A wait of 5 minutes. -/
def waitFive : Step Nat := .mk (.num 2) (.wait (.num 5) .minutes) false []

/-- A split with one arm, which waits. -/
def splitStep : Step Nat :=
  .mk (.num 1) .split false
    [.mk (.text "arm") (.splitPath 100) false [waitFive]]

theorem covered_splitStep : Covered [splitStep] := by
  rintro t ht htype
  cases ht with
  | here ht =>
      cases List.mem_singleton.mp ht
      exact ⟨100, rfl, le_refl _⟩
  | child hu ht =>
      cases List.mem_singleton.mp hu
      cases ht with
      | here ht =>
          cases List.mem_singleton.mp ht
          cases htype
      | child hu ht =>
          cases List.mem_singleton.mp hu
          exact covered_leaf rfl (fun h => by cases h) t ht htype

/-- The messages the split and the wait forward. -/
def toWait : LeadStateMessage Nat :=
  createNextLeadStateMessage (messageOf splitStep) (splitStep.withChild [waitFive])

def toEnd : LeadStateMessage Nat := createNextLeadStateMessage toWait waitFive

/-- The state after the split, the wait and the end. -/
def splitState : State Nat :=
  ⟨[], [⟨splitStep.node, 1, 0⟩, ⟨waitFive.node, 1, 0⟩, ⟨Step.endStep.node, 0, 1⟩]⟩

theorem definedStep_split : definedStep served splitStep = ([], splitStep.withChild [waitFive]) := by
  have hdraw : served.random.floor 101 = 0 := by
    simp only [Draw.floor, served, zero_mul, Nat.floor_zero]
  show ([], splitStep.withChild ((selectArm (served.random.floor 101) (some 0)
    splitStep.child).getD splitStep.child)) = _
  rw [hdraw]
  rfl

theorem handle_split : (State.init (messageOf splitStep)).handle (0, served) =
    some ⟨[toWait], [⟨splitStep.node, 1, 0⟩]⟩ := by
  have hreceive : receiveMessage served (messageOf splitStep) =
      .andThen served [.redis .stopFlags] [forward toWait] := by
    simp only [receiveMessage, messageOf, definedStep_split]
    rfl
  simp only [State.handle, State.init, List.getElem?_cons_zero, Option.map_some, hreceive]
  rfl

theorem handle_wait : State.handle ⟨[toWait], [⟨splitStep.node, 1, 0⟩]⟩ (0, served) =
    some ⟨[toEnd], [⟨splitStep.node, 1, 0⟩, ⟨waitFive.node, 1, 0⟩]⟩ := rfl

theorem handle_end : State.handle ⟨[toEnd], [⟨splitStep.node, 1, 0⟩, ⟨waitFive.node, 1, 0⟩]⟩
    (0, served) = some splitState := rfl

theorem served_serves : served.Serves := ⟨fun _ => rfl, fun _ => rfl, rfl, rfl⟩

theorem carried_served {m : LeadStateMessage Nat} {vs : List (Visit Nat)} {step : Step Nat}
    {rest : List (Step Nat)} (hm : m.steps = step :: rest) (hready : step.type.ready = true) :
    Carried ⟨[m], vs⟩ (0, served) := by
  intro m' step' rest' hm' hsteps
  cases hm'
  cases hm.symm.trans hsteps
  exact ⟨served_serves, hready⟩

/-- The split, the wait and the end are a path, and complete the automation. -/
theorem run_visits_path_split : Path [splitStep] splitState.nodes ∧
    splitState.visits.length ≤ heights [splitStep] ∧ splitState.completions = 1 := by
  have hrun : Runs.exec State.handle (State.init (messageOf splitStep))
      [(0, served), (0, served), (0, served)] = some splitState := by
    rw [Runs.exec_cons, handle_split, Option.bind_some, Runs.exec_cons, handle_wait,
      Option.bind_some, Runs.exec_cons, handle_end]
    rfl
  have hmeets : Runs.Meets State.handle Carried (State.init (messageOf splitStep))
      [(0, served), (0, served), (0, served)] :=
    .cons (carried_served rfl rfl) handle_split <| .cons (carried_served rfl rfl) handle_wait <|
      .cons (carried_served rfl rfl) handle_end trivial
  obtain ⟨p, hp, _, hlength, _, _, _, _, hwhole⟩ :=
    run_visits_path (List.cons_ne_nil _ _) covered_splitStep hrun
  obtain ⟨rfl, hone⟩ := hwhole hmeets rfl
  exact ⟨hp, hlength, hone⟩

/-- A wait whose timer is negative. -/
def waitStep : Step Nat := .mk (.num 1) (.wait (.num (-5)) .minutes) false []

/-- The handling of the wait throws: nothing fails in the world, the run is over, but it
has visited no path, and the automation is not completed. -/
theorem wait_ends_run : served.Serves ∧ Covered [waitStep] ∧ ∃ s,
    Runs.exec State.handle (State.init (messageOf waitStep)) [(0, served)] = some s ∧
      s.pending = [] ∧ ¬ Path [waitStep] s.nodes ∧ s.completions = 0 := by
  refine ⟨served_serves, covered_leaf rfl (fun h => by cases h),
    ⟨[], [⟨waitStep.node, 0, 0⟩]⟩, ?_, rfl, ?_, rfl⟩
  · rfl
  · intro h
    cases h with
    | plain _ h => cases h
    | last h => cases h
    | arm ha h hp => cases ha

end OpenBms.MessageTrigger
