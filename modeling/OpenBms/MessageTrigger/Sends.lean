/-
# `OpenBms.MessageTrigger.Sends` — the e-mails of the runs, read off the step trees

A run sends the e-mails of the steps it handles, numbered by `activeEmailId`: the
message a handling forwards holds the number of the next one.  Which e-mails some run
sends does not depend on the services, apart from how they define the steps.

| a step of type | sends | is followed by number |
| :-- | :-- | :-- |
| `email` | its message | `n + 1` |
| `randomMessage` | one of its messages | `n + 1` |
| any other | nothing | `n` |

**Proved here.**

    what a handling sends and passes on (`receiveMessage_made`, `exists_passesOn`)
    a run from a message sends what its trees let it send (`sent_iff`)
-/
import OpenBms.MessageTrigger.Run
import OpenBms.MessageTrigger.Split

namespace OpenBms.MessageTrigger

variable {α : Type}

/-! ## E-mails -/

/-- Some run sends an e-mail: its number, and the id of its message. -/
def Sent (root : LeadStateMessage α) (p : Nat × Int) : Prop :=
  ∃ as s m w r, Runs.exec State.handle (State.init root) as = some s ∧ m ∈ s.pending ∧
    r ∈ (receiveMessage w m).requests ∧ r.email? = some p.2 ∧ m.emailId = p.1

/-- The message that is sent in place of the settings' own, as the e-mail of a number. -/
def LeadStateMessage.messageIdAt (root : LeadStateMessage α) (n : Nat) (settings : Message) :
    Int :=
  ({ root with activeEmailId := some n } : LeadStateMessage α).messageId settings

/-- What runs from the first of the steps send, when the next e-mail has number `n`. -/
inductive Sends (messageIdAt : Nat → Message → Int) : Nat → List (Step α) → Nat × Int → Prop where
  | now {n : Nat} {s : Step α} {rest : List (Step α)} {settings : Message}
      (h : settings ∈ s.type.emails) : Sends messageIdAt n (s :: rest) (n, messageIdAt n settings)
  | later {n : Nat} {s : Step α} {rest : List (Step α)} {p : Nat × Int} (w : World α)
      (hready : s.type.ready = true) (hend : s.type ≠ .end_)
      (h : Sends messageIdAt (s.type.nextEmailId n) (definedStep w s).2.child p) :
      Sends messageIdAt n (s :: rest) p

/-! ## Requests of a step -/

/-- A request of the step: an e-mail is one of its e-mails, what is passed on is what comes
below it. -/
structure Made (m : LeadStateMessage α) (s : Step α) (r : Request α) : Prop where
  email : ∀ messageId, r.email? = some messageId →
    ∃ settings ∈ s.type.emails, messageId = m.messageId settings
  next : ∀ next, r.next? = some next → PassesOn m s next

section
variable {w : World α} {m next : LeadStateMessage α} {s : Step α} {rest c : List (Step α)}
  {groups : List (List (Request α))} {r : Request α} {messageIdAt : Nat → Message → Int}
  {n : Nat} {p : Nat × Int}

theorem email_none_of_next (h : r.next? = none) : r.email? = none := by
  cases r with
  | sender topic messageId mode next => cases h
  | _ => rfl

theorem made_of_next_none (h : r.next? = none) : Made m s r where
  email := by
    intro messageId hemail
    rw [email_none_of_next h] at hemail
    cases hemail
  next := by
    intro next hnext
    rw [h] at hnext
    cases hnext

theorem emailId_pos (m : LeadStateMessage α) : m.emailId ≠ 0 := by
  rw [LeadStateMessage.emailId]
  cases hactive : m.activeEmailId.filter (· ≠ 0) with
  | none => exact Nat.one_ne_zero
  | some n => exact of_decide_eq_true (Option.filter_eq_some_iff.mp hactive).2

theorem Requested.made {rs : List (Request α)} (h : Requested m s rs) (hr : r ∈ rs) :
    Made m s r := by
  cases h with
  | completed _ =>
      obtain rfl := List.mem_singleton.mp hr
      exact made_of_next_none rfl
  | nothing _ => cases hr
  | passes hbefore hafter hnext hcompletes hpasses hemail =>
      rcases List.mem_append.mp hr with hr | hr
      · exact made_of_next_none (hbefore r hr).1
      · rcases List.mem_cons.mp hr with rfl | hr
        · refine ⟨hemail, fun next h => ?_⟩
          cases hnext.symm.trans h
          exact hpasses
        · exact made_of_next_none (hafter r hr).1

theorem processMessage_made (h : processMessage w m s = .ok groups) (hr : r ∈ groups.flatten) :
    Made m s r :=
  (processMessage_requested h).made hr

/-! ## Requests of a handling -/

theorem receiveMessage_made (hm : m.steps = s :: rest) (hr : r ∈ (receiveMessage w m).requests) :
    Made m (definedStep w s).2 r := by
  have hdefined : ∀ x ∈ (perform w ((definedStep w s).1 ++ [[.redis .stopFlags]])).1,
      x.next? = none := by
    intro x hx
    have hx := (perform_sublist w _).subset hx
    rw [List.flatten_append] at hx
    rcases List.mem_append.mp hx with hx | hx
    · exact (definedStep_quiet w s x hx).1
    · obtain rfl := List.mem_singleton.mp hx
      rfl
  simp only [receiveMessage, hm] at hr
  split at hr
  · split at hr
    · rcases List.mem_append.mp hr with hr | hr
      · exact made_of_next_none (hdefined r hr)
      · have hr : r ∈ [[Request.redis .stopFlags]].flatten := (perform_sublist w _).subset hr
        obtain rfl := List.mem_singleton.mp hr
        exact made_of_next_none rfl
    · split at hr
      · exact made_of_next_none (hdefined r hr)
      · rename_i groups hgroups
        rcases List.mem_append.mp hr with hr | hr
        · exact made_of_next_none (hdefined r hr)
        · exact processMessage_made hgroups ((perform_sublist w _).subset hr)
  · exact made_of_next_none (hdefined r hr)

/-- Without steps a handling requests no e-mail and passes nothing on. -/
theorem receiveMessage_nil (hm : m.steps = []) (hr : r ∈ (receiveMessage w m).requests) :
    r.next? = none := by
  have hflags : ∀ x ∈ (perform w [[Request.redis .stopFlags]]).1, x.next? = none := by
    intro x hx
    have hx : x ∈ [[Request.redis .stopFlags]].flatten := (perform_sublist w _).subset hx
    obtain rfl := List.mem_singleton.mp hx
    rfl
  simp only [receiveMessage, hm, List.nil_append] at hr
  split at hr
  · split at hr
    · rcases List.mem_append.mp hr with hr | hr
      · exact hflags r hr
      · exact hflags r hr
    · exact hflags r hr
  · exact hflags r hr

/-- The same answers, but nothing is refused or missing, and the contact is not stopped. -/
def World.served (w : World α) (contactFound : Bool) : World α :=
  { w with
    contactFound := contactFound
    messageFound := fun _ => true
    leadHit := false
    removeAutomationHit := false
    targetHit := false
    accepts := fun _ => true }

theorem serves_served (w : World α) : (w.served true).Serves :=
  ⟨fun _ => rfl, fun _ => rfl, rfl, rfl⟩

theorem definedStep_served (w : World α) (s : Step α) :
    definedStep (w.served w.contactFound) s = definedStep w s := rfl

theorem definedStep_contactFound (hs : s.type ≠ .conditional) (w : World α) (b : Bool) :
    definedStep (w.served b) s = definedStep w s := by
  simp only [definedStep]
  cases htype : s.type with
  | conditional => exact absurd htype hs
  | _ => rfl

theorem exists_passesOn (w : World α) (hm : m.steps = s :: rest) (hready : s.type.ready = true)
    (hend : s.type ≠ .end_) : ∃ w' next, next ∈ (receiveMessage w' m).forwarded ∧
      PassesOn m (definedStep w s).2 next := by
  have hof : ∀ (w' : World α) (groups : List (List (Request α))) (r : Request α)
      (next : LeadStateMessage α), definedStep w' s = definedStep w s →
      (∀ r, w'.accepts r = true) → w'.stopped = false →
      processMessage w' m (definedStep w s).2 = .ok groups → r ∈ groups.flatten →
      r.next? = some next → ∃ w' next, next ∈ (receiveMessage w' m).forwarded ∧
        PassesOn m (definedStep w s).2 next := by
    intro w' groups r next hdefined haccepts hstopped hgroups hr hnext
    refine ⟨w', next, List.mem_filterMap.mpr ⟨r, ?_, hnext⟩,
      (processMessage_made hgroups hr).next next hnext⟩
    rw [receiveMessage_requests hm haccepts hstopped (hdefined ▸ hgroups)]
    exact List.mem_append_right _ hr
  by_cases hconditional : s.type = .conditional
  · have htype : (definedStep w s).2.type = .conditional := by rw [definedStep_type, hconditional]
    have hgroups : processMessage (w.served w.contactFound) m (definedStep w s).2 =
        .ok [forward (createNextLeadStateMessage m (definedStep w s).2)] := by
      simp only [processMessage, htype]
    exact hof (w.served w.contactFound) _ _ _ (definedStep_served w s) (fun _ => rfl) rfl hgroups
      (List.mem_singleton_self _) rfl
  · have hserves := serves_served w
    obtain ⟨groups, hgroups⟩ := processMessage_ready (m := m) (s := (definedStep w s).2) hserves
      (by rwa [definedStep_type])
    have hpassed : ∃ next, passed groups.flatten = [next] := by
      rcases processMessage_processed hgroups with ⟨h, _⟩ | ⟨h, _⟩ | ⟨_, _, next, h, _⟩
      · rw [definedStep_type] at h
        exact absurd h hend
      · rw [definedStep_type, hready] at h
        cases h
      · exact ⟨next, h⟩
    obtain ⟨next, hnext⟩ := hpassed
    have hmem : next ∈ passed groups.flatten := by
      rw [hnext]
      exact List.mem_singleton_self _
    obtain ⟨r, hr, hrnext⟩ := List.mem_filterMap.mp hmem
    exact hof (w.served true) groups r next (definedStep_contactFound hconditional w true)
      (fun _ => rfl) rfl hgroups hr hrnext

/-- Each of the e-mails of a step is sent in some world. -/
theorem exists_email {settings : Message} (hm : m.steps = s :: rest)
    (hsettings : settings ∈ s.type.emails) : ∃ w r, r ∈ (receiveMessage w m).requests ∧
      r.email? = some (m.messageId settings) := by
  have hof : ∀ d : Draw, s.type = .email settings ∨
      (∃ messages, s.type = .randomMessage messages ∧
        messages[d.floor messages.length]? = some settings) →
      ∃ w r, r ∈ (receiveMessage w m).requests ∧ r.email? = some (m.messageId settings) := by
    intro d htype
    refine ⟨drawing d, .sender .sendEmail (m.messageId settings) s.isTestabMode
      { createNextLeadStateMessage m s with activeEmailId := some (m.emailId + 1) }, ?_, rfl⟩
    have hdefined : (definedStep (drawing d) s).2 = s := by
      rcases htype with htype | ⟨messages, htype, _⟩
      · simp only [definedStep, htype]
      · simp only [definedStep, htype]
    rw [receiveMessage_requests (g := [[_]]) hm (fun _ => rfl) rfl]
    · exact List.mem_append_right _ (List.mem_singleton_self _)
    · rw [hdefined]
      rcases htype with htype | ⟨messages, htype, hget⟩
      · simp only [processMessage, htype]
        rfl
      · have hselect : selectRandomMessage (drawing (α := α) d) messages = some settings := hget
        simp only [processMessage, htype, hselect]
        rfl
  cases htype : s.type with
  | email message =>
      rw [htype] at hsettings
      obtain rfl := List.mem_singleton.mp hsettings
      exact hof (Draw.of 1 0 Nat.one_pos) (.inl htype)
  | randomMessage messages =>
      rw [htype] at hsettings
      obtain ⟨i, hi, hget⟩ := List.getElem_of_mem (show settings ∈ messages from hsettings)
      refine hof (Draw.of messages.length i hi) (.inr ⟨messages, htype, ?_⟩)
      rw [Draw.floor_of hi, List.getElem?_eq_getElem hi, hget]
  | _ =>
      rw [htype] at hsettings
      cases hsettings

/-! ## Runs -/

/-- A message of a run from the root: what replaces the first e-mail is as it was. -/
def OfRoot (root m : LeadStateMessage α) : Prop :=
  m.messageIdEmail1 = root.messageIdEmail1 ∧ m.accountId = root.accountId

variable {root : LeadStateMessage α}

theorem OfRoot.messageId_eq (h : OfRoot root m) (settings : Message) :
    m.messageId settings = root.messageIdAt m.emailId settings := by
  have hemailId : ({ root with activeEmailId := some m.emailId } : LeadStateMessage α).emailId =
      m.emailId := by
    have hkept : (some m.emailId).filter (· ≠ 0) = some m.emailId :=
      Option.filter_eq_some_iff.mpr ⟨rfl, decide_eq_true (emailId_pos m)⟩
    show ((some m.emailId).filter (· ≠ 0)).getD 1 = m.emailId
    rw [hkept]
    rfl
  simp only [LeadStateMessage.messageIdAt, LeadStateMessage.messageId, hemailId, h.1, h.2]

theorem PassesOn.ofRoot (h : PassesOn m s next) (hm : OfRoot root m) : OfRoot root next :=
  ⟨h.messageIdEmail1.trans hm.1, h.accountId.trans hm.2⟩

/-- The end that is added below the last step sends nothing. -/
theorem sends_nextSteps : Sends messageIdAt n (nextSteps c) p ↔ Sends messageIdAt n c p := by
  by_cases hc : c = []
  · rw [nextSteps, if_pos hc, hc]
    constructor
    · intro h
      cases h with
      | now h => cases h
      | later w hready hend h => exact absurd rfl hend
    · intro h
      cases h
  · rw [nextSteps, if_neg hc]

/-- What a run sends from the messages of a state. -/
def SendsFrom (root : LeadStateMessage α) (ms : List (LeadStateMessage α)) (p : Nat × Int) : Prop :=
  ∃ m ∈ ms, Sends root.messageIdAt m.emailId m.steps p

/-- What is sent after a handling, runs from the message that was handled send. -/
theorem sends_of_forwarded (hm : OfRoot root m) (hnext : next ∈ (receiveMessage w m).forwarded) :
    OfRoot root next ∧ (Sends root.messageIdAt next.emailId next.steps p →
      Sends root.messageIdAt m.emailId m.steps p) := by
  obtain ⟨r, hr, hrnext⟩ := List.mem_filterMap.mp hnext
  cases hsteps : m.steps with
  | nil =>
      rw [receiveMessage_nil hsteps hr] at hrnext
      cases hrnext
  | cons s rest =>
      have hpasses := (receiveMessage_made hsteps hr).next next hrnext
      refine ⟨hpasses.ofRoot hm, fun h => ?_⟩
      have hready := hpasses.ready
      have hend := hpasses.goesOn
      have hemailId := hpasses.emailId
      rw [definedStep_type] at hready hend hemailId
      rw [hpasses.steps, sends_nextSteps, hemailId] at h
      exact .later w hready hend h

theorem sends_of_email {messageId : Int} (hm : OfRoot root m)
    (hr : r ∈ (receiveMessage w m).requests) (hemail : r.email? = some messageId) :
    Sends root.messageIdAt m.emailId m.steps (m.emailId, messageId) := by
  cases hsteps : m.steps with
  | nil =>
      rw [email_none_of_next (receiveMessage_nil hsteps hr)] at hemail
      cases hemail
  | cons s rest =>
      obtain ⟨settings, hsettings, rfl⟩ := (receiveMessage_made hsteps hr).email _ hemail
      rw [definedStep_type] at hsettings
      rw [hm.messageId_eq]
      exact .now hsettings

/-- What is sent from a later state was sent from the earlier one: the messages between are
those of handlings. -/
theorem sendsFrom_of_exec {as : List (Nat × World α)} : ∀ {s t : State α},
    (∀ m ∈ s.pending, OfRoot root m) → Runs.exec State.handle s as = some t →
    (∀ m ∈ t.pending, OfRoot root m) ∧
      ∀ p, SendsFrom root t.pending p → SendsFrom root s.pending p := by
  induction as with
  | nil =>
      intro s t hs h
      cases h
      exact ⟨hs, fun _ h => h⟩
  | cons a as ih =>
      intro s t hs h
      obtain ⟨s', hs', h⟩ := Runs.exec_cons_eq_some.mp h
      obtain ⟨m, hget, rfl⟩ := Option.map_eq_some_iff.mp hs'
      have hm : m ∈ s.pending := List.mem_of_getElem? hget
      obtain ⟨ht, hback⟩ := ih (fun m' hm' => by
        rcases List.mem_append.mp hm' with hm' | hm'
        · exact hs m' (List.mem_of_mem_eraseIdx hm')
        · exact (sends_of_forwarded (p := (0, 0)) (hs m hm) hm').1) h
      refine ⟨ht, fun p hp => ?_⟩
      obtain ⟨m', hm', hsends⟩ := hback p hp
      rcases List.mem_append.mp hm' with hm' | hm'
      · exact ⟨m', List.mem_of_mem_eraseIdx hm', hsends⟩
      · exact ⟨m, hm, (sends_of_forwarded (hs m hm) hm').2 hsends⟩

theorem exists_handle (w : World α) {s : State α} (hm : m ∈ s.pending) :
    ∃ i s', s.handle (i, w) = some s' ∧ ∀ next ∈ (receiveMessage w m).forwarded,
      next ∈ s'.pending := by
  obtain ⟨i, hi, hget⟩ := List.getElem_of_mem hm
  have hget : s.pending[i]? = some m := by rw [List.getElem?_eq_getElem hi, hget]
  cases hs : s.handle (i, w) with
  | none =>
      rw [State.handle, hget] at hs
      cases hs
  | some s' =>
      refine ⟨i, s', hs, fun next hnext => ?_⟩
      rw [State.handle, hget] at hs
      cases hs
      exact List.mem_append_right _ hnext

theorem exists_run {ss : List (Step α)} (h : Sends root.messageIdAt n ss p) :
    ∀ {s : State α} {m : LeadStateMessage α}, m ∈ s.pending → OfRoot root m → m.emailId = n →
      m.steps = ss → ∃ as t m' w r, Runs.exec State.handle s as = some t ∧ m' ∈ t.pending ∧
        r ∈ (receiveMessage w m').requests ∧ r.email? = some p.2 ∧ m'.emailId = p.1 := by
  induction h with
  | @now n s rest settings hsettings =>
      intro t m hm hroot hn hsteps
      obtain ⟨w, r, hr, hemail⟩ := exists_email hsteps hsettings
      rw [hroot.messageId_eq, hn] at hemail
      exact ⟨[], t, m, w, r, rfl, hm, hr, hemail, hn⟩
  | @later n s rest p w hready hend hsends ih =>
      intro t m hm hroot hn hsteps
      obtain ⟨w', next, hnext, hpasses⟩ := exists_passesOn w hsteps hready hend
      have hne : (definedStep w s).2.child ≠ [] := by
        intro hnil
        rw [hnil] at hsends
        cases hsends
      have hemailId : next.emailId = s.type.nextEmailId n := by
        rw [hpasses.emailId, definedStep_type, hn]
      have hnextSteps : next.steps = (definedStep w s).2.child := by
        rw [hpasses.steps, nextSteps, if_neg hne]
      obtain ⟨i, t₁, hhandle, hpending⟩ := exists_handle w' hm
      obtain ⟨as, t', m', w'', r, hexec, hrest⟩ := ih (hpending next hnext) (hpasses.ofRoot hroot) hemailId hnextSteps
      refine ⟨(i, w') :: as, t', m', w'', r, ?_, hrest⟩
      rw [Runs.exec_cons, hhandle]
      exact hexec

/-- The e-mails that runs send are those the trees of the root let them send. -/
theorem sent_iff : Sent root p ↔ Sends root.messageIdAt root.emailId root.steps p := by
  constructor
  · rintro ⟨as, s, m, w, r, hexec, hm, hr, hemail, hn⟩
    have hroot : ∀ m ∈ (State.init root).pending, OfRoot root m := by
      intro m hm
      obtain rfl := List.mem_singleton.mp hm
      exact ⟨rfl, rfl⟩
    obtain ⟨hall, hback⟩ := sendsFrom_of_exec hroot hexec
    have hsends := sends_of_email (hall m hm) hr hemail
    rw [hn] at hsends
    obtain ⟨m', hm', hsends⟩ := hback p ⟨m, hm, hn ▸ hsends⟩
    obtain rfl := List.mem_singleton.mp hm'
    exact hsends
  · intro h
    exact exists_run h (List.mem_singleton_self _) ⟨rfl, rfl⟩ rfl rfl

end

end OpenBms.MessageTrigger
