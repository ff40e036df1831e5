/-
# `OpenBms.MessageTrigger.UtmNumbers` — when the list has the UTMs that are sent

In trees that fit, the list has them.  In others it may have them by chance, when a
message that is sent at one place is listed with the same number for another; where
no message stands twice in a tree there is no such chance.

**Proved here.**

    what is sent and what is listed stands in the tree (`messageIds_of_sends`,
    `messageIds_of_numbered`)
    where no message stands twice, only of trees that fit
    runs send what is listed (`fits_of_sends_iff`)
    the list has the UTMs that are sent, if the tree fits,
    and only if where no message stands twice (`lists_iff_fits`)
    an A/B test sends an e-mail that is not listed (`not_lists_testAB`)
-/
import OpenBms.Lib.Text
import OpenBms.MessageTrigger.UtmList

namespace OpenBms.MessageTrigger

variable {α : Type}

/-! ## Messages that stand once -/

/-- The messages a step of the type may send e-mails of. -/
def StepType.messageIds : StepType α → List Int
  | .email settings => [settings.id]
  | .randomMessage messages => messages.map Message.id
  | .testAB messages _ => messages.map Message.id
  | _ => []

mutual

/-- The messages that stand in a tree. -/
def Step.messageIds : Step α → List Int
  | .mk _ type _ child => type.messageIds ++ messageIdsAll child

def messageIdsAll : List (Step α) → List Int
  | [] => []
  | s :: ss => s.messageIds ++ messageIdsAll ss

end

section
variable {n : Nat} {x : Int} {s a a' : Step α} {ss rest before before' after after' : List (Step α)}
  {p : Nat × Int} {messageIdAt : Nat → Message → Int} {W : List Int}

theorem messageIds_eq (s : Step α) : s.messageIds = s.type.messageIds ++ messageIdsAll s.child := by
  cases s
  rfl

theorem messageIds_child (s : Step α) : (messageIdsAll s.child).Sublist s.messageIds := by
  rw [messageIds_eq]
  exact List.sublist_append_right _ _

theorem messageIds_of_mem (h : s ∈ ss) : s.messageIds.Sublist (messageIdsAll ss) := by
  induction ss with
  | nil => cases h
  | cons t ss ih =>
      rw [messageIdsAll]
      rcases List.mem_cons.mp h with rfl | h
      · exact List.sublist_append_left _ _
      · exact (ih h).trans (List.sublist_append_right _ _)

theorem messageIds_of_below (h : Below ss s) {settings : Message}
    (htype : s.type = .email settings) : settings.id ∈ messageIdsAll ss := by
  induction h with
  | @here ss s hmem =>
      refine (messageIds_of_mem hmem).subset ?_
      rw [messageIds_eq, htype]
      exact List.mem_append_left _ (List.mem_singleton_self _)
  | @child ss t s hmem hbelow ih =>
      exact (messageIds_of_mem hmem).subset ((messageIds_child t).subset (ih htype))

/-- What is listed stands in the tree. -/
theorem messageIds_of_numbered (h : p ∈ s.numbered n) : p.2 ∈ s.messageIds ∧ n ≤ p.1 := by
  obtain ⟨t, settings, hbelow, htype, hid, hle⟩ := email_of_numbered s h
  refine ⟨?_, hle⟩
  have hmem := messageIds_of_below hbelow htype
  rw [hid, messageIdsAll, messageIdsAll, List.append_nil] at hmem
  exact hmem

theorem messageIds_of_numberedAll (h : p ∈ numberedAll n ss) : p.2 ∈ messageIdsAll ss ∧ n ≤ p.1 := by
  obtain ⟨s, hs, hp⟩ := mem_numberedAll.mp h
  obtain ⟨hmem, hle⟩ := messageIds_of_numbered hp
  exact ⟨(messageIds_of_mem hs).subset hmem, hle⟩

/-- What a step goes on with stands in its tree. -/
theorem messageIds_definedStep (w : World α) (s : Step α) :
    messageIdsAll (definedStep w s).2.child ⊆ s.messageIds := by
  have harm : ∀ a ∈ s.child, messageIdsAll a.child ⊆ s.messageIds := by
    intro a ha
    exact ((messageIds_child a).trans ((messageIds_of_mem ha).trans (messageIds_child s))).subset
  simp only [definedStep]
  split
  · rw [Step.child_withChild]
    cases hselect : selectArm (w.random.floor 101) (some 0) s.child with
    | none => exact (messageIds_child s).subset
    | some c =>
        obtain ⟨before, a, after, v, k, hchild, -, rfl, -⟩ := exists_of_selectArm hselect
        exact harm a (hchild ▸ List.mem_append_right _ List.mem_cons_self)
  · rw [Step.child_withChild]
    obtain ⟨b, hb⟩ := definedConditional_cases w s.child
    rw [hb]
    cases hfind : s.child.find? fun a => a.type.isArm b with
    | none => exact List.nil_subset _
    | some a => exact harm a (List.mem_of_find?_eq_some hfind)
  · rename_i messages status htype
    rw [Step.child_withChild]
    rcases definedTestAB_cases w s messages status with h | ⟨m, hm, mode, h⟩
    · rw [h]
      exact (messageIds_child s).subset
    · rw [h, messageIdsAll, messageIdsAll, List.append_nil, messageIds_eq s, htype]
      intro y hy
      rcases List.mem_append.mp hy with hy | hy
      · obtain rfl := List.mem_singleton.mp hy
        exact List.mem_append_left _ (List.mem_map.mpr ⟨m, hm, rfl⟩)
      · exact List.mem_append_right _ hy
  · exact (messageIds_child s).subset

/-- What is sent is sent for a message of the first tree, with a number that is not lower. -/
theorem messageIds_of_sends (h : Sends messageIdAt n ss p) : n ≤ p.1 ∧
    ∃ settings, p.2 = messageIdAt p.1 settings ∧ ∃ s ∈ ss.head?, settings.id ∈ s.messageIds := by
  induction h with
  | @now n s rest settings h =>
      refine ⟨le_refl _, settings, rfl, s, rfl, ?_⟩
      rw [messageIds_eq]
      refine List.mem_append_left _ ?_
      cases htype : s.type with
      | email message =>
          rw [htype] at h
          obtain rfl := List.mem_singleton.mp h
          exact List.mem_singleton_self _
      | randomMessage messages =>
          rw [htype] at h
          exact List.mem_map_of_mem (show settings ∈ messages from h)
      | _ =>
          rw [htype] at h
          cases h
  | @later n s rest p w hready hend h ih =>
      obtain ⟨hle, settings, hid, t, ht, hmem⟩ := ih
      have hnext : n ≤ s.type.nextEmailId n := by
        cases s.type with
        | email | randomMessage => exact Nat.le_succ n
        | _ => exact le_refl n
      refine ⟨le_trans hnext hle, settings, hid, s, rfl, ?_⟩
      exact messageIds_definedStep w s ((messageIds_of_mem (List.mem_of_mem_head? ht)).subset hmem)

/-- A message that stands once stands at one place. -/
theorem position_unique : ∀ {before before' : List (Step α)},
    (messageIdsAll (before ++ a :: after)).Nodup →
    before ++ a :: after = before' ++ a' :: after' → x ∈ a.messageIds → x ∈ a'.messageIds →
    before = before' ∧ a = a' := by
  intro before
  induction before with
  | nil =>
      intro before' hnodup heq ha ha'
      cases before' with
      | nil => exact ⟨rfl, (List.cons.inj heq).1⟩
      | cons b before' =>
          have hafter := (List.cons.inj heq).2
          refine absurd ?_ (List.disjoint_of_nodup_append hnodup ha)
          rw [hafter]
          exact (messageIds_of_mem (List.mem_append_right _ List.mem_cons_self)).subset ha'
  | cons b before ih =>
      intro before' hnodup heq ha ha'
      cases before' with
      | nil =>
          obtain ⟨rfl, -⟩ := List.cons.inj heq
          refine absurd ?_ (List.disjoint_of_nodup_append hnodup ha')
          exact (messageIds_of_mem (List.mem_append_right _ List.mem_cons_self)).subset ha
      | cons b' before' =>
          obtain ⟨rfl, htail⟩ := List.cons.inj heq
          obtain ⟨rfl, rfl⟩ := ih (List.nodup_append.mp hnodup).2.1 htail ha ha'
          exact ⟨rfl, rfl⟩

theorem exists_pick (hready : s.type.ready = true) (h : s.type.picks ≠ []) :
    ∃ settings : Message, settings.id ∈ s.type.messageIds ∧
      Sends messageIdAt n (s :: rest) (n, messageIdAt n settings) := by
  have htest : ∀ (w : World α) (mode : Bool) {messages : List Message} {status : StatusTestAb}
      {m : Message}, s.type = .testAB messages status → m ∈ messages →
      (definedTestAB w s messages status).2 = newChild s (some m) mode →
      ∃ settings : Message, settings.id ∈ s.type.messageIds ∧
        Sends messageIdAt n (s :: rest) (n, messageIdAt n settings) := by
    intro w mode messages status m htype hm hchild
    refine ⟨m.copy, ?_, .later w hready (by rw [htype]; exact nofun) ?_⟩
    · rw [htype]
      exact List.mem_map.mpr ⟨m, hm, rfl⟩
    · have hdefined : (definedStep w s).2.child = newChild s (some m) mode := by
        simp only [definedStep, htype, Step.child_withChild, hchild]
      rw [hdefined, htype]
      exact .now (List.mem_singleton_self _)
  cases htype : s.type with
  | randomMessage messages =>
      rw [htype] at h
      obtain ⟨m, hm⟩ := List.exists_mem_of_ne_nil messages h
      refine ⟨m, List.mem_map_of_mem hm, .now ?_⟩
      rw [htype]
      exact hm
  | testAB messages status =>
      rw [← htype]
      rw [htype] at h
      cases status with
      | finished =>
          obtain ⟨m, hm⟩ := List.exists_mem_of_ne_nil _ h
          obtain ⟨winner, hfind⟩ : ∃ winner, messages.find? Message.winnerMessage = some winner := by
            rw [← Option.isSome_iff_exists, List.find?_isSome]
            exact ⟨m, (List.mem_filter.mp hm).1, (List.mem_filter.mp hm).2⟩
          refine htest (drawing (Draw.of 1 0 Nat.one_pos)) false htype
            (List.mem_of_find?_eq_some hfind) ?_
          simp only [definedTestAB, if_true, hfind]
      | notStarted | running =>
          obtain ⟨m, rest', rfl⟩ := List.exists_cons_of_ne_nil h
          have hpos : 0 < (m :: rest').length := Nat.succ_pos _
          refine htest (drawing (Draw.of (m :: rest').length 0 hpos)) true htype
            List.mem_cons_self ?_
          have hfloor : (drawing (α := α) (Draw.of (m :: rest').length 0 hpos)).random.floor
              (m :: rest').length = 0 := Draw.floor_of hpos
          have hwinner : (drawing (α := α) (Draw.of (m :: rest').length 0 hpos)).winnerMessageId =
              none := rfl
          simp only [definedTestAB, reduceCtorEq, if_false, hwinner, hfloor,
            List.getElem?_cons_zero]
  | _ =>
      rw [htype] at h
      exact absurd rfl h

theorem follows_of_not_branches (hend : s.type ≠ .end_) (h : ¬ s.Branches) : s.Follows := by
  cases htype : s.type with
  | split =>
      refine .inr ⟨htype, ?_⟩
      by_contra hno
      refine h (.inr ⟨htype, fun a ha => ?_⟩)
      by_contra harm
      exact hno ⟨a, ha, fun v hv => harm ⟨v, hv⟩⟩
  | conditional => exact absurd (.inl htype) h
  | end_ => exact absurd htype hend
  | _ => exact .inl (by rw [htype]; rfl)

/-- What is sent below the first step, and listed anywhere, stands in its tree. -/
theorem mem_of_sends (hids : ∀ n settings, messageIdAt n settings = settings.id ∨
    messageIdAt n settings ∉ W) (hW : p.2 ∈ W) (h : Sends messageIdAt n ss p) :
    p.2 ∈ messageIdsAll ss := by
  obtain ⟨-, settings, hid, t, ht, hmem⟩ := messageIds_of_sends h
  rcases hids p.1 settings with heq | hno
  · rw [hid, heq]
    exact (messageIds_of_mem (List.mem_of_mem_head? ht)).subset hmem
  · rw [← hid] at hno
    exact absurd hW hno

/-- An arm below which something is listed can be chosen, where runs send what is listed. -/
theorem chosen_of_numbered (hids : ∀ n settings, messageIdAt n settings = settings.id ∨
    messageIdAt n settings ∉ W) (hsub : messageIdsAll s.child ⊆ W)
    (hnodup : (messageIdsAll s.child).Nodup) (h : s.Branches)
    (hone : ∀ p, Sends messageIdAt n (s :: rest) p ↔ p ∈ s.numbered n)
    (hchild : s.child = before ++ a :: after) (hp : p ∈ a.numbered n) :
    s.Chooses before a ∧ Sends messageIdAt n a.child p := by
  have ha : a ∈ s.child := hchild ▸ List.mem_append_right _ List.mem_cons_self
  have hmem := (messageIds_of_numbered hp).1
  have hsends : Sends messageIdAt n (s :: rest) p := by
    rw [hone, numbered_of_ne_email h.ne_email]
    exact mem_numberedAll.mpr ⟨a, ha, hp⟩
  obtain ⟨before', a', after', hchild', hchooses, hsends⟩ := (sends_of_branches h).mp hsends
  have hmem' := mem_of_sends hids (hsub ((messageIds_of_mem ha).subset hmem)) hsends
  obtain ⟨rfl, rfl⟩ := position_unique (hchild ▸ hnodup) (hchild.symm.trans hchild') hmem
    ((messageIds_child a').subset hmem')
  exact ⟨hchooses, hsends⟩

/-- Where runs from a step send what is listed, so do runs from an arm it can choose. -/
theorem arm_sends_iff (hids : ∀ n settings, messageIdAt n settings = settings.id ∨
    messageIdAt n settings ∉ W) (hsub : messageIdsAll s.child ⊆ W)
    (hnodup : (messageIdsAll s.child).Nodup) (h : s.Branches)
    (hone : ∀ p, Sends messageIdAt n (s :: rest) p ↔ p ∈ s.numbered n)
    (hchild : s.child = before ++ a :: after) (hchooses : s.Chooses before a) (p : Nat × Int) :
    Sends messageIdAt n a.child p ↔ p ∈ numberedAll n a.child := by
  rw [← numbered_of_ne_email hchooses.ne_email]
  constructor
  · intro hsends
    have hp := (hone p).mp ((sends_of_branches h).mpr ⟨before, a, after, hchild, hchooses, hsends⟩)
    rw [numbered_of_ne_email h.ne_email] at hp
    obtain ⟨b, hb, hp⟩ := mem_numberedAll.mp hp
    have hmem := (messageIds_of_numbered hp).1
    have hmem' := mem_of_sends hids (hsub ((messageIds_of_mem hb).subset hmem)) hsends
    obtain ⟨before', after', hchild'⟩ := List.append_of_mem hb
    obtain ⟨rfl, rfl⟩ := position_unique (hchild ▸ hnodup) (hchild.symm.trans hchild')
      ((messageIds_child a).subset hmem') hmem
    exact hp
  · intro hp
    exact (chosen_of_numbered hids hsub hnodup h hone hchild hp).2

/-- An e-mail that is sent as it is listed has its own message, and what is below it is sent as
it is listed: the numbers tell them apart. -/
theorem email_sends_iff {settings : Message} (h : s.type = .email settings)
    (hone : ∀ p, Sends messageIdAt n (s :: rest) p ↔ p ∈ s.numbered n) :
    messageIdAt n settings = settings.id ∧
      ∀ p, Sends messageIdAt (n + 1) s.child p ↔ p ∈ numberedAll (n + 1) s.child := by
  simp only [sends_of_type_email h, numbered_of_email h, List.mem_cons] at hone
  have hhead : (n, settings.id) = (n, messageIdAt n settings) := by
    rcases (hone (n, settings.id)).mpr (.inl rfl) with h | h
    · exact h
    · have hnumber : n + 1 ≤ n := (messageIds_of_sends h).1
      omega
  refine ⟨(Prod.mk.inj hhead).2.symm, fun p => ⟨fun hsends => ?_, fun hp => ?_⟩⟩
  · rcases (hone p).mp (.inr hsends) with rfl | hp
    · have hnumber : n + 1 ≤ n := (messageIds_of_sends hsends).1
      omega
    · exact hp
  · rcases (hone p).mpr (.inr hp) with rfl | hsends
    · have hnumber : n + 1 ≤ n := (messageIds_of_numberedAll hp).2
      omega
    · exact hsends

theorem picks_of_sends_iff (hids : ∀ n settings, messageIdAt n settings = settings.id ∨
    messageIdAt n settings ∉ W) (hsub : messageIdsAll s.child ⊆ W) (hnodup : s.messageIds.Nodup)
    (hready : s.type.ready = true) (hemail : ∀ settings, s.type ≠ .email settings)
    (hone : ∀ p, Sends messageIdAt n (s :: rest) p ↔ p ∈ s.numbered n) : s.type.picks = [] := by
  by_contra hpicks
  obtain ⟨settings, hmem, hsends⟩ := exists_pick hready hpicks
  have hp := (hone _).mp hsends
  rw [numbered_of_ne_email hemail] at hp
  have hbelow : messageIdAt n settings ∈ messageIdsAll s.child := (messageIds_of_numberedAll hp).1
  rcases hids n settings with heq | hno
  · rw [messageIds_eq] at hnodup
    rw [heq] at hbelow
    exact List.disjoint_of_nodup_append hnodup hmem hbelow
  · exact hno (hsub hbelow)

/-- What is listed of steps that are not the first is not sent. -/
theorem noEmail_of_sends_iff (hids : ∀ n settings, messageIdAt n settings = settings.id ∨
    messageIdAt n settings ∉ W) (hsub : messageIdsAll (s :: rest) ⊆ W)
    (hnodup : (messageIdsAll (s :: rest)).Nodup)
    (hall : ∀ p, Sends messageIdAt n (s :: rest) p ↔ p ∈ numberedAll n (s :: rest)) :
    NoEmail rest := by
  refine noEmail_of_numberedAll (n := n) (List.eq_nil_iff_forall_not_mem.mpr fun p hp => ?_)
  have hmem := (messageIds_of_numberedAll hp).1
  have hW : p.2 ∈ W := hsub (List.mem_append_right _ hmem)
  have hsends := (hall p).mpr (List.mem_append_right _ hp)
  obtain ⟨-, settings, hid, t, ht, hfirst⟩ := messageIds_of_sends hsends
  cases ht
  rcases hids p.1 settings with heq | hno
  · rw [← heq, ← hid] at hfirst
    exact List.disjoint_of_nodup_append hnodup hfirst hmem
  · rw [← hid] at hno
    exact hno hW

/-- Where no message stands twice and none is replaced by one that stands in the trees, runs
send what is listed only in trees that fit. -/
theorem fits_of_sends_iff (hids : ∀ n settings, messageIdAt n settings = settings.id ∨
    messageIdAt n settings ∉ W) : ∀ (k : Nat) {ss : List (Step α)} {n : Nat}, heights ss ≤ k →
    messageIdsAll ss ⊆ W → (messageIdsAll ss).Nodup →
    (∀ p, Sends messageIdAt n ss p ↔ p ∈ numberedAll n ss) → Fits messageIdAt n ss := by
  intro k
  induction k with
  | zero =>
      intro ss n hle
      have hpos := heights_pos ss
      omega
  | succ k ih =>
      intro ss n hle hsub hnodup hall
      cases ss with
      | nil => exact .nil
      | cons s rest =>
          have hsub_child : messageIdsAll s.child ⊆ W := fun y hy =>
            hsub ((messageIds_of_mem List.mem_cons_self).subset ((messageIds_child s).subset hy))
          have hnodup_s : s.messageIds.Nodup := (List.nodup_append.mp hnodup).1
          have hnodup_child : (messageIdsAll s.child).Nodup := hnodup_s.sublist (messageIds_child s)
          have hrest := noEmail_of_sends_iff hids hsub hnodup hall
          have hone : ∀ p, Sends messageIdAt n (s :: rest) p ↔ p ∈ s.numbered n := by
            intro p
            rw [hall, numberedAll, numberedAll_of_noEmail hrest, List.append_nil]
          have hlt := heights_child_lt s rest
          by_cases hstops : s.type.ready = false ∨ s.type = .end_
          · refine .stops hstops (noEmail_of_numberedAll (n := n) ?_)
            rw [List.eq_nil_iff_forall_not_mem]
            intro p hp
            exact not_sends_of_stops hstops ((hall p).mpr hp)
          · rw [not_or, Bool.not_eq_false] at hstops
            obtain ⟨hready, hend⟩ := hstops
            by_cases hemail : ∃ settings, s.type = .email settings
            · obtain ⟨settings, htype⟩ := hemail
              obtain ⟨hid, hbelow⟩ := email_sends_iff htype hone
              exact .email htype hid (ih (by omega) hsub_child hnodup_child hbelow) hrest
            · have hemail : ∀ settings, s.type ≠ .email settings := fun x hx => hemail ⟨x, hx⟩
              have hpicks := picks_of_sends_iff hids hsub_child hnodup_s hready hemail hone
              by_cases hbranches : s.Branches
              · refine .branches hbranches (fun before a after hchild hchooses => ?_)
                  (fun before a after hchild hno => ?_) hrest
                · have ha : a ∈ s.child := hchild ▸ List.mem_append_right _ List.mem_cons_self
                  have hsublist := (messageIds_child a).trans (messageIds_of_mem ha)
                  have harm := heights_arm_lt rest ha
                  exact ih (by omega) (fun y hy => hsub_child (hsublist.subset hy))
                    (hnodup_child.sublist hsublist)
                    (arm_sends_iff hids hsub_child hnodup_child hbranches hone hchild hchooses)
                · refine noEmail_of_numberedAll (n := n) ?_
                  rw [List.eq_nil_iff_forall_not_mem, numberedAll, numberedAll, List.append_nil]
                  intro p hp
                  exact hno (chosen_of_numbered hids hsub_child hnodup_child hbranches hone
                    hchild hp).1
              · have hfollows := follows_of_not_branches hend hbranches
                refine .follows hready hfollows hemail hpicks (ih (by omega) hsub_child hnodup_child
                  fun p => ?_) hrest
                rw [← numbered_of_ne_email hemail]
                exact (sends_of_follows hready hfollows hemail hpicks).symm.trans (hone p)

end

/-! ## The list and the runs -/

/-- The first message of an automation, for a contact of which the rest tells. -/
def firstMessage (automation : AutomationRow α) (m : LeadStateMessage α) : LeadStateMessage α :=
  { m with steps := automation.steps, activeEmailId := none }

/-- No message stands twice in the first tree, and the one that may replace the first e-mail
does not stand in it. -/
structure StandsOnce (automation : AutomationRow α) (m : LeadStateMessage α) : Prop where
  nodup : (messageIdsAll (automation.steps.take 1)).Nodup
  replaced : ∀ messageId ∈ m.messageIdEmail1, messageId ∉ messageIdsAll (automation.steps.take 1)

section
variable {automation : AutomationRow α} {m : LeadStateMessage α} {n : Nat} {ss : List (Step α)}
  {p : Nat × Int} {messageIdAt : Nat → Message → Int}

/-- The number and the message are read back from the UTM. -/
theorem utmCampaign_inj {name : String} {n n' : Nat} {i i' : Int}
    (h : utmCampaign name n i = utmCampaign name n' i') : n = n' ∧ i = i' := by
  have hdigits : ∀ n : Nat, '_' ∉ (toString n).toList := by
    intro n hmem
    have hdigit : ('_' : Char).isDigit = true :=
      Nat.isDigit_of_mem_toDigits (by decide) (by decide) (Nat.toList_repr ▸ hmem)
    cases hdigit
  have hseparator : "_".toList = ['_'] := by decide
  have hlist := congrArg String.toList h
  simp only [utmCampaign, String.toList_append, hseparator, List.append_assoc,
    List.append_cancel_left_eq, List.singleton_append] at hlist
  obtain ⟨hn, hi⟩ := Text.separator_inj (hdigits n) (hdigits n') hlist
  exact ⟨Int.ofNat_inj.mp (Text.toString_inj (i := n) (j := n') (String.toList_inj.mp hn)),
    Text.toString_inj (String.toList_inj.mp hi)⟩

/-- Only the first of the steps is handled. -/
theorem sends_take_one : Sends messageIdAt n (ss.take 1) p ↔ Sends messageIdAt n ss p := by
  cases ss with
  | nil => exact Iff.rfl
  | cons s rest => exact sends_cons.trans sends_cons.symm

theorem sent_firstMessage : Sent (firstMessage automation m) p ↔
    Sends m.messageIdAt 1 (automation.steps.take 1) p := by
  rw [sends_take_one]
  exact sent_iff

theorem automationFormatted_utm (messagesProcess : Int → Option MessageEntity) :
    (automationFormatted messagesProcess automation).map FormattedUtm.utmCampaign =
      (numberedAll 1 (automation.steps.take 1)).map fun p => utmCampaign automation.name p.1 p.2 := by
  rw [automationFormatted]
  cases automation.steps with
  | nil => rfl
  | cons s rest =>
      have hone : numberedAll 1 (List.take 1 (s :: rest)) = s.numbered 1 := List.append_nil _
      rw [hone, ← parse_utm]
      rfl

theorem lists_iff (messagesProcess : Int → Option MessageEntity) :
    Lists messagesProcess automation (firstMessage automation m) ↔
      ∀ p, Sends m.messageIdAt 1 (automation.steps.take 1) p ↔
        p ∈ numberedAll 1 (automation.steps.take 1) := by
  have hlisted : ∀ p, utmCampaign automation.name p.1 p.2 ∈
      (automationFormatted messagesProcess automation).map FormattedUtm.utmCampaign ↔
      p ∈ numberedAll 1 (automation.steps.take 1) := by
    intro p
    rw [automationFormatted_utm, List.mem_map]
    constructor
    · rintro ⟨q, hq, heq⟩
      obtain ⟨hn, hi⟩ := utmCampaign_inj heq
      rwa [show p = q from Prod.ext hn.symm hi.symm]
    · intro hp
      exact ⟨p, hp, rfl⟩
  constructor
  · intro h p
    rw [← hlisted, h]
    constructor
    · intro hsends
      exact ⟨p, sent_firstMessage.mpr hsends, rfl⟩
    · rintro ⟨q, hq, heq⟩
      obtain ⟨hn, hi⟩ := utmCampaign_inj heq
      rw [show p = q from Prod.ext hn hi]
      exact sent_firstMessage.mp hq
  · intro h utm
    constructor
    · intro hutm
      rw [automationFormatted_utm] at hutm
      obtain ⟨p, hp, rfl⟩ := List.mem_map.mp hutm
      exact ⟨p, sent_firstMessage.mpr ((h p).mpr hp), rfl⟩
    · rintro ⟨p, hp, rfl⟩
      exact (hlisted p).mpr ((h p).mp (sent_firstMessage.mp hp))

theorem messageIdAt_or (m : LeadStateMessage α) (n : Nat) (settings : Message) :
    m.messageIdAt n settings = settings.id ∨ m.messageIdEmail1 = some (m.messageIdAt n settings) := by
  rw [LeadStateMessage.messageIdAt, LeadStateMessage.messageId]
  split
  · rename_i messageIdEmail1 heq
    split
    · exact .inr heq
    · exact .inl rfl
  · exact .inl rfl

/-- The list has the UTMs that are sent, if the first tree fits; and only if, when no message
stands twice in it. -/
theorem lists_iff_fits (messagesProcess : Int → Option MessageEntity)
    (automation : AutomationRow α) (m : LeadStateMessage α) :
    (Fits m.messageIdAt 1 (automation.steps.take 1) →
      Lists messagesProcess automation (firstMessage automation m)) ∧
    (StandsOnce automation m → (Lists messagesProcess automation (firstMessage automation m) ↔
      Fits m.messageIdAt 1 (automation.steps.take 1))) := by
  have hof : Fits m.messageIdAt 1 (automation.steps.take 1) →
      Lists messagesProcess automation (firstMessage automation m) :=
    fun h => (lists_iff messagesProcess).mpr h.sends_iff
  refine ⟨hof, fun honce => ⟨fun hlists => ?_, hof⟩⟩
  have hids : ∀ n settings, m.messageIdAt n settings = settings.id ∨
      m.messageIdAt n settings ∉ messageIdsAll (automation.steps.take 1) := by
    intro n settings
    exact (messageIdAt_or m n settings).imp_right (honce.replaced _)
  exact fits_of_sends_iff hids _ (le_refl _) (List.Subset.refl _) honce.nodup
    ((lists_iff messagesProcess).mp hlists)

end

/-! ## An A/B test -/

/-- The message an e-mail of the winner holds. -/
def winner : Message := ⟨7, "m", "m", none, false⟩

/-- A test that is over, with message 7 as its winner. -/
def testStep : Step Nat := .mk (.num 1) (.testAB [⟨7, "m", "m", none, true⟩] .finished) false []

def testAutomation : AutomationRow Nat := ⟨1, "welcome", 2, "shop", [testStep]⟩

/-- The winner is sent as `welcome_e1_7`, and nothing is listed. -/
theorem not_lists_testAB : Sent (firstMessage testAutomation (messageOf testStep)) (1, 7) ∧
    automationFormatted (fun _ => none) testAutomation = [] ∧
    ¬ Lists (fun _ => none) testAutomation (firstMessage testAutomation (messageOf testStep)) := by
  have hsends : Sends (messageOf testStep).messageIdAt 1 [testStep] (1, 7) := by
    have hnow : Sends (α := Nat) (messageOf testStep).messageIdAt 1
        [.mk (.num 1) (.email winner) false []] (1, 7) :=
      @Sends.now Nat _ _ (.mk (.num 1) (.email winner) false []) [] winner (List.mem_singleton_self _)
    exact .later served rfl nofun hnow
  have hsent : Sent (firstMessage testAutomation (messageOf testStep)) (1, 7) :=
    sent_firstMessage.mpr hsends
  refine ⟨hsent, rfl, fun hlists => ?_⟩
  have hutm := (hlists (utmCampaign "welcome" 1 7)).mpr ⟨(1, 7), hsent, rfl⟩
  cases hutm

/-! ## E-mails in both arms of a condition -/

def emailStep (messageId : Int) (child : List (Step Nat)) : Step Nat :=
  .mk (.num messageId) (.email ⟨messageId, "m", "m", none, false⟩) false child

/-- An e-mail, and one more in each arm of a condition. -/
def conditionAutomation : AutomationRow Nat :=
  ⟨1, "welcome", 2, "shop", [emailStep 7 [.mk (.num 2) .conditional false
    [.mk (.text "true") (.conditionalTrue []) false [emailStep 8 []],
     .mk (.text "false") .conditionalFalse false [emailStep 9 []]]]]⟩

theorem lists_iff_fits_condition : StandsOnce conditionAutomation (messageOf (emailStep 7 [])) ∧
    Lists (fun _ => none) conditionAutomation
      (firstMessage conditionAutomation (messageOf (emailStep 7 []))) := by
  have honce : StandsOnce conditionAutomation (messageOf (emailStep 7 [])) :=
    ⟨by decide, fun id hid => by cases hid⟩
  have hno : NoEmail ([] : List (Step Nat)) := by
    intro s hs
    cases hs with
    | here h => cases h
    | child h _ => cases h
  have hleaf : ∀ id, Fits (messageOf (emailStep 7 [])).messageIdAt 2 [emailStep id []] :=
    fun id => .email rfl rfl .nil hno
  refine ⟨honce, ((lists_iff_fits _ _ _).2 honce).mpr (.email rfl rfl ?_ hno)⟩
  refine .branches (.inl rfl) ?_ ?_ hno
  · intro before a after hchild _
    rcases before with _ | ⟨b, _ | ⟨c, before⟩⟩
    · cases hchild
      exact hleaf 8
    · cases hchild
      exact hleaf 9
    · cases before <;> cases hchild
  · intro before a after hchild hno
    refine absurd ?_ hno
    rcases before with _ | ⟨b, _ | ⟨c, before⟩⟩
    · cases hchild
      exact ⟨true, rfl, nofun⟩
    · cases hchild
      exact ⟨false, rfl, fun x hx => by rw [List.mem_singleton.mp hx]; rfl⟩
    · cases before <;> cases hchild

end OpenBms.MessageTrigger
