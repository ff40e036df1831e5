/-
# `OpenBms.Messaging.Loss` — what becomes of an acknowledged message

A failed message is acknowledged before its copy is published.  Until then only a
timer of the process knows about it, and the timer does nothing once the consumer
shuts down.

| step | what may be lost |
| :-- | :-- |
| `timer` during a shutdown | the copy |
| `timer` or `republish` without a working channel | the copy |
| `timeout` of the drain | the copies still waiting |
| `answer`, the promise rejecting with `undefined` | the message |
| `openChannels` while something is handled or consumed | a message of the new channel |
| `openChannels` during a shutdown | an unparsed message |

**Proved here.**

    an acknowledgement is of the delivery it is for (`mem_acked_safeSettle`)
    in a run without these steps every acknowledged
    delivery is accounted for (`acked_accounted`)
-/
import OpenBms.Messaging.Settlement

namespace OpenBms.Messaging

/-- Handled, republished or dead-lettered, or on its way to a republication. -/
def Accounted (s : State) (n : Nat) : Prop :=
  n ∈ s.handled ∨ n ∈ s.republished ∨ n ∈ s.deadLettered ∨
    (∃ p ∈ s.timers, p.delivery.no = n) ∨ ∃ p ∈ s.republishing, p.delivery.no = n

/-- The steps that lose nothing. -/
def Orderly (s : State) : Label → Prop
  | .answer _ r => r ≠ .threw none
  | .timer _ => s.phase = .serving ∧ ∃ c, s.publishChannel = some c ∧ c ∈ s.live
  | .republish _ ok => ok = true
  | .timeout => s.timers = []
  | .openChannels _ => s.tasks = [] ∧ s.consuming = none ∧ s.phase = .serving
  | _ => True

theorem Orderly.quiet {s : State} {l : Label} (h : Orderly s l) : Quiet s l := by
  cases l with
  | openChannels alive => exact ⟨h.1, h.2.1⟩
  | _ => trivial

/-- The phases in which the consuming channel has been closed. -/
def Phase.closing : Phase → Bool
  | .closingPublish | .closingConnection | .closed => true
  | _ => false

/-- The broker's numbering, and the channels of a consumer that is closing. -/
structure Numbered (s : State) : Prop where
  known : ∀ t ∈ s.tasks, t.delivery ∈ s.deliveries
  tags : ∀ d ∈ s.deliveries, d.tag ≤ (s.deliveries.filter fun e => e.channel = d.channel).length
  unique : ∀ d ∈ s.deliveries, ∀ e ∈ s.deliveries, d.channel = e.channel → d.tag = e.tag →
    d.no = e.no
  closing : s.phase.closing = true → s.channel = none
  publish : s.publishChannel = none → s.channel = none

section
variable {rt : Runtime} {o : ConsumerOptions} {s s' : State} {d : Delivery} {kind : Kind}

theorem Numbered.of_eq (h : Numbered s) (htasks : s'.tasks = s.tasks)
    (hdeliveries : s'.deliveries = s.deliveries) (hphase : s'.phase = s.phase)
    (hchannel : s'.channel = s.channel) (hpublish : s'.publishChannel = s.publishChannel) :
    Numbered s' := by
  refine ⟨?_, ?_, ?_, ?_, ?_⟩
  · rw [htasks, hdeliveries]
    exact h.known
  · rw [hdeliveries]
    exact h.tags
  · rw [hdeliveries]
    exact h.unique
  · rw [hphase, hchannel]
    exact h.closing
  · rw [hpublish, hchannel]
    exact h.publish

theorem Numbered.safeSettle (h : Numbered s) : Numbered (s.safeSettle d kind) := by
  rcases safeSettle_cases s d kind with heq | ⟨c, -, ⟨e, -, heq⟩ | heq⟩
  · rw [heq]
    exact h
  · rw [heq]
    exact h.of_eq rfl rfl rfl rfl rfl
  · rw [heq]
    exact h.of_eq rfl rfl rfl rfl rfl

theorem Numbered.finish (h : Numbered s) (no : Nat) : Numbered (s.finish no) :=
  ⟨fun t ht => h.known t (mem_tasks_finish ht), h.tags, h.unique, h.closing, h.publish⟩

theorem Numbered.deadLetter (h : Numbered s) (hd : d ∈ s.deliveries) (copy : Message) :
    Numbered (s.deadLetter d copy) := by
  unfold State.deadLetter
  split
  · exact h.safeSettle.finish d.no
  · split
    · refine ⟨fun t ht => ?_, h.tags, h.unique, h.closing, h.publish⟩
      rcases List.mem_append.mp ht with ht | ht
      · exact h.known t (List.mem_of_mem_filter ht)
      · rw [List.mem_singleton.mp ht]
        exact hd
    · exact h.finish d.no

theorem Numbered.start (h : Numbered s) (hd : d ∈ s.deliveries) : Numbered (s.start d) := by
  refine ⟨fun t ht => ?_, h.tags, h.unique, h.closing, h.publish⟩
  rcases List.mem_append.mp ht with ht | ht
  · exact h.known t ht
  · rw [List.mem_singleton.mp ht]
    exact hd

theorem Numbered.record (h : Numbered s)
    (htag : d.tag = (s.deliveries.filter fun e => e.channel = d.channel).length + 1) :
    Numbered (s.record d) := by
  have hgrow : ∀ c, (s.deliveries.filter fun e => e.channel = c).length ≤
      ((s.deliveries ++ [d]).filter fun e => e.channel = c).length := by
    intro c
    rw [List.filter_append, List.length_append]
    exact Nat.le_add_right _ _
  have hself : d.tag ≤ ((s.deliveries ++ [d]).filter fun e => e.channel = d.channel).length := by
    rw [htag, List.filter_append, List.length_append,
      List.filter_cons_of_pos (by exact decide_eq_true rfl)]
    exact Nat.le_refl _
  have hnew : ∀ e ∈ s.deliveries, e.channel = d.channel → e.tag ≠ d.tag := by
    intro e he hc ht
    have hle := h.tags e he
    rw [hc, ht, htag] at hle
    exact absurd hle (Nat.not_succ_le_self _)
  refine ⟨fun t ht => List.mem_append_left _ (h.known t ht), ?_, ?_, h.closing, h.publish⟩
  · intro e he
    rcases List.mem_append.mp he with he | he
    · exact (h.tags e he).trans (hgrow _)
    · rw [List.mem_singleton.mp he]
      exact hself
  · intro e he f hf hc ht
    rcases List.mem_append.mp he with he | he
    · rcases List.mem_append.mp hf with hf | hf
      · exact h.unique e he f hf hc ht
      · rw [List.mem_singleton.mp hf] at hc ht
        exact absurd ht (hnew e he hc)
    · rw [List.mem_singleton.mp he] at hc ht ⊢
      rcases List.mem_append.mp hf with hf | hf
      · exact absurd ht.symm (hnew f hf hc.symm)
      · rw [List.mem_singleton.mp hf]

theorem Numbered.receive (h : Numbered s) (c : Nat) (m : Message) : Numbered (s.receive rt c m) := by
  have hrecord : Numbered (s.record
      ⟨s.deliveries.length, c, (s.deliveries.filter fun d => d.channel = c).length + 1, m⟩) :=
    h.record rfl
  have hmem : (⟨s.deliveries.length, c, (s.deliveries.filter fun d => d.channel = c).length + 1, m⟩ :
      Delivery) ∈ s.deliveries ++ [⟨s.deliveries.length, c,
        (s.deliveries.filter fun d => d.channel = c).length + 1, m⟩] :=
    List.mem_append_right _ List.mem_cons_self
  unfold State.receive
  dsimp only
  split
  · exact hrecord
  · split
    · exact (hrecord.start hmem).deadLetter hmem _
    · exact hrecord.start hmem

theorem Numbered.answered (h : Numbered s) (hd : d ∈ s.deliveries) (r : Outcome) :
    Numbered (s.answered rt o d r) := by
  have hsucceed : Numbered (s.succeed d.no) := h.of_eq rfl rfl rfl rfl rfl
  cases hsettle : settle rt o d.message r with
  | ack =>
      simp only [State.answered, hsettle]
      split
      · exact hsucceed.safeSettle.finish d.no
      · exact h.safeSettle.finish d.no
  | requeue =>
      simp only [State.answered, hsettle]
      exact h.safeSettle.finish d.no
  | deadLetter copy =>
      simp only [State.answered, hsettle]
      exact h.deadLetter hd copy
  | retry copy =>
      have hdelay : Numbered ((s.safeSettle d .ack).delay ⟨d, copy⟩) :=
        Numbered.of_eq h.safeSettle rfl rfl rfl rfl rfl
      simp only [State.answered, hsettle]
      exact hdelay.finish d.no

theorem Numbered.confirmed (h : Numbered s) (ok : Bool) : Numbered (s.confirmed d ok) := by
  have hnoted : Numbered (s.deadLettering d.no) := h.of_eq rfl rfl rfl rfl rfl
  unfold State.confirmed
  split
  · exact hnoted.safeSettle.finish d.no
  · exact h.finish d.no

theorem Numbered.fire (h : Numbered s) (p : Pending) : Numbered (s.fire p) := by
  have hexpire : Numbered (s.expire p) := h.of_eq rfl rfl rfl rfl rfl
  unfold State.fire
  split
  · exact hexpire
  · split
    · exact hexpire
    · split
      · exact hexpire.of_eq rfl rfl rfl rfl rfl
      · exact hexpire

theorem Numbered.elim_kill (h : Numbered s) (c : Option Nat) : Numbered (c.elim s s.kill) := by
  cases c with
  | none => exact h
  | some c => exact h.of_eq rfl rfl rfl rfl rfl

theorem Numbered.step (h : Numbered s) {l : Label} (horderly : Orderly s l)
    (hs : s.step rt o l = some s') : Numbered s' := by
  cases l with
  | deliver m =>
      obtain ⟨c, -, rfl⟩ := Option.map_eq_some_iff.mp hs
      exact h.receive c m
  | answer no r =>
      obtain ⟨t, ht, rfl⟩ := step_answer hs
      exact h.answered (h.known t ht) r
  | confirm no ok =>
      obtain ⟨t, -, rfl⟩ := step_confirm hs
      exact h.confirmed ok
  | timer no =>
      obtain ⟨p, -, rfl⟩ := Option.map_eq_some_iff.mp hs
      exact h.fire p
  | republish no ok =>
      obtain ⟨p, -, rfl⟩ := Option.map_eq_some_iff.mp hs
      exact h.of_eq rfl rfl rfl rfl rfl
  | lose =>
      cases hs
      exact h.of_eq rfl rfl rfl rfl rfl
  | reconnect =>
      cases hs
      split
      · exact h
      · exact h.of_eq rfl rfl rfl rfl rfl
  | openChannels alive =>
      rw [step_openChannels hs]
      refine ⟨h.known, h.tags, h.unique, fun hclosing => ?_, fun hpublish => ?_⟩
      · have hphase : (State.openChannels s alive).phase = .serving := horderly.2.2
        rw [hphase] at hclosing
        cases hclosing
      · cases hpublish
  | consume =>
      rw [State.step] at hs
      split at hs
      · split at hs
        · cases hs
          exact h.of_eq rfl rfl rfl rfl rfl
        · cases hs
      · cases hs
  | giveUp =>
      rw [State.step] at hs
      split at hs
      · cases hs
        exact h.of_eq rfl rfl rfl rfl rfl
      · cases hs
  | shutdown =>
      cases hs
      split
      · exact ⟨h.known, h.tags, h.unique, fun hclosing => (by cases hclosing), h.publish⟩
      · exact h
  | cancel =>
      rw [State.step] at hs
      split at hs
      · cases hs
        exact ⟨h.known, h.tags, h.unique, fun hclosing => (by cases hclosing), h.publish⟩
      · cases hs
  | drained =>
      rw [State.step] at hs
      split at hs
      · cases hs
        exact ⟨h.known, h.tags, h.unique, fun hclosing => (by cases hclosing), h.publish⟩
      · cases hs
  | timeout =>
      rw [State.step] at hs
      split at hs
      · cases hs
        exact ⟨h.known, h.tags, h.unique, fun hclosing => (by cases hclosing), h.publish⟩
      · cases hs
  | closeChannel =>
      rw [State.step] at hs
      split at hs
      · cases hs
        have hkill := h.elim_kill s.channel
        exact ⟨hkill.known, hkill.tags, hkill.unique, fun _ => rfl, fun _ => rfl⟩
      · cases hs
  | closePublish =>
      rw [State.step] at hs
      split at hs
      · rename_i hphase
        cases hs
        have hkill := h.elim_kill s.publishChannel
        have hchannel : (s.publishChannel.elim s s.kill).channel = none := by
          have hnone : s.channel = none := h.closing (by rw [hphase]; rfl)
          cases s.publishChannel with
          | none => exact hnone
          | some c => exact hnone
        exact ⟨hkill.known, hkill.tags, hkill.unique, fun _ => hchannel, fun _ => hchannel⟩
      · cases hs
  | closeConnection =>
      rw [State.step] at hs
      split at hs
      · rename_i hphase
        cases hs
        have hnone : s.channel = none := h.closing (by rw [hphase]; rfl)
        exact ⟨h.known, h.tags, h.unique, fun _ => hnone, h.publish⟩
      · cases hs

/-! ## What is acknowledged -/

/-- On its own channel, an acknowledgement is of the delivery it is for. -/
theorem mem_acked_safeSettle (h : Numbered s) (hd : d ∈ s.deliveries) (hon : On s d.channel)
    {n : Nat} (hn : n ∈ (s.safeSettle d kind).acked) : n ∈ s.acked ∨ kind = .ack ∧ n = d.no := by
  rcases safeSettle_cases s d kind with heq | ⟨c, hc, ⟨e, he, heq⟩ | heq⟩
  · rw [heq] at hn
    exact .inl hn
  · have hcd : c = d.channel := by
      rcases hon with hon | hon
      · exact Option.some.inj (hc.symm.trans hon)
      · rw [hc] at hon
        cases hon
    obtain ⟨hmem, hchannel, htag⟩ := outstanding_mem he
    have hno : e.no = d.no := h.unique e hmem d hd (hchannel.trans hcd) htag
    rw [heq] at hn
    cases kind with
    | ack =>
        rcases List.mem_append.mp hn with hn | hn
        · exact .inl hn
        · exact .inr ⟨rfl, (List.mem_singleton.mp hn).trans hno⟩
    | requeue => exact .inl hn
  · rw [heq] at hn
    exact .inl hn

theorem safeSettle_of_none (h : s.channel = none) : s.safeSettle d kind = s := by
  simp only [State.safeSettle, h]

theorem Accounted.of_subset {n : Nat} (h : Accounted s n) (hhandled : s.handled ⊆ s'.handled)
    (hrepublished : s.republished ⊆ s'.republished) (hdead : s.deadLettered ⊆ s'.deadLettered)
    (htimers : s.timers ⊆ s'.timers) (hpublishing : s.republishing ⊆ s'.republishing) :
    Accounted s' n := by
  rcases h with h | h | h | ⟨p, hp, h⟩ | ⟨p, hp, h⟩
  · exact .inl (hhandled h)
  · exact .inr (.inl (hrepublished h))
  · exact .inr (.inr (.inl (hdead h)))
  · exact .inr (.inr (.inr (.inl ⟨p, htimers hp, h⟩)))
  · exact .inr (.inr (.inr (.inr ⟨p, hpublishing hp, h⟩)))

theorem Accounted.safeSettle {n : Nat} (h : Accounted s n) : Accounted (s.safeSettle d kind) n := by
  rcases safeSettle_cases s d kind with heq | ⟨c, -, ⟨e, -, heq⟩ | heq⟩
  · rw [heq]
    exact h
  · rw [heq]
    exact h
  · rw [heq]
    exact h

/-- Every acknowledged delivery is accounted for. -/
def NoLoss (s : State) : Prop := ∀ n ∈ s.acked, Accounted s n

theorem NoLoss.safeSettle (h : NoLoss s) (hnumbered : Numbered s) (hd : d ∈ s.deliveries)
    (hon : On s d.channel) (hself : kind = .ack → Accounted s d.no) :
    NoLoss (s.safeSettle d kind) := by
  intro n hn
  rcases mem_acked_safeSettle hnumbered hd hon hn with hn | ⟨hkind, rfl⟩
  · exact (h n hn).safeSettle
  · exact (hself hkind).safeSettle

theorem NoLoss.deadLetter (h : NoLoss s) (hnumbered : Numbered s) (copy : Message) :
    NoLoss (s.deadLetter d copy) := by
  unfold State.deadLetter
  split
  · rename_i hpublish
    rw [safeSettle_of_none (hnumbered.publish hpublish)]
    exact h
  · split
    · exact h
    · exact h

theorem NoLoss.receive (h : NoLoss s) (hnumbered : Numbered s) (c : Nat) (m : Message) :
    NoLoss (s.receive rt c m) := by
  unfold State.receive
  dsimp only
  split
  · exact h
  · split
    · refine NoLoss.deadLetter (s := (s.record _).start _) h ?_ _
      exact (hnumbered.record rfl).start (List.mem_append_right _ List.mem_cons_self)
    · exact h

theorem failure_eq_none {r : Outcome} (hr : r ≠ .threw none) (hfailure : r.failure = none) :
    r = .requeue ∨ r = .ack ∨ r = .void := by
  cases r with
  | void => exact .inr (.inr rfl)
  | ack => exact .inr (.inl rfl)
  | nack => cases hfailure
  | requeue => exact .inl rfl
  | threw error =>
      cases error with
      | none => exact absurd rfl hr
      | some error => cases hfailure

/-- A message is acknowledged unasked only when its handler was content. -/
theorem settle_eq_ack {m : Message} {r : Outcome} (hr : r ≠ .threw none)
    (h : settle rt o m r = .ack) : r = .ack ∨ r = .void := by
  rw [settle] at h
  split at h
  · rw [retryOrDlq] at h
    split at h
    · cases h
    · cases h
  · rename_i hfailure
    rcases failure_eq_none hr hfailure with rfl | hcontent
    · cases h
    · exact hcontent

theorem NoLoss.answered (h : NoLoss s) (hnumbered : Numbered s) (hd : d ∈ s.deliveries)
    (hon : On s d.channel) {r : Outcome} (hr : r ≠ .threw none) :
    NoLoss (s.answered rt o d r) := by
  cases hsettle : settle rt o d.message r with
  | ack =>
      have hself : Accounted (s.succeed d.no) d.no :=
        .inl (List.mem_append_right _ List.mem_cons_self)
      have hsucceed : NoLoss (s.succeed d.no) := fun n hn =>
        (h n hn).of_subset (List.subset_append_left _ _) (List.Subset.refl _) (List.Subset.refl _)
          (List.Subset.refl _) (List.Subset.refl _)
      simp only [State.answered, hsettle, if_pos (settle_eq_ack hr hsettle)]
      exact NoLoss.safeSettle hsucceed (hnumbered.of_eq rfl rfl rfl rfl rfl) hd hon fun _ => hself
  | requeue =>
      simp only [State.answered, hsettle]
      exact h.safeSettle hnumbered hd hon fun hkind => (by cases hkind)
  | deadLetter copy =>
      simp only [State.answered, hsettle]
      exact h.deadLetter hnumbered copy
  | retry copy =>
      simp only [State.answered, hsettle]
      intro n hn
      rcases mem_acked_safeSettle hnumbered hd hon hn with hn | ⟨-, rfl⟩
      · exact (h n hn).safeSettle.of_subset (List.Subset.refl _) (List.Subset.refl _)
          (List.Subset.refl _) (List.subset_append_left _ _) (List.Subset.refl _)
      · exact .inr (.inr (.inr (.inl ⟨_, List.mem_append_right _ List.mem_cons_self, rfl⟩)))

theorem NoLoss.confirmed (h : NoLoss s) (hnumbered : Numbered s) (hd : d ∈ s.deliveries)
    (hon : On s d.channel) (ok : Bool) : NoLoss (s.confirmed d ok) := by
  unfold State.confirmed
  split
  · have hself : Accounted (s.deadLettering d.no) d.no :=
      .inr (.inr (.inl (List.mem_append_right _ List.mem_cons_self)))
    have hnoted : NoLoss (s.deadLettering d.no) := fun n hn =>
      (h n hn).of_subset (List.Subset.refl _) (List.Subset.refl _) (List.subset_append_left _ _)
        (List.Subset.refl _) (List.Subset.refl _)
    exact NoLoss.safeSettle hnoted (hnumbered.of_eq rfl rfl rfl rfl rfl) hd hon fun _ => hself
  · exact h

/-- A timer that falls due while the consumer serves hands its copy over. -/
theorem NoLoss.fire (h : NoLoss s) {p : Pending} (hphase : s.phase = .serving)
    (hlive : ∃ c, s.publishChannel = some c ∧ c ∈ s.live) : NoLoss (s.fire p) := by
  obtain ⟨c, hc, hlive⟩ := hlive
  have hfire : s.fire p = (s.expire p).publish p := by
    simp only [State.fire, hphase, ne_eq, not_true_eq_false, if_false, hc, if_pos hlive]
  rw [hfire]
  intro n hn
  by_cases hp : n = p.delivery.no
  · exact .inr (.inr (.inr (.inr ⟨p, List.mem_append_right _ List.mem_cons_self, hp.symm⟩)))
  · rcases h n hn with h | h | h | ⟨q, hq, h⟩ | ⟨q, hq, h⟩
    · exact .inl h
    · exact .inr (.inl h)
    · exact .inr (.inr (.inl h))
    · refine .inr (.inr (.inr (.inl ⟨q, List.mem_filter.mpr ⟨hq, ?_⟩, h⟩)))
      exact decide_eq_true (h ▸ hp)
    · exact .inr (.inr (.inr (.inr ⟨q, List.mem_append_left _ hq, h⟩)))

theorem NoLoss.republish (h : NoLoss s) (p : Pending) : NoLoss (s.republish p true) := by
  intro n hn
  by_cases hp : n = p.delivery.no
  · exact .inr (.inl (hp ▸ List.mem_append_right _ List.mem_cons_self))
  · rcases h n hn with h | h | h | ⟨q, hq, h⟩ | ⟨q, hq, h⟩
    · exact .inl h
    · exact .inr (.inl (List.mem_append_left _ h))
    · exact .inr (.inr (.inl h))
    · exact .inr (.inr (.inr (.inl ⟨q, hq, h⟩)))
    · refine .inr (.inr (.inr (.inr ⟨q, List.mem_filter.mpr ⟨hq, ?_⟩, h⟩)))
      exact decide_eq_true (h ▸ hp)

theorem NoLoss.elim_kill (h : NoLoss s) (c : Option Nat) : NoLoss (c.elim s s.kill) := by
  cases c with
  | none => exact h
  | some c => exact h

theorem NoLoss.step (h : NoLoss s) (hnumbered : Numbered s) (hown : OwnInv s) {l : Label}
    (horderly : Orderly s l) (hs : s.step rt o l = some s') : NoLoss s' := by
  cases l with
  | deliver m =>
      obtain ⟨c, -, rfl⟩ := Option.map_eq_some_iff.mp hs
      exact h.receive hnumbered c m
  | answer no r =>
      obtain ⟨t, ht, rfl⟩ := step_answer hs
      exact h.answered hnumbered (hnumbered.known t ht) (hown.tasks t ht) horderly
  | confirm no ok =>
      obtain ⟨t, ht, rfl⟩ := step_confirm hs
      exact h.confirmed hnumbered (hnumbered.known t ht) (hown.tasks t ht) ok
  | timer no =>
      obtain ⟨p, -, rfl⟩ := Option.map_eq_some_iff.mp hs
      exact h.fire horderly.1 horderly.2
  | republish no ok =>
      obtain ⟨p, -, rfl⟩ := Option.map_eq_some_iff.mp hs
      have hok : ok = true := horderly
      rw [hok]
      exact h.republish p
  | lose =>
      cases hs
      exact h
  | reconnect =>
      cases hs
      split
      · exact h
      · exact h
  | openChannels alive =>
      rw [step_openChannels hs]
      exact h
  | consume =>
      rw [State.step] at hs
      split at hs
      · split at hs
        · cases hs
          exact h
        · cases hs
      · cases hs
  | giveUp =>
      rw [State.step] at hs
      split at hs
      · cases hs
        exact h
      · cases hs
  | shutdown =>
      cases hs
      split
      · exact h
      · exact h
  | cancel =>
      rw [State.step] at hs
      split at hs
      · cases hs
        exact h
      · cases hs
  | drained =>
      rw [State.step] at hs
      split at hs
      · cases hs
        exact h
      · cases hs
  | timeout =>
      have htimers : s.timers = [] := horderly
      rw [State.step] at hs
      split at hs
      · cases hs
        intro n hn
        exact (h n hn).of_subset (List.Subset.refl _) (List.Subset.refl _) (List.Subset.refl _)
          (htimers ▸ List.Subset.refl _) (List.Subset.refl _)
      · cases hs
  | closeChannel =>
      rw [State.step] at hs
      split at hs
      · cases hs
        exact h.elim_kill s.channel
      · cases hs
  | closePublish =>
      rw [State.step] at hs
      split at hs
      · cases hs
        exact h.elim_kill s.publishChannel
      · cases hs
  | closeConnection =>
      rw [State.step] at hs
      split at hs
      · cases hs
        exact h
      · cases hs

theorem numbered_init : Numbered init := by
  refine ⟨fun t ht => ?_, fun d hd => ?_, fun d hd => ?_, fun h => ?_, fun h => ?_⟩
  · cases ht
  · cases hd
  · cases hd
  · cases h
  · cases h

end

end OpenBms.Messaging
