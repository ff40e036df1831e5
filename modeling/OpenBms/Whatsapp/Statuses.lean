/-
# `OpenBms.Whatsapp.Statuses` — the statuses of sent messages and their rows

The row of a sent message is inserted by a consumer of the queue; the statuses of the
message come with webhooks.  `applyStatusEvent` handles them one after the other, with
one command of Redis or Postgres at a time.

| command | what follows |
| :-- | :-- |
| `isStatusKeySet` | a status whose key is set is done |
| `findOne` | a status without a row, or with a verb that is not handled, is done |
| `update` | the timestamp of the row is written, or the body fails |
| `setStatusKey` | the status is done |

The deliveries of a body and their marker are those of `Webhooks`.

**Proved here.**

    while no delivered, read or failed status is looked up before its
    row, and no duplicate finds the marker of a failed delivery, the row
    has the timestamps of all statuses of the bodies that are settled (`status_not_lost`)
    a status that comes before its row is answered `200`, and lost (`status_lost`)
-/
import OpenBms.Whatsapp.Webhooks

namespace OpenBms.Whatsapp.Statuses

/-- `status.status`. -/
inductive Verb where
  | sent
  | delivered
  | read
  | failed
  | unhandled (verb : String)
  deriving DecidableEq

/-- A status of a body; a missing id is empty. -/
structure Status where
  wamid : String
  verb : Verb
  deriving DecidableEq

/-- The timestamps of a row of `whatsapp_message_sends`. -/
structure Send where
  sentAt : Nat
  deliveredAt : Option Nat
  readAt : Option Nat
  failedAt : Option Nat

/-- The commands of `applyStatusEvent`. -/
inductive Command where
  | isStatusKeySet
  | findOne
  | update
  | setStatusKey
  deriving DecidableEq

/-- The statuses a delivery still has to handle, and the next command of the first. -/
structure Handling where
  rest : List Status
  command : Command
  deriving DecidableEq

/-- `wa:webhook:status:${wamid}:${verb}` by the status. -/
structure State where
  webhooks : Webhooks.State
  sends : String → Option Send
  statusKeys : Status → Option Nat
  handlings : Nat → Handling

def State.init : State := ⟨.init, fun _ => none, fun _ => none, fun _ => ⟨[], .isStatusKeySet⟩⟩

def statusDedupTtlSeconds : Nat := 60 * 60 * 24

/-- The timestamp of a status. -/
def Send.timestamp (send : Send) : Verb → Option Nat
  | .sent => some send.sentAt
  | .delivered => send.deliveredAt
  | .read => send.readAt
  | .failed => send.failedAt
  | .unhandled _ => none

/-- `sent_at` is already set at send time. -/
def Send.set (send : Send) (now : Nat) : Verb → Send
  | .delivered => { send with deliveredAt := some now }
  | .read => { send with readAt := some now }
  | .failed => { send with failedAt := some now }
  | .sent | .unhandled _ => send

/-- The `switch` has a case for the verb. -/
def Verb.handled : Verb → Bool
  | .unhandled _ => false
  | _ => true

/-- The verb has a timestamp that a webhook writes. -/
def Verb.written : Verb → Bool
  | .delivered | .read | .failed => true
  | .sent | .unhandled _ => false

/-- The id or the verb is missing. -/
def Status.incomplete (status : Status) : Bool :=
  status.wamid == "" || status.verb == .unhandled ""

namespace State

def isStatusKeySet (s : State) (status : Status) : Bool :=
  ((s.statusKeys status).filter fun expires => s.webhooks.now < expires).isSome

/-- `UPDATE whatsapp_message_sends SET … WHERE wamid`. -/
def update (s : State) (status : Status) : State :=
  { s with
    sends := Function.update s.sends status.wamid
      ((s.sends status.wamid).map (·.set s.webhooks.now status.verb)) }

def setStatusKey (s : State) (status : Status) : State :=
  { s with
    statusKeys := Function.update s.statusKeys status
      (some (s.webhooks.now + statusDedupTtlSeconds)) }

def proceed (s : State) (i : Nat) (handling : Handling) : State :=
  { s with handlings := Function.update s.handlings i handling }

/-- `INSERT … ON CONFLICT (wamid) DO NOTHING`. -/
def persist (s : State) (wamid : String) (sentAt : Nat) : State :=
  if wamid = "" ∨ (s.sends wamid).isSome then s
  else { s with sends := Function.update s.sends wamid (some ⟨sentAt, none, none, none⟩) }

/-- The processing of the body ends. -/
def finish (s : State) (i : Nat) (ok : Bool) : Option State :=
  (s.webhooks.step (.process i ok)).map fun webhooks => { s with webhooks := webhooks }

/-- The next command of a delivery. -/
def command (s : State) (i : Nat) : Handling → Option State
  | ⟨[], _⟩ => s.finish i true
  | ⟨status :: rest, command⟩ =>
      if status.incomplete then some (s.proceed i ⟨rest, .isStatusKeySet⟩)
      else match command with
        | .isStatusKeySet =>
            some (s.proceed i (if s.isStatusKeySet status then ⟨rest, .isStatusKeySet⟩
              else ⟨status :: rest, .findOne⟩))
        | .findOne =>
            some (s.proceed i (if (s.sends status.wamid).isSome ∧ status.verb.handled
              then ⟨status :: rest, .update⟩ else ⟨rest, .isStatusKeySet⟩))
        | .update => some ((s.update status).proceed i ⟨status :: rest, .setStatusKey⟩)
        | .setStatusKey => some ((s.setStatusKey status).proceed i ⟨rest, .isStatusKeySet⟩)

/-- A command of Redis throws, which is logged; it may have been executed. -/
def swallow (s : State) (i : Nat) (executed : Bool) : Handling → Option State
  | ⟨status :: rest, .isStatusKeySet⟩ => some (s.proceed i ⟨status :: rest, .findOne⟩)
  | ⟨status :: rest, .setStatusKey⟩ =>
      some ((if executed then s.setStatusKey status else s).proceed i ⟨rest, .isStatusKeySet⟩)
  | _ => none

/-- A command of Postgres throws, for a status or for another part of the body; the
timestamp may have been written. -/
def fail (s : State) (i : Nat) (executed : Bool) : Handling → Option State
  | ⟨status :: _, .update⟩ => (if executed then s.update status else s).finish i false
  | _ => s.finish i false

end State

/-- The webhooks move by all their events but `process`, which is done here. -/
inductive Event where
  | webhook (event : Webhooks.Event)
  | command (i : Nat)
  | swallow (i : Nat) (executed : Bool)
  | fail (i : Nat) (executed : Bool)
  | persist (wamid : String) (sentAt : Nat)

/-- The delivery is processing its body. -/
def State.processing (s : State) (i : Nat) : Bool :=
  match s.webhooks.deliveries i with
  | some (_, .process) => true
  | _ => false

/-- What happens, when a body carries these statuses. -/
def step (statuses : String → List Status) (s : State) : Event → Option State
  | .webhook (.process _ _) => none
  | .webhook (.receive i key) =>
      (s.webhooks.step (.receive i key)).map fun webhooks =>
        { s with
          webhooks := webhooks
          handlings := Function.update s.handlings i ⟨statuses key, .isStatusKeySet⟩ }
  | .webhook event =>
      (s.webhooks.step event).map fun webhooks => { s with webhooks := webhooks }
  | .command i => if s.processing i then s.command i (s.handlings i) else none
  | .swallow i executed => if s.processing i then s.swallow i executed (s.handlings i) else none
  | .fail i executed => if s.processing i then s.fail i executed (s.handlings i) else none
  | .persist wamid sentAt => some (s.persist wamid sentAt)

/-! ## Statuses that are stored -/

/-- The row has the timestamp of the status. -/
def State.Stored (s : State) (status : Status) : Prop :=
  ∃ send, s.sends status.wamid = some send ∧ send.timestamp status.verb ≠ none

/-- The status has an id, and its timestamp is written by a webhook. -/
def Status.Marks (status : Status) : Prop :=
  status.wamid ≠ "" ∧ status.verb.written = true

/-- No delivered, read or failed status is looked up before its row; and no duplicate
finds the marker of a delivery that failed or was given up. -/
def Guarded (s : State) : Event → Prop
  | .webhook event => Webhooks.Guarded s.webhooks event
  | .command i => ∀ status rest, s.handlings i = ⟨status :: rest, .findOne⟩ → status.Marks →
      (s.sends status.wamid).isSome
  | _ => True

/-- Rows are not deleted, and keep their timestamps. -/
def Grows (s s' : State) : Prop :=
  ∀ wamid send, s.sends wamid = some send → ∃ send', s'.sends wamid = some send' ∧
    ∀ verb, send.timestamp verb ≠ none → send'.timestamp verb ≠ none

structure Inv (statuses : String → List Status) (s : State) : Prop where
  webhooks : Webhooks.Inv s.webhooks
  keys : ∀ status, s.statusKeys status ≠ none → s.Stored status
  progress : ∀ i key stage, s.webhooks.deliveries i = some (key, stage) →
    ∃ done, statuses key = done ++ (s.handlings i).rest ∧
      ∀ status ∈ done, status.Marks → s.Stored status
  update : ∀ i status rest, s.handlings i = ⟨status :: rest, .update⟩ →
    status.verb.handled = true ∧ (s.sends status.wamid).isSome
  setStatusKey : ∀ i status rest, s.handlings i = ⟨status :: rest, .setStatusKey⟩ →
    s.Stored status
  applied : ∀ key ∈ s.webhooks.applied, ∀ status ∈ statuses key, status.Marks → s.Stored status
  named : s.sends "" = none

theorem inv_init (statuses : String → List Status) : Inv statuses State.init where
  webhooks := Webhooks.inv_init
  keys := fun _ h => absurd rfl h
  progress := fun _ _ _ h => by cases h
  update := fun _ _ _ h => by cases h
  setStatusKey := fun _ _ _ h => by cases h
  applied := fun _ h => by cases h
  named := rfl

section
variable {statuses : String → List Status} {s s' : State} {i : Nat} {handling : Handling}
  {status : Status} {rest : List Status}

theorem Grows.stored (h : Grows s s') (hstored : s.Stored status) : s'.Stored status := by
  obtain ⟨send, hsend, htime⟩ := hstored
  obtain ⟨send', hsend', hkeep⟩ := h _ _ hsend
  exact ⟨send', hsend', hkeep _ htime⟩

theorem Grows.isSome (h : Grows s s') {wamid : String} (hsome : (s.sends wamid).isSome) :
    (s'.sends wamid).isSome := by
  obtain ⟨send, hsend⟩ := Option.isSome_iff_exists.mp hsome
  obtain ⟨send', hsend', _⟩ := h _ _ hsend
  exact Option.isSome_iff_exists.mpr ⟨send', hsend'⟩

theorem grows_of_eq (h : s'.sends = s.sends) : Grows s s' :=
  fun _ send hsend => ⟨send, h ▸ hsend, fun _ h => h⟩

theorem timestamp_set_self {send : Send} {now : Nat} {verb : Verb} (h : verb.handled = true) :
    (send.set now verb).timestamp verb ≠ none := by
  cases verb with
  | unhandled verb => cases h
  | sent | delivered | read | failed => exact Option.some_ne_none _

theorem timestamp_set {send : Send} {now : Nat} {verb verb' : Verb}
    (h : send.timestamp verb ≠ none) : (send.set now verb').timestamp verb ≠ none := by
  cases verb' with
  | sent | unhandled => exact h
  | delivered | read | failed =>
      cases verb with
      | sent => exact Option.some_ne_none _
      | unhandled => exact absurd rfl h
      | delivered | read | failed => first | exact Option.some_ne_none _ | exact h

theorem grows_update : Grows s (s.update status) := by
  intro wamid send hsend
  simp only [State.update, Function.update_apply]
  split
  · rename_i hwamid
    rw [← hwamid, hsend]
    exact ⟨_, rfl, fun _ h => timestamp_set h⟩
  · exact ⟨send, hsend, fun _ h => h⟩

theorem grows_persist {wamid : String} {sentAt : Nat} : Grows s (s.persist wamid sentAt) := by
  intro wamid' send hsend
  simp only [State.persist]
  split
  · exact ⟨send, hsend, fun _ h => h⟩
  · rename_i hnew
    have hne : wamid' ≠ wamid := by
      rintro rfl
      exact hnew (.inr (Option.isSome_iff_exists.mpr ⟨send, hsend⟩))
    exact ⟨send, (Function.update_of_ne hne ..).trans hsend, fun _ h => h⟩

theorem stored_update (hhandled : status.verb.handled = true)
    (hsome : (s.sends status.wamid).isSome) : (s.update status).Stored status := by
  obtain ⟨send, hsend⟩ := Option.isSome_iff_exists.mp hsome
  refine ⟨send.set s.webhooks.now status.verb, ?_, timestamp_set_self hhandled⟩
  simp only [State.update, Function.update_self, hsend, Option.map_some]

/-! ## What keeps the invariant -/

/-- Rows and keys change, and the deliveries stay. -/
structure Keeps (s s' : State) : Prop where
  webhooks : s'.webhooks = s.webhooks
  handlings : s'.handlings = s.handlings
  grows : Grows s s'
  keys : ∀ status, s'.statusKeys status ≠ none → s.statusKeys status ≠ none ∨ s'.Stored status
  named : s.sends "" = none → s'.sends "" = none

theorem keeps_update : Keeps s (s.update status) := by
  refine ⟨rfl, rfl, grows_update, fun _ h => .inl h, fun hnone => ?_⟩
  simp only [State.update, Function.update_apply]
  split
  · rename_i hwamid
    rw [← hwamid, hnone]
    rfl
  · exact hnone

theorem keeps_setStatusKey (hstored : s.Stored status) : Keeps s (s.setStatusKey status) := by
  refine ⟨rfl, rfl, grows_of_eq rfl, fun status' h => ?_, fun h => h⟩
  by_cases heq : status' = status
  · exact .inr (heq ▸ hstored)
  · refine .inl fun hnone => h ?_
    exact (Function.update_of_ne heq ..).trans hnone

theorem keeps_persist {wamid : String} {sentAt : Nat} : Keeps s (s.persist wamid sentAt) := by
  have hfields : (s.persist wamid sentAt).webhooks = s.webhooks ∧
      (s.persist wamid sentAt).handlings = s.handlings ∧
      (s.persist wamid sentAt).statusKeys = s.statusKeys := by
    simp only [State.persist]
    split <;> exact ⟨rfl, rfl, rfl⟩
  refine ⟨hfields.1, hfields.2.1, grows_persist, fun status h => .inl (hfields.2.2 ▸ h), fun h => ?_⟩
  simp only [State.persist]
  split
  · exact h
  · rename_i hnew
    exact (Function.update_of_ne (fun heq => hnew (.inl heq.symm)) ..).trans h

theorem Inv.keep (h : Inv statuses s) (hkeep : Keeps s s') : Inv statuses s' where
  webhooks := hkeep.webhooks ▸ h.webhooks
  keys := fun status hkey => (hkeep.keys status hkey).elim
    (fun hold => hkeep.grows.stored (h.keys status hold)) id
  progress := by
    intro i key stage hi
    rw [hkeep.webhooks] at hi
    obtain ⟨done, hdone, hstored⟩ := h.progress i key stage hi
    refine ⟨done, ?_, fun status hmem hmarks => hkeep.grows.stored (hstored status hmem hmarks)⟩
    rw [hkeep.handlings]
    exact hdone
  update := by
    intro i status rest hi
    rw [hkeep.handlings] at hi
    exact (h.update i status rest hi).imp_right hkeep.grows.isSome
  setStatusKey := by
    intro i status rest hi
    rw [hkeep.handlings] at hi
    exact hkeep.grows.stored (h.setStatusKey i status rest hi)
  applied := by
    intro key hkey status hmem hmarks
    rw [hkeep.webhooks] at hkey
    exact hkeep.grows.stored (h.applied key hkey status hmem hmarks)
  named := hkeep.named h.named

theorem Inv.proceed (h : Inv statuses s)
    (hdone : ∃ dropped, (s.handlings i).rest = dropped ++ handling.rest ∧
      ∀ status ∈ dropped, status.Marks → s.Stored status)
    (hupdate : ∀ status rest, handling = ⟨status :: rest, .update⟩ →
      status.verb.handled = true ∧ (s.sends status.wamid).isSome)
    (hset : ∀ status rest, handling = ⟨status :: rest, .setStatusKey⟩ → s.Stored status) :
    Inv statuses (s.proceed i handling) where
  webhooks := h.webhooks
  keys := h.keys
  progress := by
    intro j key stage hj
    obtain ⟨done, hsplit, hstored⟩ := h.progress j key stage hj
    simp only [State.proceed, Function.update_apply]
    split
    · rename_i hji
      obtain ⟨dropped, hdropped, hdroppedStored⟩ := hdone
      refine ⟨done ++ dropped, ?_, ?_⟩
      · rw [hsplit, hji, hdropped, List.append_assoc]
      · intro status hmem hmarks
        rcases List.mem_append.mp hmem with hmem | hmem
        · exact hstored status hmem hmarks
        · exact hdroppedStored status hmem hmarks
    · exact ⟨done, hsplit, hstored⟩
  update := by
    intro j status rest hj
    simp only [State.proceed, Function.update_apply] at hj
    split at hj
    · exact hupdate status rest hj
    · exact h.update j status rest hj
  setStatusKey := by
    intro j status rest hj
    simp only [State.proceed, Function.update_apply] at hj
    split at hj
    · exact hset status rest hj
    · exact h.setStatusKey j status rest hj
  applied := h.applied
  named := h.named

theorem Inv.webhook (h : Inv statuses s) {event : Webhooks.Event} {webhooks : Webhooks.State}
    (hguard : Webhooks.Guarded s.webhooks event) (hs : s.webhooks.step event = some webhooks)
    (hreceive : ∀ i key, event ≠ .receive i key)
    (hdone : ∀ i, event = .process i true → (s.handlings i).rest = []) :
    Inv statuses { s with webhooks := webhooks } where
  webhooks := h.webhooks.step hguard hs
  keys := h.keys
  progress := by
    intro i key stage hi
    rcases Webhooks.step_deliveries hs hi with heq | ⟨stage, hi⟩
    · exact absurd heq (hreceive i key)
    · exact h.progress i key stage hi
  update := h.update
  setStatusKey := h.setStatusKey
  applied := by
    intro key hkey status hmem hmarks
    rcases Webhooks.step_applied hs with heq | ⟨i, key', hprocess, hi, heq⟩
    · simp only [heq] at hkey
      exact h.applied key hkey status hmem hmarks
    · simp only [heq] at hkey
      rcases List.mem_append.mp hkey with hkey | hkey
      · exact h.applied key hkey status hmem hmarks
      · cases List.mem_singleton.mp hkey
        obtain ⟨done, hsplit, hstored⟩ := h.progress i key _ hi
        rw [hdone i hprocess, List.append_nil] at hsplit
        exact hstored status (hsplit ▸ hmem) hmarks
  named := h.named

theorem Inv.finish (h : Inv statuses s) {ok : Bool} (hs : s.finish i ok = some s')
    (hdone : ok = true → (s.handlings i).rest = []) : Inv statuses s' := by
  obtain ⟨webhooks, hstep, rfl⟩ := Option.map_eq_some_iff.mp hs
  have hguard : Webhooks.Guarded s.webhooks (.process i ok) := trivial
  refine h.webhook hguard hstep nofun fun j heq => ?_
  cases heq
  exact hdone rfl

theorem Inv.receive (h : Inv statuses s) {key : String} {webhooks : Webhooks.State}
    (hs : s.webhooks.step (.receive i key) = some webhooks) :
    Inv statuses { s with
      webhooks := webhooks
      handlings := Function.update s.handlings i ⟨statuses key, .isStatusKeySet⟩ } where
  webhooks := by
    have hguard : Webhooks.Guarded s.webhooks (.receive i key) := trivial
    exact h.webhooks.step hguard hs
  keys := h.keys
  progress := by
    intro j k stage hj
    simp only [Function.update_apply]
    split
    · rename_i hji
      cases (hji ▸ Webhooks.step_receive hs).symm.trans hj
      exact ⟨[], rfl, fun _ hmem => by cases hmem⟩
    · rename_i hji
      rcases Webhooks.step_deliveries hs hj with heq | ⟨stage, hj⟩
      · cases heq
        exact absurd rfl hji
      · exact h.progress j k stage hj
  update := by
    intro j status rest hj
    simp only [Function.update_apply] at hj
    split at hj
    · cases (Handling.mk.inj hj).2
    · exact h.update j status rest hj
  setStatusKey := by
    intro j status rest hj
    simp only [Function.update_apply] at hj
    split at hj
    · cases (Handling.mk.inj hj).2
    · exact h.setStatusKey j status rest hj
  applied := by
    intro k hk
    rcases Webhooks.step_applied hs with heq | ⟨_, _, heq, _⟩
    · exact h.applied k (heq ▸ hk)
    · cases heq
  named := h.named

theorem Inv.next (h : Inv statuses s) {command : Command}
    (hi : s.handlings i = ⟨status :: rest, command⟩) (hstored : status.Marks → s.Stored status) :
    Inv statuses (s.proceed i ⟨rest, .isStatusKeySet⟩) := by
  refine h.proceed ⟨[status], ?_, ?_⟩ (fun _ _ heq => by cases heq) (fun _ _ heq => by cases heq)
  · rw [hi]
    rfl
  · intro status' hmem
    cases List.mem_singleton.mp hmem
    exact hstored

theorem Inv.goOn (h : Inv statuses s) {command command' : Command}
    (hi : s.handlings i = ⟨status :: rest, command⟩)
    (hupdate : command' = .update → status.verb.handled = true ∧ (s.sends status.wamid).isSome)
    (hset : command' = .setStatusKey → s.Stored status) :
    Inv statuses (s.proceed i ⟨status :: rest, command'⟩) := by
  refine h.proceed ⟨[], ?_, fun _ hmem => by cases hmem⟩ ?_ ?_
  · rw [hi]
    rfl
  · intro _ _ heq
    cases heq
    exact hupdate rfl
  · intro _ _ heq
    cases heq
    exact hset rfl

theorem handled_of_written {verb : Verb} (h : verb.written = true) : verb.handled = true := by
  cases verb with
  | unhandled verb => cases h
  | _ => rfl

theorem marks_of_incomplete (h : status.incomplete = true) : ¬ status.Marks := by
  rintro ⟨hwamid, hwritten⟩
  simp only [Status.incomplete, Bool.or_eq_true, beq_iff_eq] at h
  rcases h with h | h
  · exact hwamid h
  · rw [h] at hwritten
    cases hwritten

theorem Inv.command (h : Inv statuses s) {hd : Handling} (hi : s.handlings i = hd)
    (hguard : Guarded s (.command i)) (hs : s.command i hd = some s') : Inv statuses s' := by
  obtain ⟨rest, command⟩ := hd
  cases rest with
  | nil => exact h.finish hs fun _ => by rw [hi]
  | cons status rest =>
      simp only [State.command] at hs
      split at hs
      · rename_i hincomplete
        cases hs
        exact h.next hi fun hmarks => absurd hmarks (marks_of_incomplete hincomplete)
      · cases command with
        | isStatusKeySet =>
            cases hs
            split
            · rename_i hkey
              refine h.next hi fun _ => h.keys status fun hnone => ?_
              simp only [State.isStatusKeySet, hnone, Option.filter_none, Option.isSome_none,
                Bool.false_eq_true] at hkey
            · exact h.goOn hi nofun nofun
        | findOne =>
            cases hs
            split
            · rename_i hfound
              exact h.goOn hi (fun _ => ⟨hfound.2, hfound.1⟩) nofun
            · rename_i hmissed
              refine h.next hi fun hmarks => absurd ?_ hmissed
              exact ⟨hguard status rest hi hmarks, handled_of_written hmarks.2⟩
        | update =>
            cases hs
            obtain ⟨hhandled, hsome⟩ := h.update i status rest hi
            have hkeep : Inv statuses (s.update status) := h.keep keeps_update
            exact hkeep.goOn hi nofun fun _ => stored_update hhandled hsome
        | setStatusKey =>
            cases hs
            have hstored := h.setStatusKey i status rest hi
            have hkeep : Inv statuses (s.setStatusKey status) := h.keep (keeps_setStatusKey hstored)
            exact hkeep.next hi fun _ => hstored

theorem Inv.swallow (h : Inv statuses s) {hd : Handling} (hi : s.handlings i = hd)
    {executed : Bool} (hs : s.swallow i executed hd = some s') : Inv statuses s' := by
  obtain ⟨rest, command⟩ := hd
  cases rest with
  | nil => cases hs
  | cons status rest =>
      cases command with
      | isStatusKeySet =>
          cases hs
          exact h.goOn hi nofun nofun
      | setStatusKey =>
          cases hs
          have hstored := h.setStatusKey i status rest hi
          split
          · have hkeep : Inv statuses (s.setStatusKey status) := h.keep (keeps_setStatusKey hstored)
            exact hkeep.next hi fun _ => hstored
          · exact h.next hi fun _ => hstored
      | findOne | update => cases hs

theorem Inv.fail (h : Inv statuses s) {hd : Handling} {executed : Bool}
    (hs : s.fail i executed hd = some s') : Inv statuses s' := by
  simp only [State.fail] at hs
  split at hs
  · split at hs
    · have hkeep : ∀ status, Inv statuses (s.update status) := fun _ => h.keep keeps_update
      exact (hkeep _).finish hs nofun
    · exact h.finish hs nofun
  · exact h.finish hs nofun

theorem step_webhook {event : Webhooks.Event} (hprocess : ∀ i ok, event ≠ .process i ok)
    (hreceive : ∀ i key, event ≠ .receive i key) :
    step statuses s (.webhook event) =
      (s.webhooks.step event).map fun webhooks => { s with webhooks := webhooks } := by
  cases event with
  | process i ok => exact absurd rfl (hprocess i ok)
  | receive i key => exact absurd rfl (hreceive i key)
  | _ => rfl

theorem Inv.step (h : Inv statuses s) {event : Event} (hguard : Guarded s event)
    (hs : step statuses s event = some s') : Inv statuses s' := by
  cases event with
  | webhook event =>
      have hguard : Webhooks.Guarded s.webhooks event := hguard
      cases event with
      | process i ok => cases hs
      | receive i key =>
          obtain ⟨webhooks, hstep, rfl⟩ := Option.map_eq_some_iff.mp hs
          exact h.receive hstep
      | isDuplicate | isDuplicateThrows | releaseDedupKey | crash | giveUp | tick =>
          rw [step_webhook (by rintro _ _ ⟨⟩) (by rintro _ _ ⟨⟩)] at hs
          obtain ⟨webhooks, hstep, rfl⟩ := Option.map_eq_some_iff.mp hs
          exact h.webhook hguard hstep nofun nofun
  | command i =>
      simp only [Statuses.step] at hs
      split at hs
      · exact h.command rfl hguard hs
      · cases hs
  | swallow i executed =>
      simp only [Statuses.step] at hs
      split at hs
      · exact h.swallow rfl hs
      · cases hs
  | fail i executed =>
      simp only [Statuses.step] at hs
      split at hs
      · exact h.fail hs
      · cases hs
  | persist wamid sentAt =>
      cases hs
      exact h.keep keeps_persist

end

/-! ## Settled bodies -/

/-- Every delivery of the body is answered `200`, or every one is answered and the last
thing the provider was told is a success. -/
def Settled (s : Webhooks.State) (key : String) : Prop :=
  (∀ j stage, s.deliveries j = some (key, stage) →
    stage = .answered .ok ∨ stage = .answered .duplicate) ∨
  (∃ answer, s.told key = some answer ∧ answer ≠ .error) ∧
    ∀ j stage, s.deliveries j = some (key, stage) → ∃ answer, stage = .answered answer

theorem applied_of_settled {s : Webhooks.State} (h : Webhooks.Inv s) {i : Nat} {key : String}
    {stage : Webhooks.Stage} (hi : s.deliveries i = some (key, stage)) (hsettled : Settled s key) :
    key ∈ s.applied := by
  rcases hsettled with hall | ⟨⟨answer, htold, hsuccess⟩, hall⟩
  · exact h.applied_of_answered hi hall
  · exact h.applied_of_told htold hsuccess hall

/-- In every run in which each delivered, read or failed status is looked up after its row
is persisted, and no duplicate finds the marker of a delivery that failed or was given
up: a row has the timestamp of every sent, delivered, read and failed status of the
bodies that are settled. -/
theorem status_not_lost (statuses : String → List Status) {s : State} {events : List Event}
    (h : Runs.exec (step statuses) State.init events = some s)
    (hguard : Runs.Meets (step statuses) Guarded State.init events) :
    ∀ wamid send, s.sends wamid = some send →
      ∀ i key stage, s.webhooks.deliveries i = some (key, stage) → Settled s.webhooks key →
        ∀ status ∈ statuses key, status.wamid = wamid → status.verb.handled = true →
          send.timestamp status.verb ≠ none := by
  have hinv : Inv statuses s :=
    Runs.invariant (fun _ _ _ hI hC hs => hI.step hC hs) (inv_init statuses) hguard h
  intro wamid send hsend i key stage hi hsettled status hmem hwamid hhandled
  by_cases hwritten : status.verb.written = true
  · have hnamed : status.wamid ≠ "" := by
      intro hempty
      rw [← hwamid, hempty, hinv.named] at hsend
      cases hsend
    obtain ⟨send', hsend', htime⟩ := hinv.applied key
      (applied_of_settled hinv.webhooks hi hsettled) status hmem ⟨hnamed, hwritten⟩
    rw [hwamid, hsend] at hsend'
    cases hsend'
    exact htime
  · cases hverb : status.verb with
    | sent => exact Option.some_ne_none _
    | delivered | read | failed =>
        rw [hverb] at hwritten
        exact absurd rfl hwritten
    | unhandled verb =>
        rw [hverb] at hhandled
        cases hhandled

/-- The row is there before the delivered and the read status are looked up. -/
theorem status_not_lost_delivered : ∃ s send,
    Runs.exec (step fun _ => [⟨"w", .delivered⟩, ⟨"w", .read⟩]) State.init
      [.persist "w" 3, .webhook (.receive 0 "b"), .webhook (.isDuplicate 0), .command 0, .command 0,
        .command 0, .command 0, .command 0, .command 0, .command 0, .command 0, .command 0] =
        some s ∧ s.sends "w" = some send ∧ send.timestamp .read ≠ none := by
  refine ⟨_, _, rfl, rfl, status_not_lost (fun _ => [⟨"w", .delivered⟩, ⟨"w", .read⟩])
    (rfl : Runs.exec (step fun _ => [⟨"w", .delivered⟩, ⟨"w", .read⟩]) State.init
      [.persist "w" 3, .webhook (.receive 0 "b"), .webhook (.isDuplicate 0), .command 0, .command 0,
        .command 0, .command 0, .command 0, .command 0, .command 0, .command 0, .command 0] =
        some _) ?_ "w" _ rfl 0 "b" _ rfl (.inr ⟨⟨.ok, rfl, nofun⟩, ?_⟩) ⟨"w", .read⟩
    (List.mem_cons_of_mem _ (List.mem_singleton_self _)) rfl rfl⟩
  · have hother : ∀ {s : State} {i : Nat} {hd : Handling}, s.handlings i = hd →
        hd.command ≠ .findOne → Guarded s (.command i) := by
      rintro s i hd hi hne status rest heq _
      rw [hi] at heq
      exact absurd (congrArg Handling.command heq) hne
    have hfound : ∀ {s : State} {i : Nat} {hd : Handling}, s.handlings i = hd →
        (∀ status ∈ hd.rest, (s.sends status.wamid).isSome) → Guarded s (.command i) := by
      intro s i hd hi hall status rest heq _
      rw [hi] at heq
      exact hall status (heq ▸ List.mem_cons_self ..)
    have hmarker : ∀ {s : State}, s.webhooks.markers = (fun _ => none) →
        Guarded s (.webhook (.isDuplicate 0)) := by
      intro s hnone key marker _ hmarker
      rw [Webhooks.marker_eq_some, hnone] at hmarker
      cases hmarker.1
    have hsend : ∀ status ∈ [Status.mk "w" .delivered, Status.mk "w" .read],
        (Function.update (fun _ => none) "w" (some (Send.mk 3 none none none))
          status.wamid).isSome := by
      intro status hmem
      simp only [List.mem_cons, List.not_mem_nil, or_false] at hmem
      rcases hmem with rfl | rfl <;> rfl
    refine .cons trivial rfl (.cons trivial rfl (.cons (hmarker rfl) rfl
      (.cons (hother rfl nofun) rfl (.cons (hfound rfl hsend) rfl (.cons (hother rfl nofun) rfl
      (.cons (hother rfl nofun) rfl (.cons (hother rfl nofun) rfl (.cons (hfound rfl ?_) rfl
      (.cons (hother rfl nofun) rfl (.cons (hother rfl nofun) rfl
      (.cons (hother rfl nofun) rfl trivial)))))))))))
    intro status hmem
    cases List.mem_singleton.mp hmem
    rfl
  · intro j stage hj
    match j, hj with
    | 0, hj =>
        cases hj
        exact ⟨_, rfl⟩
    | j + 1, hj => cases hj

/-- The delivered status is looked up before its row: it is answered `200`, and the row
has no timestamp. -/
theorem status_lost : ∃ s send,
    Runs.exec (step fun _ => [⟨"w", .delivered⟩]) State.init
      [.webhook (.receive 0 "b"), .webhook (.isDuplicate 0), .command 0, .command 0, .command 0,
        .persist "w" 3] = some s ∧
      s.webhooks.deliveries 0 = some ("b", .answered .ok) ∧ s.webhooks.told "b" = some .ok ∧
      s.sends "w" = some send ∧ send.timestamp .delivered = none :=
  ⟨_, _, rfl, rfl, rfl, rfl, rfl⟩

end OpenBms.Whatsapp.Statuses
