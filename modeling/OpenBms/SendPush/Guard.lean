/-
# `OpenBms.SendPush.Guard` — the markers of a push that is sent

Before a push is sent, two keys are looked up: one of a push that is being processed, one of a
push that has been.  The first is set without waiting, for a minute; when the push has been sent
it is deleted, and the second is set for three minutes.  The keys are made of a few fields:

| push | fields of its keys | what tells it from others |
| :-- | :-- | :-- |
| of a step (`processSingle`) | automation, message, contact | the execution of the step |
| of a page (`process`) | campaign, page | the variant, the test, the run |

Workers take their steps in any order, and any call may fail.  A value of the store is the job
that the key was set for; the code stores `'true'`.

**Proved here.**

    what one step keeps (`Inv`, `step_inv`)
    where the markers are those of the same job, are set
    before it is looked up and last long enough, a push is
    skipped only for itself, is sent by one worker at a
    time, and its next step is forwarded once (`markers_guard`)
-/
import OpenBms.Lib.Expiring
import OpenBms.Lib.Text
import OpenBms.Packer.Batches
import OpenBms.SendPush.Endpoint

namespace OpenBms.SendPush.Guard

open Expiring

/-! ## Jobs and their keys -/

/-- A page of a campaign, as it is packed: the message is that of its variant; `run` counts the
runs of a recurring campaign. -/
structure CampaignMessage where
  campaignId : Nat
  page : Nat
  messageId : Option Nat
  testabMode : Bool
  run : Nat
  deriving DecidableEq

def mountPackages (campaignBatch : Packer.Job) (run : Nat) : CampaignMessage where
  campaignId := campaignBatch.campaign.id
  page := campaignBatch.page
  messageId := campaignBatch.campaign.campaignMessage.head?.map (·.messageId)
  testabMode := campaignBatch.campaign.testabMode
  run := run

/-- What is sent once: a page, or the push of one execution of a step. -/
inductive Job where
  | single (sendPushMessage : SendPushMessage) (execution : Nat)
  | page (campaignMessage : CampaignMessage)
  deriving DecidableEq

namespace Job

def idempotentProcessingKey : Job → String
  | .single m _ => "send-push-message-processing:" ++ (toString m.automationId ++ (":" ++
      (toString m.messageId ++ (":" ++ toString m.contactId))))
  | .page m => "send-push-campaign-page-processing:" ++ (toString m.campaignId ++ (":" ++
      toString m.page))

def idempotentKey : Job → String
  | .single m _ => "send-push-message-processed:" ++ (toString m.automationId ++ (":" ++
      (toString m.messageId ++ (":" ++ toString m.contactId))))
  | .page m => "send-push-campaign-page-processed:" ++ (toString m.campaignId ++ (":" ++
      toString m.page))

/-- A push of a contact without devices is not sent; the devices of a page are its contacts'. -/
def devices : Job → Bool
  | .single m _ => ! m.devices.isEmpty
  | .page _ => true

def forwards : Job → Bool
  | .single m _ => m.forwards
  | .page _ => false

end Job

/-! ## Deliveries -/

/-- What a delivery awaits. -/
inductive Stage where
  | existsProcessing
  | existsProcessed
  | formatting
  | sending
  | reporting
  | forwarding
  | clearing
  | marking
  | failing
  | ended
  deriving DecidableEq

/-- From the first look on, until it ends. -/
def Stage.past : Stage → Bool
  | .existsProcessing => false
  | .ended => false
  | _ => true

/-- There is no marker of the delivery, and none on its way. -/
def Stage.bare : Stage → Bool
  | .existsProcessing => true
  | .existsProcessed => true
  | .marking => true
  | .ended => true
  | _ => false

/-- The push is being sent, or has been and the delivery goes on. -/
def Stage.sends : Stage → Bool
  | .formatting => true
  | .sending => true
  | .reporting => true
  | .forwarding => true
  | .clearing => true
  | _ => false

/-- Whether an error is caught, and the marker deleted, before it is thrown. -/
def Stage.caught (job : Job) : Stage → Bool
  | .formatting =>
      match job with
      | .single .. => false
      | .page _ => true
  | .sending => true
  | .reporting => true
  | .forwarding => job.devices
  | .clearing => job.devices
  | .marking => job.devices
  | _ => false

/-- A delivery: `pending`, its processing marker is on its way; `marker`, it has been set, and not
been deleted. -/
structure Delivery where
  job : Job
  stage : Stage
  pending : Bool
  marker : Bool

/-- The deliveries, and what has happened to the jobs. -/
structure State where
  redis : Store String Job
  deliveries : Nat → Option Delivery
  sent : List Job
  skipped : List Job
  forwarded : List Job

def State.init : State := ⟨.empty 0, fun _ => none, [], [], []⟩

inductive Op where
  /-- a message is delivered -/
  | deliver (d : Nat) (job : Job)
  /-- the next key is looked up -/
  | look (d : Nat)
  /-- the processing marker is set -/
  | land (d : Nat)
  /-- the processing marker is not set -/
  | lose (d : Nat)
  /-- what the delivery awaits succeeds -/
  | answer (d : Nat)
  /-- what the delivery awaits fails -/
  | fail (d : Nat)
  /-- seconds pass -/
  | wait (t : Nat)

namespace State

variable (s : State)

def setDelivery (d : Nat) (x : Delivery) : State :=
  { s with deliveries := Function.update s.deliveries d (some x) }

def skip (d : Nat) (x : Delivery) : State :=
  { s.setDelivery d { x with stage := .ended } with skipped := s.skipped ++ [x.job] }

/-- The stage after a push has been sent, or has no devices. -/
def after (x : Delivery) : Stage := if x.job.forwards then .forwarding else .clearing

/-- `redisExists`, and what follows. -/
def look (d : Nat) (x : Delivery) : State :=
  match x.stage with
  | .existsProcessing =>
      if s.redis.has x.job.idempotentProcessingKey then s.skip d x
      else s.setDelivery d { x with stage := .existsProcessed }
  | .existsProcessed =>
      if s.redis.has x.job.idempotentKey then s.skip d x
      else if x.job.devices then s.setDelivery d { x with stage := .formatting, pending := true }
      else
        { s.setDelivery d { x with stage := after x, pending := true } with
          sent := s.sent ++ [x.job] }
  | _ => s

/-- The marker is deleted; one that was on its way has been set before. -/
def delProcessing (d : Nat) (x : Delivery) (stage : Stage) : State :=
  { s.setDelivery d { x with stage := stage, pending := false, marker := false } with
    redis := s.redis.del [x.job.idempotentProcessingKey] }

def answer (d : Nat) (x : Delivery) : State :=
  match x.stage with
  | .formatting => s.setDelivery d { x with stage := .sending }
  | .sending => { s.setDelivery d { x with stage := .reporting } with sent := s.sent ++ [x.job] }
  | .reporting => s.setDelivery d { x with stage := after x }
  | .forwarding =>
      { s.setDelivery d { x with stage := .clearing } with forwarded := s.forwarded ++ [x.job] }
  | .clearing => s.delProcessing d x .marking
  | .marking =>
      { s.setDelivery d { x with stage := .ended } with
        redis := s.redis.set x.job.idempotentKey x.job 180 }
  | .failing => s.delProcessing d x .ended
  | _ => s

def fail (d : Nat) (x : Delivery) : State :=
  s.setDelivery d { x with stage := if x.stage.caught x.job then .failing else .ended }

end State

def State.step (s : State) : Op → State
  | .deliver d job =>
      match s.deliveries d with
      | some _ => s
      | none => s.setDelivery d ⟨job, .existsProcessing, false, false⟩
  | .look d =>
      match s.deliveries d with
      | none => s
      | some x => s.look d x
  | .land d =>
      match s.deliveries d with
      | none => s
      | some x =>
          if x.pending then
            { s.setDelivery d { x with pending := false, marker := true } with
              redis := s.redis.set x.job.idempotentProcessingKey x.job 60 }
          else s
  | .lose d =>
      match s.deliveries d with
      | none => s
      | some x => s.setDelivery d { x with pending := false }
  | .answer d =>
      match s.deliveries d with
      | none => s
      | some x => s.answer d x
  | .fail d =>
      match s.deliveries d with
      | none => s
      | some x => s.fail d x
  | .wait t => { s with redis := s.redis.wait t }

/-! ## What the markers are for -/

/-- Two deliveries of one job are not processed at the same time. -/
def Excludes (s : State) : Prop :=
  ∀ d d' x x', s.deliveries d = some x → s.deliveries d' = some x' → x.stage.sends = true →
    x'.stage.sends = true → x.job = x'.job → d = d'

/-- The next step of a job is forwarded once at most, and once when the job was skipped or sent
and no delivery of it is in progress. -/
def Forwarded (s : State) : Prop :=
  ∀ job, s.forwarded.count job ≤ 1 ∧
    ((∀ d x, s.deliveries d = some x → x.stage.past = true → x.job ≠ job) → job.forwards = true →
      job ∈ s.skipped ∨ job ∈ s.sent → s.forwarded.count job = 1)

/-- A job that is skipped has been sent, or is being sent. -/
def Skips (s : State) (op : Op) : Prop :=
  ∀ job ∈ (s.step op).skipped, job ∈ s.skipped ∨ job ∈ s.sent ∨
    ∃ d x, s.deliveries d = some x ∧ x.stage.sends = true ∧ x.job = job

/-- A failure that does no harm: the marker is deleted, or there is none; nobody was skipped for a
push that is not sent; and no next step is left that was to be forwarded. -/
def Fails (s : State) (x : Delivery) : Prop :=
  (x.stage.caught x.job = true ∨ (x.pending = false ∧ x.marker = false)) ∧
    (x.stage = .formatting ∨ x.stage = .sending → x.job ∉ s.skipped) ∧
      (x.stage = .reporting ∨ x.stage = .forwarding → x.job.forwards = false)

/-- While another delivery is at work under the key, it is of the same job, and its marker is set;
a processed marker that is found is of the same job, and is there when the job has been sent.  A
processing marker lasts while its delivery does. -/
def Guarded (s : State) : Op → Prop
  | .look d => ∀ x, s.deliveries d = some x →
      (x.stage = .existsProcessing →
        ∀ d' x', d' ≠ d → s.deliveries d' = some x' → x'.stage.past = true →
          x'.job.idempotentProcessingKey = x.job.idempotentProcessingKey →
            x'.job = x.job ∧ x'.stage.sends = true ∧ x'.marker = true) ∧
      (x.stage = .existsProcessed →
        (∀ job, s.redis.get x.job.idempotentKey = some job → job = x.job) ∧
          (x.job ∈ s.sent → s.redis.has x.job.idempotentKey = true))
  | .wait t => ∀ d x, s.deliveries d = some x → x.stage.past = true → x.marker = true →
      (s.redis.wait t).has x.job.idempotentProcessingKey = true
  | .fail d => ∀ x, s.deliveries d = some x → Fails s x
  | _ => True

/-! ## The keys -/

theorem processingKey_ne (job job' : Job) : job.idempotentProcessingKey ≠ job'.idempotentKey := by
  cases job with
  | single m e =>
      cases job' with
      | single m' e' => exact Text.append_ne_append _ _ 26 (by decide) (by decide) (by decide)
      | page m' => exact Text.append_ne_append _ _ 11 (by decide) (by decide) (by decide)
  | page m =>
      cases job' with
      | single m' e' => exact Text.append_ne_append _ _ 11 (by decide) (by decide) (by decide)
      | page m' => exact Text.append_ne_append _ _ 32 (by decide) (by decide) (by decide)

/-! ## What the deliveries keep -/

/-- What the markers say. -/
structure Markers (s : State) : Prop where
  unique : ∀ d d' x x', s.deliveries d = some x → s.deliveries d' = some x' → x.stage.past = true →
    x'.stage.past = true → x.job.idempotentProcessingKey = x'.job.idempotentProcessingKey → d = d'
  early : ∀ d x, s.deliveries d = some x → x.stage.bare = true → x.pending = false ∧ x.marker = false
  marked : ∀ d x, s.deliveries d = some x → x.marker = true →
    s.redis.get x.job.idempotentProcessingKey = some x.job
  owned : ∀ job' job : Job, s.redis.get job'.idempotentProcessingKey = some job →
    job'.idempotentProcessingKey = job.idempotentProcessingKey ∧
      ∃ d x, s.deliveries d = some x ∧ x.marker = true ∧ x.job = job
  processed : ∀ job' job : Job, s.redis.get job'.idempotentKey = some job → job ∈ s.sent

/-- What has happened to the jobs. -/
structure Counts (s : State) : Prop where
  unsent : ∀ d x, s.deliveries d = some x → x.stage = .formatting ∨ x.stage = .sending →
    x.job ∉ s.sent
  sent : ∀ d x, s.deliveries d = some x → x.stage = .reporting ∨ x.stage = .forwarding ∨
    x.stage = .clearing ∨ x.stage = .marking → x.job ∈ s.sent
  waiting : ∀ d x, s.deliveries d = some x → x.stage = .reporting ∨ x.stage = .forwarding →
    s.forwarded.count x.job = 0
  zero : ∀ job, job ∉ s.sent → s.forwarded.count job = 0
  once : ∀ job, s.forwarded.count job ≤ 1
  due : ∀ job ∈ s.sent, job.forwards = true → s.forwarded.count job = 1 ∨
    ∃ d x, s.deliveries d = some x ∧ x.job = job ∧ (x.stage = .reporting ∨ x.stage = .forwarding)
  skipped : ∀ job ∈ s.skipped, job ∈ s.sent ∨
    ∃ d x, s.deliveries d = some x ∧ x.stage.sends = true ∧ x.job = job

structure Inv (s : State) : Prop where
  markers : Markers s
  counts : Counts s

section
variable {s s' : State} {d : Nat} {x x' : Delivery}

theorem deliveries_set {i : Nat} {y : Delivery}
    (hset : s'.deliveries = Function.update s.deliveries d (some x')) (h : s'.deliveries i = some y) :
    i = d ∧ y = x' ∨ i ≠ d ∧ s.deliveries i = some y := by
  rw [hset] at h
  rcases eq_or_ne i d with rfl | hne
  · rw [Function.update_self] at h
    exact .inl ⟨rfl, (Option.some_inj.mp h).symm⟩
  · rw [Function.update_of_ne hne] at h
    exact .inr ⟨hne, h⟩

theorem bare_of_not_past {stage : Stage} (h : stage.past = false) : stage.bare = true := by
  cases stage with
  | existsProcessing => rfl
  | ended => rfl
  | _ => cases h

theorem Markers.past (h : Markers s) (hx : s.deliveries d = some x) (hmarker : x.marker = true) :
    x.stage.past = true := by
  refine Bool.eq_true_of_not_eq_false fun hpast => ?_
  exact Bool.false_ne_true ((h.early d x hx (bare_of_not_past hpast)).2.symm.trans hmarker)

theorem Markers.update (h : Markers s) (hredis : s'.redis = s.redis)
    (hset : s'.deliveries = Function.update s.deliveries d (some x')) (hsent : s.sent ⊆ s'.sent)
    (hunique : x'.stage.past = true → ∀ i y, i ≠ d → s.deliveries i = some y → y.stage.past = true →
      y.job.idempotentProcessingKey ≠ x'.job.idempotentProcessingKey)
    (hearly : x'.stage.bare = true → x'.pending = false ∧ x'.marker = false)
    (hmarked : x'.marker = true → ∃ x, s.deliveries d = some x ∧ x.marker = true ∧ x.job = x'.job)
    (howned : ∀ x, s.deliveries d = some x → x.marker = true → x'.marker = true ∧ x'.job = x.job) :
    Markers s' := by
  refine ⟨fun i j y z hy hz hpast hpast' hkey => ?_, fun i y hy hstage => ?_, fun i y hy hmarker => ?_,
    fun job' job hget => ?_, fun job' job hget => ?_⟩
  · rcases deliveries_set hset hy with ⟨rfl, rfl⟩ | ⟨hi, hy⟩
    · rcases deliveries_set hset hz with ⟨rfl, rfl⟩ | ⟨hj, hz⟩
      · rfl
      · exact (hunique hpast j z hj hz hpast' hkey.symm).elim
    · rcases deliveries_set hset hz with ⟨rfl, rfl⟩ | ⟨hj, hz⟩
      · exact (hunique hpast' i y hi hy hpast hkey).elim
      · exact h.unique i j y z hy hz hpast hpast' hkey
  · rcases deliveries_set hset hy with ⟨rfl, rfl⟩ | ⟨-, hy⟩
    · exact hearly hstage
    · exact h.early i y hy hstage
  · rw [hredis]
    rcases deliveries_set hset hy with ⟨rfl, rfl⟩ | ⟨-, hy⟩
    · obtain ⟨x, hx, hold, hjob⟩ := hmarked hmarker
      rw [← hjob]
      exact h.marked i x hx hold
    · exact h.marked i y hy hmarker
  · rw [hredis] at hget
    obtain ⟨hkey, i, y, hy, hmarker, hjob⟩ := h.owned job' job hget
    refine ⟨hkey, ?_⟩
    rcases eq_or_ne i d with rfl | hi
    · obtain ⟨hmarker', hjob'⟩ := howned y hy hmarker
      exact ⟨i, x', by rw [hset, Function.update_self], hmarker', hjob'.trans hjob⟩
    · exact ⟨i, y, by rw [hset, Function.update_of_ne hi, hy], hmarker, hjob⟩
  · rw [hredis] at hget
    exact hsent (h.processed job' job hget)

theorem Markers.goOn (h : Markers s) (hx : s.deliveries d = some x) (hredis : s'.redis = s.redis)
    (hset : s'.deliveries = Function.update s.deliveries d (some x')) (hsent : s.sent ⊆ s'.sent)
    (hjob : x'.job = x.job) (hmarker : x'.marker = x.marker)
    (hpast : x'.stage.past = true → x.stage.past = true)
    (hearly : x'.stage.bare = true → x'.pending = false ∧ x'.marker = false) : Markers s' := by
  refine h.update hredis hset hsent (fun hpast' i y hi hy hy' hkey => ?_) hearly (fun hm => ?_)
    (fun y hy hm => ?_)
  · rw [hjob] at hkey
    exact hi (h.unique i d y x hy hx hy' (hpast hpast') hkey)
  · exact ⟨x, hx, hmarker ▸ hm, hjob.symm⟩
  · cases hx.symm.trans hy
    exact ⟨hmarker ▸ hm, hjob⟩

theorem Markers.land (h : Markers s) (hx : s.deliveries d = some x) (hpending : x.pending = true) :
    Markers { s.setDelivery d { x with pending := false, marker := true } with
      redis := s.redis.set x.job.idempotentProcessingKey x.job 60 } := by
  have hearly : ¬ x.stage.bare = true := fun hstage =>
    Bool.false_ne_true ((h.early d x hx hstage).1.symm.trans hpending)
  have hpast : x.stage.past = true :=
    Bool.eq_true_of_not_eq_false fun hpast => hearly (bare_of_not_past hpast)
  refine ⟨fun i j y z hy hz hy' hz' hkey => ?_, fun i y hy hstage => ?_, fun i y hy hm => ?_,
    fun job' job hget => ?_, fun job' job hget => ?_⟩
  · rcases deliveries_set rfl hy with ⟨rfl, rfl⟩ | ⟨-, hold⟩
    · rcases deliveries_set rfl hz with ⟨rfl, rfl⟩ | ⟨-, hold'⟩
      · rfl
      · exact h.unique i j x z hx hold' hy' hz' hkey
    · rcases deliveries_set rfl hz with ⟨rfl, rfl⟩ | ⟨-, hold'⟩
      · exact h.unique i j y x hold hx hy' hz' hkey
      · exact h.unique i j y z hold hold' hy' hz' hkey
  · rcases deliveries_set rfl hy with ⟨rfl, rfl⟩ | ⟨-, hy⟩
    · exact (hearly hstage).elim
    · exact h.early i y hy hstage
  · show (s.redis.set _ _ 60).get _ = _
    rcases deliveries_set rfl hy with ⟨rfl, rfl⟩ | ⟨hi, hy⟩
    · exact Store.get_set_self
    · rw [Store.get_set_ne fun hkey => hi (h.unique i d y x hy hx (h.past hy hm) hpast hkey)]
      exact h.marked i y hy hm
  · have hself : (s.setDelivery d { x with pending := false, marker := true }).deliveries d =
        some { x with pending := false, marker := true } := Function.update_self ..
    have hget : (s.redis.set x.job.idempotentProcessingKey x.job 60).get
        job'.idempotentProcessingKey = some job := hget
    rw [Store.get_set] at hget
    split at hget
    next hkey =>
      cases hget
      exact ⟨hkey, d, _, hself, rfl, rfl⟩
    next hkey =>
      obtain ⟨hsame, i, y, hy, hm, hjob⟩ := h.owned job' job hget
      refine ⟨hsame, ?_⟩
      rcases eq_or_ne i d with rfl | hi
      · cases hx.symm.trans hy
        exact ⟨i, _, hself, rfl, hjob⟩
      · exact ⟨i, y, (Function.update_of_ne hi ..).trans hy, hm, hjob⟩
  · have hget : (s.redis.set x.job.idempotentProcessingKey x.job 60).get job'.idempotentKey = some job :=
      hget
    rw [Store.get_set_ne (processingKey_ne x.job job').symm] at hget
    exact h.processed job' job hget

theorem Markers.del (h : Markers s) (hx : s.deliveries d = some x) (hpast : x.stage.past = true)
    {stage : Stage} : Markers (s.delProcessing d x stage) := by
  have hother : ∀ i y, i ≠ d → s.deliveries i = some y → y.marker = true →
      ¬ y.job.idempotentProcessingKey = x.job.idempotentProcessingKey := by
    intro i y hi hy hm hkey
    exact hi (h.unique i d y x hy hx (h.past hy hm) hpast hkey)
  have hgone : ∀ job : Job, (s.redis.del [x.job.idempotentProcessingKey]).get job.idempotentProcessingKey =
      if job.idempotentProcessingKey = x.job.idempotentProcessingKey then none
      else s.redis.get job.idempotentProcessingKey := by
    intro job
    rw [Store.get_del]
    exact if_congr (List.contains_iff_mem.trans List.mem_singleton) rfl rfl
  refine ⟨fun i j y z hy hz hy' hz' hkey => ?_, fun i y hy hstage => ?_, fun i y hy hm => ?_,
    fun job' job hget => ?_, fun job' job hget => ?_⟩
  · rcases deliveries_set rfl hy with ⟨rfl, rfl⟩ | ⟨-, hold⟩
    · rcases deliveries_set rfl hz with ⟨rfl, rfl⟩ | ⟨-, hold'⟩
      · rfl
      · exact h.unique i j x z hx hold' hpast hz' hkey
    · rcases deliveries_set rfl hz with ⟨rfl, rfl⟩ | ⟨-, hold'⟩
      · exact h.unique i j y x hold hx hy' hpast hkey
      · exact h.unique i j y z hold hold' hy' hz' hkey
  · rcases deliveries_set rfl hy with ⟨rfl, rfl⟩ | ⟨-, hy⟩
    · exact ⟨rfl, rfl⟩
    · exact h.early i y hy hstage
  · rcases deliveries_set rfl hy with ⟨rfl, rfl⟩ | ⟨hi, hy⟩
    · cases hm
    · show (s.redis.del _).get _ = _
      rw [hgone, if_neg (hother i y hi hy hm)]
      exact h.marked i y hy hm
  · have hget : (s.redis.del [x.job.idempotentProcessingKey]).get job'.idempotentProcessingKey =
        some job := hget
    rw [hgone] at hget
    split at hget
    · cases hget
    next hkey =>
      obtain ⟨hsame, i, y, hy, hm, rfl⟩ := h.owned job' job hget
      refine ⟨hsame, i, y, (Function.update_of_ne ?_ ..).trans hy, hm, rfl⟩
      rintro rfl
      cases hx.symm.trans hy
      exact hkey hsame
  · have hget : (s.redis.del [x.job.idempotentProcessingKey]).get job'.idempotentKey = some job := hget
    rw [Store.get_del, if_neg ?_] at hget
    · exact h.processed job' job hget
    · intro hmem
      exact processingKey_ne x.job job' (List.mem_singleton.mp (List.contains_iff_mem.mp hmem)).symm

theorem Markers.mark (h : Markers s) (hx : s.deliveries d = some x)
    (hmarker : x.pending = false ∧ x.marker = false) (hsent : x.job ∈ s.sent) :
    Markers { s.setDelivery d { x with stage := .ended } with
      redis := s.redis.set x.job.idempotentKey x.job 180 } := by
  have hended : Markers (s.setDelivery d { x with stage := .ended }) :=
    h.goOn hx rfl rfl (fun _ hj => hj) rfl rfl nofun fun _ => hmarker
  have hget : ∀ job : Job, (s.redis.set x.job.idempotentKey x.job 180).get job.idempotentProcessingKey =
      s.redis.get job.idempotentProcessingKey :=
    fun job => Store.get_set_ne (processingKey_ne job x.job)
  refine ⟨hended.unique, hended.early, fun i y hy hm => (hget y.job).trans (hended.marked i y hy hm),
    fun job' job hjob => hended.owned job' job ((hget job').symm.trans hjob), fun job' job hjob => ?_⟩
  have hjob : (s.redis.set x.job.idempotentKey x.job 180).get job'.idempotentKey = some job := hjob
  rw [Store.get_set] at hjob
  split at hjob
  · cases hjob
    exact hsent
  · exact h.processed job' job hjob

theorem Markers.wait (h : Markers s) {t : Nat} (hlast : ∀ d x, s.deliveries d = some x →
    x.stage.past = true → x.marker = true → (s.redis.wait t).has x.job.idempotentProcessingKey = true) :
    Markers { s with redis := s.redis.wait t } := by
  refine ⟨h.unique, h.early, fun i y hy hm => ?_, fun job' job hget => ?_, fun job' job hget => ?_⟩
  · obtain ⟨job, hjob⟩ := Store.has_iff.mp (hlast i y hy (h.past hy hm) hm)
    have hbefore := Store.get_of_wait hjob
    rw [h.marked i y hy hm] at hbefore
    exact hjob.trans hbefore.symm
  · exact h.owned job' job (Store.get_of_wait hget)
  · exact h.processed job' job (Store.get_of_wait hget)

/-! ### What has happened -/

theorem deliveries_self (hset : s'.deliveries = Function.update s.deliveries d (some x')) :
    s'.deliveries d = some x' := by
  rw [hset, Function.update_self]

theorem deliveries_ne {i : Nat} {y : Delivery} (hi : i ≠ d)
    (hset : s'.deliveries = Function.update s.deliveries d (some x')) (hy : s.deliveries i = some y) :
    s'.deliveries i = some y := by
  rw [hset, Function.update_of_ne hi, hy]

theorem Counts.update (h : Counts s) (hset : s'.deliveries = Function.update s.deliveries d (some x'))
    (hsent : s'.sent = s.sent) (hforwarded : s'.forwarded = s.forwarded)
    (hunsent : x'.stage = .formatting ∨ x'.stage = .sending → x'.job ∉ s.sent)
    (hissent : x'.stage = .reporting ∨ x'.stage = .forwarding ∨ x'.stage = .clearing ∨
      x'.stage = .marking → x'.job ∈ s.sent)
    (hwaiting : x'.stage = .reporting ∨ x'.stage = .forwarding → s.forwarded.count x'.job = 0)
    (hdue : ∀ x, s.deliveries d = some x → x.stage = .reporting ∨ x.stage = .forwarding →
      x.job.forwards = true → x'.job = x.job ∧ (x'.stage = .reporting ∨ x'.stage = .forwarding))
    (hskipped : ∀ job ∈ s'.skipped, job ∈ s.sent ∨ ∃ i y, s'.deliveries i = some y ∧
      y.stage.sends = true ∧ y.job = job) : Counts s' := by
  refine ⟨fun i y hy hstage => ?_, fun i y hy hstage => ?_, fun i y hy hstage => ?_, fun job hjob => ?_,
    fun job => ?_, fun job hjob hforwards => ?_, fun job hjob => ?_⟩
  · rw [hsent]
    rcases deliveries_set hset hy with ⟨rfl, rfl⟩ | ⟨-, hy⟩
    · exact hunsent hstage
    · exact h.unsent i y hy hstage
  · rw [hsent]
    rcases deliveries_set hset hy with ⟨rfl, rfl⟩ | ⟨-, hy⟩
    · exact hissent hstage
    · exact h.sent i y hy hstage
  · rw [hforwarded]
    rcases deliveries_set hset hy with ⟨rfl, rfl⟩ | ⟨-, hy⟩
    · exact hwaiting hstage
    · exact h.waiting i y hy hstage
  · rw [hforwarded]
    exact h.zero job (hsent ▸ hjob)
  · rw [hforwarded]
    exact h.once job
  · rw [hforwarded]
    refine (h.due job (hsent ▸ hjob) hforwards).imp_right ?_
    rintro ⟨i, y, hy, rfl, hstage⟩
    rcases eq_or_ne i d with rfl | hi
    · obtain ⟨hsame, hstage'⟩ := hdue y hy hstage hforwards
      exact ⟨i, x', deliveries_self hset, hsame, hstage'⟩
    · exact ⟨i, y, deliveries_ne hi hset hy, rfl, hstage⟩
  · rw [hsent]
    exact hskipped job hjob

theorem Counts.skipped_update (h : Counts s)
    (hset : s'.deliveries = Function.update s.deliveries d (some x'))
    (hsends : ∀ x, s.deliveries d = some x → x.stage.sends = true → x.job ∈ s.skipped →
      x.job ∈ s.sent ∨ (x'.stage.sends = true ∧ x'.job = x.job)) {job : Job} (hjob : job ∈ s.skipped) :
    job ∈ s.sent ∨ ∃ i y, s'.deliveries i = some y ∧ y.stage.sends = true ∧ y.job = job := by
  rcases h.skipped job hjob with hsent | ⟨i, y, hy, hy', rfl⟩
  · exact .inl hsent
  rcases eq_or_ne i d with rfl | hi
  · exact (hsends y hy hy' hjob).imp_right fun ⟨hstage, hsame⟩ =>
      ⟨i, x', deliveries_self hset, hstage, hsame⟩
  · exact .inr ⟨i, y, deliveries_ne hi hset hy, hy', rfl⟩

theorem Counts.send (h : Counts s) (hx : s.deliveries d = some x)
    (hset : s'.deliveries = Function.update s.deliveries d (some x')) (hjob : x'.job = x.job)
    (hsent : s'.sent = s.sent ++ [x.job]) (hforwarded : s'.forwarded = s.forwarded)
    (hskipped : s'.skipped = s.skipped) (hnot : x.job ∉ s.sent)
    (hstage : x.stage = .sending ∨ x.stage = .existsProcessed)
    (hstage' : x'.stage = .reporting ∨ (x.job.forwards = true ∧ x'.stage = .forwarding) ∨
      (x.job.forwards = false ∧ x'.stage = .clearing))
    (hothers : ∀ i y, i ≠ d → s.deliveries i = some y → y.stage.past = true → y.job ≠ x.job) :
    Counts s' := by
  have hmem : ∀ job, job ∈ s'.sent ↔ job ∈ s.sent ∨ job = x.job := fun job => by
    rw [hsent, List.mem_append, List.mem_singleton]
  refine ⟨fun i y hy hst => ?_, fun i y hy hst => ?_, fun i y hy hst => ?_, fun job hj => ?_,
    fun job => ?_, fun job hj hforwards => ?_, fun job hj => ?_⟩
  · rw [hmem]
    rcases deliveries_set hset hy with ⟨rfl, rfl⟩ | ⟨hi, hy⟩
    · rcases hstage' with h' | ⟨-, h'⟩ | ⟨-, h'⟩ <;> rw [h'] at hst <;> rcases hst with hst | hst <;> cases hst
    · rintro (hy' | hy')
      · exact h.unsent i y hy hst hy'
      · refine hothers i y hi hy ?_ hy'
        rcases hst with hst | hst <;> rw [hst] <;> rfl
  · rw [hmem]
    rcases deliveries_set hset hy with ⟨rfl, rfl⟩ | ⟨-, hy⟩
    · exact .inr hjob
    · exact .inl (h.sent i y hy hst)
  · rw [hforwarded]
    rcases deliveries_set hset hy with ⟨rfl, rfl⟩ | ⟨-, hy⟩
    · rw [hjob]
      exact h.zero x.job hnot
    · exact h.waiting i y hy hst
  · rw [hforwarded]
    exact h.zero job fun hold => hj ((hmem job).mpr (.inl hold))
  · rw [hforwarded]
    exact h.once job
  · rw [hforwarded]
    rcases (hmem job).mp hj with hold | rfl
    · refine (h.due job hold hforwards).imp_right ?_
      rintro ⟨i, y, hy, rfl, hst⟩
      refine ⟨i, y, deliveries_ne ?_ hset hy, rfl, hst⟩
      rintro rfl
      cases hx.symm.trans hy
      rcases hstage with h' | h' <;> rw [h'] at hst <;> rcases hst with hst | hst <;> cases hst
    · refine .inr ⟨d, x', deliveries_self hset, hjob, ?_⟩
      rcases hstage' with h' | ⟨-, h'⟩ | ⟨hno, -⟩
      · exact .inl h'
      · exact .inr h'
      · cases hno.symm.trans hforwards
  · rw [hskipped] at hj
    rcases h.skipped job hj with hold | ⟨i, y, hy, hy', rfl⟩
    · exact .inl ((hmem job).mpr (.inl hold))
    rcases eq_or_ne i d with rfl | hi
    · cases hx.symm.trans hy
      exact .inl ((hmem _).mpr (.inr rfl))
    · exact .inr ⟨i, y, deliveries_ne hi hset hy, hy', rfl⟩

theorem Counts.forward (h : Counts s) (hx : s.deliveries d = some x) (hstage : x.stage = .forwarding)
    (hothers : ∀ i y, i ≠ d → s.deliveries i = some y → y.stage.past = true → y.job ≠ x.job) :
    Counts { s.setDelivery d { x with stage := .clearing } with
      forwarded := s.forwarded ++ [x.job] } := by
  have hsent : x.job ∈ s.sent := h.sent d x hx (.inr (.inl hstage))
  have hzero : s.forwarded.count x.job = 0 := h.waiting d x hx (.inr hstage)
  have hself : (s.forwarded ++ [x.job]).count x.job = 1 := by
    rw [List.count_append, hzero, List.count_singleton_self]
  have hne : ∀ job, job ≠ x.job → (s.forwarded ++ [x.job]).count job = s.forwarded.count job := by
    intro job hjob
    rw [List.count_append, List.count_singleton, if_neg (by simpa using hjob.symm)]
    rfl
  have hpast : ∀ {stage : Stage}, stage = .reporting ∨ stage = .forwarding → stage.past = true := by
    rintro stage (rfl | rfl) <;> rfl
  refine ⟨fun i y hy hst => ?_, fun i y hy hst => ?_, fun i y hy hst => ?_, fun job hj => ?_,
    fun job => ?_, fun job hj hforwards => ?_, fun job hj => ?_⟩
  · rcases deliveries_set rfl hy with ⟨rfl, rfl⟩ | ⟨-, hy⟩
    · rcases hst with hst | hst <;> cases hst
    · exact h.unsent i y hy hst
  · rcases deliveries_set rfl hy with ⟨rfl, rfl⟩ | ⟨-, hy⟩
    · exact hsent
    · exact h.sent i y hy hst
  · rcases deliveries_set rfl hy with ⟨rfl, rfl⟩ | ⟨hi, hy⟩
    · rcases hst with hst | hst <;> cases hst
    · exact (hne y.job (hothers i y hi hy (hpast hst))).trans (h.waiting i y hy hst)
  · exact (hne job fun heq => hj (heq ▸ hsent)).trans (h.zero job hj)
  · show (s.forwarded ++ [x.job]).count job ≤ 1
    rcases eq_or_ne job x.job with rfl | hjob
    · exact hself.le
    · exact (hne job hjob).trans_le (h.once job)
  · show (s.forwarded ++ [x.job]).count job = 1 ∨ _
    rcases eq_or_ne job x.job with rfl | hjob
    · exact .inl hself
    · rw [hne job hjob]
      refine (h.due job hj hforwards).imp_right ?_
      rintro ⟨i, y, hy, rfl, hst⟩
      refine ⟨i, y, deliveries_ne ?_ rfl hy, rfl, hst⟩
      rintro rfl
      cases hx.symm.trans hy
      exact hjob rfl
  · refine h.skipped_update rfl (fun y hy _ _ => ?_) hj
    cases hx.symm.trans hy
    exact .inl hsent

theorem Counts.same (h : Counts s) (hx : s.deliveries d = some x)
    (hset : s'.deliveries = Function.update s.deliveries d (some x')) (hjob : x'.job = x.job)
    (hstage : x'.stage = x.stage) (hsent : s'.sent = s.sent) (hforwarded : s'.forwarded = s.forwarded)
    (hskipped : s'.skipped = s.skipped) : Counts s' := by
  refine h.update hset hsent hforwarded ?_ ?_ ?_ ?_ ?_
  · rw [hjob, hstage]
    exact h.unsent d x hx
  · rw [hjob, hstage]
    exact h.sent d x hx
  · rw [hjob, hstage]
    exact h.waiting d x hx
  · intro y hy hst _
    cases hx.symm.trans hy
    exact ⟨hjob, hstage ▸ hst⟩
  · intro job hj
    refine h.skipped_update hset (fun y hy hst _ => ?_) (hskipped ▸ hj)
    cases hx.symm.trans hy
    exact .inr ⟨hstage ▸ hst, hjob⟩

/-- A delivery that is no longer at work, or not yet. -/
theorem Counts.rest (h : Counts s) (hx : s.deliveries d = some x)
    (hset : s'.deliveries = Function.update s.deliveries d (some x')) (hsent : s'.sent = s.sent)
    (hforwarded : s'.forwarded = s.forwarded)
    (hskipped : ∀ job ∈ s'.skipped, job ∈ s.skipped ∨ job ∈ s.sent ∨ ∃ i y, i ≠ d ∧
      s.deliveries i = some y ∧ y.stage.sends = true ∧ y.job = job)
    (hstage' : x'.stage = .ended ∨ x'.stage = .existsProcessed)
    (hstage : x.stage ≠ .reporting ∧ x.stage ≠ .forwarding)
    (hdone : x.stage.sends = true → x.job ∈ s.skipped → x.job ∈ s.sent) : Counts s' := by
  refine h.update hset hsent hforwarded ?_ ?_ ?_ ?_ ?_
  · rcases hstage' with h' | h' <;> rw [h'] <;> rintro (h | h) <;> cases h
  · rcases hstage' with h' | h' <;> rw [h'] <;> rintro (h | h | h | h) <;> cases h
  · rcases hstage' with h' | h' <;> rw [h'] <;> rintro (h | h) <;> cases h
  · intro y hy hst _
    cases hx.symm.trans hy
    exact (hst.elim hstage.1 hstage.2).elim
  · intro job hj
    rcases hskipped job hj with hold | hold | ⟨i, y, hi, hy, hst, hjob⟩
    · refine h.skipped_update hset (fun y hy hst hs => ?_) hold
      cases hx.symm.trans hy
      exact .inl (hdone hst hs)
    · exact .inl hold
    · exact .inr ⟨i, y, deliveries_ne hi hset hy, hst, hjob⟩

/-! ### The steps -/

theorem after_cases (x : Delivery) : (x.job.forwards = true ∧ State.after x = .forwarding) ∨
    (x.job.forwards = false ∧ State.after x = .clearing) := by
  unfold State.after
  cases x.job.forwards with
  | true => exact .inl ⟨rfl, rfl⟩
  | false => exact .inr ⟨rfl, rfl⟩

theorem after_bare (x : Delivery) : ¬ (State.after x).bare = true := by
  rcases after_cases x with ⟨-, h⟩ | ⟨-, h⟩ <;> rw [h] <;> exact nofun

theorem Markers.others (h : Markers s) (hx : s.deliveries d = some x) (hpast : x.stage.past = true) :
    ∀ i y, i ≠ d → s.deliveries i = some y → y.stage.past = true → y.job ≠ x.job :=
  fun i y hi hy hy' hjob => hi (h.unique i d y x hy hx hy' hpast (congrArg _ hjob))

theorem Inv.deliver (h : Inv s) (hnone : s.deliveries d = none) (job : Job) :
    Inv (s.setDelivery d ⟨job, .existsProcessing, false, false⟩) := by
  have hold : ∀ {P : Delivery → Prop} x, s.deliveries d = some x → P x :=
    fun x hx => nomatch hnone.symm.trans hx
  constructor
  · exact h.markers.update rfl rfl (fun _ hj => hj) nofun (fun _ => ⟨rfl, rfl⟩) nofun hold
  · refine h.counts.update rfl rfl rfl ?_ ?_ ?_ hold ?_
    · rintro (hst | hst) <;> cases hst
    · rintro (hst | hst | hst | hst) <;> cases hst
    · rintro (hst | hst) <;> cases hst
    · exact fun job hj => h.counts.skipped_update rfl hold hj

theorem Inv.lookProcessing (h : Inv s) (hx : s.deliveries d = some x)
    (hstage : x.stage = .existsProcessing)
    (hwork : ∀ d' x', d' ≠ d → s.deliveries d' = some x' → x'.stage.past = true →
      x'.job.idempotentProcessingKey = x.job.idempotentProcessingKey →
        x'.job = x.job ∧ x'.stage.sends = true ∧ x'.marker = true) : Inv (s.look d x) := by
  obtain ⟨hpending, hmarker⟩ := h.markers.early d x hx (by rw [hstage]; rfl)
  unfold State.look
  rw [hstage]
  dsimp only
  split
  next hhas =>
    -- the marker that is found is that of a delivery at work
    obtain ⟨job, hget⟩ := Store.has_iff.mp hhas
    obtain ⟨hkey, i, y, hy, hm, hjob⟩ := h.markers.owned x.job job hget
    have hi : i ≠ d := by
      rintro rfl
      cases hx.symm.trans hy
      exact Bool.false_ne_true (hmarker.symm.trans hm)
    have hy' := hwork i y hi hy (h.markers.past hy hm) (hjob ▸ hkey.symm)
    constructor
    · exact h.markers.goOn hx rfl rfl (fun _ hj => hj) rfl rfl nofun fun _ => ⟨hpending, hmarker⟩
    · refine h.counts.rest hx rfl rfl rfl (fun job' hj => ?_) (.inl rfl) ?_ ?_
      · rcases List.mem_append.mp hj with hj | hj
        · exact .inl hj
        · rw [List.mem_singleton.mp hj]
          exact .inr (.inr ⟨i, y, hi, hy, hy'.2.1, hy'.1⟩)
      · rw [hstage]
        exact ⟨nofun, nofun⟩
      · rw [hstage]
        exact nofun
  next hhas =>
    constructor
    · refine h.markers.update rfl rfl (fun _ hj => hj) (fun _ i y hi hy hpast hkey => ?_)
        (fun _ => ⟨hpending, hmarker⟩) (fun hm => ?_) fun y hy hm => ?_
      · obtain ⟨-, -, hm⟩ := hwork i y hi hy hpast hkey
        have hget := h.markers.marked i y hy hm
        rw [hkey] at hget
        exact hhas (Store.has_iff.mpr ⟨_, hget⟩)
      · exact (Bool.false_ne_true (hmarker.symm.trans hm)).elim
      · cases hx.symm.trans hy
        exact (Bool.false_ne_true (hmarker.symm.trans hm)).elim
    · refine h.counts.rest hx rfl rfl rfl (fun job' hj => .inl hj) (.inr rfl) ?_ ?_
      · rw [hstage]
        exact ⟨nofun, nofun⟩
      · rw [hstage]
        exact nofun

theorem Inv.lookProcessed (h : Inv s) (hx : s.deliveries d = some x)
    (hstage : x.stage = .existsProcessed)
    (hown : ∀ job, s.redis.get x.job.idempotentKey = some job → job = x.job)
    (hlast : x.job ∈ s.sent → s.redis.has x.job.idempotentKey = true) : Inv (s.look d x) := by
  obtain ⟨hpending, hmarker⟩ := h.markers.early d x hx (by rw [hstage]; rfl)
  have hpast : x.stage.past = true := by rw [hstage]; rfl
  have hnot : x.stage ≠ .reporting ∧ x.stage ≠ .forwarding := by rw [hstage]; exact ⟨nofun, nofun⟩
  have hsends : x.stage.sends = true → x.job ∈ s.skipped → x.job ∈ s.sent := by rw [hstage]; exact nofun
  unfold State.look
  rw [hstage]
  dsimp only
  split
  next hhas =>
    obtain ⟨job, hget⟩ := Store.has_iff.mp hhas
    have hsent : x.job ∈ s.sent := hown job hget ▸ h.markers.processed x.job job hget
    constructor
    · exact h.markers.goOn hx rfl rfl (fun _ hj => hj) rfl rfl nofun fun _ => ⟨hpending, hmarker⟩
    · refine h.counts.rest hx rfl rfl rfl (fun job' hj => ?_) (.inl rfl) hnot hsends
      rcases List.mem_append.mp hj with hj | hj
      · exact .inl hj
      · rw [List.mem_singleton.mp hj]
        exact .inr (.inl hsent)
  next hhas =>
    have hunsent : x.job ∉ s.sent := fun hsent => hhas (hlast hsent)
    split
    · constructor
      · exact h.markers.goOn hx rfl rfl (fun _ hj => hj) rfl rfl (fun _ => hpast) nofun
      · refine h.counts.update rfl rfl rfl (fun _ => hunsent) ?_ ?_ ?_ ?_
        · rintro (hst | hst | hst | hst) <;> cases hst
        · rintro (hst | hst) <;> cases hst
        · intro y hy hst
          cases hx.symm.trans hy
          exact (hst.elim hnot.1 hnot.2).elim
        · intro job hj
          refine h.counts.skipped_update rfl (fun y hy hst hs => ?_) hj
          cases hx.symm.trans hy
          exact .inl (hsends hst hs)
    · constructor
      · exact h.markers.goOn hx rfl rfl (fun _ hj => List.mem_append_left _ hj) rfl rfl
          (fun _ => hpast) (fun hbare => (after_bare x hbare).elim)
      · exact h.counts.send hx rfl rfl rfl rfl rfl hunsent (.inr hstage) (.inr (after_cases x))
          (h.markers.others hx hpast)

/-- What the delivery awaits succeeds. -/
theorem Inv.answer (h : Inv s) (hx : s.deliveries d = some x) : Inv (s.answer d x) := by
  have hothers := h.markers.others hx
  unfold State.answer
  cases hstage : x.stage with
  | existsProcessing => exact h
  | existsProcessed => exact h
  | ended => exact h
  | formatting =>
      constructor
      · exact h.markers.goOn hx rfl rfl (fun _ hj => hj) rfl rfl (fun _ => by rw [hstage]; rfl)
          nofun
      · refine h.counts.update rfl rfl rfl (fun _ => h.counts.unsent d x hx (.inl hstage)) ?_ ?_ ?_ ?_
        · rintro (hst | hst | hst | hst) <;> cases hst
        · rintro (hst | hst) <;> cases hst
        · intro y hy hst
          cases hx.symm.trans hy
          rw [hstage] at hst
          rcases hst with hst | hst <;> cases hst
        · intro job hj
          refine h.counts.skipped_update rfl (fun y hy _ _ => ?_) hj
          cases hx.symm.trans hy
          exact .inr ⟨rfl, rfl⟩
  | sending =>
      constructor
      · exact h.markers.goOn hx rfl rfl (fun _ hj => List.mem_append_left _ hj) rfl rfl
          (fun _ => by rw [hstage]; rfl) nofun
      · exact h.counts.send hx rfl rfl rfl rfl rfl (h.counts.unsent d x hx (.inr hstage))
          (.inl hstage) (.inl rfl) (hothers (by rw [hstage]; rfl))
  | reporting =>
      have hsent : x.job ∈ s.sent := h.counts.sent d x hx (.inl hstage)
      constructor
      · exact h.markers.goOn hx rfl rfl (fun _ hj => hj) rfl rfl (fun _ => by rw [hstage]; rfl)
          (fun hbare => (after_bare x hbare).elim)
      · refine h.counts.update rfl rfl rfl ?_ (fun _ => hsent)
          (fun _ => h.counts.waiting d x hx (.inl hstage)) ?_ ?_
        · show (State.after x = _ ∨ State.after x = _) → _
          rcases after_cases x with ⟨-, hst⟩ | ⟨-, hst⟩ <;> rw [hst] <;> rintro (hst | hst) <;> cases hst
        · intro y hy _ hforwards
          cases hx.symm.trans hy
          refine ⟨rfl, .inr ?_⟩
          rcases after_cases x with ⟨-, hst⟩ | ⟨hno, -⟩
          · exact hst
          · cases hno.symm.trans hforwards
        · intro job hj
          refine h.counts.skipped_update rfl (fun y hy _ _ => ?_) hj
          cases hx.symm.trans hy
          exact .inl hsent
  | forwarding =>
      constructor
      · exact h.markers.goOn hx rfl rfl (fun _ hj => hj) rfl rfl (fun _ => by rw [hstage]; rfl)
          nofun
      · exact h.counts.forward hx hstage (hothers (by rw [hstage]; rfl))
  | clearing =>
      have hsent : x.job ∈ s.sent := h.counts.sent d x hx (.inr (.inr (.inl hstage)))
      constructor
      · exact h.markers.del hx (by rw [hstage]; rfl)
      · refine h.counts.update rfl rfl rfl ?_ (fun _ => hsent) ?_ ?_ ?_
        · rintro (hst | hst) <;> cases hst
        · rintro (hst | hst) <;> cases hst
        · intro y hy hst
          cases hx.symm.trans hy
          rw [hstage] at hst
          rcases hst with hst | hst <;> cases hst
        · intro job hj
          refine h.counts.skipped_update rfl (fun y hy _ _ => ?_) hj
          cases hx.symm.trans hy
          exact .inl hsent
  | marking =>
      have hsent : x.job ∈ s.sent := h.counts.sent d x hx (.inr (.inr (.inr hstage)))
      constructor
      · exact h.markers.mark hx (h.markers.early d x hx (by rw [hstage]; rfl)) hsent
      · refine h.counts.rest hx rfl rfl rfl (fun job' hj => .inl hj) (.inl rfl) ?_ (fun _ _ => hsent)
        rw [hstage]
        exact ⟨nofun, nofun⟩
  | failing =>
      constructor
      · exact h.markers.del hx (by rw [hstage]; rfl)
      · refine h.counts.rest hx rfl rfl rfl (fun job' hj => .inl hj) (.inl rfl) ?_ ?_
        · rw [hstage]
          exact ⟨nofun, nofun⟩
        · rw [hstage]
          exact nofun

theorem Inv.fail (h : Inv s) (hx : s.deliveries d = some x) (hfails : Fails s x) : Inv (s.fail d x) := by
  obtain ⟨hclean, hsending, hreporting⟩ := hfails
  have hcounts : ∀ {stage : Stage}, stage = .failing ∨ stage = .ended →
      Counts (s.setDelivery d { x with stage := stage }) := by
    intro stage hstage
    refine h.counts.update rfl rfl rfl ?_ ?_ ?_ ?_ ?_
    · rcases hstage with rfl | rfl <;> rintro (hst | hst) <;> cases hst
    · rcases hstage with rfl | rfl <;> rintro (hst | hst | hst | hst) <;> cases hst
    · rcases hstage with rfl | rfl <;> rintro (hst | hst) <;> cases hst
    · intro y hy hst hforwards
      cases hx.symm.trans hy
      cases (hreporting hst).symm.trans hforwards
    · intro job hj
      refine h.counts.skipped_update rfl (fun y hy hst hs => .inl ?_) hj
      cases hx.symm.trans hy
      cases hstage' : x.stage with
      | formatting => exact (hsending (.inl hstage') hs).elim
      | sending => exact (hsending (.inr hstage') hs).elim
      | reporting => exact h.counts.sent d x hx (.inl hstage')
      | forwarding => exact h.counts.sent d x hx (.inr (.inl hstage'))
      | clearing => exact h.counts.sent d x hx (.inr (.inr (.inl hstage')))
      | _ =>
          rw [hstage'] at hst
          cases hst
  unfold State.fail
  split
  next hcaught =>
    refine ⟨h.markers.goOn hx rfl rfl (fun _ hj => hj) rfl rfl (fun _ => ?_) nofun, hcounts (.inl rfl)⟩
    cases hstage : x.stage with
    | existsProcessing =>
        rw [hstage] at hcaught
        cases hcaught
    | ended =>
        rw [hstage] at hcaught
        cases hcaught
    | _ => rfl
  next hcaught =>
    refine ⟨h.markers.goOn hx rfl rfl (fun _ hj => hj) rfl rfl nofun fun _ => ?_, hcounts (.inr rfl)⟩
    exact hclean.resolve_left hcaught

theorem step_inv (h : Inv s) {op : Op} (hguarded : Guarded s op) : Inv (s.step op) := by
  cases op with
  | deliver d job =>
      show Inv (match s.deliveries d with | some _ => s | none => _)
      cases hx : s.deliveries d with
      | some _ => exact h
      | none => exact h.deliver hx job
  | look d =>
      show Inv (match s.deliveries d with | none => s | some x => s.look d x)
      cases hx : s.deliveries d with
      | none => exact h
      | some x =>
          obtain ⟨hfirst, hsecond⟩ := hguarded x hx
          by_cases hstage : x.stage = .existsProcessing
          · exact h.lookProcessing hx hstage (hfirst hstage)
          by_cases hstage' : x.stage = .existsProcessed
          · exact h.lookProcessed hx hstage' (hsecond hstage').1 (hsecond hstage').2
          · dsimp only
            unfold State.look
            split
            next hst => exact (hstage hst).elim
            next hst => exact (hstage' hst).elim
            · exact h
  | land d =>
      show Inv (match s.deliveries d with | none => s | some x => _)
      cases hx : s.deliveries d with
      | none => exact h
      | some x =>
          dsimp only
          split
          next hpending => exact ⟨h.markers.land hx hpending, h.counts.same hx rfl rfl rfl rfl rfl rfl⟩
          · exact h
  | lose d =>
      show Inv (match s.deliveries d with | none => s | some x => _)
      cases hx : s.deliveries d with
      | none => exact h
      | some x =>
          refine ⟨h.markers.goOn hx rfl rfl (fun _ hj => hj) rfl rfl (fun hpast => hpast) fun hbare => ?_,
            h.counts.same hx rfl rfl rfl rfl rfl rfl⟩
          exact ⟨rfl, (h.markers.early d x hx hbare).2⟩
  | answer d =>
      show Inv (match s.deliveries d with | none => s | some x => s.answer d x)
      cases hx : s.deliveries d with
      | none => exact h
      | some x => exact h.answer hx
  | fail d =>
      show Inv (match s.deliveries d with | none => s | some x => s.fail d x)
      cases hx : s.deliveries d with
      | none => exact h
      | some x => exact h.fail hx (hguarded x hx)
  | wait t =>
      exact ⟨h.markers.wait hguarded, h.counts.unsent, h.counts.sent, h.counts.waiting, h.counts.zero,
        h.counts.once, h.counts.due, h.counts.skipped⟩

/-! ## What the markers guard -/

theorem past_of_sends {stage : Stage} (h : stage.sends = true) : stage.past = true := by
  cases stage with
  | existsProcessing => cases h
  | ended => cases h
  | _ => rfl

theorem Markers.excludes (h : Markers s) : Excludes s :=
  fun d d' x x' hx hx' hst hst' hjob =>
    h.unique d d' x x' hx hx' (past_of_sends hst) (past_of_sends hst') (congrArg _ hjob)

theorem Counts.forwarded (h : Counts s) : Forwarded s := by
  refine fun job => ⟨h.once job, fun hrest hforwards hjob => ?_⟩
  have hsent : job ∈ s.sent := by
    rcases hjob with hskipped | hsent
    · refine (h.skipped job hskipped).resolve_right ?_
      rintro ⟨d, x, hx, hst, hjob⟩
      exact hrest d x hx (past_of_sends hst) hjob
    · exact hsent
  refine (h.due job hsent hforwards).resolve_right ?_
  rintro ⟨d, x, hx, hjob, hst⟩
  refine hrest d x hx ?_ hjob
  rcases hst with hst | hst <;> rw [hst] <;> rfl

/-- A push is skipped only when a look finds a marker. -/
theorem skipped_step (s : State) (op : Op) : (s.step op).skipped = s.skipped ∨
    ∃ d x, s.deliveries d = some x ∧ s.step op = s.skip d x := by
  cases op with
  | look d =>
      show (match s.deliveries d with | none => s | some x => s.look d x).skipped = _ ∨ _
      cases hx : s.deliveries d with
      | none => exact .inl rfl
      | some x =>
          have hstep : s.step (.look d) = s.look d x := by
            show (match s.deliveries d with | none => s | some x => s.look d x) = _
            rw [hx]
          rw [hstep]
          dsimp only
          unfold State.look
          split
          · split
            · exact .inr ⟨d, x, hx, rfl⟩
            · exact .inl rfl
          · split
            · exact .inr ⟨d, x, hx, rfl⟩
            · split <;> exact .inl rfl
          · exact .inl rfl
  | deliver d job =>
      refine .inl ?_
      show (match s.deliveries d with | some _ => s | none => _).skipped = _
      cases s.deliveries d <;> rfl
  | land d =>
      refine .inl ?_
      show (match s.deliveries d with | none => s | some x => _).skipped = _
      cases s.deliveries d with
      | none => rfl
      | some x =>
          dsimp only
          split <;> rfl
  | lose d =>
      refine .inl ?_
      show (match s.deliveries d with | none => s | some x => _).skipped = _
      cases s.deliveries d <;> rfl
  | answer d =>
      refine .inl ?_
      show (match s.deliveries d with | none => s | some x => s.answer d x).skipped = _
      cases s.deliveries d with
      | none => rfl
      | some x =>
          dsimp only
          unfold State.answer
          cases x.stage <;> rfl
  | fail d =>
      refine .inl ?_
      show (match s.deliveries d with | none => s | some x => s.fail d x).skipped = _
      cases s.deliveries d <;> rfl
  | wait t => exact .inl rfl

/-- A push is skipped only for itself. -/
theorem Inv.skips (h : Inv s) {op : Op} (hguarded : Guarded s op) : Skips s op := by
  intro job hjob
  rcases skipped_step s op with heq | ⟨d, x, hx, hskip⟩
  · exact .inl (heq ▸ hjob)
  · have hnext := (step_inv h hguarded).counts.skipped job hjob
    rw [hskip] at hnext
    refine .inr (hnext.imp_right ?_)
    rintro ⟨i, y, hy, hst, hsame⟩
    rcases deliveries_set rfl hy with ⟨rfl, rfl⟩ | ⟨-, hy⟩
    · cases hst
    · exact ⟨i, y, hy, hst, hsame⟩

end

theorem inv_init : Inv .init := by
  have hempty : ∀ k job, ¬ (Store.empty 0 : Store String Job).get k = some job := by
    intro k job h
    rw [Store.get_empty] at h
    cases h
  have hnone : ∀ d x, ¬ State.init.deliveries d = some x := fun _ _ hx => (by cases hx)
  constructor
  · exact ⟨fun d _ x _ hx => (hnone d x hx).elim, fun d x hx => (hnone d x hx).elim,
      fun d x hx => (hnone d x hx).elim, fun job' job h => (hempty _ job h).elim,
      fun job' job h => (hempty _ job h).elim⟩
  · have hcount : ∀ job, State.init.forwarded.count job = 0 := fun _ => List.count_nil
    exact ⟨fun d x hx => (hnone d x hx).elim, fun d x hx => (hnone d x hx).elim,
      fun d x hx => (hnone d x hx).elim, fun job _ => hcount job,
      fun job => (hcount job).trans_le (Nat.zero_le _), nofun, nofun⟩

/-- In an allowed run a push is skipped only when the same push has been or is being sent, two
workers never send one at the same time, and its next step is forwarded once. -/
theorem markers_guard (ops : List Op)
    (hguarded : Runs.Meets (fun s op => some (State.step s op)) Guarded .init ops) :
    (∀ before after, ops = before ++ after →
      Excludes (before.foldl State.step .init) ∧ Forwarded (before.foldl State.step .init)) ∧
      ∀ before op after, ops = before ++ op :: after →
        Skips (before.foldl State.step .init) op := by
  have hsteps := Runs.always_steps (I := Inv) (K := Skips)
    (fun _ op h hguarded => ⟨step_inv h hguarded, h.skips hguarded⟩) inv_init hguarded
  exact ⟨fun before after heq => ⟨(hsteps.1 before after heq).markers.excludes,
    (hsteps.1 before after heq).counts.forwarded⟩, hsteps.2⟩

/-- The push of a step, with one device. -/
def welcome : SendPushMessage := ⟨9, 4, "web-push", 5, [⟨1, "web-push"⟩], some "trigger.process"⟩

/-- A push is delivered again while it is being sent. -/
def redelivered : List Op :=
  [.deliver 0 (.single welcome 1), .look 0, .look 0, .land 0, .deliver 1 (.single welcome 1)]

theorem markers_guard_redelivered : Skips (redelivered.foldl State.step .init) (.look 1) := by
  refine (markers_guard (redelivered ++ [.look 1]) ?_).2 redelivered _ [] rfl
  refine .cons trivial rfl (.cons ?_ rfl (.cons ?_ rfl (.cons trivial rfl (.cons trivial rfl
    (.cons ?_ rfl trivial)))))
  · intro x hx
    cases hx
    refine ⟨fun _ d' x' hne hx' => ?_, nofun⟩
    match d' with
    | 0 => exact (hne rfl).elim
    | d' + 1 => cases hx'
  · intro x hx
    cases hx
    exact ⟨nofun, fun _ => ⟨fun job hget => (by cases hget), fun hsent => (by cases hsent)⟩⟩
  · intro x hx
    cases hx
    refine ⟨fun _ d' x' hne hx' _ _ => ?_, nofun⟩
    match d' with
    | 0 =>
        cases hx'
        exact ⟨rfl, rfl, rfl⟩
    | 1 => exact (hne rfl).elim
    | d' + 2 => cases hx'

/-- A test of two messages. -/
def test : Packer.Campaign where
  id := 3
  title := "promo"
  query := some "select"
  type := .TESTAB
  messageType := .WEBPUSH
  campaignMessage := [⟨4, false, {}⟩, ⟨5, false, {}⟩]

/-- The first page of a variant, as it is queued and packed. -/
def page (index : Nat) : CampaignMessage :=
  mountPackages (Packer.addPageToQueue (Packer.variant test test.campaignMessage index 0 0) 1 1 0 0 0) 0

/-- The first pages of two variants have the same keys: the second is skipped. -/
theorem variant_skipped : ¬ ∀ (ops before : List Op) (op : Op) (after : List Op),
    ops = before ++ op :: after → Skips (before.foldl State.step .init) op := by
  intro h
  have hskips := h _ [.deliver 0 (.page (page 0)), .look 0, .look 0, .land 0,
    .deliver 1 (.page (page 1))] (.look 1) [] rfl (.page (page 1)) (List.mem_cons_self ..)
  rcases hskips with hskipped | hsent | ⟨d, x, hx, hst, hjob⟩
  · cases hskipped
  · cases hsent
  · match d with
    | 0 =>
        cases hx
        cases hjob
    | 1 =>
        cases hx
        cases hst
    | d + 2 => cases hx

end OpenBms.SendPush.Guard
