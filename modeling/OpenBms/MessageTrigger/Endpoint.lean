/-
# `OpenBms.MessageTrigger.Endpoint` — a step message behind the endpoint

`POST internal/trigger/process` takes the step message from its body, or from the Redis key
that the body names, and has it handled.  What the handling throws becomes a status:

| thrown | status |
| :-- | :-- |
| the token is not the service's | 401 |
| while the message is read, its step is defined, or the flags are looked up | 500 |
| while the step is processed, or the payload's key is deleted after that | 400 |

**Proved here.**

    which handlings run to their end (`perform_snd`, `receiveMessage_result`)
    when a handling that did not is retried
    with its payload (`process_safe_iff`)
-/
import OpenBms.MessageTrigger.Interpreter
import OpenBms.Messaging.Bridge

namespace OpenBms.MessageTrigger

open Messaging

variable {α : Type}

/-! ## The endpoint -/

/-- What a handling of a delivered message meets; `keyed`: the message names a key. -/
structure Attempt (α : Type) where
  authorized : Bool
  keyed : Bool
  data : LeadStateMessage α
  reads : Bool
  world : World α
  deletes : Consumed
  network : Network

/-- All requests are taken. -/
def accepted (w : World α) (groups : List (List (Request α))) : Bool := groups.flatten.all w.accepts

/-- The step that is processed, when the handling gets there. -/
def reaches (w : World α) (m : LeadStateMessage α) : Option (Step α) :=
  match m.steps with
  | [] => none
  | step :: _ =>
      if accepted w ((definedStep w step).1 ++ [[.redis .stopFlags]]) && ! w.stopped then
        some (definedStep w step).2
      else none

/-- Whether a step is processed to its end. -/
def carries (w : World α) (m : LeadStateMessage α) (step : Step α) : Bool :=
  match processMessage w m step with
  | .error _ => false
  | .ok groups => accepted w groups

/-- The message, from the body or from Redis; `error` when Redis does not answer. -/
def Attempt.message (a : Attempt α) (payload : Option (LeadStateMessage α)) :
    Except Unit (Option (LeadStateMessage α)) :=
  if a.keyed then if a.reads then .ok payload else .error ()
  else .ok (some a.data)

/-- `process`, and `receiveMessage` below it. -/
def Attempt.process (a : Attempt α) (payload : Option (LeadStateMessage α)) :
    Handling (LeadStateMessage α) :=
  if ! a.authorized then ⟨401, false, payload⟩
  else
    match a.message payload with
    | .error _ => ⟨500, false, payload⟩
    -- the fields of a message that is not there are read
    | .ok none => ⟨500, false, payload⟩
    | .ok (some m) =>
        match (receiveMessage a.world m).result with
        | .error _ => ⟨if (reaches a.world m).isSome then 400 else 500, false, payload⟩
        | .ok () =>
            if a.keyed && (reaches a.world m).isSome then
              match a.deletes with
              | .done => ⟨201, true, none⟩
              | deletes => ⟨400, false, deletes.left payload⟩
            else ⟨201, true, payload⟩

/-- What the endpoint meets is such that a failure is retried: the service's token, or no answer;
where a step is to be processed, it is, and its payload's key is deleted, or there is no answer
and the key is not deleted either. -/
def Attempt.Retried (a : Attempt α) (payload : Option (LeadStateMessage α)) : Prop :=
  (a.network = .answered → a.authorized = true) ∧
    ∀ m step, a.authorized = true → a.message payload = .ok (some m) →
      reaches a.world m = some step →
        carries a.world m step = true ∧ (a.keyed = true → a.deletes = .done) ∨
          a.network ≠ .answered ∧
            (carries a.world m step = true → a.keyed = true → a.deletes ≠ .lost)

/-! ## Handlings that run to their end -/

section
variable {w : World α} {m : LeadStateMessage α}

theorem perform_snd (w : World α) (groups : List (List (Request α))) :
    (perform w groups).2 = accepted w groups := by
  induction groups with
  | nil => rfl
  | cons group groups ih =>
      unfold perform accepted
      rw [List.flatten_cons, List.all_append]
      cases hgroup : group.all w.accepts with
      | true =>
          rw [if_pos rfl, Bool.true_and]
          exact ih
      | false =>
          rw [if_neg Bool.false_ne_true, Bool.false_and]

theorem andThen_result (w : World α) (sent : List (Request α)) (groups : List (List (Request α))) :
    (Outcome.andThen w sent groups).result =
      if accepted w groups then .ok () else .error .refused := by
  show (if (perform w groups).2 then _ else _) = _
  rw [perform_snd]

/-- Where the handling gets to its step, it runs to its end if the step is processed to its end. -/
theorem receiveMessage_result {step : Step α} (h : reaches w m = some step) :
    (receiveMessage w m).result = .ok () ↔ carries w m step = true := by
  unfold reaches at h
  cases hsteps : m.steps with
  | nil =>
      rw [hsteps] at h
      cases h
  | cons first rest =>
      rw [hsteps] at h
      dsimp only at h
      split at h
      next hreach =>
        rw [Bool.and_eq_true, Bool.not_eq_true'] at hreach
        obtain ⟨haccepted, hstopped⟩ := hreach
        have hfirst := Option.some_inj.mp h
        unfold receiveMessage carries
        rw [hsteps]
        dsimp only
        rw [perform_snd, haccepted, if_pos rfl, hstopped, if_neg Bool.false_ne_true, hfirst]
        cases processMessage w m step with
        | error e => exact ⟨nofun, nofun⟩
        | ok groups =>
            dsimp only
            rw [andThen_result]
            cases accepted w groups with
            | true => exact ⟨fun _ => rfl, fun _ => rfl⟩
            | false => exact ⟨nofun, nofun⟩
      · cases h

end

/-! ## Handlings that do not -/

section
variable {rt : Runtime} {o : ConsumerOptions} {delivered : Messaging.Message} {a : Attempt α}
  {payload : Option (LeadStateMessage α)}

theorem payload_of_message {m : LeadStateMessage α} (hmessage : a.message payload = .ok (some m))
    (hkeyed : a.keyed = true) : payload = some m := by
  unfold Attempt.message at hmessage
  rw [hkeyed, if_pos rfl] at hmessage
  split at hmessage
  · exact Except.ok.inj hmessage
  · cases hmessage

/-- What the endpoint comes to when the step is processed, or not. -/
theorem process_of_reaches {m : LeadStateMessage α} {step : Step α} (hauthorized : a.authorized = true)
    (hmessage : a.message payload = .ok (some m)) (hreaches : reaches a.world m = some step) :
    a.process payload =
      if carries a.world m step then
        if a.keyed then
          match a.deletes with
          | .done => ⟨201, true, none⟩
          | deletes => ⟨400, false, deletes.left payload⟩
        else ⟨201, true, payload⟩
      else ⟨400, false, payload⟩ := by
  have hresult := receiveMessage_result hreaches
  unfold Attempt.process
  rw [hauthorized, hmessage]
  dsimp only
  rw [if_neg (by decide), hreaches]
  cases hok : (receiveMessage a.world m).result with
  | ok _ =>
      rw [if_pos (hresult.mp hok)]
      dsimp only
      rw [Option.isSome_some, Bool.and_true]
  | error e =>
      have hcarries : carries a.world m step = false := by
        refine Bool.eq_false_iff.mpr fun hcarries => ?_
        cases hok.symm.trans (hresult.mpr hcarries)
      rw [hcarries]
      rfl

/-- A handling that stops before the step is processed runs to its end, or is retried. -/
theorem process_of_not_reaches (hauthorized : a.authorized = true)
    (hno : ∀ m, a.message payload = .ok (some m) → reaches a.world m = none) :
    (a.process payload).completed = true ∨
      (a.process payload).status = 500 ∧ (a.process payload).payload = payload := by
  unfold Attempt.process
  rw [hauthorized, if_neg (by decide)]
  cases hmessage : a.message payload with
  | error _ => exact .inr ⟨rfl, rfl⟩
  | ok found =>
      cases found with
      | none => exact .inr ⟨rfl, rfl⟩
      | some m =>
          dsimp only
          rw [hno m hmessage, Option.isSome_none, Bool.and_false, if_neg Bool.false_ne_true,
            if_neg Bool.false_ne_true]
          cases (receiveMessage a.world m).result with
          | error _ => exact .inr ⟨rfl, rfl⟩
          | ok _ => exact .inl rfl

/-- A failed handling is retried with its payload exactly when what the endpoint meets says so. -/
theorem process_safe_iff : Safe rt o delivered buildHandler a.network payload (a.process payload) ↔
    a.Retried payload := by
  show Safe rt o delivered bridge a.network payload (a.process payload) ↔ _
  rw [safe_iff]
  unfold Attempt.Retried
  cases hauthorized : a.authorized with
  | false =>
      have hprocess : a.process payload = ⟨401, false, payload⟩ := by
        unfold Attempt.process
        rw [hauthorized]
        rfl
      rw [hprocess]
      refine ⟨fun h => ⟨fun hanswered => ?_, fun _ _ hauth => nomatch hauth⟩, fun h => .inr ⟨?_, rfl⟩⟩
      · have hstatus : 401 = 429 ∨ 500 ≤ 401 := (h.resolve_left nofun).1 hanswered
        exact absurd hstatus (by decide)
      · intro hanswered
        exact nomatch h.1 hanswered
  | true =>
      refine Iff.trans ?_ (and_iff_right fun _ => rfl).symm
      by_cases hreach : ∃ m step, a.message payload = .ok (some m) ∧ reaches a.world m = some step
      · obtain ⟨m, step, hmessage, hreaches⟩ := hreach
        rw [process_of_reaches hauthorized hmessage hreaches]
        have hall : ∀ {P : LeadStateMessage α → Step α → Prop},
            (∀ m' step', true = true → a.message payload = .ok (some m') →
              reaches a.world m' = some step' → P m' step') ↔ P m step := by
          refine fun {P} => ⟨fun h => h m step rfl hmessage hreaches, fun h m' step' _ hm' hs' => ?_⟩
          cases hm'.symm.trans hmessage
          cases hs'.symm.trans hreaches
          exact h
        rw [hall]
        -- what is answered with 400 is acknowledged, if it is answered
        have h400 : ∀ left : Option (LeadStateMessage α), ((⟨400, false, left⟩ : Handling _).completed = true ∨
            ((a.network = .answered → (400 : Nat) = 429 ∨ 500 ≤ 400) ∧ left = payload)) ↔
              a.network ≠ .answered ∧ left = payload := by
          refine fun left => ⟨fun h => (h.resolve_left nofun).imp_left ?_, fun h => .inr (h.imp_left ?_)⟩
          · exact fun h hanswered => absurd (h hanswered) (by decide)
          · exact fun h hanswered => (h hanswered).elim
        cases hcarries : carries a.world m step with
        | false =>
            refine (h400 payload).trans ⟨fun h => .inr ⟨h.1, nofun⟩, fun h => ?_⟩
            exact ⟨(h.resolve_left fun h => nomatch h.1).1, rfl⟩
        | true =>
            cases hkeyed : a.keyed with
            | false => exact iff_of_true (.inl rfl) (.inl ⟨rfl, nofun⟩)
            | true =>
                have hfound := payload_of_message hmessage hkeyed
                cases hdeletes : a.deletes with
                | done => exact iff_of_true (.inl rfl) (.inl ⟨rfl, fun _ => rfl⟩)
                | lost =>
                    refine (h400 none).trans ⟨fun h => ?_, fun h => ?_⟩
                    · cases h.2.trans hfound
                    · exact (((h.resolve_left fun h => nomatch h.2 rfl).2 rfl rfl) rfl).elim
                | refused =>
                    refine (h400 payload).trans ⟨fun h => .inr ⟨h.1, fun _ _ => nofun⟩, fun h => ?_⟩
                    exact ⟨(h.resolve_left fun h => nomatch h.2 rfl).1, rfl⟩
      · have hno : ∀ m, a.message payload = .ok (some m) → reaches a.world m = none := by
          intro m hmessage
          refine Option.eq_none_iff_forall_not_mem.mpr fun step hstep => hreach ⟨m, step, hmessage, hstep⟩
        refine iff_of_true ?_ fun m step _ hmessage hstep => (hreach ⟨m, step, hmessage, hstep⟩).elim
        refine (process_of_not_reaches hauthorized hno).imp_right fun ⟨hstatus, hleft⟩ => ⟨fun _ => .inr ?_, hleft⟩
        rw [hstatus]

end

end OpenBms.MessageTrigger
