/-
# `OpenBms.Messaging.Retry` — a failing message, its copies and the dead-letter exchange

`handleMessage` runs the handler on a delivery and settles it by the outcome.  A
failed message is acknowledged and published again with its attempt one higher,
until the attempt reaches `maxRetries`; then it goes to the dead-letter exchange.
The count lives in the header `x-bms-attempt` only, and is read back from it on
every delivery.

| outcome | attempt | settled by |
| :-- | :-- | :-- |
| `ack`, nothing | any | `ack` |
| `requeue` | any | `nack` with requeue |
| `nack`, an error | below `maxRetries` | `ack`, later a copy |
| `nack`, an error | from `maxRetries` on | dead letter, then `ack` |

What `Number` and `JSON.parse` make of a text is a field of `Runtime`.

**Proved here.**

    what a copy carries (`copies_spec`)
    a message whose handler always fails is handled
    `⌈maxRetries - start⌉₊ + 1` times, then dead-lettered (`always_failing`)
-/
import Mathlib

namespace OpenBms.Messaging

/-! ## Messages -/

/-- A header's value; `other` for tables, booleans and the like. -/
inductive Header where
  | number (q : ℚ)
  | text (s : String)
  | other
  deriving DecidableEq

structure Message where
  content : String
  routingKey : String
  persistent : Bool
  contentType : Option String
  headers : String → Option Header

structure ConsumerOptions where
  exchange : String
  queue : String
  routingKey : String
  maxRetries : Option ℚ := none

def defaultMaxRetries : ℚ := 5

def ConsumerOptions.retries (o : ConsumerOptions) : ℚ := o.maxRetries.getD defaultMaxRetries

/-- `Number` on a text, when finite, and the error of `JSON.parse`, when there is one. -/
structure Runtime where
  toNumber : String → Option ℚ
  jsonError : String → Option String

def parseAttempt (rt : Runtime) (headers : String → Option Header) : ℚ :=
  match headers "x-bms-attempt" with
  | some (.number q) => if 1 ≤ q then q else 1
  | some (.text s) =>
      match rt.toNumber s with
      | some n => if 1 ≤ n then n else 1
      | none => 1
  | _ => 1

def firstError (headers : String → Option Header) : Option String :=
  match headers "x-bms-first-error" with
  | some (.text s) => some s
  | _ => none

/-! ## Settling a delivery -/

/-- How the handler's promise ends; `threw none` when it rejects with `undefined`. -/
inductive Outcome where
  | void
  | ack
  | nack
  | requeue
  | threw (error : Option String)
  deriving DecidableEq

/-- The text of the error a failure is retried with; `undefined` counts as no error. -/
def Outcome.failure : Outcome → Option String
  | .nack => some "handler returned nack"
  | .threw error => error
  | _ => none

inductive Settle where
  | ack
  | requeue
  | retry (copy : Message)
  | deadLetter (copy : Message)

/-- The three headers a retried or exhausted message is published with. -/
def retryHeaders (headers : String → Option Header) (attempt : ℚ) (first last : String) :
    String → Option Header :=
  Function.update (Function.update (Function.update headers
    "x-bms-attempt" (some (.number attempt)))
    "x-bms-first-error" (some (.text first)))
    "x-bms-last-error" (some (.text last))

def Message.with (m : Message) (attempt : ℚ) (first last : String) : Message :=
  { m with
    contentType := some (m.contentType.getD "application/json")
    headers := retryHeaders m.headers attempt first last }

/-- The copy of a message that does not parse. -/
def Message.unparsed (m : Message) (error : String) : Message :=
  { m with
    contentType := some (m.contentType.getD "application/octet-stream")
    headers := Function.update m.headers "x-bms-parse-error" (some (.text error)) }

def retryOrDlq (rt : Runtime) (o : ConsumerOptions) (m : Message) (error : String) : Settle :=
  let attempt := parseAttempt rt m.headers
  let first := (firstError m.headers).getD error
  if o.retries ≤ attempt then .deadLetter (m.with attempt first error)
  else .retry (m.with (attempt + 1) first error)

/-- How a message is settled when its handler ends so. -/
def settle (rt : Runtime) (o : ConsumerOptions) (m : Message) (r : Outcome) : Settle :=
  match r.failure with
  | some error => retryOrDlq rt o m error
  | none => if r = .requeue then .requeue else .ack

/-! ## The copies of a message -/

inductive Event where
  | invoked (m : Message) (attempt : ℚ)
  | acked
  | requeued
  | republished (exchange : String) (copy : Message)
  | deadLettered (copy : Message)

/-- A message from its delivery on, each copy and each requeued message being
delivered again; `outcome k` is how the handler's `k`-th run ends. -/
def life (rt : Runtime) (o : ConsumerOptions) (outcome : Nat → Outcome) :
    Nat → Nat → Message → Option (List Event)
  | 0, _, _ => none
  | fuel + 1, k, m =>
      match rt.jsonError m.content with
      | some error => some [.deadLettered (m.unparsed error), .acked]
      | none =>
          let run := Event.invoked m (parseAttempt rt m.headers)
          match settle rt o m (outcome k) with
          | .ack => some [run, .acked]
          | .requeue => (life rt o outcome fuel (k + 1) m).map ([run, .requeued] ++ ·)
          | .deadLetter copy => some [run, .deadLettered copy, .acked]
          | .retry copy =>
              (life rt o outcome fuel (k + 1) copy).map
                ([run, .acked, .republished o.exchange copy] ++ ·)

def invocations (es : List Event) : List (Message × ℚ) :=
  es.filterMap fun e => match e with
    | .invoked m attempt => some (m, attempt)
    | _ => none

def republications (es : List Event) : List (String × Message) :=
  es.filterMap fun e => match e with
    | .republished exchange copy => some (exchange, copy)
    | _ => none

def deadLetters (es : List Event) : List Message :=
  es.filterMap fun e => match e with
    | .deadLettered copy => some copy
    | _ => none

/-! ## What a copy carries -/

section
variable {rt : Runtime} {o : ConsumerOptions} {m : Message}

theorem retryHeaders_attempt (h : String → Option Header) (a : ℚ) (first last : String) :
    retryHeaders h a first last "x-bms-attempt" = some (.number a) := by
  rw [retryHeaders, Function.update_of_ne (by decide), Function.update_of_ne (by decide),
    Function.update_self]

theorem retryHeaders_firstError (h : String → Option Header) (a : ℚ) (first last : String) :
    retryHeaders h a first last "x-bms-first-error" = some (.text first) := by
  rw [retryHeaders, Function.update_of_ne (by decide), Function.update_self]

theorem retryHeaders_lastError (h : String → Option Header) (a : ℚ) (first last : String) :
    retryHeaders h a first last "x-bms-last-error" = some (.text last) := by
  rw [retryHeaders, Function.update_self]

theorem retryHeaders_other (h : String → Option Header) (a : ℚ) (first last : String) {k : String}
    (ha : k ≠ "x-bms-attempt") (hf : k ≠ "x-bms-first-error") (hl : k ≠ "x-bms-last-error") :
    retryHeaders h a first last k = h k := by
  rw [retryHeaders, Function.update_of_ne hl, Function.update_of_ne hf, Function.update_of_ne ha]

theorem one_le_parseAttempt (h : String → Option Header) : 1 ≤ parseAttempt rt h := by
  unfold parseAttempt
  split
  · split
    · assumption
    · exact le_refl 1
  · split
    · split
      · assumption
      · exact le_refl 1
    · exact le_refl 1
  · exact le_refl 1

theorem parseAttempt_with {a : ℚ} (h : 1 ≤ a) (m : Message) (first last : String) :
    parseAttempt rt (m.with a first last).headers = a := by
  have hheader : (m.with a first last).headers "x-bms-attempt" = some (.number a) :=
    retryHeaders_attempt m.headers a first last
  simp only [parseAttempt, hheader, if_pos h]

theorem firstError_with (a : ℚ) (m : Message) (first last : String) :
    firstError (m.with a first last).headers = some first := by
  have hheader : (m.with a first last).headers "x-bms-first-error" = some (.text first) :=
    retryHeaders_firstError m.headers a first last
  simp only [firstError, hheader]

/-- The message after `k` failures: the `k`-th copy. -/
def copies (m : Message) (start : ℚ) (first : String) (error : Nat → String) : Nat → Message
  | 0 => m
  | k + 1 => (copies m start first error k).with (start + (k + 1)) first (error k)

/-- Every copy has the message's body, routing key and persistence, and its headers
but for the three of the retry: the attempt, one higher with every copy, the first
error, the same in all of them, and the error of the failure before it. -/
theorem copies_spec (m : Message) (start : ℚ) (first : String) (error : Nat → String) (k : Nat) :
    let c := copies m start first error (k + 1)
    c.content = m.content ∧ c.routingKey = m.routingKey ∧ c.persistent = m.persistent ∧
      c.headers "x-bms-attempt" = some (.number (start + (k + 1))) ∧
      c.headers "x-bms-first-error" = some (.text first) ∧
      c.headers "x-bms-last-error" = some (.text (error k)) ∧
      ∀ h, h ≠ "x-bms-attempt" → h ≠ "x-bms-first-error" → h ≠ "x-bms-last-error" →
        c.headers h = m.headers h := by
  intro c
  have hheaders : c.headers =
      retryHeaders (copies m start first error k).headers (start + (k + 1)) first (error k) := rfl
  rw [hheaders]
  refine ⟨?_, ?_, ?_, retryHeaders_attempt _ _ _ _, retryHeaders_firstError _ _ _ _,
    retryHeaders_lastError _ _ _ _, ?_⟩
  all_goals clear hheaders
  · induction k with
    | zero => rfl
    | succ k ih => exact ih
  · induction k with
    | zero => rfl
    | succ k ih => exact ih
  · induction k with
    | zero => rfl
    | succ k ih => exact ih
  · intro h ha hf hl
    induction k with
    | zero => exact retryHeaders_other _ _ _ _ ha hf hl
    | succ k ih => exact (retryHeaders_other _ _ _ _ ha hf hl).trans ih

theorem copies_content (m : Message) (start : ℚ) (first : String) (error : Nat → String) (k : Nat) :
    (copies m start first error k).content = m.content := by
  cases k with
  | zero => rfl
  | succ k => exact (copies_spec m start first error k).1

/-! ## The run of a failing message -/

/-- The events of the `k`-th delivery and the `n` that follow it. -/
def failing (o : ConsumerOptions) (c : Nat → Message) (start : ℚ) (dead : Nat → Message) :
    Nat → Nat → List Event
  | 0, k => [.invoked (c k) (start + k), .deadLettered (dead k), .acked]
  | n + 1, k =>
      [.invoked (c k) (start + k), .acked, .republished o.exchange (c (k + 1))] ++
        failing o c start dead n (k + 1)

theorem invocations_failing (c dead : Nat → Message) (start : ℚ) (n k : Nat) :
    invocations (failing o c start dead n k) =
      (List.range' k (n + 1)).map fun i => (c i, start + i) := by
  induction n generalizing k with
  | zero => rfl
  | succ n ih =>
      rw [List.range'_succ, List.map_cons, ← ih (k + 1)]
      rfl

theorem republications_failing (c dead : Nat → Message) (start : ℚ) (n k : Nat) :
    republications (failing o c start dead n k) =
      (List.range' (k + 1) n).map fun i => (o.exchange, c i) := by
  induction n generalizing k with
  | zero => rfl
  | succ n ih =>
      rw [List.range'_succ, List.map_cons, ← ih (k + 1)]
      rfl

theorem deadLetters_failing (c dead : Nat → Message) (start : ℚ) (n k : Nat) :
    deadLetters (failing o c start dead n k) = [dead (k + n)] := by
  induction n generalizing k with
  | zero => rfl
  | succ n ih =>
      have hnext := ih (k + 1)
      rw [Nat.add_right_comm, Nat.add_assoc] at hnext
      exact hnext

/-- The deliveries of a message that fails with `error 0`, `error 1`, ... -/
def chain (rt : Runtime) (m : Message) (error : Nat → String) : Nat → Message :=
  copies m (parseAttempt rt m.headers) ((firstError m.headers).getD (error 0)) error

/-- What the `k`-th of them is dead-lettered as. -/
def exhausted (rt : Runtime) (m : Message) (error : Nat → String) (k : Nat) : Message :=
  (chain rt m error k).with (parseAttempt rt m.headers + k)
    ((firstError m.headers).getD (error 0)) (error k)

theorem parseAttempt_chain (m : Message) (error : Nat → String) (k : Nat) :
    parseAttempt rt (chain rt m error k).headers = parseAttempt rt m.headers + k := by
  have hstart : 1 ≤ parseAttempt rt m.headers := one_le_parseAttempt m.headers
  cases k with
  | zero =>
      rw [Nat.cast_zero, add_zero]
      rfl
  | succ k =>
      have hk : (0 : ℚ) ≤ k := Nat.cast_nonneg k
      rw [Nat.cast_succ]
      exact parseAttempt_with (by linarith) _ _ _

theorem firstError_chain (m : Message) (error : Nat → String) (k : Nat) :
    (firstError (chain rt m error k).headers).getD (error k) =
      (firstError m.headers).getD (error 0) := by
  cases k with
  | zero => rfl
  | succ k =>
      have hsome : firstError (chain rt m error (k + 1)).headers =
          some ((firstError m.headers).getD (error 0)) := firstError_with _ _ _ _
      rw [hsome, Option.getD_some]

theorem settle_chain {outcome : Nat → Outcome} {error : Nat → String}
    (hfail : ∀ k, (outcome k).failure = some (error k)) (m : Message) (k : Nat) :
    settle rt o (chain rt m error k) (outcome k) =
      if o.retries ≤ parseAttempt rt m.headers + k then .deadLetter (exhausted rt m error k)
      else .retry (chain rt m error (k + 1)) := by
  simp only [settle, hfail, retryOrDlq, parseAttempt_chain, firstError_chain]
  split
  · rfl
  · rw [add_assoc]
    rfl

theorem life_failing {outcome : Nat → Outcome} {error : Nat → String}
    (hfail : ∀ k, (outcome k).failure = some (error k)) (hjson : rt.jsonError m.content = none) :
    ∀ n k : Nat, n = ⌈o.retries - (parseAttempt rt m.headers + k)⌉₊ →
      life rt o outcome (n + 1) k (chain rt m error k) =
        some (failing o (chain rt m error) (parseAttempt rt m.headers) (exhausted rt m error) n k) := by
  intro n
  induction n with
  | zero =>
      intro k hn
      have hle : o.retries ≤ parseAttempt rt m.headers + k := by
        have h := Nat.ceil_eq_zero.mp hn.symm
        linarith
      have hparse : rt.jsonError (chain rt m error k).content = none :=
        (copies_content m _ _ error k) ▸ hjson
      simp only [life, hparse, parseAttempt_chain, settle_chain hfail, if_pos hle]
      rfl
  | succ n ih =>
      intro k hn
      have hlt : ¬ o.retries ≤ parseAttempt rt m.headers + k := by
        intro hle
        have hzero : ⌈o.retries - (parseAttempt rt m.headers + k)⌉₊ = 0 :=
          Nat.ceil_eq_zero.mpr (by linarith)
        omega
      have hnext : n = ⌈o.retries - (parseAttempt rt m.headers + ((k + 1 : ℕ) : ℚ))⌉₊ := by
        have hsub : o.retries - (parseAttempt rt m.headers + ((k + 1 : ℕ) : ℚ)) =
            o.retries - (parseAttempt rt m.headers + k) - 1 := by
          push_cast
          ring
        rw [hsub, Nat.ceil_sub_one, ← hn, Nat.add_sub_cancel]
      have hparse : rt.jsonError (chain rt m error k).content = none :=
        (copies_content m _ _ error k) ▸ hjson
      have hrest := ih (k + 1) hnext
      rw [life]
      simp only [hparse, parseAttempt_chain, settle_chain hfail, if_neg hlt, hrest]
      rfl

theorem life_succ {outcome : Nat → Outcome} :
    ∀ {fuel k : Nat} {m : Message} {es : List Event},
      life rt o outcome fuel k m = some es → life rt o outcome (fuel + 1) k m = some es := by
  intro fuel
  induction fuel with
  | zero =>
      intro k m es h
      cases h
  | succ fuel ih =>
      intro k m es h
      rw [life] at h ⊢
      cases hjson : rt.jsonError m.content with
      | some error =>
          rw [hjson] at h
          exact h
      | none =>
          rw [hjson] at h
          cases hsettle : settle rt o m (outcome k) with
          | ack =>
              rw [hsettle] at h
              exact h
          | deadLetter copy =>
              rw [hsettle] at h
              exact h
          | requeue =>
              rw [hsettle] at h
              obtain ⟨rest, hrest, rfl⟩ := Option.map_eq_some_iff.mp h
              exact Option.map_eq_some_iff.mpr ⟨rest, ih hrest, rfl⟩
          | retry copy =>
              rw [hsettle] at h
              obtain ⟨rest, hrest, rfl⟩ := Option.map_eq_some_iff.mp h
              exact Option.map_eq_some_iff.mpr ⟨rest, ih hrest, rfl⟩

/-- More fuel changes nothing. -/
theorem life_of_le {outcome : Nat → Outcome} {fuel fuel' k : Nat} {es : List Event}
    (hle : fuel ≤ fuel') (h : life rt o outcome fuel k m = some es) :
    life rt o outcome fuel' k m = some es := by
  induction hle with
  | refl => exact h
  | step _ ih => exact life_succ ih

/-- A parsed message whose handler always fails is handled
`max 1 (⌈maxRetries - start⌉ + 1)` times, by the message and its copies in turn; the
copies are published to the consumer's exchange, and the last of them is
dead-lettered, once. -/
theorem always_failing (rt : Runtime) (o : ConsumerOptions) (m : Message)
    (outcome : Nat → Outcome) (error : Nat → String)
    (hfail : ∀ k, (outcome k).failure = some (error k)) (hjson : rt.jsonError m.content = none) :
    let start := parseAttempt rt m.headers
    let first := (firstError m.headers).getD (error 0)
    let c := copies m start first error
    ∃ (n : Nat) (events : List Event),
      (∀ fuel, n < fuel → life rt o outcome fuel 0 m = some events) ∧
      ((n + 1 : ℕ) : ℤ) = max 1 (⌈o.retries - start⌉ + 1) ∧
      invocations events = (List.range (n + 1)).map (fun k => (c k, start + k)) ∧
      republications events = (List.range n).map (fun k => (o.exchange, c (k + 1))) ∧
      (∀ k, (c (k + 1)).content = m.content ∧ (c (k + 1)).routingKey = m.routingKey ∧
        (c (k + 1)).persistent = m.persistent ∧
        (c (k + 1)).headers "x-bms-attempt" = some (.number (start + (k + 1))) ∧
        (c (k + 1)).headers "x-bms-first-error" = some (.text first) ∧
        (c (k + 1)).headers "x-bms-last-error" = some (.text (error k))) ∧
      deadLetters events = [(c n).with (start + n) first (error n)] := by
  intro start first c
  have hn : ⌈o.retries - start⌉₊ = ⌈o.retries - (start + ((0 : ℕ) : ℚ))⌉₊ := by
    rw [Nat.cast_zero, add_zero]
  refine ⟨⌈o.retries - start⌉₊, _, fun fuel hfuel => life_of_le hfuel (life_failing hfail hjson _ 0 hn),
    ?_, ?_, ?_, ?_, ?_⟩
  · rw [Nat.cast_succ, ← Int.ceil_toNat, Int.toNat_eq_max]
    omega
  · rw [invocations_failing, List.range_eq_range']
    rfl
  · rw [republications_failing, List.range'_eq_map_range, List.map_map]
    refine List.map_congr_left fun k _ => ?_
    show (o.exchange, c (0 + 1 + k)) = (o.exchange, c (k + 1))
    rw [Nat.zero_add, Nat.add_comm]
  · intro k
    obtain ⟨hcontent, hkey, hpersistent, hattempt, hfirst, hlast, -⟩ := copies_spec m start first error k
    exact ⟨hcontent, hkey, hpersistent, hattempt, hfirst, hlast⟩
  · rw [deadLetters_failing, Nat.zero_add]
    rfl

/-- A fresh message, two tries, and an error each time. -/
theorem always_failing_twoTries :
    let rt : Runtime := ⟨fun _ => none, fun _ => none⟩
    let o : ConsumerOptions := ⟨"bms.email", "send-email", "email.send", some 2⟩
    let m : Message := ⟨"\x7b\x7d", "email.send", true, none, fun _ => none⟩
    ∃ (n : Nat) (events : List Event),
      (∀ fuel, n < fuel → life rt o (fun _ => .threw (some "always-fails")) fuel 0 m = some events) ∧
      ((n + 1 : ℕ) : ℤ) = max 1 (⌈o.retries - parseAttempt rt m.headers⌉ + 1) := by
  intro rt o m
  obtain ⟨n, events, hlife, hn, -⟩ := always_failing rt o m (fun _ => .threw (some "always-fails"))
    (fun _ => "always-fails") (fun _ => rfl) rfl
  exact ⟨n, events, hlife, hn⟩

/-- With the default of five tries a message at its third attempt is handled three
times, not two. -/
theorem thirdAttempt_handled :
    let rt : Runtime := ⟨fun _ => none, fun _ => none⟩
    let o : ConsumerOptions := ⟨"bms.email", "send-email", "email.send", none⟩
    let m : Message := ⟨"\x7b\x7d", "email.send", true, none,
      fun h => if h = "x-bms-attempt" then some (.number 3) else none⟩
    (life rt o (fun _ => .nack) 6 0 m).map (fun es => (invocations es).length) = some 3 ∧
      parseAttempt rt m.headers = 3 ∧ max 1 (o.retries - parseAttempt rt m.headers) = 2 := by
  decide +kernel

end

end OpenBms.Messaging
