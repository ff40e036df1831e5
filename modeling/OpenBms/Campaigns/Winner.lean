/-
# `OpenBms.Campaigns.Winner` — the winner of an A/B test

`processResult` of a campaign compares the counters of the criterion, `finishTestabStep` of
an automation the counters over the deliveries.  Both reduce the variants by `>`, which is
false beside a value that is not a number: such a variant takes the place of any other, and
the next one takes its place.

| variant                         | campaign | automation |
| :------------------------------ | :------- | :--------- |
| the counter is there            | a number | a quotient |
| the counter is missing          | `NaN`    | `NaN`      |
| nothing was delivered, 0 events | a number | `NaN`      |
| nothing was delivered, events   | a number | `Infinity` |

**Proved here.**

    the winner has the greatest value, exactly when the best
    values come after the last undefined one (`winner_iff`)
-/
import OpenBms.Lib.Champion

namespace OpenBms.Campaigns.Winner

open Champion

/-- The counters of a message by their names, where they are there. -/
abbrev Statistics := Nat → String → Option Nat

/-- The winner, and each message with whether it is marked. -/
abbrev Marked := List (Nat × Bool)

def mark (messages : List Nat) (winner : Nat) : Marked := messages.map fun id => (id, id == winner)

/-! ## A campaign -/

/-- `parseInt(statistics[testabCriteria])`. -/
def counter (statistics : Statistics) (testabCriteria : String) (messageId : Nat) : Option Nat :=
  statistics messageId testabCriteria

/-- What `processResult` stores of the messages; `reduce` of none throws. -/
def processResult (statistics : Statistics) (testabCriteria : String) (campaignMessage : List Nat) :
    Option Marked :=
  (champion (counter statistics testabCriteria) campaignMessage).map (mark campaignMessage)

/-! ## A step of an automation -/

/-- `a / b` of two numbers that may not be there; quotients are not rounded. -/
def quotient (a b : Option Nat) : Option (WithTop ℚ) :=
  match a, b with
  | some a, some b =>
      if b = 0 then if a = 0 then none else some ⊤
      else some ((a / b : ℚ) : WithTop ℚ)
  | _, _ => none

def share (statistics : Statistics) (winnerCriteria : String) (id : Nat) : Option (WithTop ℚ) :=
  quotient (statistics id winnerCriteria) (statistics id "delivered")

/-- `Object.values` of an object by message ids: each once, in ascending order. -/
def objectKeys (ids : List Nat) : List Nat := ids.dedup.insertionSort (· ≤ ·)

/-- What `finishTestabStep` stores of the messages of the step. -/
def finishTestabStep (statistics : Statistics) (winnerCriteria : String) (messages : List Nat) :
    Option Marked :=
  (champion (share statistics winnerCriteria) (objectKeys messages)).map (mark messages)

/-! ## What a winner is -/

/-- The events for each delivery, where something was delivered. -/
def ratio (events delivered : Option Nat) : Option ℚ :=
  match events, delivered with
  | some a, some b => if b = 0 then none else some (a / b)
  | _, _ => none

def rate (statistics : Statistics) (winnerCriteria : String) (id : Nat) : Option ℚ :=
  ratio (statistics id winnerCriteria) (statistics id "delivered")

/-- One message is marked; no other has a greater value, and none a value where it has
none. -/
def Picks {β : Type} [LinearOrder β] (value : Nat → Option β) (messages : List Nat)
    (stored : Option Marked) : Prop :=
  ∃ winner ∈ messages, stored = some (mark messages winner) ∧ Tops value winner messages

/-- No message has a rate; or none after the last undefined one is without, and the best is
among them. -/
def BestDecided (statistics : Statistics) (winnerCriteria : String) (messages : List Nat) : Prop :=
  (∀ id ∈ messages, rate statistics winnerCriteria id = none) ∨
    (∀ id ∈ decided (share statistics winnerCriteria) (objectKeys messages),
      (rate statistics winnerCriteria id).isSome = true) ∧
    ∀ id ∈ messages, ∀ b, rate statistics winnerCriteria id = some b →
      ∃ z ∈ decided (share statistics winnerCriteria) (objectKeys messages),
        ∃ c, rate statistics winnerCriteria z = some c ∧ b ≤ c

section
variable {statistics : Statistics} {criteria : String} {messages : List Nat} {id : Nat}

theorem mem_objectKeys : id ∈ objectKeys messages ↔ id ∈ messages := by
  rw [objectKeys, List.mem_insertionSort, List.mem_dedup]

theorem quotient_of_ratio {a b : Option Nat} {q : ℚ} (h : ratio a b = some q) :
    quotient a b = some (q : WithTop ℚ) := by
  cases a with
  | none => cases h
  | some a =>
      cases b with
      | none => cases h
      | some b =>
          have hratio : ratio (some a) (some b) = if b = 0 then none else some ((a : ℚ) / b) := rfl
          rw [hratio] at h
          split at h
          · cases h
          · rename_i hpos
            cases h
            exact if_neg hpos

/-- A quotient without a rate is infinite. -/
theorem quotient_of_no_ratio {a b : Option Nat} {g : WithTop ℚ} (h : ratio a b = none)
    (hquotient : quotient a b = some g) : g = ⊤ := by
  cases a with
  | none => cases hquotient
  | some a =>
      cases b with
      | none => cases hquotient
      | some b =>
          have hratio : ratio (some a) (some b) = if b = 0 then none else some ((a : ℚ) / b) := rfl
          have hzero : b = 0 := by
            by_contra hpos
            rw [hratio, if_neg hpos] at h
            cases h
          have hsplit : quotient (some a) (some b) = if a = 0 then none else some ⊤ := if_pos hzero
          rw [hsplit] at hquotient
          split at hquotient
          · cases hquotient
          · exact (Option.some.inj hquotient).symm

theorem share_of_rate {b : ℚ} (h : rate statistics criteria id = some b) :
    share statistics criteria id = some (b : WithTop ℚ) := quotient_of_ratio h

theorem mark_winner {winner winner' : Nat} (hmem : winner ∈ messages)
    (h : mark messages winner = mark messages winner') : winner = winner' := by
  have heq := List.map_inj_left.mp h winner hmem
  exact beq_iff_eq.mp ((Prod.ext_iff.mp heq).2.symm.trans (beq_self_eq_true winner))

theorem picks_iff {β γ : Type} [LinearOrder β] [LinearOrder γ] {value : Nat → Option β}
    {compared : Nat → Option γ} {order : List Nat} (hmem : ∀ id, id ∈ order ↔ id ∈ messages) :
    Picks value messages ((champion compared order).map (mark messages)) ↔
      ∃ winner, champion compared order = some winner ∧ Tops value winner messages := by
  constructor
  · rintro ⟨winner, hwinner, hstored, htops⟩
    obtain ⟨w, hw, hmark⟩ := Option.map_eq_some_iff.mp hstored
    have heq := mark_winner ((hmem w).mp (champion_mem hw)) hmark
    exact ⟨w, hw, heq ▸ htops⟩
  · rintro ⟨winner, hwinner, htops⟩
    exact ⟨winner, (hmem winner).mp (champion_mem hwinner), by rw [hwinner]; rfl, htops⟩

theorem processResult_picks : Picks (counter statistics criteria) messages
      (processResult statistics criteria messages) ↔
    messages ≠ [] ∧ Reached (counter statistics criteria) messages := by
  rw [processResult, picks_iff fun id => Iff.rfl]
  constructor
  · rintro ⟨winner, hwinner, htops⟩
    exact ⟨List.ne_nil_of_mem (champion_mem hwinner), (tops_iff hwinner).mp htops⟩
  · rintro ⟨hne, hreached⟩
    have hsome : (champion (counter statistics criteria) messages).isSome :=
      champion_isSome.mpr hne
    obtain ⟨winner, hwinner⟩ := Option.isSome_iff_exists.mp hsome
    exact ⟨winner, hwinner, (tops_iff hwinner).mpr hreached⟩

theorem tops_rate_iff {winner : Nat}
    (h : champion (share statistics criteria) (objectKeys messages) = some winner) :
    Tops (rate statistics criteria) winner messages ↔ BestDecided statistics criteria messages := by
  have hspec := champion_spec h
  constructor
  · intro htops
    by_cases hnone : ∀ id ∈ messages, rate statistics criteria id = none
    · exact .inl hnone
    · push Not at hnone
      obtain ⟨y, hy, hrate⟩ := hnone
      obtain ⟨b, hb⟩ := Option.ne_none_iff_exists'.mp hrate
      obtain ⟨c, hc, -⟩ := htops y hy b hb
      rcases hspec with ⟨-, hundefined⟩ | ⟨hmem, hgreatest⟩
      · rw [share_of_rate hc] at hundefined
        cases hundefined
      · refine .inr ⟨fun z hz => ?_, fun id hid b hb => ?_⟩
        · by_contra hz'
          obtain ⟨g, hg⟩ := Option.isSome_iff_exists.mp (isSome_of_mem_decided hz)
          have hinfinite := quotient_of_no_ratio (Option.not_isSome_iff_eq_none.mp hz') hg
          obtain ⟨d, hd, hle⟩ := hgreatest z hz g hg
          rw [share_of_rate hc] at hd
          rw [hinfinite, ← Option.some.inj hd] at hle
          exact absurd (top_le_iff.mp hle) (WithTop.coe_ne_top)
        · obtain ⟨c, hc, hle⟩ := htops id hid b hb
          exact ⟨winner, hmem, c, hc, hle⟩
  · rintro (hnone | ⟨hdefined, hreached⟩)
    · intro y hy b hb
      rw [hnone y hy] at hb
      cases hb
    · intro y hy b hb
      obtain ⟨z, hz, c, hc, hle⟩ := hreached y hy b hb
      rcases hspec with ⟨hnil, -⟩ | ⟨hmem, hgreatest⟩
      · rw [hnil] at hz
        cases hz
      · obtain ⟨d, hd⟩ := Option.isSome_iff_exists.mp (hdefined winner hmem)
        obtain ⟨e, he, hce⟩ := hgreatest z hz c (share_of_rate hc)
        rw [share_of_rate hd] at he
        rw [← Option.some.inj he] at hce
        exact ⟨d, hd, hle.trans (WithTop.coe_le_coe.mp hce)⟩

theorem finishTestabStep_picks : Picks (rate statistics criteria) messages
      (finishTestabStep statistics criteria messages) ↔
    messages ≠ [] ∧ BestDecided statistics criteria messages := by
  rw [finishTestabStep, picks_iff fun id => mem_objectKeys]
  constructor
  · rintro ⟨winner, hwinner, htops⟩
    exact ⟨List.ne_nil_of_mem (mem_objectKeys.mp (champion_mem hwinner)),
      (tops_rate_iff hwinner).mp htops⟩
  · rintro ⟨hne, hdecided⟩
    obtain ⟨id, hid⟩ := List.exists_mem_of_ne_nil messages hne
    have hsome : (champion (share statistics criteria) (objectKeys messages)).isSome :=
      champion_isSome.mpr (List.ne_nil_of_mem (mem_objectKeys.mpr hid))
    obtain ⟨winner, hwinner⟩ := Option.isSome_iff_exists.mp hsome
    exact ⟨winner, hwinner, (tops_rate_iff hwinner).mpr hdecided⟩

end

/-- For all messages and counters: the campaign's winner has the greatest counter exactly
when each counter is reached after the last message without one, and the automation's the
greatest rate exactly when the best rate is decided. -/
theorem winner_iff (statistics : Statistics) (criteria : String) (messages : List Nat) :
    (Picks (counter statistics criteria) messages (processResult statistics criteria messages) ↔
      messages ≠ [] ∧ Reached (counter statistics criteria) messages) ∧
    (Picks (rate statistics criteria) messages (finishTestabStep statistics criteria messages) ↔
      messages ≠ [] ∧ BestDecided statistics criteria messages) :=
  ⟨processResult_picks, finishTestabStep_picks⟩

/-- Three openings, no counter, one opening. -/
def interrupted : Statistics := fun id field =>
  match id, field with
  | 1, "open" => some 3
  | 3, "open" => some 1
  | 1, "delivered" | 3, "delivered" => some 10
  | _, _ => none

/-- The first message has more openings than the winner. -/
theorem winner_behind :
    ¬ Picks (counter interrupted "open") [1, 2, 3] (processResult interrupted "open" [1, 2, 3]) ∧
    ¬ Picks (rate interrupted "open") [1, 2, 3] (finishTestabStep interrupted "open" [1, 2, 3]) := by
  constructor
  · rintro ⟨winner, -, hstored, htops⟩
    have hwinner : 3 = winner :=
      mark_winner (by decide : 3 ∈ [1, 2, 3]) (Option.some.inj (Eq.trans rfl hstored))
    subst hwinner
    obtain ⟨c, hc, hle⟩ := htops 1 (by decide) 3 rfl
    cases hc
    exact absurd hle (by decide)
  · rintro ⟨winner, -, hstored, htops⟩
    have hwinner : 3 = winner :=
      mark_winner (by decide : 3 ∈ [1, 2, 3]) (Option.some.inj (Eq.trans rfl hstored))
    subst hwinner
    obtain ⟨c, hc, hle⟩ := htops 1 (by decide) (3 / 10) rfl
    cases hc
    norm_num at hle

end OpenBms.Campaigns.Winner
