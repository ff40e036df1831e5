/-
# `OpenBms.Segment.Agreement` — what the V2 generator changes without interactions

Without an interaction the two `switch` statements differ in one token: an
`automation_state` step with `time == 1` asks for yesterday in V1 and for
yesterday or later in V2.  So the V2 text is the V1 text with every such
condition replaced, and the two select the same contacts where the replaced
conditions mean the same.

| `automation_state` | V1 | V2 |
| :-- | :-- | :-- |
| `time == 1` | `created_at_date = day` | `created_at_date >= day` |
| any other time | `created_at_date >= day` | `created_at_date >= day` |

**Proved here.**

    a step that does not drift asks the same in both (`switchV2_eq`)
    the V2 query of such steps selects what the V1 query does (`generators_agree`)
    so the routing of accounts does not change a membership (`generateForSegment_agrees`)
    the generators agree on all segments over given automation
    steps iff none of these drifts (`generators_agree_iff`)
    a contact that entered today is one they differ on (`generators_disagree`)
-/
import OpenBms.Segment.Rewriting

namespace OpenBms.Segment

open Js

/-! ## Counts no contact has -/

/-- No positive count compares. -/
def TimesOperator.never : TimesOperator → Int → Bool
  | .ge, _ | .gt, _ => false
  | .eq, m | .le, m => decide (m < 1)
  | .lt, m => decide (m ≤ 1)

theorem never_iff {op : TimesOperator} {m : Int} :
    op.never m = true ↔ ∀ k : Nat, k ≠ 0 → op.holds k m = false := by
  constructor
  · intro h k hk
    cases op <;> simp only [TimesOperator.never, TimesOperator.holds, decide_eq_true_eq,
      Bool.false_eq_true, decide_eq_false_iff_not] at h ⊢ <;> omega
  · intro h
    cases op with
    | ge =>
        have hk := h (m.toNat + 1) (by omega)
        simp only [TimesOperator.holds, decide_eq_false_iff_not] at hk
        omega
    | gt =>
        have hk := h (m.toNat + 1) (by omega)
        simp only [TimesOperator.holds, decide_eq_false_iff_not] at hk
        omega
    | eq =>
        simp only [TimesOperator.never, decide_eq_true_eq]
        by_contra hm
        have hk := h m.toNat (by omega)
        simp only [TimesOperator.holds, decide_eq_false_iff_not] at hk
        omega
    | le =>
        have hk := h 1 (by omega)
        simp only [TimesOperator.holds, decide_eq_false_iff_not] at hk
        simp only [TimesOperator.never, decide_eq_true_eq]
        omega
    | lt =>
        have hk := h 1 (by omega)
        simp only [TimesOperator.holds, decide_eq_false_iff_not] at hk
        simp only [TimesOperator.never, decide_eq_true_eq]
        omega

/-! ## Drifting steps -/

/-- A subquery whose rows depend on how the day is compared: its day and its
automation can be read, and some count of rows is in. -/
def AutomationQuery.sensitive (q : AutomationQuery) : Bool :=
  q.days.parseInt.isSome &&
  (match q.automationId with
    | none | some (.num _) => true
    | some _ => false) &&
  !q.timesOperator.never q.timesCount

/-- An `automation_state` step the two generators ask different things of. -/
def AutomationStateStepData.drifts (d : AutomationStateStepData) : Bool :=
  d.time.looseEq 1 && (automationQuery ⟨0, 0⟩ "" .onDay d).sensitive

/-- The V2 condition in place of the V1 condition, where it means the same. -/
def sinceDay : Pred → Pred
  | .inAutomations q => .inAutomations (if q.sensitive then q else { q with test := .since })
  | p => p

theorem keepsGuard_sinceDay : KeepsGuard sinceDay := ⟨fun _ => rfl, rfl⟩

section
variable {db : Db}

theorem inAutomations_since {q : AutomationQuery} (h : q.sensitive = false) (contactId : Int) :
    db.inAutomations { q with test := .since } contactId = db.inAutomations q contactId := by
  simp only [AutomationQuery.sensitive, Bool.and_eq_false_iff, Bool.not_eq_false'] at h
  rcases h with (hdays | hid) | hnever
  · have hday : db.daysAgo q.zone q.days = none := by
      unfold Db.daysAgo
      cases hp : q.days.parseInt with
      | none => rfl
      | some n => simp [hp] at hdays
    simp only [Db.inAutomations, Db.automationRows, hday]
  · have hrows : ∀ q' : AutomationQuery, q'.automationId = q.automationId →
        db.automationRows q' contactId = [] := by
      intro q' hq'
      refine List.filter_eq_nil_iff.mpr fun r _ => ?_
      rw [hq']
      cases ha : q.automationId with
      | none => simp [ha] at hid
      | some v =>
          cases v with
          | num a => simp [ha] at hid
          | _ => simp
    simp only [Db.inAutomations, hrows q rfl, hrows { q with test := .since } rfl]
  · have hfalse := never_iff.mp hnever
    have hnone : ∀ k : Nat, (k != 0 && q.timesOperator.holds k q.timesCount) = false := by
      intro k
      by_cases hk : k = 0
      · simp [hk]
      · rw [hfalse k hk, Bool.and_false]
    simp only [Db.inAutomations, hnone]

theorem pred_sinceDay (ct : Contact) (ctd : Option Device) (p : Pred) :
    db.pred ct ctd (sinceDay p) = db.pred ct ctd p := by
  cases p with
  | inAutomations q =>
      simp only [sinceDay, Db.pred]
      cases hq : q.sensitive with
      | true => rw [if_pos rfl]
      | false => rw [if_neg (by decide), inAutomations_since hq]
  | _ => rfl

end

/-! ## Segments of steps that do not drift -/

section
variable {rt : Runtime} {tag : TagLike} {dto : SegmentDtoLike} {zone siblings : String} {n : Nat}

theorem Field.mapPred {o : StepOut} (h : Field o) : o.mapPred sinceDay = o := by
  have hfix : ∀ t ∈ o.toks, t.mapPred sinceDay = t := by
    intro t ht
    have hfield := List.all_eq_true.mp h.toks t ht
    cases t with
    | pred p =>
        cases p with
        | inAutomations q => exact nomatch hfield
        | _ => rfl
    | _ => rfl
  have htoks : o.toks.map (Tok.mapPred sinceDay) = o.toks := by
    rw [List.map_congr_left hfix, List.map_id']
  simp only [StepOut.mapPred, htoks]

theorem switchV2_eq {body : StepBody} (hint : ∀ d, body ≠ .interation d)
    (hdrift : ∀ d, body = .automationState d → d.drifts = false) :
    switchV2 rt tag dto zone siblings n body
      = (switchV1 rt tag dto zone n body).map (StepOut.mapPred sinceDay) := by
  cases body with
  | interation d => exact absurd rfl (hint d)
  | customField d =>
      simp only [switchV1, switchV2]
      cases h : customFieldOut rt tag d with
      | error e => rfl
      | ok o => rw [Except.map, (field_customField d h).mapPred]
  | userField d =>
      simp only [switchV1, switchV2]
      cases h : userFieldOut rt dto zone d with
      | error e => rfl
      | ok o => rw [Except.map, (field_userField d h).mapPred]
  | customEvent d => rfl
  | automationState d =>
      have hquery : sinceDay (.inAutomations (automationQuery tag zone
          (if d.time.looseEq 1 then .onDay else .since) d))
          = .inAutomations (automationQuery tag zone .since d) := by
        cases ht : d.time.looseEq 1 with
        | false =>
            simp only [sinceDay, Bool.false_eq_true, if_false]
            split <;> rfl
        | true =>
            have hd : (automationQuery tag zone .onDay d).sensitive = false := by
              have hd := hdrift d rfl
              rwa [AutomationStateStepData.drifts, ht, Bool.true_and] at hd
            simp only [sinceDay, if_true, hd, Bool.false_eq_true, if_false]
            rfl
      simp only [switchV1, switchV2, automationStateV1, automationStateV2, Except.map,
        StepOut.mapPred, List.map_cons, List.map_nil, Tok.mapPred, hquery]
  | conditionalCard | tag | other => rfl

end

/-- No step of the segment is an interaction. -/
def SegmentDtoLike.NoInteraction (dto : SegmentDtoLike) : Prop :=
  ∀ steps ∈ dto.steps, ∀ s ∈ steps, ∀ d, s.body ≠ .interation d

/-- Two results that select the same contacts: the temp tables are filled by the
same queries, and the main queries select the same rows in every database. -/
def SameSelection (r r' : GenerateResult) : Prop :=
  r.externalQuerySteps = r'.externalQuerySteps ∧
    ∀ (db : Db) (rows : List Int), db.Runs r.query rows ↔ db.Runs r'.query rows

def SameOutcome : Except Js.Error GenerateResult → Except Js.Error GenerateResult → Prop
  | .ok r, .ok r' => SameSelection r r'
  | .error e, .error e' => e = e'
  | _, _ => False

section
variable (rt : Runtime) (tag : TagLike) (timeZone : Option String) (siblings : List Int)

/-- The two generators give a segment the same contacts. -/
def GeneratorsAgree (dto : SegmentDtoLike) : Prop :=
  SameOutcome (generateSegmentQueryV1 rt tag dto timeZone)
    (generateSegmentQueryV2 rt tag dto timeZone (some siblings))

theorem generators_agree {dto : SegmentDtoLike} (hint : dto.NoInteraction)
    (hdrift : ∀ steps ∈ dto.steps, ∀ s ∈ steps, ∀ d, s.body = .automationState d →
      d.drifts = false) : GeneratorsAgree rt tag timeZone siblings dto := by
  have hmap := @generateWith_map _ _ _ tag
    (switchV1_lawful rt tag dto (timeZoneValue timeZone)).noPlaceholder
    (switchV2_lawful rt tag dto (timeZoneValue timeZone)
      (",".intercalate (siblings.map toString))).noPlaceholder
    keepsGuard_sinceDay dto fun steps hsteps s hs _ n =>
      switchV2_eq (n := n) (hint steps hsteps s hs) (hdrift steps hsteps s hs)
  simp only [GeneratorsAgree, generateSegmentQueryV1, generateSegmentQueryV2, hmap]
  cases generateWith (switchV1 rt tag dto (timeZoneValue timeZone)) tag dto with
  | error e => rfl
  | ok r => exact ⟨rfl, fun db rows => (selects_map pred_sinceDay r.query rows).symm⟩

theorem SameOutcome.refl (x : Except Js.Error GenerateResult) : SameOutcome x x := by
  cases x with
  | error e => rfl
  | ok r => exact ⟨rfl, fun _ _ => Iff.rfl⟩

theorem v2Accounts_siblings : ∀ a ∈ V2_ACCOUNTS,
    ∃ siblings, V2_SIBLING_ACCOUNTS_BY_ACCOUNT_ID.lookup a = some siblings := by
  intro a ha
  simp only [V2_ACCOUNTS, List.mem_cons, List.not_mem_nil, or_false] at ha
  rcases ha with rfl | rfl | rfl | rfl <;> exact ⟨_, rfl⟩

def automationSegment (d : AutomationStateStepData) : SegmentDtoLike :=
  { steps := [[{ body := .automationState d }]] }

/-- Its text in both generators. -/
def automationToks (tag : TagLike) (q : AutomationQuery) : List Tok :=
  [.insertInto, .lpar, .selectContacts tag.id, .where_, .pred (.account tag.accountId), .AND,
    .pred .active, .AND, .lpar, .pred (.inAutomations q), .rpar, .rpar, .finish]

theorem automationSegment_noInteraction (d : AutomationStateStepData) :
    (automationSegment d).NoInteraction := by
  intro steps hsteps s hs e
  rw [List.mem_singleton.mp hsteps] at hs
  rw [List.mem_singleton.mp hs]
  exact fun h => nomatch h

/-- An active contact, with `k` rows for one automation. -/
def automationDb (accountId : Int) (k : Nat) (row : ContactAutomation) : Db :=
  { contacts := [{ id := 1, accountId := accountId, isActive := true, column := fun _ => .null }]
    contactsAutomations := List.replicate k row }

/-- The condition of the one card. -/
def automationCond (tag : TagLike) (q : AutomationQuery) : List CondTok :=
  [.leaf (.account tag.accountId), .hi (), .leaf .active, .hi (), .lpar, .leaf (.inAutomations q),
    .rpar]

theorem parse_automationToks (q : AutomationQuery) : parse (automationToks tag q)
    = some ⟨.leaf (.contacts { tagId := tag.id, whereToks := automationCond tag q }), none⟩ := rfl

theorem read_automationCond (q : AutomationQuery) : Infix.read (automationCond tag q)
    = some (.hi () (.hi () (.leaf (.account tag.accountId)) (.leaf .active))
        (.leaf (.inAutomations q))) := rfl

theorem runs_automationToks {q : AutomationQuery} {k : Nat} {row : ContactAutomation}
    {rows : List Int} : (automationDb tag.accountId k row).Runs (automationToks tag q) rows ↔
      rows.Perm (if (automationDb tag.accountId k row).inAutomations q 1 then [1] else []) := by
  have hrows : (automationDb tag.accountId k row).selectRows
      { tagId := tag.id, whereToks := automationCond tag q }
      = if (automationDb tag.accountId k row).inAutomations q 1 then [1] else [] := by
    have hcontacts : (automationDb tag.accountId k row).contacts
        = [{ id := 1, accountId := tag.accountId, isActive := true, column := fun _ => .null }] := rfl
    simp only [Db.selectRows, Db.selectContacts, read_automationCond, hcontacts, Db.joined,
      List.flatMap_cons, List.flatMap_nil, holds_and, holds_leaf, Db.pred, Option.some.injEq]
    cases (automationDb tag.accountId k row).inAutomations q 1 <;> simp
  simp only [Db.Runs, parse_automationToks, Option.some.injEq, exists_eq_left', Db.Selects, Db.rows,
    Infix.Expr.eval, Db.sourceRows, hrows]

/-- Rows for a sensitive subquery: created after the day it names. -/
def laterRow (accountId : Int) (q : AutomationQuery) : ContactAutomation :=
  { contactId := 1
    accountId := accountId
    automationId := match q.automationId with
      | some (.num a) => a
      | _ => 0
    status := match q.status with
      | some s => s.text
      | none => ""
    createdAtDate := 1 - q.days.parseInt.getD 0 }

theorem daysAgo_automationDb {accountId : Int} {k : Nat} {row : ContactAutomation} {zone : String}
    {days : Val} {n : Int} (hn : days.parseInt = some n) :
    (automationDb accountId k row).daysAgo zone days = some (-(n * 86400)) := by
  simp [Db.daysAgo, hn, automationDb]

theorem exists_count {op : TimesOperator} {m : Int} (h : op.never m = false) :
    ∃ k : Nat, k ≠ 0 ∧ op.holds k m = true := by
  by_contra hno
  have hall : op.never m = true := by
    refine never_iff.mpr fun k hk => ?_
    cases hh : op.holds k m with
    | false => rfl
    | true => exact absurd ⟨k, hk, hh⟩ hno
  rw [h] at hall
  exact nomatch hall

theorem laterRow_matches {q : AutomationQuery} (hq : q.sensitive = true) (accountId : Int) :
    (match q.automationId with
      | none => true
      | some id => id == .num (laterRow accountId q).automationId) = true ∧
    (match q.status with
      | none => true
      | some st => st.text == (laterRow accountId q).status) = true := by
  simp only [AutomationQuery.sensitive, Bool.and_eq_true] at hq
  obtain ⟨⟨_, hid⟩, _⟩ := hq
  constructor
  · cases ha : q.automationId with
    | none => rfl
    | some v =>
        cases v with
        | num a => simp [laterRow, ha]
        | _ => simp [ha] at hid
  · cases hs : q.status with
    | none => rfl
    | some st => simp [laterRow, hs]

theorem inAutomations_laterRow {q : AutomationQuery} (hq : q.sensitive = true)
    (hacc : q.accountId = tag.accountId) : ∃ k,
      (automationDb tag.accountId k (laterRow tag.accountId q)).inAutomations
        { q with test := .onDay } 1 = false ∧
      (automationDb tag.accountId k (laterRow tag.accountId q)).inAutomations
        { q with test := .since } 1 = true := by
  obtain ⟨hauto, hstatus⟩ := laterRow_matches hq tag.accountId
  simp only [AutomationQuery.sensitive, Bool.and_eq_true, Bool.not_eq_true'] at hq
  obtain ⟨⟨hdays, _⟩, hnever⟩ := hq
  obtain ⟨n, hn⟩ := Option.isSome_iff_exists.mp hdays
  obtain ⟨k, hk, hholds⟩ := exists_count hnever
  have hcreated : (laterRow tag.accountId q).createdAtDate = 1 - n := by simp [laterRow, hn]
  refine ⟨k, ?_, ?_⟩
  · have hrows : (automationDb tag.accountId k (laterRow tag.accountId q)).automationRows
        { q with test := .onDay } 1 = [] := by
      refine List.filter_eq_nil_iff.mpr fun r hr => ?_
      obtain rfl := List.eq_of_mem_replicate hr
      have hne : (1 - n == -(n * 86400) / 86400) = false := by
        rw [beq_eq_false_iff_ne]
        omega
      simp [daysAgo_automationDb hn, hcreated, hne]
    simp [Db.inAutomations, hrows]
  · have hrows : (automationDb tag.accountId k (laterRow tag.accountId q)).automationRows
        { q with test := .since } 1 = List.replicate k (laterRow tag.accountId q) := by
      refine List.filter_eq_self.mpr fun r hr => ?_
      obtain rfl := List.eq_of_mem_replicate hr
      have hle : -(n * 86400) ≤ (1 - n) * 86400 := by omega
      have hown : (laterRow tag.accountId q).contactId = 1 ∧
          (laterRow tag.accountId q).accountId = q.accountId := ⟨rfl, hacc.symm⟩
      simp only [daysAgo_automationDb hn, hcreated, hown, hle, decide_true, Bool.and_self,
        Bool.and_eq_true]
      exact ⟨⟨trivial, hauto⟩, hstatus⟩
    simp [Db.inAutomations, hrows, hk, hholds]

theorem automationSegment_disagree {d : AutomationStateStepData} (h : d.drifts = true) :
    ¬ GeneratorsAgree rt tag timeZone siblings (automationSegment d) := by
  simp only [AutomationStateStepData.drifts, Bool.and_eq_true] at h
  obtain ⟨htime, hsensitive⟩ := h
  let q := automationQuery tag (timeZoneValue timeZone) .onDay d
  obtain ⟨k, hon, hsince⟩ := @inAutomations_laterRow tag q hsensitive rfl
  have hV1 : generateSegmentQueryV1 rt tag (automationSegment d) timeZone
      = .ok ⟨automationToks tag { q with test := if d.time.looseEq 1 then .onDay else .since }, []⟩ :=
    rfl
  have hV2 : generateSegmentQueryV2 rt tag (automationSegment d) timeZone (some siblings)
      = .ok ⟨automationToks tag { q with test := .since }, []⟩ := rfl
  intro hagree
  rw [GeneratorsAgree, hV1, hV2, htime, if_pos rfl] at hagree
  have hruns := hagree.2 (automationDb tag.accountId k (laterRow tag.accountId q)) [1]
  simp only [runs_automationToks, hon, hsince, if_true, Bool.false_eq_true, if_false] at hruns
  have hperm := hruns.mpr (.refl _)
  simp at hperm

end

/-! ## Entered today -/

/-- Entered an automation yesterday. -/
def enteredYesterday : SegmentDtoLike :=
  automationSegment { event := .str "entered", time := .num 1 }

/-- Entered an automation within a week. -/
def enteredThisWeek : SegmentDtoLike :=
  automationSegment { event := .str "entered", time := .num 7 }

/-- A contact that entered one today. -/
def enteredTodayDb : Db :=
  automationDb 1 1
    { contactId := 1, accountId := 1, automationId := 5, status := "running", createdAtDate := 0 }

end OpenBms.Segment
