/-
# `OpenBms.TagProcess.Placeholders` — the queries of a V1 segment, as they are executed

The generator writes a step's `time` into a placeholder without looking at it,
in five places; the executor knows a number of days and the two week words.

| branch | what it writes | when it fits |
| :-- | :-- | :-- |
| `page_view`, repeated events | a day | `time` is a number of days |
| one event of a message | a day, or nothing for `all` | `all`, or a number of days |
| `custom_event` by week | a week | the week day is `1` to `6` |
| `custom_event` by time | a day | `time` is a number of days |

**Proved here.**

    a segment's queries come out as its steps ask iff all times fit
    (`segmentQueryV1_agrees_iff`)
    a page view of all times does not (`segmentQueryV1_placeholder_left`)
-/
import OpenBms.Lib.Text
import OpenBms.Segment.Externals
import OpenBms.TagProcess.TimeQuery

namespace OpenBms.TagProcess

open Js OpenBms.Segment

/-! ## The branches -/

/-- Whether the executor computes the window a branch asks for. -/
def Push.windowFits : Push → Bool
  | .pageView d | .repeated d => (dayCount d.time).isSome
  | .view d => d.time = .str "all" ∨ (dayCount d.time).isSome
  | .customEvent d =>
      if d.timeType = .str "range" ∨ d.timeType = .str "date" then true
      else if d.time = .str "current_week" ∨ d.time = .str "last_week" then
        fits (.betweenReplace d.time d.conditionalWeekDayFilter)
      else (dayCount d.time).isSome

/-- A step that pushes no query asks for nothing. -/
def windowFits (body : StepBody) : Bool :=
  match body.push with
  | none => true
  | some p => Push.windowFits p

section
variable {c : Clock} {tag : TagLike} {n : Nat}

/-! ### Spaces between the fragments -/

theorem head?_append {a : String} (b : String) (h : a.toList.head? = some ' ') :
    (a ++ b).toList.head? = some ' ' := by
  obtain ⟨s, hs⟩ := List.head?_eq_some_iff.mp h
  rw [String.toList_append, hs, List.cons_append, List.head?_cons]

theorem getLast?_append (a : String) {b : String} (h : b.toList.getLast? = some ' ') :
    (a ++ b).toList.getLast? = some ' ' := by
  rw [String.toList_append, List.getLast?_append, h, Option.some_or]

theorem spaced_cons {f : Frag} {q : List Frag} (h : ∀ g ∈ q.head?, Apart f g) (hq : Spaced q) :
    Spaced (f :: q) := by
  cases q with
  | nil => exact trivial
  | cons g q => exact ⟨h g rfl, hq⟩

theorem spaced_append {q r : List Frag} (hq : Spaced q)
    (hr : ∀ f ∈ r, f.render.toList.head? = some ' ') : Spaced (q ++ r) := by
  have hspaced : ∀ {r : List Frag}, (∀ f ∈ r, f.render.toList.head? = some ' ') → Spaced r := by
    intro r
    induction r with
    | nil => exact fun _ => trivial
    | cons f r ih =>
        intro hr
        refine spaced_cons (fun g hg => .inr ?_) (ih fun f hf => hr f (List.mem_cons_of_mem _ hf))
        exact hr g (List.mem_cons_of_mem _ (List.mem_of_mem_head? hg))
  induction q with
  | nil => exact hspaced hr
  | cons f q ih =>
      cases q with
      | nil => exact spaced_cons (fun g hg => .inr (hr g (List.mem_of_mem_head? hg))) (hspaced hr)
      | cons g q => exact ⟨hq.1, ih hq.2⟩

/-! ### One branch at a time -/

/-- What a query must be to be rewritten fragment by fragment. -/
structure Regular (q : List Frag) : Prop where
  spaced : Spaced q
  week : ∀ f ∈ q, WeekFrag f

theorem regular_text (s : String) : Regular [.text s] :=
  ⟨trivial, fun _ hf => List.mem_singleton.mp hf ▸ trivial⟩

theorem Regular.append_texts {q : List Frag} (hq : Regular q) {ss : List String}
    (hss : ∀ s ∈ ss, s.toList.head? = some ' ') : Regular (q ++ ss.map .text) := by
  refine ⟨spaced_append hq.spaced ?_, ?_⟩
  · intro f hf
    obtain ⟨s, hs, rfl⟩ := List.mem_map.mp hf
    exact hss s hs
  · intro f hf
    rcases List.mem_append.mp hf with hf | hf
    · exact hq.week f hf
    · obtain ⟨s, _, rfl⟩ := List.mem_map.mp hf
      exact trivial

theorem all_texts (ss : List String) : (ss.map Frag.text).all fits = true := by
  rw [List.all_map]
  exact List.all_eq_true.mpr fun _ _ => rfl

theorem pageView_query (d : InteractionStepData) {x : ExternalQueryStep}
    (h : (pageViewOut tag n d).external = some x) :
    Regular x.query ∧ x.query.all fits = (dayCount d.time).isSome := by
  cases h
  refine ⟨⟨⟨.inl ?_, .inr ?_, trivial⟩, ?_⟩, ?_⟩
  · exact getLast?_append _ (by decide)
  · exact head?_append _ (head?_append _ (head?_append _ (head?_append _ (by decide))))
  · simp [WeekFrag]
  · simp [fits]

theorem view_query (d : InteractionStepData) {x : ExternalQueryStep}
    (h : (viewOut tag n d).external = some x) :
    Regular x.query ∧
      x.query.all fits = decide (d.time = .str "all" ∨ (dayCount d.time).isSome = true) := by
  cases h
  by_cases hall : d.time = .str "all"
  · simp only [ne_eq, hall, not_true_eq_false, if_false, List.append_nil]
    exact ⟨regular_text _, by simp [fits]⟩
  · simp only [ne_eq, hall, not_false_eq_true, if_true]
    refine ⟨⟨⟨.inr (by decide), .inl (by decide), trivial⟩, ?_⟩, ?_⟩
    · simp [WeekFrag]
    · simp [fits]

theorem repeated_query (d : InteractionStepData) {x : ExternalQueryStep}
    (h : (repeatedOut tag n d).external = some x) :
    Regular x.query ∧ x.query.all fits = (dayCount d.time).isSome := by
  cases h
  refine ⟨⟨⟨.inl ?_, .inr ?_, trivial⟩, ?_⟩, ?_⟩
  · exact getLast?_append _ (by decide)
  · exact head?_append _ (head?_append _ (head?_append _ (head?_append _ (head?_append _
      (head?_append _ (by decide))))))
  · simp [WeekFrag]
  · simp [fits]

theorem customEventWindow_query (s : String) (d : CustomEventStepData) :
    Regular (.text s :: customEventWindow d) ∧
      (customEventWindow d).all fits = Push.windowFits (.customEvent d) := by
  unfold customEventWindow Push.windowFits
  by_cases hrange : d.timeType = .str "range"
  · simp only [if_pos hrange, if_pos (Or.inl hrange)]
    refine ⟨⟨⟨.inr ?_, trivial⟩, by simp [WeekFrag]⟩, rfl⟩
    exact head?_append _ (head?_append _ (head?_append _ (head?_append _ (by decide))))
  by_cases hdate : d.timeType = .str "date"
  · simp only [if_neg hrange, if_pos hdate, if_pos (Or.inr hdate)]
    refine ⟨⟨⟨.inr ?_, trivial⟩, by simp [WeekFrag]⟩, rfl⟩
    exact head?_append _ (head?_append _ (head?_append _ (head?_append _ (by decide))))
  simp only [if_neg hrange, if_neg hdate, if_neg (not_or.mpr ⟨hrange, hdate⟩)]
  by_cases hweek : d.time = .str "current_week" ∨ d.time = .str "last_week"
  · simp only [if_pos hweek]
    refine ⟨⟨⟨.inr (by decide), .inl (by decide), trivial⟩, ?_⟩, ?_⟩
    · have hword : WeekFrag (.betweenReplace d.time d.conditionalWeekDayFilter) := by
        rcases hweek with h | h
        · exact ⟨_, List.mem_cons_self, h⟩
        · exact ⟨_, List.mem_cons_of_mem _ List.mem_cons_self, h⟩
      simp only [List.mem_cons, List.not_mem_nil, or_false]
      rintro f (rfl | rfl | rfl)
      · trivial
      · trivial
      · exact hword
    · simp [fits]
  · simp only [if_neg hweek]
    refine ⟨⟨⟨.inr ?_, .inl ?_, trivial⟩, by simp [WeekFrag]⟩, by simp [fits]⟩
    · exact head?_append _ (head?_append _ (by decide))
    · exact getLast?_append _ (by decide)

/-- What a custom event's query says behind its window: the properties and the
`HAVING`. -/
def customEventRest (d : CustomEventStepData) : List String :=
  d.properties.map (fun p => " AND properties.'" ++ p.1.text ++ "' = '" ++ p.2.text ++ "'")
    ++ if d.customTimesValue.truthy then
        [havingCount d.conditionalTimesValue d.customTimesValue ++ " "] else []

theorem customEvent_query_eq (d : CustomEventStepData) {x : ExternalQueryStep}
    (h : (customEventOut tag n d).external = some x) :
    ∃ s, x.query = (.text s :: customEventWindow d) ++ (customEventRest d).map .text := by
  cases h
  refine ⟨"SELECT contact_id FROM events_logs_v2 WHERE account_id = " ++ toString tag.accountId
    ++ " AND event = '" ++ (if d.eventName.truthy then d.eventName else .num 0).text
    ++ "' AND contact_id IS NOT NULL", ?_⟩
  cases hc : d.customTimesValue.truthy <;>
    simp [customEventRest, hc, Function.comp_def]

theorem customEventRest_head? (d : CustomEventStepData) :
    ∀ s ∈ customEventRest d, s.toList.head? = some ' ' := by
  intro s hs
  rcases List.mem_append.mp hs with hs | hs
  · obtain ⟨p, _, rfl⟩ := List.mem_map.mp hs
    exact head?_append _ (head?_append _ (head?_append _ (head?_append _ (by decide))))
  · cases hc : d.customTimesValue.truthy with
    | false => simp [hc] at hs
    | true =>
        simp only [hc, if_true, List.mem_singleton] at hs
        subst hs
        exact head?_append _ (head?_append _ (head?_append _ (head?_append _ (by decide))))

theorem customEvent_query (d : CustomEventStepData) {x : ExternalQueryStep}
    (h : (customEventOut tag n d).external = some x) :
    Regular x.query ∧ x.query.all fits = Push.windowFits (.customEvent d) := by
  obtain ⟨s, hs⟩ := customEvent_query_eq d h
  obtain ⟨hregular, hfits⟩ := customEventWindow_query s d
  rw [hs]
  refine ⟨hregular.append_texts (customEventRest_head? d), ?_⟩
  rw [List.all_append, all_texts, Bool.and_true, List.all_cons, hfits]
  rfl

theorem push_query {p : Push} {x : ExternalQueryStep} (h : (p.out tag n).external = some x) :
    Regular x.query ∧ x.query.all fits = Push.windowFits p := by
  cases p with
  | pageView d => exact pageView_query d h
  | view d => exact view_query d h
  | repeated d => exact repeated_query d h
  | customEvent d => exact customEvent_query d h

theorem push_agrees_iff (p : Push) {x : ExternalQueryStep}
    (h : (p.out tag n).external = some x) : Agrees c x ↔ Push.windowFits p = true := by
  obtain ⟨hregular, hfits⟩ := push_query h
  rw [agrees_iff hregular.spaced hregular.week, hfits]

theorem windowFits_iff (body : StepBody) :
    windowFits body = true ↔ ∀ p, body.push = some p → Push.windowFits p = true := by
  unfold windowFits
  cases body.push with
  | none => simp
  | some p => simp

/-! ## A segment -/

theorem pushJoin_not_mem_assemble {sw : Switch} (hsw : NoPlaceholder sw) {dto : SegmentDtoLike}
    {cs : List CardOut} (hcs : cardOuts sw 0 dto.steps = .ok cs) :
    .pushJoin ∉ (assemble tag dto cs).query := by
  have hcards : Tok.pushJoin ∉ cs.flatMap (CardOut.toks tag) := by
    intro hmem
    obtain ⟨d, hd, hmem⟩ := List.mem_flatMap.mp hmem
    obtain ⟨_, m, hm⟩ := mem_cardOuts hcs d hd
    refine pushJoin_not_mem_toks (fun i hi => ?_) hmem
    obtain ⟨s, _, k, _, hk, _⟩ := mem_items hm i hi
    exact hsw k s.body i.out hk
  have hlimit : Tok.pushJoin ∉ limitToks dto.contactsLimit := by
    unfold limitToks
    split <;> simp
  simp [assemble, hcards, hlimit]

end

section
variable (c : Clock) (rt : Runtime) (tag : TagLike) (dto : SegmentDtoLike)
  (timeZone : Option String)

/-- No join placeholder is left and every external query is executed as its step
asks, exactly when the executor computes the window of every step. -/
theorem segmentQueryV1_agrees_iff {r : GenerateResult}
    (h : generateSegmentQueryV1 rt tag dto timeZone = .ok r) :
    (.pushJoin ∉ r.query ∧ ∀ x ∈ r.externalQuerySteps, Agrees c x) ↔
      ∀ steps ∈ dto.steps, ∀ s ∈ steps, windowFits s.body = true := by
  obtain ⟨cs, hcs, rfl⟩ := generateV1_ok rt tag dto timeZone h
  have hsw := switchV1_lawful rt tag dto (timeZoneValue timeZone)
  have hjoin := @pushJoin_not_mem_assemble tag _ hsw.noPlaceholder _ _ hcs
  have hiff := forall_externals_iff (P := Agrees c) (Q := fun p => Push.windowFits p = true) hcs
    fun n p x hx => push_agrees_iff p hx
  simp only [windowFits_iff]
  rw [← hiff]
  exact and_iff_right hjoin

end

/-! ## A page view of all times -/

/-- Page views, whenever. -/
def pageViewAll : InteractionStepData :=
  { eventType := .str "page_view"
    conditionalInteration := .str "yes"
    pageViewFilter := .str "iLike"
    pageViewValue := .str "shop"
    time := .str "all" }

/-- The executor's pattern asks for digits. -/
theorem rewritten_all (c : Clock) : rewritten c (.replaceTime (.str "all"))
    = "#REPLACE_TIME_all_EVENTS_LOGS#".toList := by
  have hfind : Scan.find regex "#REPLACE_TIME_all_EVENTS_LOGS#".toList = none := by decide
  have hbetween : Scan.find regexBetween "#REPLACE_TIME_all_EVENTS_LOGS#".toList = none := by decide
  have hrender : (Frag.replaceTime (.str "all")).render = "#REPLACE_TIME_all_EVENTS_LOGS#" := by
    decide
  unfold rewritten formattedTimeQuery
  rw [hrender, Scan.settle_none hfind, Scan.settle_none hbetween]

theorem segmentQueryV1_placeholder_left :
    ∃ r, generateSegmentQueryV1 plainRuntime ⟨3, 1⟩ { steps := [[{ body := .interation pageViewAll }]] }
        none = .ok r ∧
      ∀ c : Clock, ∃ x ∈ r.externalQuerySteps, ¬ Agrees c x ∧
        "#REPLACE_TIME_all_EVENTS_LOGS#".toList <:+: formattedTimeQuery c (queryText x.query) := by
  refine ⟨_, rfl, fun c => ⟨_, List.mem_cons_self, ?_⟩⟩
  obtain ⟨hregular, _⟩ := @pageView_query ⟨3, 1⟩ 0 pageViewAll _ rfl
  refine ⟨fun h => ?_, ?_⟩
  · have hfits := (@push_agrees_iff _ ⟨3, 1⟩ 0 (.pageView pageViewAll) _ rfl).mp h
    exact absurd hfits (by decide)
  · rw [formattedTimeQuery_spaced hregular.spaced]
    refine List.IsInfix.trans ?_ (List.infix_of_mem_flatten (List.mem_map.mpr
      ⟨.replaceTime (.str "all"), ?_, rewritten_all c⟩))
    · exact List.infix_rfl
    · exact List.mem_cons_of_mem _ List.mem_cons_self

/-! ## The days of 2024 -/

/-- The month and the day of the month of a day of the year. -/
def monthDay : List Nat → Nat → Nat → Nat × Nat
  | [], m, d => (m, d + 1)
  | len :: lens, m, d => if d < len then (m, d + 1) else monthDay lens (m + 1) (d - len)

def twoDigits (n : Nat) : List Char :=
  if n < 10 then '0' :: (toString n).toList else (toString n).toList

/-- `format('YYYY-MM-DD')` on the days of 2024. -/
def format2024 (d : Int) : List Char :=
  if 19723 ≤ d ∧ d < 20089 then
    let md := monthDay [31, 29, 31, 30, 31, 30, 31, 31, 30, 31, 30, 31] 1 (d - 19723).toNat
    "2024-".toList ++ twoDigits md.1 ++ '-' :: twoDigits md.2
  else []

theorem isDigit_of_mem_twoDigits {n : Nat} {c : Char} (h : c ∈ twoDigits n) : c.isDigit = true := by
  have hprinted : c ∈ (toString n).toList → c.isDigit = true := fun hc =>
    Nat.isDigit_of_mem_toDigits (by decide) (by decide) (Nat.toList_repr ▸ hc)
  unfold twoDigits at h
  split at h
  · rcases List.mem_cons.mp h with rfl | h
    · rfl
    · exact hprinted h
  · exact hprinted h

theorem noMark_format2024 (d : Int) : '#' ∉ format2024 d := by
  have htwo : ∀ n, '#' ∉ twoDigits n := fun n h => nomatch isDigit_of_mem_twoDigits h
  have hyear : '#' ∉ "2024-".toList := by decide
  unfold format2024
  split
  · simp only [List.mem_append, List.mem_cons, not_or]
    exact ⟨⟨hyear, htwo _⟩, by decide, htwo _⟩
  · exact List.not_mem_nil

/-- The month and the day are read back from the text. -/
theorem format2024_inj {a b : Int} (ha : (a - 19795).natAbs ≤ 21) (hb : (b - 19795).natAbs ≤ 21)
    (h : format2024 a = format2024 b) : a = b := by
  have htwo : ∀ n, '-' ∉ twoDigits n := fun n h => nomatch isDigit_of_mem_twoDigits h
  have hread : ∀ n : Fin 32, ofDigits (twoDigits n.val) = n.val := by decide +kernel
  have hlens : ∀ i : Fin 43, (monthDay [31, 29, 31, 30, 31, 30, 31, 31, 30, 31, 30, 31] 1
      (51 + i.val)).1 < 32 ∧ (monthDay [31, 29, 31, 30, 31, 30, 31, 31, 30, 31, 30, 31] 1
      (51 + i.val)).2 < 32 := by decide
  have hdays : ∀ i j : Fin 43, monthDay [31, 29, 31, 30, 31, 30, 31, 31, 30, 31, 30, 31] 1
      (51 + i.val) = monthDay [31, 29, 31, 30, 31, 30, 31, 31, 30, 31, 30, 31] 1 (51 + j.val) →
      i = j := by decide +kernel
  obtain ⟨i, rfl⟩ : ∃ i : Fin 43, a = 19723 + (51 + i.val : Nat) :=
    ⟨⟨(a - 19774).toNat, by omega⟩, by simp only; omega⟩
  obtain ⟨j, rfl⟩ : ∃ j : Fin 43, b = 19723 + (51 + j.val : Nat) :=
    ⟨⟨(b - 19774).toNat, by omega⟩, by simp only; omega⟩
  have hi := hlens i
  have hj := hlens j
  have hin : ∀ k : Fin 43, (19723 : Int) ≤ 19723 + (51 + k.val : Nat) ∧
      19723 + ((51 + k.val : Nat) : Int) < 20089 := by
    intro k
    omega
  simp only [format2024, if_pos (hin i), if_pos (hin j), add_sub_cancel_left, Int.toNat_natCast,
    List.append_assoc, List.append_cancel_left_eq] at h
  obtain ⟨hmonth, hday⟩ := Text.separator_inj (htwo _) (htwo _) h
  have hm := (hread ⟨_, hi.1⟩).symm.trans ((congrArg ofDigits hmonth).trans (hread ⟨_, hj.1⟩))
  have hd := (hread ⟨_, hi.2⟩).symm.trans ((congrArg ofDigits hday).trans (hread ⟨_, hj.2⟩))
  rw [hdays i j (Prod.ext hm hd)]

/-- 13 March 2024, a Wednesday. -/
def march2024 : Clock where
  today := 19795
  format := format2024
  noMark := noMark_format2024
  format_inj _ _ := format2024_inj

example : march2024.weekday = 3 := by decide

/-- Page views of the last 30 days, and purchases of the week from Monday on. -/
def recentVisitors : SegmentDtoLike :=
  { steps := [[
      { body := .interation { eventType := .str "page_view"
                              conditionalInteration := .str "yes"
                              pageViewFilter := .str "iLike"
                              pageViewValue := .str "shop"
                              time := .num 30 } },
      { conditional := some .and
        body := .customEvent { eventName := .str "purchase"
                               time := .str "current_week"
                               conditionalWeekDayFilter := .str "1" } }]] }

theorem segmentQueryV1_agrees_recentVisitors :
    ∃ r, generateSegmentQueryV1 plainRuntime ⟨3, 1⟩ recentVisitors none = .ok r ∧
      .pushJoin ∉ r.query ∧ ∀ x ∈ r.externalQuerySteps, Agrees march2024 x := by
  have hfits : ∀ steps ∈ recentVisitors.steps, ∀ s ∈ steps, windowFits s.body = true := by decide
  exact ⟨_, rfl,
    (segmentQueryV1_agrees_iff march2024 plainRuntime ⟨3, 1⟩ recentVisitors none rfl).mpr hfits⟩

end OpenBms.TagProcess
