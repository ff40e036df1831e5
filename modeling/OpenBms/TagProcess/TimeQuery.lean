/-
# `OpenBms.TagProcess.TimeQuery` — `formattedTimeQuery`, and who writes what it reads

The generator leaves two kinds of placeholders in an external query,

    #REPLACE_TIME_<time>_EVENTS_LOGS#
    #BETWEEN_REPLACE_<week>,<week day>_EVENTS_LOGS#

and `tag-process` rewrites every query by two regular expressions before it
runs it.  The two sides share nothing but this text.  Here is the executor's
side as it is written, and the exact set of placeholders it turns into the
window they ask for.

| the placeholder asks for | the window |
| :-- | :-- |
| a number of days `n` | from the day `n` days ago |
| `current_week`, week day `d` | the seven days from the last week day `d` on |
| `last_week`, week day `d` | the seven days before those |

**Proved here.**

    the words of a query are rewritten one by one (`formattedTimeQuery_sep`)
    which windows the executor computes (`processSegmentBetweenDate_week`)
    when a query comes out as its fragments ask (`agrees_iff`)
-/
import OpenBms.Lib.Scan
import OpenBms.Segment.Generator

namespace OpenBms.TagProcess

open Js OpenBms.Segment

/-! ## The executor -/

/-- What the executor uses of `dayjs`: today, as a day number counted from a
Thursday, and `format('YYYY-MM-DD')` of a day. -/
structure Clock where
  today : Int
  format : Int → List Char
  /-- A date has no `#`. -/
  noMark : ∀ d, '#' ∉ format d
  /-- Days around today are written differently. -/
  format_inj : ∀ a b, (a - today).natAbs ≤ 21 → (b - today).natAbs ≤ 21 → format a = format b → a = b

/-- `dayjs().day()`. -/
def Clock.weekday (c : Clock) : Int := (c.today + 4) % 7

/-- `dayjs().day(d)`. -/
def Clock.day (c : Clock) (d : Int) : Int := c.today + (d - c.weekday)

/-- `.format('YYYY-MM-DD')`; `none` is an invalid date. -/
def Clock.text (c : Clock) : Option Int → List Char
  | none => "Invalid Date".toList
  | some d => c.format d

/-- `result.split(',')[0]` and `[1]`. -/
def commaParts (result : List Char) : List Char × Val :=
  (result.takeWhile (· != ','),
    match result.dropWhile (· != ',') with
    | [] => .undefined
    | _ :: rest => .str (String.ofList (rest.takeWhile (· != ','))))

/-- `processSegmentBetweenDate`: the first and the last day. -/
def processSegmentBetweenDate (c : Clock) (result : List Char) : Option Int × Option Int :=
  let filter := commaParts result
  match filter.2.parseInt with
  | none => (none, none)
  | some dayFilter =>
      let dayFinalDate := if dayFilter = 0 then 6 else dayFilter - 1
      if filter.1 = "current_week".toList then
        (some (if c.weekday < dayFilter then c.day dayFilter - 7 else c.day dayFilter),
          some (if dayFilter ≤ c.weekday then c.day dayFinalDate + 7 else c.day dayFinalDate))
      else if c.weekday < dayFilter then
        (some (c.day dayFilter - 14), some (c.day dayFinalDate - 7))
      else (some (c.day dayFilter - 7), some (c.day dayFinalDate))

/-- `/#REPLACE_TIME_(\d+)_EVENTS_LOGS#/`. -/
def regex : Scan.Matcher :=
  Scan.between ('#' :: "REPLACE_TIME_".toList) Char.isDigit "_EVENTS_LOGS#".toList

/-- `/#BETWEEN_REPLACE_([a-zA-Z0-9_,]+)_EVENTS_LOGS#/`. -/
def regexBetween : Scan.Matcher :=
  Scan.between ('#' :: "BETWEEN_REPLACE_".toList) (fun c => c.isAlphanum || c == '_' || c == ',')
    "_EVENTS_LOGS#".toList

/-- `` `'${date}'` ``. -/
def quoted (text : List Char) : List Char := '\'' :: text ++ ['\'']

/-- `` ` '${startDate}' AND '${finalDate}'` ``. -/
def betweenText (c : Clock) (w : Option Int × Option Int) : List Char :=
  ' ' :: (quoted (c.text w.1) ++ " AND ".toList ++ quoted (c.text w.2))

def replaceTime (c : Clock) (days : List Char) : List Char :=
  quoted (c.text (some (c.today - ofDigits days)))

def replaceBetween (c : Clock) (result : List Char) : List Char :=
  betweenText c (processSegmentBetweenDate c result)

/-- `formattedTimeQuery`. -/
def formattedTimeQuery (c : Clock) (query : List Char) : List Char :=
  Scan.settle regexBetween (replaceBetween c) '#' (Scan.settle regex (replaceTime c) '#' query)

/-! ## Placeholders -/

/-- The text of an external query, as it is stored. -/
def queryText : List Frag → List Char
  | [] => []
  | f :: q => f.render.toList ++ queryText q

/-- A fragment as the executor rewrites it on its own. -/
def rewritten (c : Clock) (f : Frag) : List Char := formattedTimeQuery c f.render.toList

def isPlaceholder : Frag → Bool
  | .text _ => false
  | .replaceTime _ | .betweenReplace _ _ => true

/-- A time that is a number of days. -/
def dayCount (time : Val) : Option Nat :=
  let t := time.text.toList
  if t ≠ [] ∧ t.all Char.isDigit then some (ofDigits t) else none

/-- A week day, Sunday first. -/
def weekDay (v : Val) : Option (Fin 7) :=
  (List.finRange 7).find? fun k => v.text = toString k.val

/-- The last week day `d` not after today. -/
def Clock.weekStart (c : Clock) (d : Int) : Int := c.today - (c.weekday - d) % 7

/-- The window a week step asks for. -/
def weekWindow (c : Clock) (time : Val) (d : Int) : Int × Int :=
  if time = .str "current_week" then (c.weekStart d, c.weekStart d + 6)
  else (c.weekStart d - 7, c.weekStart d - 1)

/-- What a fragment asks to be replaced by; `none` when it names no window. -/
def asked (c : Clock) : Frag → Option (List Char)
  | .text s => some (formattedTimeQuery c s.toList)
  | .replaceTime time => (dayCount time).map fun n : Nat => quoted (c.format (c.today - n))
  | .betweenReplace time d => (weekDay d).map fun k =>
      betweenText c (some (weekWindow c time k.val).1, some (weekWindow c time k.val).2)

/-- The executed query: every fragment is rewritten on its own, to what it asks
for, and no placeholder is left. -/
structure Agrees (c : Clock) (x : ExternalQueryStep) : Prop where
  whole : formattedTimeQuery c (queryText x.query) = x.query.flatMap (rewritten c)
  windows : ∀ f ∈ x.query, asked c f = some (rewritten c f)
  gone : ∀ f ∈ x.query, isPlaceholder f = true →
    ¬ f.render.toList <:+: formattedTimeQuery c (queryText x.query)

/-! ## Rewriting -/

theorem local_regex : Scan.Local regex '#' ' ' :=
  Scan.local_between (by decide) (by decide) (by decide)

theorem local_regexBetween : Scan.Local regexBetween '#' ' ' :=
  Scan.local_between (by decide) (by decide) (by decide)

section
variable {c : Clock}

theorem noMark_quoted {t : List Char} (h : '#' ∉ t) : '#' ∉ quoted t := by
  simp [quoted, h]

theorem noMark_invalid : '#' ∉ "Invalid Date".toList := by decide

theorem noMark_text (d : Option Int) : '#' ∉ c.text d := by
  cases d with
  | none => exact noMark_invalid
  | some d => exact c.noMark d

theorem noMark_replaceTime (days : List Char) : '#' ∉ replaceTime c days := by
  have h : '#' ∉ c.text (some (c.today - ofDigits days)) := c.noMark _
  exact noMark_quoted h

theorem noMark_betweenText (w : Option Int × Option Int) : '#' ∉ betweenText c w := by
  have hand : '#' ∉ " AND ".toList := by decide
  simp only [betweenText, List.mem_cons, List.mem_append, not_or]
  exact ⟨by decide, ⟨noMark_quoted (noMark_text _), hand⟩, noMark_quoted (noMark_text _)⟩

theorem noMark_replaceBetween (r : List Char) : '#' ∉ replaceBetween c r := noMark_betweenText _

/-- The words of a query are rewritten one by one. -/
theorem formattedTimeQuery_sep (s t : List Char) :
    formattedTimeQuery c (s ++ ' ' :: t)
      = formattedTimeQuery c s ++ ' ' :: formattedTimeQuery c t := by
  unfold formattedTimeQuery
  rw [Scan.settle_sep local_regex noMark_replaceTime,
    Scan.settle_sep local_regexBetween noMark_replaceBetween]

/-- Two fragments with a space between them. -/
def Apart (f g : Frag) : Prop :=
  f.render.toList.getLast? = some ' ' ∨ g.render.toList.head? = some ' '

def Spaced : List Frag → Prop
  | [] => True
  | [_] => True
  | f :: g :: fs => Apart f g ∧ Spaced (g :: fs)

theorem formattedTimeQuery_nil : formattedTimeQuery c [] = [] := rfl

theorem formattedTimeQuery_spaced {q : List Frag} (h : Spaced q) :
    formattedTimeQuery c (queryText q) = q.flatMap (rewritten c) := by
  induction q with
  | nil => rfl
  | cons f q ih =>
      cases q with
      | nil => simp [queryText, rewritten]
      | cons g fs =>
          rw [List.flatMap_cons, ← ih h.2]
          rcases h.1 with hlast | hhead
          · obtain ⟨s, hs⟩ := List.getLast?_eq_some_iff.mp hlast
            have hf : rewritten c f = formattedTimeQuery c s ++ [' '] := by
              rw [rewritten, hs, formattedTimeQuery_sep, formattedTimeQuery_nil]
            rw [queryText, hs, hf, List.append_assoc, List.append_assoc, List.singleton_append,
              List.singleton_append, formattedTimeQuery_sep]
          · obtain ⟨s, hs⟩ := List.head?_eq_some_iff.mp hhead
            have hg : queryText (g :: fs) = ' ' :: (s ++ queryText fs) := by
              rw [queryText, hs, List.cons_append]
            have hrest : formattedTimeQuery c (' ' :: (s ++ queryText fs))
                = ' ' :: formattedTimeQuery c (s ++ queryText fs) :=
              formattedTimeQuery_sep [] (s ++ queryText fs)
            rw [queryText, hg, hrest, formattedTimeQuery_sep, rewritten]

/-- No placeholder the executor knows is left in a rewritten query. -/
theorem find_formattedTimeQuery (s : List Char) :
    Scan.find regex (formattedTimeQuery c s) = none ∧
      Scan.find regexBetween (formattedTimeQuery c s) = none := by
  refine ⟨?_, Scan.find_settle local_regexBetween noMark_replaceBetween _⟩
  exact Scan.find_settle_other local_regexBetween local_regex noMark_replaceBetween
    (fun _ => ⟨_, rfl⟩) (Scan.find_settle local_regex noMark_replaceTime s)

/-! ## The two placeholders -/

theorem dayCount_eq_some {time : Val} {n : Nat} (h : dayCount time = some n) :
    time.text.toList ≠ [] ∧ (∀ c ∈ time.text.toList, c.isDigit = true) ∧
      n = ofDigits time.text.toList := by
  simp only [dayCount] at h
  split at h
  · rename_i hd
    exact ⟨hd.1, List.all_eq_true.mp hd.2, (Option.some.inj h).symm⟩
  · exact nomatch h

theorem toList_append_append (a b d : String) :
    (a ++ b ++ d).toList = a.toList ++ (b.toList ++ d.toList) := by
  rw [String.toList_append, String.toList_append, List.append_assoc]

theorem render_replaceTime (time : Val) : (Frag.replaceTime time).render.toList
    = "#REPLACE_TIME_".toList ++ (time.text.toList ++ "_EVENTS_LOGS#".toList) :=
  toList_append_append _ _ _

theorem regex_replaceTime {time : Val} {n : Nat} (h : dayCount time = some n) :
    regex (Frag.replaceTime time).render.toList = some (time.text.toList, []) := by
  obtain ⟨hne, hdigit, _⟩ := dayCount_eq_some h
  have hlit : "#REPLACE_TIME_".toList = '#' :: "REPLACE_TIME_".toList := by decide
  rw [render_replaceTime, hlit]
  exact Scan.between_self hne hdigit (by decide)

theorem rewritten_replaceTime {time : Val} {n : Nat} (h : dayCount time = some n) :
    rewritten c (.replaceTime time) = quoted (c.format (c.today - n)) := by
  obtain ⟨_, _, rfl⟩ := dayCount_eq_some h
  unfold rewritten formattedTimeQuery
  rw [Scan.settle_whole local_regex noMark_replaceTime (regex_replaceTime h),
    Scan.settle_no_mark local_regexBetween (noMark_replaceTime _)]
  rfl

theorem weekDay_text {v : Val} {k : Fin 7} (h : weekDay v = some k) : v.text = toString k.val := by
  unfold weekDay at h
  have htrue := List.find?_some h
  exact of_decide_eq_true htrue

/-- `current_week,3` and its like. -/
def weekText (t : String) (k : Fin 7) : String := t ++ "," ++ toString k.val

def weekRender (t : String) (k : Fin 7) : String :=
  "#BETWEEN_REPLACE_" ++ t ++ "," ++ toString k.val ++ "_EVENTS_LOGS#"

theorem weekText_toList (t : String) (k : Fin 7) :
    (weekText t k).toList = t.toList ++ (",".toList ++ [k.val.digitChar]) := by
  have hday : ∀ k : Fin 7, (toString k.val).toList = [k.val.digitChar] := by decide
  rw [weekText, toList_append_append, hday]

theorem weekRender_toList (t : String) (k : Fin 7) : (weekRender t k).toList =
    "#BETWEEN_REPLACE_".toList ++ ((weekText t k).toList ++ "_EVENTS_LOGS#".toList) := by
  have happend (a b d e f : String) : a ++ b ++ d ++ e ++ f = a ++ (b ++ d ++ e) ++ f := by
    simp only [String.append_assoc]
  have hrender : weekRender t k = "#BETWEEN_REPLACE_" ++ weekText t k ++ "_EVENTS_LOGS#" :=
    happend ..
  rw [hrender, toList_append_append]

/-- The two week words and seven week days are read as they are written. -/
theorem regexBetween_week : ∀ t ∈ ["current_week", "last_week"], ∀ k : Fin 7,
    regexBetween (weekRender t k).toList = some ((weekText t k).toList, []) ∧
      Scan.find regex (weekRender t k).toList = none ∧
      (commaParts (weekText t k).toList).1 = t.toList ∧
      (commaParts (weekText t k).toList).2.parseInt = some (k.val : Int) := by
  intro t ht k
  rw [weekRender_toList, weekText_toList]
  revert k
  -- The kernel reads lists of characters faster than strings.
  rcases List.mem_cons.mp ht with rfl | ht
  · simp only [String.reduceToList]
    decide +kernel
  · rw [List.mem_singleton.mp ht]
    simp only [String.reduceToList]
    decide +kernel

/-- Where the window of a week step is written. -/
def WeekFrag : Frag → Prop
  | .betweenReplace time _ => ∃ t ∈ ["current_week", "last_week"], time = .str t
  | _ => True

theorem render_betweenReplace {t : String} {d : Val} {k : Fin 7} (hk : weekDay d = some k) :
    (Frag.betweenReplace (.str t) d).render = weekRender t k :=
  congrArg (fun day => "#BETWEEN_REPLACE_" ++ t ++ "," ++ day ++ "_EVENTS_LOGS#") (weekDay_text hk)

/-- The executor's window is the week the step asks for, and for Sunday that
week and the next. -/
theorem processSegmentBetweenDate_week {t : String} (ht : t ∈ ["current_week", "last_week"])
    (k : Fin 7) : processSegmentBetweenDate c (weekText t k).toList
      = (some (weekWindow c (.str t) k.val).1,
        some ((weekWindow c (.str t) k.val).2 + if k = 0 then 7 else 0)) := by
  obtain ⟨_, _, hword, hday⟩ := regexBetween_week t ht k
  have hlt := k.isLt
  have hwd : 0 ≤ c.weekday ∧ c.weekday < 7 := by
    unfold Clock.weekday
    omega
  have hzero : (k.val : Int) = 0 ↔ k = 0 := by simp
  have hcur : t.toList = "current_week".toList ↔ t = "current_week" := String.toList_inj
  simp only [processSegmentBetweenDate, hday, hword, hcur, weekWindow, Val.str.injEq]
  by_cases hweek : t = "current_week"
  · simp only [if_pos hweek, Clock.weekStart, Clock.day, Prod.mk.injEq, Option.some.injEq]
    grind
  · simp only [if_neg hweek, Clock.weekStart, Clock.day]
    grind

/-- What a week placeholder becomes. -/
theorem rewritten_betweenReplace {t : String} (ht : t ∈ ["current_week", "last_week"]) {d : Val}
    {k : Fin 7} (hk : weekDay d = some k) : rewritten c (.betweenReplace (.str t) d)
      = betweenText c (some (weekWindow c (.str t) k.val).1,
        some ((weekWindow c (.str t) k.val).2 + if k = 0 then 7 else 0)) := by
  obtain ⟨hmatch, hfind, _⟩ := regexBetween_week t ht k
  unfold rewritten formattedTimeQuery
  rw [render_betweenReplace hk, Scan.settle_none hfind,
    Scan.settle_whole local_regexBetween noMark_replaceBetween hmatch, replaceBetween,
    processSegmentBetweenDate_week ht k]

theorem betweenText_inj {a b b' : Int}
    (h : betweenText c (some a, some b) = betweenText c (some a, some b')) :
    c.format b = c.format b' := by
  unfold betweenText at h
  have hlast : quoted (c.format b) = quoted (c.format b') :=
    List.append_cancel_left (List.cons.inj h).2
  exact List.append_cancel_right (List.cons.inj hlast).2

/-! ## When a query comes out as asked -/

/-- A fragment whose placeholder names a window the executor computes. -/
def fits : Frag → Bool
  | .text _ => true
  | .replaceTime time => (dayCount time).isSome
  | .betweenReplace _ d => (weekDay d).any fun k => k ≠ 0

/-- The end the executor gives a Sunday week is another day. -/
theorem format_sunday {t : String} :
    c.format ((weekWindow c (.str t) 0).2 + 7) ≠ c.format (weekWindow c (.str t) 0).2 := by
  intro h
  have hwd : 0 ≤ c.weekday ∧ c.weekday < 7 := by
    unfold Clock.weekday
    omega
  have hnear : -14 ≤ (weekWindow c (.str t) 0).2 - c.today ∧
      (weekWindow c (.str t) 0).2 - c.today ≤ 6 := by
    unfold weekWindow Clock.weekStart
    split <;> constructor <;> simp only <;> omega
  have heq := c.format_inj _ _ (by omega) (by omega) h
  omega

theorem asked_iff {f : Frag} (hf : WeekFrag f) :
    asked c f = some (rewritten c f) ↔ fits f = true := by
  cases f with
  | text s => exact iff_of_true rfl rfl
  | replaceTime time =>
      cases hn : dayCount time with
      | none => simp only [asked, fits, hn, Option.map_none, reduceCtorEq, Option.isSome_none]
      | some n =>
          have hw : rewritten c (.replaceTime time) = quoted (c.format (c.today - n)) :=
            rewritten_replaceTime hn
          simp only [asked, fits, hn, Option.map_some, hw, Option.isSome_some]
  | betweenReplace time d =>
      obtain ⟨t, ht, rfl⟩ := hf
      cases hk : weekDay d with
      | none => simp only [asked, fits, hk, Option.map_none, reduceCtorEq, Option.any_none,
          Bool.false_eq_true]
      | some k =>
          rw [rewritten_betweenReplace ht hk]
          simp only [asked, fits, hk, Option.map_some, Option.any_some, Option.some.injEq,
            decide_eq_true_eq]
          constructor
          · rintro h rfl
            exact format_sunday (betweenText_inj h).symm
          · intro hne
            rw [if_neg hne, Int.add_zero]

theorem isSome_of_fits {f : Frag} (hf : WeekFrag f) (hfits : fits f = true)
    (hp : isPlaceholder f = true) :
    (regex f.render.toList).isSome = true ∨ (regexBetween f.render.toList).isSome = true := by
  cases f with
  | text s => exact nomatch hp
  | replaceTime time =>
      obtain ⟨n, hn⟩ := Option.isSome_iff_exists.mp hfits
      exact .inl (by rw [regex_replaceTime hn, Option.isSome_some])
  | betweenReplace time d =>
      obtain ⟨t, ht, rfl⟩ := hf
      obtain ⟨k, hk, _⟩ := (Option.any_eq_true _ _).mp hfits
      obtain ⟨hmatch, _⟩ := regexBetween_week t ht k
      refine .inr ?_
      rw [render_betweenReplace hk, hmatch, Option.isSome_some]

theorem agrees_iff {x : ExternalQueryStep} (hsp : Spaced x.query)
    (hweek : ∀ f ∈ x.query, WeekFrag f) : Agrees c x ↔ x.query.all fits = true := by
  rw [List.all_eq_true]
  constructor
  · intro h f hf
    exact (asked_iff (hweek f hf)).mp (h.windows f hf)
  · intro h
    refine ⟨formattedTimeQuery_spaced hsp, fun f hf => (asked_iff (hweek f hf)).mpr (h f hf), ?_⟩
    intro f hf hp
    obtain ⟨hfind, hfindBetween⟩ := find_formattedTimeQuery (c := c) (queryText x.query)
    rcases isSome_of_fits (hweek f hf) (h f hf) hp with hm | hm
    · exact Scan.not_infix local_regex hm hfind
    · exact Scan.not_infix local_regexBetween hm hfindBetween

end

end OpenBms.TagProcess
