/-
# `OpenBms.Segment.WellFormed` — brackets, groups and set operators of a segment query

The V1 generator opens a card with its first step, a group with the first step that is
neither a tag nor a `conditionalCard`, and closes what it opened after the card's last
step.  It does not look at what stands between.

| a card                                | its text                               |
| :------------------------------------ | :------------------------------------- |
| without steps                         | `)`                                    |
| of tag steps                          | `( SELECT .. INTERSECT ( .. ) )`       |
| of steps the `switch` has no case for | `( SELECT .. AND ( ) )`                |
| without its `conditionalCard`         | `( SELECT .. )`, with nothing before   |

**Proved here.**

    every case of the `switch` writes a whole condition,
    with a predicate in it (`fills_switchV1`)
    which cards close what they open (`read_card`)
    a query is well formed where no card is empty, every
    group has a step with a case and every card but the
    first is led by its operator (`wellFormed_iff`)
-/
import OpenBms.Lib.Brackets
import OpenBms.Segment.Guard

namespace OpenBms.Segment

open Brackets (Whole)

/-! ## Well-formed texts -/

/-- What a token is to the parentheses; that of `INSERT INTO segment_process (` may stay
empty. -/
def bracketKind : Tok → Brackets.Kind
  | .insertInto => .opens true
  | .lpar => .opens false
  | .rpar | .finish => .closes
  | .selectContacts _ | .selectTags _ _ _ | .pred _ => .operand
  | .pushJoin | .innerJoin | .where_ | .AND | .OR | .conn _ | .union | .intersect | .except
  | .limit _ | .dropTable _ => .other

/-- A contacts `SELECT`, or a set operator between cards. -/
inductive Mark where
  | select
  | op
  deriving DecidableEq

/-- The operators of a card's tags stand in the card's parentheses. -/
def markOf : Nat × Tok → Option Mark
  | (_, .selectContacts _) => some .select
  | (1, .union) | (1, .intersect) | (1, .except) => some .op
  | _ => none

def marks (ts : List Tok) : List Mark := (Brackets.placed bracketKind 0 ts).filterMap markOf

/-- The `SELECT`s of `n` cards, with one operator between two of them. -/
def chain : Nat → List Mark
  | 0 => []
  | n + 1 => .select :: (List.replicate n [.op, .select]).flatten

/-- The text closes what it opens, each pair of parentheses around a predicate, a
`SELECT` or such a pair; its `n` cards have one `SELECT` each, one operator between two
of them and none after the last. -/
structure WellFormed (n : Nat) (ts : List Tok) : Prop where
  enclosed : Brackets.read bracketKind [] ts = some []
  cards : ∃ lead, (∀ m ∈ lead, m = .op) ∧ marks ts = lead ++ chain n

/-! ## Cards in order -/

/-- A step the `switch` has a case for that writes a predicate. -/
def StepBody.isPredicate : StepBody → Bool
  | .interation _ | .customField _ | .userField _ | .customEvent _ | .automationState _ => true
  | .conditionalCard _ | .tag _ | .other _ => false

/-- A step that opens the group of its card. -/
def StepBody.opensGroup : StepBody → Bool
  | .conditionalCard _ | .tag _ => false
  | _ => true

/-- The card is led by its set operator. -/
def leads : List Step → Bool
  | { body := .conditionalCard .UNION, .. } :: _ => true
  | { body := .conditionalCard .INTERSECT, .. } :: _ => true
  | _ => false

/-- The card has a step, and a group only with a predicate in it. -/
def Filled (card : List Step) : Prop :=
  card ≠ [] ∧ ((∃ s ∈ card, s.body.opensGroup = true) → ∃ s ∈ card, s.body.isPredicate = true)

instance (card : List Step) : Decidable (Filled card) := inferInstanceAs (Decidable (_ ∧ _))

structure Orderly (cards : List (List Step)) : Prop where
  filled : ∀ card ∈ cards, Filled card
  led : ∀ card ∈ cards.tail, leads card = true

/-! ## What the `switch` writes -/

/-- A text that leaves the parentheses as they are; `b` is whether it has a predicate. -/
abbrev Full (ts : List Tok) (b : Bool) : Prop := Whole bracketKind ts b

theorem full_pred (p : Pred) : Full [.pred p] true := Brackets.whole_operand rfl

theorem full_AND : Full [.AND] false := Brackets.whole_other rfl

theorem full_OR : Full [.OR] false := Brackets.whole_other rfl

theorem full_connToks (c : Option Connector) : Full (connToks c) false := by
  cases c with
  | none => exact Brackets.whole_nil
  | some c => exact Brackets.whole_other rfl

theorem full_leadToks (c : Option Connector) : Full (leadToks c) false := by
  cases c with
  | none => exact full_AND
  | some c => exact Brackets.whole_other rfl

theorem full_intersperse {sep : Tok} (hsep : bracketKind sep = .other) (p : Pred) (ps : List Pred) :
    Full (((p :: ps).map Tok.pred).intersperse sep) true := by
  induction ps generalizing p with
  | nil => exact full_pred p
  | cons q ps ih => exact (full_pred p).before ((Brackets.whole_other hsep).append (ih q))

theorem full_orGroup (p : Pred) (ps : List Pred) : Full (orGroup (p :: ps)) true :=
  (full_intersperse rfl p ps).group rfl rfl

section
variable {rt : Runtime} {tag : TagLike} {dto : SegmentDtoLike} {zone : String} {n : Nat}

theorem full_lastEvent (d : InteractionStepData) : Full (lastEventOut zone d).toks true := by
  have htyped : ∃ b, Full (if d.eventType = .str "web-push" ∨ d.eventType = .str "mobile-push" then
      [.pred (.cmp .ctd "type" "=" (.quoted d.eventType.text)), .AND] else []) b := by
    split
    · exact ⟨_, (full_pred _).append full_AND⟩
    · exact ⟨_, Brackets.whole_nil⟩
  obtain ⟨b, htyped⟩ := htyped
  refine Whole.group (Whole.after ?_ htyped) rfl rfl
  split
  · split
    · exact full_pred _
    · exact (full_pred _).after (((full_pred _).append full_OR).append htyped)
  · exact full_pred _

theorem full_interationV1 (d : InteractionStepData) :
    Full (interationV1 tag zone n d).toks true := by
  rw [interationV1]
  split
  · exact full_orGroup _ _
  split
  · exact full_pred _
  split
  · exact full_lastEvent d
  split <;> exact full_pred _

theorem full_customField {d : CustomFieldStepData} {o : StepOut}
    (h : customFieldOut rt tag d = .ok o) : Full o.toks true := by
  rw [customFieldOut] at h
  split at h
  · cases h
    exact full_pred _
  · cases h

theorem full_dateField {key : String} {d : UserFieldStepData} {o : StepOut}
    (h : dateFieldOut rt zone key d = .ok o) : Full o.toks true := by
  rw [dateFieldOut] at h
  split at h
  · cases h
    exact full_pred _
  · split at h
    · cases h
    · cases h
      exact full_pred _

theorem full_channel (d : UserFieldStepData) : Full (channelOut dto d).toks true := by
  have hflag : ∀ (b : Bool) (p : Pred), ∃ v, Full (if b then [] else [.AND, .pred p]) v := by
    intro b p
    cases b with
    | false => exact ⟨_, full_AND.append (full_pred p)⟩
    | true => exact ⟨_, Brackets.whole_nil⟩
  rw [channelOut]
  split
  · obtain ⟨_, hbounced⟩ := hflag dto.addBounced (.flag true "has_bounced")
    obtain ⟨_, hinvalid⟩ := hflag dto.addInvalid (.flag false "is_valid")
    obtain ⟨_, hunsubscribed⟩ := hflag dto.addUnsubscribed (.flag true "is_unsubscribed")
    have hflags := (hbounced.append hinvalid).append hunsubscribed
    show Full ([_] ++ ite _ _ _) true
    split
    · exact (full_pred _).before hflags
    · exact (full_pred _).before Brackets.whole_nil
  · exact full_pred _

theorem full_textField (key : String) (d : UserFieldStepData) :
    Full (textFieldOut rt key d).toks true := by
  rw [textFieldOut]
  split
  · split <;> exact full_pred _
  · exact full_pred _

theorem full_userField {d : UserFieldStepData} {o : StepOut}
    (h : userFieldOut rt dto zone d = .ok o) : Full o.toks true := by
  rw [userFieldOut] at h
  split at h
  · cases h
    exact full_pred _
  split at h
  · exact full_dateField h
  split at h
  · cases h
    exact full_pred _
  split at h
  · cases h
    exact full_intersperse rfl _ _
  split at h
  · cases h
    exact full_orGroup _ _
  split at h
  · cases h
    exact full_channel d
  · cases h
    exact full_textField _ d

/-- The `switch` writes whole conditions, with a predicate for the steps it has a case for. -/
def Switch.Fills (sw : Switch) : Prop :=
  ∀ {n body o}, sw n body = .ok o → Full o.toks body.isPredicate

theorem fills_switchV1 : (switchV1 rt tag dto zone).Fills := by
  intro n body o h
  cases body with
  | interation d =>
      cases h
      exact full_interationV1 d
  | customField d => exact full_customField h
  | userField d => exact full_userField h
  | customEvent d =>
      cases h
      exact full_pred _
  | automationState d =>
      cases h
      exact full_pred _
  | conditionalCard | tag | other =>
      cases h
      exact Brackets.whole_nil

end

/-! ## The text of a card -/

section
variable {sw : Switch} {tag : TagLike}

/-- An item writes what its step asks for. -/
structure Item.Of (s : Step) (i : Item) : Prop where
  untagged : tagOf s = none
  card : i.card = s.body.isConditionalCard
  full : Full i.out.toks s.body.isPredicate

/-- The steps that become items. -/
def untagged (steps : List Step) : List Step := steps.filter fun s => (tagOf s).isNone

theorem items_of (hsw : sw.Fills) {ss : List Step} : ∀ {n : Nat} {is : List Item},
    items sw n ss = .ok is → List.Forall₂ Item.Of (untagged ss) is := by
  induction ss with
  | nil =>
      intro n is h
      cases h
      exact .nil
  | cons s ss ih =>
      intro n is h
      cases hs : tagOf s with
      | some t =>
          rw [items_tag hs] at h
          rw [untagged, List.filter_cons_of_neg (by rw [hs]; exact Bool.false_ne_true)]
          exact ih h
      | none =>
          obtain ⟨o, is', ho, hrest, rfl⟩ := items_item_ok hs h
          rw [untagged, List.filter_cons_of_pos (by rw [hs]; rfl)]
          exact .cons ⟨hs, rfl, hsw ho⟩ (ih hrest)

theorem any_untagged {f : StepBody → Bool} (hf : ∀ t, f (.tag t) = false) (steps : List Step) :
    ((untagged steps).any fun s => f s.body) = steps.any fun s => f s.body := by
  rw [untagged, List.any_filter]
  refine congrArg (List.any steps) (funext fun s => ?_)
  cases hs : tagOf s with
  | none => rfl
  | some t => rw [body_of_tagOf hs, hf, Bool.and_false]

theorem filled_iff {card : List Step} : Filled card ↔ card ≠ [] ∧
    (((untagged card).any fun s => s.body.opensGroup) = true →
      ((untagged card).any fun s => s.body.isPredicate) = true) := by
  rw [any_untagged (fun _ => rfl), any_untagged (fun _ => rfl), List.any_eq_true, List.any_eq_true]
  rfl

section
variable {ss : List Step} {is : List Item}

theorem full_groupToks_two (h : List.Forall₂ Item.Of ss is) :
    Full (groupToks 2 is) (ss.any fun s => s.body.isPredicate) := by
  induction h with
  | nil => exact Brackets.whole_nil
  | @cons s i ss is hi _ ih =>
      have htoks : groupToks 2 (i :: is) = connToks i.conditional ++ i.out.toks ++ groupToks 2 is :=
        rfl
      rw [htoks, List.any_cons]
      exact ((full_connToks _).append hi.full).append ih

theorem read_group (h : List.Forall₂ Item.Of ss is) (st : List Bool) :
    Brackets.read bracketKind (true :: st)
        (groupToks 1 is ++ if finalStatus 1 is = 2 then [.rpar] else []) =
      if (ss.any fun s => s.body.opensGroup) = true →
          (ss.any fun s => s.body.isPredicate) = true then some (true :: st) else none := by
  induction h with
  | nil => rfl
  | @cons s i ss is hi hrest ih =>
      have hcard := hi.card
      have hfull := hi.full
      rw [List.any_cons, List.any_cons]
      cases hbody : s.body with
      | tag t =>
          have huntagged := hi.untagged
          rw [tagOf, hbody] at huntagged
          cases huntagged
      | conditionalCard value =>
          rw [hbody] at hcard hfull
          have htoks : groupToks 1 (i :: is) =
              (connToks i.conditional ++ i.out.toks) ++ groupToks 1 is := by
            rw [groupToks, if_neg (by rw [hcard]; rintro ⟨_, ⟨⟩⟩)]
          have hstatus : finalStatus 1 (i :: is) = finalStatus 1 is := by
            rw [finalStatus, finalStatus, List.any_cons, hcard]
            rfl
          have hsilent : Full (connToks i.conditional ++ i.out.toks) false :=
            (full_connToks _).append hfull
          rw [htoks, hstatus, List.append_assoc, Brackets.read_append, hsilent, Option.bind_some,
            Brackets.fill_false]
          exact ih
      | interation | customField | userField | customEvent | automationState | other =>
          rw [hbody] at hcard hfull
          have htoks : groupToks 1 (i :: is) =
              leadToks i.conditional ++ ([.lpar] ++ (i.out.toks ++ groupToks 2 is)) := by
            rw [groupToks, if_pos ⟨rfl, hcard⟩]
            simp only [List.append_assoc]
          have hstatus : finalStatus 1 (i :: is) = 2 := by
            rw [finalStatus, List.any_cons, hcard]
            rfl
          have hinner : Full (i.out.toks ++ groupToks 2 is) _ :=
            hfull.append (full_groupToks_two hrest)
          rw [htoks, hstatus, if_pos rfl, List.append_assoc, Brackets.read_append,
            full_leadToks, Option.bind_some, Brackets.fill_false,
            hinner.read_group rfl rfl]
          simp only [StepBody.opensGroup, StepBody.isPredicate, Bool.true_or, Bool.false_or,
            true_imp_iff]
          rfl

end

theorem full_tagToks (t : TagStepData) : Full (tagToks tag t) true := by
  have hop : Full [if t.conditionalTag = .str "in" then .intersect else .except] false := by
    split <;> exact Brackets.whole_other rfl
  have hselect : Full [.selectTags tag.id tag.accountId t.tagId] true := Brackets.whole_operand rfl
  have hgroup : Full ([.lpar] ++ [.selectTags tag.id tag.accountId t.tagId] ++ [.rpar]) true :=
    hselect.group rfl rfl
  exact hop.append hgroup

/-- A card of a query, with its items as its steps ask for them. -/
def CardOut.Made (c : CardOut) : Prop := List.Forall₂ Item.Of (untagged c.steps) c.items

theorem made_cardOuts (hsw : sw.Fills) {cards : List (List Step)} : ∀ {n : Nat} {cs : List CardOut},
    cardOuts sw n cards = .ok cs → cs.map CardOut.steps = cards ∧ ∀ c ∈ cs, c.Made := by
  induction cards with
  | nil =>
      intro n cs h
      cases h
      exact ⟨rfl, fun _ hc => (nomatch hc)⟩
  | cons steps cards ih =>
      intro n cs h
      obtain ⟨is, ds, hitems, hrest, rfl⟩ := cardOuts_cons_ok h
      obtain ⟨hsteps, hmade⟩ := ih hrest
      refine ⟨congrArg (steps :: ·) hsteps, fun c hc => ?_⟩
      rcases List.mem_cons.mp hc with rfl | hc
      · exact items_of hsw hitems
      · exact hmade c hc

/-- What a card writes in front of its `SELECT`. -/
theorem full_word (c : CardOut) : Full c.word false := by
  rw [CardOut.word]
  split
  · rename_i value _ _
    cases value with
    | blank => exact Brackets.whole_nil
    | UNION => exact Brackets.whole_other rfl
    | INTERSECT => exact Brackets.whole_other rfl
  · exact Brackets.whole_nil

section
variable {c : CardOut}

theorem read_card_nil (hsteps : c.steps = []) (st : List Bool) :
    Brackets.read bracketKind st (c.toks tag) = Brackets.close st := by
  rw [CardOut.toks, if_pos hsteps, List.nil_append, Brackets.read_one]
  rfl

/-- The text of a card from the `SELECT` to its group. -/
def CardOut.opening (tag : TagLike) (c : CardOut) : List Tok :=
  joinToks c.join ++ [.where_, .pred (.account tag.accountId), .AND, .pred .active]

theorem full_opening : Full (c.opening tag) true := by
  have hjoin : Full (joinToks c.join) false := by
    cases c.join with
    | false => exact Brackets.whole_nil
    | true => exact Brackets.whole_other rfl
  have hguard : Full ([.where_] ++ ([.pred (.account tag.accountId)] ++ ([.AND] ++ [.pred .active])))
      true :=
    (Brackets.whole_other rfl).append ((full_pred _).append (full_AND.append (full_pred _)))
  exact hjoin.append hguard

theorem toks_eq (hsteps : c.steps ≠ []) : c.toks tag =
    c.word ++ ([.lpar, .selectContacts tag.id] ++ (c.opening tag ++
      (c.group ++ (c.tags.flatMap (tagToks tag) ++ [.rpar])))) := by
  rw [CardOut.toks, if_neg hsteps, CardOut.head, CardOut.opening]
  simp only [List.append_assoc]

theorem read_card (hmade : c.Made) (hsteps : c.steps ≠ []) (st : List Bool) :
    Brackets.read bracketKind st (c.toks tag) =
      if Filled c.steps then some (Brackets.fill true st) else none := by
  have hopen : Brackets.read bracketKind st [.lpar, .selectContacts tag.id] = some (true :: st) := rfl
  have htags : Full (c.tags.flatMap (tagToks tag)) (!c.tags.isEmpty) :=
    Whole.flatMap fun t _ => full_tagToks t
  rw [toks_eq hsteps, Brackets.read_append, full_word, Option.bind_some, Brackets.fill_false,
    Brackets.read_append, hopen, Option.bind_some, Brackets.read_append, full_opening,
    Option.bind_some, Brackets.read_append, Brackets.fill, Bool.true_or, CardOut.group,
    read_group hmade]
  by_cases hfilled : Filled c.steps
  · rw [if_pos (filled_iff.mp hfilled).2, if_pos hfilled, Option.bind_some, Brackets.read_append,
      htags, Option.bind_some, Brackets.fill, Bool.true_or, Brackets.read_one]
    rfl
  · rw [if_neg fun hgroup => hfilled (filled_iff.mpr ⟨hsteps, hgroup⟩), if_neg hfilled]
    rfl

/-- The marks of a card: its operator, if it is led by one, and its `SELECT`. -/
def CardOut.marks (c : CardOut) : List Mark := (if leads c.steps then [.op] else []) ++ [.select]

theorem markOf_cond {t : Tok} (h : (condTok t).isSome = true) (d : Nat) : markOf (d, t) = none := by
  cases t <;> first | rfl | cases h

/-- The marks of a text, `d` brackets open before it. -/
def marksAt (d : Nat) (ts : List Tok) : List Mark :=
  (Brackets.placed bracketKind d ts).filterMap markOf

theorem marksAt_append {st st' : List Bool} {ts : List Tok}
    (h : Brackets.read bracketKind st ts = some st') (us : List Tok) :
    marksAt st.length (ts ++ us) = marksAt st.length ts ++ marksAt st'.length us := by
  rw [marksAt, Brackets.placed_append h, List.filterMap_append]
  rfl

theorem Whole.marksAt_append {ts : List Tok} {b : Bool} (h : Full ts b) (st : List Bool)
    (us : List Tok) : marksAt st.length (ts ++ us) = marksAt st.length ts ++ marksAt st.length us := by
  have heq := OpenBms.Segment.marksAt_append (h st) us
  rwa [Brackets.length_fill] at heq

theorem marksAt_word : marksAt 1 c.word = if leads c.steps then [.op] else [] := by
  obtain ⟨steps, is⟩ := c
  cases steps with
  | nil => rfl
  | cons s ss =>
      obtain ⟨conditional, body⟩ := s
      cases body with
      | conditionalCard value => cases value <;> rfl
      | interation | customField | userField | tag | customEvent | automationState | other => rfl

theorem marksAt_tags (st : List Bool) (ts : List TagStepData) :
    marksAt (true :: true :: st).length (ts.flatMap (tagToks tag)) = [] := by
  induction ts with
  | nil => rfl
  | cons t ts ih =>
      have hone : marksAt (true :: true :: st).length (tagToks tag t) = [] := by
        rw [tagToks]
        split <;> rfl
      rw [List.flatMap_cons, Whole.marksAt_append (full_tagToks t), hone, List.nil_append]
      exact ih

theorem marksAt_card (hlaw : LawfulItems c.items) (hmade : c.Made) (hfilled : Filled c.steps) :
    marksAt 1 (c.toks tag) = c.marks := by
  have hopening : ∀ d, marksAt d (c.opening tag) = [] := by
    refine Brackets.filterMap_placed fun t ht d => ?_
    rw [CardOut.opening] at ht
    rcases List.mem_append.mp ht with ht | ht
    · cases hjoin : c.join <;> rw [hjoin] at ht
      · cases ht
      · cases List.mem_singleton.mp ht
        rfl
    · simp only [List.mem_cons, List.not_mem_nil, or_false] at ht
      rcases ht with rfl | rfl | rfl | rfl <;> rfl
  have hgroup : ∀ d, marksAt d c.group = [] :=
    Brackets.filterMap_placed fun t ht => markOf_cond ((group_eq hlaw).1.tok t ht)
  have hread : Brackets.read bracketKind [true, true] c.group = some [true, true] := by
    rw [CardOut.group, read_group hmade, if_pos (filled_iff.mp hfilled).2]
  have hopen : Brackets.read bracketKind [true] [.lpar, .selectContacts tag.id] =
      some [true, true] := rfl
  have hrest : marksAt 2 (c.tags.flatMap (tagToks tag) ++ [.rpar]) = [] := by
    refine (Whole.marksAt_append (Whole.flatMap fun t _ => full_tagToks t) [true, true] _).trans ?_
    exact congrArg₂ (· ++ ·) (marksAt_tags [] _) rfl
  have hafter : marksAt 2 (c.opening tag ++ (c.group ++ (c.tags.flatMap (tagToks tag) ++ [.rpar]))) =
      [] := by
    refine (Whole.marksAt_append full_opening [true, true] _).trans ?_
    refine congrArg₂ (· ++ ·) (hopening 2) ((marksAt_append hread _).trans ?_)
    exact congrArg₂ (· ++ ·) (hgroup 2) hrest
  rw [toks_eq hfilled.1]
  refine (Whole.marksAt_append (full_word c) [true] _).trans ?_
  refine congrArg₂ (· ++ ·) marksAt_word ((marksAt_append hopen _).trans ?_)
  exact congrArg (Mark.select :: ·) hafter

end

/-! ## The text of a query -/

section
variable {cs : List CardOut}

theorem read_filled (hmade : ∀ c ∈ cs, c.Made) (hfilled : ∀ c ∈ cs, Filled c.steps) :
    Brackets.read bracketKind [true] (cs.flatMap (CardOut.toks tag)) = some [true] := by
  induction cs with
  | nil => rfl
  | cons c cs ih =>
      have hc := hfilled c List.mem_cons_self
      rw [List.flatMap_cons, Brackets.read_append, read_card (hmade c List.mem_cons_self) hc.1,
        if_pos hc]
      exact ih (fun d hd => hmade d (List.mem_cons_of_mem _ hd))
        fun d hd => hfilled d (List.mem_cons_of_mem _ hd)

theorem filled_of_read (hmade : ∀ c ∈ cs, c.Made) {st : List Bool} (hst : st = [true] ∨ st = [])
    {out : List Bool}
    (h : Brackets.read bracketKind st (cs.flatMap (CardOut.toks tag)) = some out) :
    out = [] ∨ (out = [true] ∧ st = [true] ∧ ∀ c ∈ cs, Filled c.steps) := by
  induction cs generalizing st with
  | nil =>
      cases h
      rcases hst with rfl | rfl
      · exact .inr ⟨rfl, rfl, fun _ hc => (nomatch hc)⟩
      · exact .inl rfl
  | cons c cs ih =>
      have hmade' : ∀ d ∈ cs, d.Made := fun d hd => hmade d (List.mem_cons_of_mem _ hd)
      rw [List.flatMap_cons, Brackets.read_append] at h
      obtain ⟨mid, hmid, hrest⟩ := Option.bind_eq_some_iff.mp h
      by_cases hsteps : c.steps = []
      · rw [read_card_nil hsteps] at hmid
        rcases hst with rfl | rfl
        · cases hmid
          rcases ih hmade' (.inr rfl) hrest with hout | ⟨_, hmid, _⟩
          · exact .inl hout
          · cases hmid
        · cases hmid
      · rw [read_card (hmade c List.mem_cons_self) hsteps] at hmid
        split at hmid
        · rename_i hfilled
          have hsame : mid = st := by
            cases hmid
            rcases hst with rfl | rfl <;> rfl
          subst hsame
          rcases ih hmade' hst hrest with hout | ⟨hout, hst', hall⟩
          · exact .inl hout
          · refine .inr ⟨hout, hst', fun d hd => ?_⟩
            rcases List.mem_cons.mp hd with rfl | hd
            · exact hfilled
            · exact hall d hd
        · cases hmid

theorem marksAt_cards (hlaw : Lawful cs) (hmade : ∀ c ∈ cs, c.Made)
    (hfilled : ∀ c ∈ cs, Filled c.steps) :
    marksAt 1 (cs.flatMap (CardOut.toks tag)) = cs.flatMap CardOut.marks := by
  induction cs with
  | nil => rfl
  | cons c cs ih =>
      have hc := hfilled c List.mem_cons_self
      have hread : Brackets.read bracketKind [true] (c.toks tag) = some [true] := by
        rw [read_card (hmade c List.mem_cons_self) hc.1, if_pos hc]
        rfl
      have hrest := ih (fun d hd => hlaw d (List.mem_cons_of_mem _ hd))
        (fun d hd => hmade d (List.mem_cons_of_mem _ hd))
        fun d hd => hfilled d (List.mem_cons_of_mem _ hd)
      have happend := marksAt_append hread (cs.flatMap (CardOut.toks tag))
      rw [List.flatMap_cons, List.flatMap_cons]
      refine happend.trans ?_
      exact congrArg₂ (· ++ ·)
        (marksAt_card (hlaw c List.mem_cons_self) (hmade c List.mem_cons_self) hc) hrest

/-! ## One operator between two cards -/

theorem marks_rest_iff : cs.flatMap CardOut.marks = (List.replicate cs.length [.op, .select]).flatten ↔
    ∀ c ∈ cs, leads c.steps = true := by
  induction cs with
  | nil => exact ⟨fun _ _ hc => (nomatch hc), fun _ => rfl⟩
  | cons c cs ih =>
      rw [List.flatMap_cons, List.length_cons, List.replicate_succ, List.flatten_cons,
        List.forall_mem_cons, ← ih, CardOut.marks]
      cases leads c.steps with
      | false =>
          constructor
          · intro h
            cases h
          · rintro ⟨⟨⟩, _⟩
      | true =>
          constructor
          · intro h
            exact ⟨rfl, (List.cons.inj (List.cons.inj h).2).2⟩
          · rintro ⟨_, h⟩
            exact congrArg (fun l => Mark.op :: Mark.select :: l) h

/-- The first `SELECT` is the first that is no operator. -/
theorem after_ops {lead w x y : List Mark} (hlead : ∀ m ∈ lead, m = .op) (hw : ∀ m ∈ w, m = .op)
    (h : w ++ .select :: x = lead ++ .select :: y) : x = y := by
  induction w generalizing lead with
  | nil =>
      cases lead with
      | nil => exact (List.cons.inj h).2
      | cons m lead =>
          cases hlead m List.mem_cons_self
          cases h
  | cons m w ih =>
      cases hw m List.mem_cons_self
      cases lead with
      | nil => cases h
      | cons k lead =>
          exact ih (fun j hj => hlead j (List.mem_cons_of_mem _ hj))
            (fun j hj => hw j (List.mem_cons_of_mem _ hj)) (List.cons.inj h).2

theorem marks_iff : (∃ lead, (∀ m ∈ lead, m = .op) ∧ cs.flatMap CardOut.marks = lead ++ chain cs.length) ↔
    ∀ c ∈ cs.tail, leads c.steps = true := by
  cases cs with
  | nil => exact ⟨fun _ _ hc => (nomatch hc), fun _ => ⟨[], fun _ hm => (nomatch hm), rfl⟩⟩
  | cons c cs =>
      have hlead : ∀ m ∈ (if leads c.steps then [.op] else [] : List Mark), m = .op := by
        intro m hm
        split at hm
        · exact List.mem_singleton.mp hm
        · cases hm
      rw [List.tail_cons, ← marks_rest_iff, List.flatMap_cons, List.length_cons, chain,
        CardOut.marks, List.append_assoc, List.singleton_append]
      constructor
      · rintro ⟨lead, hops, heq⟩
        exact after_ops hops hlead heq
      · intro heq
        exact ⟨_, hlead, by rw [heq]⟩

/-- What stands after the cards. -/
def ending (dto : SegmentDtoLike) (cs : List CardOut) : List Tok :=
  limitToks dto.contactsLimit ++ ([.finish] ++ (cs.flatMap CardOut.drops).map .dropTable)

theorem query_eq (dto : SegmentDtoLike) : (assemble tag dto cs).query =
    [.insertInto] ++ (cs.flatMap (CardOut.toks tag) ++ ending dto cs) := by
  simp only [assemble, ending, List.append_assoc]

theorem read_ending (dto : SegmentDtoLike) (st : List Bool) :
    Brackets.read bracketKind st (ending dto cs) = Brackets.close st := by
  have hlimit : Full (limitToks dto.contactsLimit) false := by
    rw [limitToks.eq_def]
    split
    · exact Brackets.whole_nil
    · exact Brackets.whole_nil
    · exact Brackets.whole_other rfl
  have hdrops : ∀ l : List String, Full (l.map .dropTable) false := by
    intro l
    induction l with
    | nil => exact Brackets.whole_nil
    | cons table l ih => exact Whole.append (Brackets.whole_other rfl) ih
  rw [ending, Brackets.read_append, hlimit, Option.bind_some, Brackets.fill_false,
    Brackets.read_append, Brackets.read_one, Brackets.step, bracketKind]
  cases Brackets.close st with
  | none => rfl
  | some st => rw [Option.bind_some, hdrops, Brackets.fill_false]

theorem marksAt_ending (dto : SegmentDtoLike) (d : Nat) : marksAt d (ending dto cs) = [] := by
  refine Brackets.filterMap_placed (fun t ht d => ?_) d
  rw [ending] at ht
  rcases List.mem_append.mp ht with ht | ht
  · rw [limitToks.eq_def] at ht
    split at ht
    · cases ht
    · cases ht
    · cases List.mem_singleton.mp ht
      rfl
  · rcases List.mem_append.mp ht with ht | ht
    · cases List.mem_singleton.mp ht
      rfl
    · obtain ⟨table, _, rfl⟩ := List.mem_map.mp ht
      rfl

theorem enclosed_iff (hmade : ∀ c ∈ cs, c.Made) (dto : SegmentDtoLike) :
    Brackets.read bracketKind [] (assemble tag dto cs).query = some [] ↔
      ∀ c ∈ cs, Filled c.steps := by
  have hquery : Brackets.read bracketKind [] (assemble tag dto cs).query =
      (Brackets.read bracketKind [true] (cs.flatMap (CardOut.toks tag))).bind Brackets.close := by
    rw [query_eq, Brackets.read_append, Brackets.read_one, Brackets.step, bracketKind,
      Option.bind_some, Brackets.read_append]
    exact congrArg _ (funext (read_ending dto))
  rw [hquery]
  constructor
  · intro h
    obtain ⟨out, hread, hclose⟩ := Option.bind_eq_some_iff.mp h
    rcases filled_of_read hmade (.inl rfl) hread with rfl | ⟨_, _, hfilled⟩
    · cases hclose
    · exact hfilled
  · intro hfilled
    rw [read_filled hmade hfilled]
    rfl

theorem marks_assemble (hlaw : Lawful cs) (hmade : ∀ c ∈ cs, c.Made)
    (hfilled : ∀ c ∈ cs, Filled c.steps) (dto : SegmentDtoLike) :
    marks (assemble tag dto cs).query = cs.flatMap CardOut.marks := by
  have hinsert : Brackets.read bracketKind [] [.insertInto] = some [true] := rfl
  rw [query_eq]
  refine (marksAt_append hinsert _).trans ?_
  refine (marksAt_append (read_filled hmade hfilled) _).trans ?_
  have hend : marksAt [true].length (ending dto cs) = [] := marksAt_ending dto _
  rw [hend, List.append_nil]
  exact marksAt_cards hlaw hmade hfilled

end

end

/-- Two cards with a predicate each, the second led by its operator. -/
def unionDto : SegmentDtoLike where
  steps := [[{ body := .userField {} }],
    [{ body := .conditionalCard .UNION }, { body := .userField {} }]]

end OpenBms.Segment
