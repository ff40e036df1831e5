/-
# `OpenBms.Segment.Reading` — how PostgreSQL reads a generated query

`OpenBms.Segment.Cards` says what the text of a query is.  This module says
what the text means to the reader of `OpenBms.Segment.Sql`: the lexer cuts it
into one `SELECT` per card and one operand per tag step, the `WHERE` of a card
reads as its guard joined with its group, and the cards read as one chain.

    text of a card            lexed as (`lex_card`)
    WHERE of a card           guard AND group | guard OR group
    (`read_where`)
    (card) WORD (card) ..     the flat fold of the cards (`read_cards`)

All three need the `switch` to be lawful: a step's text is a condition that
closes what it opens, and a `conditionalCard` writes nothing.
-/
import OpenBms.Segment.Cards

namespace OpenBms.Segment

open Infix (nested nested_append nested_add)

/-! ## Texts of conditions -/

/-- A token of a condition, as the reader of conditions sees it. -/
def condTok : Tok → Option CondTok
  | .pred p => some (.leaf p)
  | .AND => some (.hi ())
  | .OR => some (.lo ())
  | .conn .and => some (.hi ())
  | .conn .or => some (.lo ())
  | .lpar => some .lpar
  | .rpar => some .rpar
  | _ => none

def condToks (ts : List Tok) : List CondTok := ts.filterMap condTok

@[simp] theorem condToks_append (ts us : List Tok) :
    condToks (ts ++ us) = condToks ts ++ condToks us :=
  List.filterMap_append

/-- The text of a condition that closes every group it opens. -/
structure IsCond (ts : List Tok) : Prop where
  tok : ∀ t ∈ ts, (condTok t).isSome = true
  closed : nested 0 (condToks ts) = some 0

-- The equations of the reader, before the many proofs that use them.
attribute [local grind =] lex lexStep baseStep connToks condTok

theorem isCond_nil : IsCond [] := ⟨fun _ h => (nomatch h), rfl⟩

theorem IsCond.append {ts us : List Tok} (ht : IsCond ts) (hu : IsCond us) : IsCond (ts ++ us) where
  tok t h := by
    rcases List.mem_append.mp h with h | h
    · exact ht.tok t h
    · exact hu.tok t h
  closed := by simp only [condToks_append, nested_append, ht.closed, Option.bind_some, hu.closed]

theorem isCond_pred (p : Pred) : IsCond [.pred p] := ⟨by simp [condTok], rfl⟩

theorem isCond_AND : IsCond [.AND] := ⟨by simp [condTok], rfl⟩

theorem isCond_OR : IsCond [.OR] := ⟨by simp [condTok], rfl⟩

theorem isCond_connToks (c : Option Connector) : IsCond (connToks c) := by
  rcases c with _ | _ | _
  · exact isCond_nil
  · exact ⟨by simp [connToks, condTok], rfl⟩
  · exact ⟨by simp [connToks, condTok], rfl⟩

theorem IsCond.group {ts : List Tok} (h : IsCond ts) : IsCond ([.lpar] ++ ts ++ [.rpar]) where
  tok t ht := by
    simp only [List.mem_append, List.mem_singleton] at ht
    rcases ht with (rfl | ht) | rfl
    · rfl
    · exact h.tok t ht
    · rfl
  closed := by
    have hin : nested 1 (condToks ts) = some 1 := nested_add 1 h.closed
    have hopen : nested 0 (condToks [.lpar]) = some 1 := rfl
    have hclose : nested 1 (condToks [.rpar]) = some 0 := rfl
    simp only [condToks_append, nested_append, hopen, Option.bind_some, hin, hclose]

theorem isCond_intersperse {sep : Tok} (hsep : IsCond [sep]) (ps : List Pred) :
    IsCond ((ps.map Tok.pred).intersperse sep) := by
  match ps with
  | [] => exact isCond_nil
  | [p] => exact isCond_pred p
  | p :: q :: ps =>
      have ih := isCond_intersperse hsep (q :: ps)
      exact (isCond_pred p).append (hsep.append ih)

/-- Every step's text is a condition, and a `conditionalCard` has none. -/
structure Switch.Lawful (sw : Switch) : Prop where
  cond : ∀ {n body o}, sw n body = .ok o → IsCond o.toks
  silent : ∀ {n value o}, sw n (.conditionalCard value) = .ok o → o = {}

theorem Switch.Lawful.noPlaceholder {sw : Switch} (h : sw.Lawful) : NoPlaceholder sw := by
  intro n body o ho hmem
  have := (h.cond ho).tok _ hmem
  simp [condTok] at this

/-! ### The two generators are lawful -/

section
variable (rt : Runtime) (tag : TagLike) (dto : SegmentDtoLike) (zone siblings : String) (n : Nat)

theorem isCond_orGroup (ps : List Pred) : IsCond (orGroup ps) :=
  (isCond_intersperse isCond_OR ps).group

theorem isCond_andToks (ps : List Pred) : IsCond (andToks ps) :=
  isCond_intersperse isCond_AND ps

theorem isCond_lastEvent (d : InteractionStepData) : IsCond (lastEventOut zone d).toks := by
  have htyped : IsCond (if d.eventType = .str "web-push" ∨ d.eventType = .str "mobile-push" then
      [.pred (.cmp .ctd "type" "=" (.quoted d.eventType.text)), .AND] else []) := by
    split
    · exact (isCond_pred _).append isCond_AND
    · exact isCond_nil
  refine IsCond.group (htyped.append ?_)
  split
  · split
    · exact isCond_pred _
    · exact (((isCond_pred _).append isCond_OR).append htyped).append (isCond_pred _)
  · exact isCond_pred _

theorem isCond_channel (d : UserFieldStepData) : IsCond (channelOut dto d).toks := by
  have hflag : ∀ (b : Bool) (p : Pred), IsCond (if b then [] else [.AND, .pred p]) := by
    intro b p
    cases b with
    | false => exact isCond_AND.append (isCond_pred p)
    | true => exact isCond_nil
  unfold channelOut
  split
  · refine (isCond_pred _).append ?_
    split
    · exact ((hflag _ _).append (hflag _ _)).append (hflag _ _)
    · exact isCond_nil
  · exact isCond_pred _

theorem isCond_textField (key : String) (d : UserFieldStepData) :
    IsCond (textFieldOut rt key d).toks := by
  unfold textFieldOut
  split
  · split <;> exact isCond_pred _
  · exact isCond_pred _

theorem isCond_dateField (key : String) (d : UserFieldStepData) {o : StepOut}
    (h : dateFieldOut rt zone key d = .ok o) : IsCond o.toks := by
  unfold dateFieldOut at h
  split at h
  · cases h
    exact isCond_pred _
  · split at h
    · exact nomatch h
    · cases h
      exact isCond_pred _

theorem isCond_userField (d : UserFieldStepData) {o : StepOut}
    (h : userFieldOut rt dto zone d = .ok o) : IsCond o.toks := by
  unfold userFieldOut at h
  split at h
  · cases h
    exact isCond_pred _
  split at h
  · exact isCond_dateField rt zone _ d h
  split at h
  · cases h
    exact isCond_pred _
  split at h
  · cases h
    exact isCond_andToks _
  split at h
  · cases h
    exact isCond_orGroup _
  split at h
  · cases h
    exact isCond_channel dto d
  · cases h
    exact isCond_textField rt _ d

theorem isCond_customField (d : CustomFieldStepData) {o : StepOut}
    (h : customFieldOut rt tag d = .ok o) : IsCond o.toks := by
  unfold customFieldOut at h
  split at h
  · cases h
    exact isCond_pred _
  · dsimp only at h
    split at h
    · cases h
      exact isCond_pred _
    · exact nomatch h

theorem isCond_interationV1 (d : InteractionStepData) :
    IsCond (interationV1 tag zone n d).toks := by
  unfold interationV1
  split
  · exact isCond_orGroup _
  split
  · exact isCond_pred _
  split
  · exact isCond_lastEvent zone d
  split <;> exact isCond_pred _

theorem isCond_interationV2 (d : InteractionStepData) :
    IsCond (interationV2 tag zone siblings n d).toks := by
  unfold interationV2
  split
  · exact isCond_orGroup _
  split
  · exact isCond_pred _
  split <;> exact isCond_pred _

theorem switchV1_lawful : (switchV1 rt tag dto zone).Lawful where
  cond {n body o} h := by
    cases body with
    | interation d => cases h; exact isCond_interationV1 tag zone n d
    | customField d => exact isCond_customField rt tag d h
    | userField d => exact isCond_userField rt dto zone d h
    | customEvent d => cases h; exact isCond_pred _
    | automationState d => cases h; exact isCond_pred _
    | conditionalCard | tag | other => cases h; exact isCond_nil
  silent h := (Except.ok.inj h).symm

theorem switchV2_lawful : (switchV2 rt tag dto zone siblings).Lawful where
  cond {n body o} h := by
    cases body with
    | interation d => cases h; exact isCond_interationV2 tag zone siblings n d
    | customField d => exact isCond_customField rt tag d h
    | userField d => exact isCond_userField rt dto zone d h
    | customEvent d => cases h; exact isCond_pred _
    | automationState d => cases h; exact isCond_pred _
    | conditionalCard | tag | other => cases h; exact isCond_nil
  silent h := (Except.ok.inj h).symm

end

/-! ## Lexing a card -/

/-- The predicates of a card before its first one are `conditionalCard`s. -/
def CardOut.before (c : CardOut) : List Item := c.items.takeWhile fun i => i.card

/-- The items from the first predicate on. -/
def CardOut.preds (c : CardOut) : List Item := c.items.dropWhile fun i => i.card

/-- The text between the parentheses of the group. -/
def CardOut.inside (c : CardOut) : List CondTok :=
  match c.preds with
  | [] => []
  | i :: is => condToks (i.out.toks ++ groupToks 2 is)

/-- The guard in front of a group. -/
def guardToks (tag : TagLike) : List CondTok :=
  [.leaf (.account tag.accountId), .hi (), .leaf .active]

def connectorToks (is : List Item) : List CondTok :=
  condToks (is.flatMap fun i => connToks i.conditional)

def CardOut.groupCond (c : CardOut) : List CondTok :=
  match c.preds with
  | [] => []
  | i :: _ => condToks (leadToks i.conditional) ++ (.lpar :: c.inside ++ [.rpar])

/-- The condition of a card's `SELECT`. -/
def CardOut.whereToks (tag : TagLike) (c : CardOut) : List CondTok :=
  guardToks tag ++ connectorToks c.before ++ c.groupCond

/-- A card's `SELECT`. -/
def CardOut.select (tag : TagLike) (c : CardOut) : ContactsSelect :=
  { tagId := tag.id, join := c.join, whereToks := c.whereToks tag }

/-- `stepTag.conditional_tag == 'in'`. -/
def TagStepData.isIn (t : TagStepData) : Bool := decide (t.conditionalTag = .str "in")

def memberOp : Bool → SetLo ⊕ Unit
  | true => .inr ()
  | false => .inl .except

/-- The operator a tag step stands behind. -/
def tagOp (t : TagStepData) : SetLo ⊕ Unit := memberOp t.isIn

def tagSource (tag : TagLike) (t : TagStepData) : Source := .tags tag.id tag.accountId t.tagId

/-- The connector a card stands behind: `or` is `UNION`, `and` is `INTERSECT`. -/
def cardConnector : List Step → Option Connector
  | { body := .conditionalCard .UNION, .. } :: _ => some .or
  | { body := .conditionalCard .INTERSECT, .. } :: _ => some .and
  | _ => none

def setOp : Connector → SetLo ⊕ Unit
  | .or => .inl .union
  | .and => .inr ()

/-- The operator a card stands behind. -/
def cardOp (steps : List Step) : Option (SetLo ⊕ Unit) := (cardConnector steps).map setOp

/-- The tokens of a card's inside: its `SELECT` and its tag operands. -/
def CardOut.body (tag : TagLike) (c : CardOut) : List SetTok :=
  [.leaf (.contacts (c.select tag))] ++ c.tags.flatMap fun t =>
    [Infix.opTok (tagOp t), .lpar, .leaf (tagSource tag t), .rpar]

/-- A card at the level of the set operators. -/
def CardOut.setToks (tag : TagLike) (c : CardOut) : List SetTok :=
  match c.steps with
  | [] => [.rpar]
  | _ :: _ => (cardOp c.steps).toList.map Infix.opTok ++ (.lpar :: c.body tag ++ [.rpar])

/-- A condition is taken by the open `SELECT`. -/
theorem lex_cond {ts : List Tok} :
    ∀ {l : Lex} {s : ContactsSelect} {d d' : Nat}, l.cur = some (s, d) →
      (∀ t ∈ ts, (condTok t).isSome = true) → nested d (condToks ts) = some d' →
      lex l ts = some { l with
        cur := some ({ s with whereToks := s.whereToks ++ condToks ts }, d') } := by
  induction ts with
  | nil =>
      intro l s d d' hl _ hn
      cases hn
      obtain ⟨_, _, _, _, _⟩ := l
      cases hl
      simp [lex, condToks]
  | cons t ts ih =>
      intro l s d d' hl htok hn
      have hrest : ∀ t ∈ ts, (condTok t).isSome = true := fun u hu =>
        htok u (List.mem_cons_of_mem _ hu)
      obtain ⟨ct, hct⟩ := Option.isSome_iff_exists.mp (htok t List.mem_cons_self)
      have hcons : condToks (t :: ts) = ct :: condToks ts := by simp [condToks, hct]
      rw [hcons] at hn ⊢
      have hstep : ∃ d₁, selectStep s d t = some (s.push ct, d₁) ∧
          nested d₁ (condToks ts) = some d' := by
        cases t with
        | pred p => cases hct; exact ⟨d, rfl, hn⟩
        | AND => cases hct; exact ⟨d, rfl, hn⟩
        | OR => cases hct; exact ⟨d, rfl, hn⟩
        | conn c => cases c <;> cases hct <;> exact ⟨d, rfl, hn⟩
        | lpar => cases hct; exact ⟨d + 1, rfl, hn⟩
        | rpar =>
            cases hct
            cases d with
            | zero => cases hn
            | succ d => exact ⟨d, rfl, hn⟩
        | _ => cases hct
      obtain ⟨d₁, hs, hn₁⟩ := hstep
      have hlex : lexStep l t = some { l with cur := some (s.push ct, d₁) } := by
        simp only [lexStep, hl, hs]
      have h := ih (l := { l with cur := some (s.push ct, d₁) }) rfl hrest hn₁
      simp only [lex, hlex, Option.bind_some]
      rw [h]
      simp [ContactsSelect.push]

section
variable {sw : Switch} {tag : TagLike}

/-- Items of a lawful `switch` write conditions, and `conditionalCard`s nothing. -/
structure LawfulItems (is : List Item) : Prop where
  cond : ∀ i ∈ is, IsCond i.out.toks
  silent : ∀ i ∈ is, i.card = true → i.out = {}

theorem lawfulItems (hsw : sw.Lawful) {n : Nat} {ss : List Step} {is : List Item}
    (h : items sw n ss = .ok is) : LawfulItems is where
  cond i hi := by
    obtain ⟨_, _, _, _, ho, _⟩ := mem_items h i hi
    exact hsw.cond ho
  silent i hi hcard := by
    obtain ⟨s, _, m, _, ho, heq⟩ := mem_items h i hi
    have hbody : s.body.isConditionalCard = true := by
      rw [heq] at hcard
      exact hcard
    obtain ⟨c, body⟩ := s
    cases body with
    | conditionalCard value => exact hsw.silent ho
    | _ => exact nomatch hbody

theorem LawfulItems.tail {i : Item} {is : List Item} (h : LawfulItems (i :: is)) :
    LawfulItems is :=
  ⟨fun j hj => h.cond j (List.mem_cons_of_mem _ hj),
    fun j hj => h.silent j (List.mem_cons_of_mem _ hj)⟩

theorem isCond_groupToks_two {is : List Item} (h : LawfulItems is) : IsCond (groupToks 2 is) := by
  induction is with
  | nil => exact isCond_nil
  | cons i is ih =>
      have hcons : groupToks 2 (i :: is) = connToks i.conditional ++ i.out.toks ++ groupToks 2 is :=
        rfl
      rw [hcons]
      exact ((isCond_connToks _).append (h.cond i List.mem_cons_self)).append (ih h.tail)

/-- The text of a card's group before and after its first predicate. -/
theorem groupToks_one (is : List Item) :
    groupToks 1 is
        = ((is.takeWhile fun i => i.card).flatMap fun i => connToks i.conditional ++ i.out.toks)
          ++ (match is.dropWhile fun i => i.card with
            | [] => []
            | i :: is => leadToks i.conditional ++ [.lpar] ++ i.out.toks ++ groupToks 2 is) ∧
      finalStatus 1 is = if (is.dropWhile fun i => i.card) = [] then 1 else 2 := by
  induction is with
  | nil => exact ⟨rfl, rfl⟩
  | cons i is ih =>
      cases hc : i.card with
      | false => simp [groupToks, finalStatus, hc]
      | true =>
          obtain ⟨iht, ihs⟩ := ih
          refine ⟨?_, ?_⟩
          · simp only [groupToks, hc, List.takeWhile_cons, List.dropWhile_cons, if_true,
              List.flatMap_cons, List.append_assoc, Bool.true_eq_false, and_false, if_false]
            rw [iht]
            simp
          · rw [finalStatus_cons]
            simpa [finalStatus, hc] using ihs

theorem group_eq {c : CardOut} (h : LawfulItems c.items) :
    IsCond c.group ∧ condToks c.group = connectorToks c.before ++ c.groupCond := by
  obtain ⟨htoks, hstatus⟩ := groupToks_one c.items
  have hbefore : (c.before.flatMap fun i => connToks i.conditional ++ i.out.toks)
      = c.before.flatMap fun i => connToks i.conditional := by
    refine List.flatMap_congr fun i hi => ?_
    have hcard : i.card = true := by simpa using List.mem_takeWhile_imp hi
    simp [h.silent i (List.takeWhile_subset _ hi) hcard]
  have hconn : IsCond (c.before.flatMap fun i => connToks i.conditional) := by
    generalize c.before = is
    induction is with
    | nil => exact isCond_nil
    | cons i is ih => exact (isCond_connToks _).append ih
  cases hp : c.preds with
  | nil =>
      have hgroup : c.group = c.before.flatMap fun i => connToks i.conditional := by
        have hd : (c.items.dropWhile fun i => i.card) = [] := hp
        have hb : (c.items.takeWhile fun i => i.card) = c.before := rfl
        rw [CardOut.group, htoks, hstatus, hd, hb, hbefore]
        simp
      rw [hgroup]
      exact ⟨hconn, by simp [connectorToks, CardOut.groupCond, hp]⟩
  | cons i is =>
      have hgroup : c.group = (c.before.flatMap fun i => connToks i.conditional)
          ++ (leadToks i.conditional ++ ([.lpar] ++ (i.out.toks ++ groupToks 2 is) ++ [.rpar])) := by
        have hd : (c.items.dropWhile fun i => i.card) = i :: is := hp
        have hb : (c.items.takeWhile fun i => i.card) = c.before := rfl
        rw [CardOut.group, htoks, hstatus, hd, hb, hbefore]
        simp
      have hmem : ∀ j ∈ i :: is, j ∈ c.items := fun j hj =>
        List.dropWhile_subset _ (hp ▸ hj : j ∈ c.preds)
      have hlaw : LawfulItems is :=
        ⟨fun j hj => h.cond j (hmem j (List.mem_cons_of_mem _ hj)),
          fun j hj => h.silent j (hmem j (List.mem_cons_of_mem _ hj))⟩
      have hin : IsCond (i.out.toks ++ groupToks 2 is) :=
        (h.cond i (hmem i List.mem_cons_self)).append (isCond_groupToks_two hlaw)
      have hlead : IsCond (leadToks i.conditional) := by
        rcases i.conditional with _ | c
        · exact isCond_AND
        · exact isCond_connToks (some c)
      rw [hgroup]
      refine ⟨hconn.append (hlead.append hin.group), ?_⟩
      simp [connectorToks, CardOut.groupCond, CardOut.inside, hp, condToks, condTok]

theorem inside_closed {c : CardOut} (h : LawfulItems c.items) : nested 0 c.inside = some 0 := by
  unfold CardOut.inside
  cases hp : c.preds with
  | nil => rfl
  | cons i is =>
      have hmem : ∀ j ∈ i :: is, j ∈ c.items := fun j hj =>
        List.dropWhile_subset _ (hp ▸ hj : j ∈ c.preds)
      have hlaw : LawfulItems is :=
        ⟨fun j hj => h.cond j (hmem j (List.mem_cons_of_mem _ hj)),
          fun j hj => h.silent j (hmem j (List.mem_cons_of_mem _ hj))⟩
      exact ((h.cond i (hmem i List.mem_cons_self)).append (isCond_groupToks_two hlaw)).closed

/-- A set operator or a `)` ends the open `SELECT`. -/
theorem lex_close {l : Lex} {s : ContactsSelect} {t : Tok} {ts : List Tok}
    (hl : l.cur = some (s, 0)) (ht : t = .intersect ∨ t = .except ∨ t = .rpar) :
    lex l (t :: ts)
      = lex { l with toks := l.toks ++ [.leaf (.contacts s)], cur := none } (t :: ts) := by
  rcases ht with rfl | rfl | rfl <;> simp only [lex, lexStep, hl, selectStep]

theorem lex_tags (ts : List TagStepData) : ∀ {l : Lex}, l.cur = none →
    lex l (ts.flatMap (tagToks tag)) = some { l with
      toks := l.toks ++ ts.flatMap fun t =>
        [Infix.opTok (tagOp t), .lpar, .leaf (tagSource tag t), .rpar] } := by
  induction ts with
  | nil =>
      intro l _
      simp [lex]
  | cons t ts ih =>
      intro l hl
      have hstep : lex l (tagToks tag t) = some { l with
          toks := l.toks ++ [Infix.opTok (tagOp t), .lpar, .leaf (tagSource tag t), .rpar] } := by
        obtain ⟨toks, cur, limit, finished, drops⟩ := l
        cases hl
        by_cases h : t.conditionalTag = .str "in" <;>
          simp [tagToks, tagOp, TagStepData.isIn, memberOp, h, lex, lexStep, baseStep, Infix.opTok,
            tagSource]
      have hrest := ih (l := { l with
        toks := l.toks ++ [Infix.opTok (tagOp t), .lpar, .leaf (tagSource tag t), .rpar] }) hl
      rw [List.flatMap_cons, lex_append, hstep, Option.bind_some, hrest]
      simp

/-- The `SELECT` of a card and what follows it. -/
theorem lex_card {c : CardOut} (h : LawfulItems c.items) {l : Lex} (hl : l.cur = none) :
    lex l (c.toks tag) = some { l with toks := l.toks ++ c.setToks tag } := by
  obtain ⟨hcond, hgroup⟩ := group_eq h
  cases hs : c.steps with
  | nil => simp [CardOut.toks, CardOut.setToks, hs, lex, lexStep, hl, baseStep]
  | cons s ss =>
      have hword : lex l c.word
          = some { l with toks := l.toks ++ (cardOp c.steps).toList.map Infix.opTok } := by
        obtain ⟨toks, cur, limit, finished, drops⟩ := l
        cases hl
        obtain ⟨conditional, body⟩ := s
        cases body with
        | conditionalCard value =>
            cases value <;>
              simp [CardOut.word, hs, cardWord, cardOp, cardConnector, setOp, lex, lexStep, baseStep,
                Infix.opTok]
        | _ => simp [CardOut.word, hs, cardOp, cardConnector, lex]
      have hhead : lex l (c.head tag) = some { l with
          toks := l.toks ++ (cardOp c.steps).toList.map Infix.opTok ++ [.lpar]
          cur := some (⟨tag.id, c.join, guardToks tag⟩, 0) } := by
        unfold CardOut.head
        simp only [List.append_assoc, lex_append, hword, Option.bind_some]
        cases c.join <;>
          simp [joinToks, lex, lexStep, hl, baseStep, selectStep, ContactsSelect.push, guardToks]
      have hopen : lex l (c.head tag ++ c.group) = some { l with
          toks := l.toks ++ (cardOp c.steps).toList.map Infix.opTok ++ [.lpar]
          cur := some (c.select tag, 0) } := by
        rw [lex_append, hhead, Option.bind_some, lex_cond rfl hcond.tok hcond.closed, hgroup]
        simp [CardOut.select, CardOut.whereToks]
      have hstart : ∃ t ts, c.tags.flatMap (tagToks tag) ++ [.rpar] = t :: ts ∧
          (t = .intersect ∨ t = .except ∨ t = .rpar) := by
        cases c.tags with
        | nil => exact ⟨_, _, rfl, .inr (.inr rfl)⟩
        | cons t ts =>
            refine ⟨_, _, rfl, ?_⟩
            split
            · exact .inl rfl
            · exact .inr (.inl rfl)
      have hrest : lex { l with
            toks := l.toks ++ (cardOp c.steps).toList.map Infix.opTok ++ [.lpar]
            cur := some (c.select tag, 0) } (c.tags.flatMap (tagToks tag) ++ [.rpar])
          = some { l with toks := l.toks ++ c.setToks tag } := by
        obtain ⟨t, ts, hts, ht⟩ := hstart
        rw [hts, lex_close rfl ht, ← hts, lex_append, lex_tags _ rfl]
        simp [lex, lexStep, hl, baseStep, CardOut.setToks, CardOut.body, hs]
      have htoks : c.toks tag
          = (c.head tag ++ c.group) ++ (c.tags.flatMap (tagToks tag) ++ [.rpar]) := by
        simp [CardOut.toks, hs]
      rw [htoks, lex_append, hopen, Option.bind_some, hrest]

/-- The cards of a generated query. -/
def Lawful (cs : List CardOut) : Prop := ∀ c ∈ cs, LawfulItems c.items

theorem lawful_cardOuts (hsw : sw.Lawful) {cards : List (List Step)} {n : Nat}
    {cs : List CardOut} (h : cardOuts sw n cards = .ok cs) : Lawful cs := by
  intro c hc
  obtain ⟨_, m, hm⟩ := mem_cardOuts h c hc
  exact lawfulItems hsw hm

theorem lex_cards {cs : List CardOut} (h : Lawful cs) : ∀ {l : Lex}, l.cur = none →
    lex l (cs.flatMap (CardOut.toks tag))
      = some { l with toks := l.toks ++ cs.flatMap (CardOut.setToks tag) } := by
  induction cs with
  | nil =>
      intro l _
      simp [lex]
  | cons c cs ih =>
      intro l hl
      have hrest := ih (fun d hd => h d (List.mem_cons_of_mem _ hd))
        (l := { l with toks := l.toks ++ c.setToks tag }) hl
      rw [List.flatMap_cons, lex_append, lex_card (h c List.mem_cons_self) hl, Option.bind_some,
        hrest]
      simp

/-- `if (segmentDto.contactsLimit)`: `0` is no limit. -/
def SegmentDtoLike.limit (dto : SegmentDtoLike) : Option Nat :=
  if dto.contactsLimit = some 0 then none else dto.contactsLimit

/-- The whole text. -/
theorem lex_assemble {cs : List CardOut} (h : Lawful cs) (dto : SegmentDtoLike) :
    lex {} (assemble tag dto cs).query = some
      { toks := cs.flatMap (CardOut.setToks tag), limit := dto.limit, finished := true
        drops := cs.flatMap CardOut.drops } := by
  have hdrops : ∀ (ds : List String) (l : Lex), l.cur = none → l.finished = true →
      lex l (ds.map .dropTable) = some { l with drops := l.drops ++ ds } := by
    intro ds
    induction ds with
    | nil => simp [lex]
    | cons d ds ih =>
        intro l hl hf
        have hstep : lexStep l (.dropTable d) = some { l with drops := l.drops ++ [d] } := by
          simp [lexStep, hl, baseStep, hf]
        have hrest := ih { l with drops := l.drops ++ [d] } hl hf
        rw [List.map_cons, lex, hstep, Option.bind_some, hrest]
        simp
  have hlimit : ∀ l : Lex, l.cur = none → l.limit = none →
      lex l (limitToks dto.contactsLimit ++ [.finish])
        = some { l with limit := dto.limit, finished := true } := by
    intro l hl hn
    obtain ⟨toks, cur, limit, finished, drops⟩ := l
    cases hl
    cases hn
    rcases hc : dto.contactsLimit with _ | _ | n <;>
      simp [limitToks, SegmentDtoLike.limit, hc, lex, lexStep, baseStep]
  have hsplit : (assemble tag dto cs).query = [.insertInto] ++ (cs.flatMap (CardOut.toks tag)
      ++ ((limitToks dto.contactsLimit ++ [.finish]) ++ (cs.flatMap CardOut.drops).map .dropTable)) := by
    simp [assemble]
  have hstart : lex {} [.insertInto] = some {} := rfl
  rw [hsplit, lex_append, hstart, Option.bind_some, lex_append, lex_cards h rfl, Option.bind_some,
    lex_append, hlimit _ rfl rfl, Option.bind_some, hdrops _ _ rfl rfl]
  rfl

end

/-! ## Reading a `WHERE` -/

/-- `ct.account_id = N AND ct.is_active`. -/
def guardCond (tag : TagLike) : Cond := .hi () (.leaf (.account tag.accountId)) (.leaf .active)

/-- The guard joined with a group by the connector of its first predicate. -/
def guarded (tag : TagLike) (conditional : Option Connector) (e : Cond) : Cond :=
  match conditional with
  | some .or => .lo () (guardCond tag) e
  | _ => .hi () (guardCond tag) e

/-- The operator a group is opened with. -/
def leadOp (conditional : Option Connector) : Unit ⊕ Unit :=
  match conditional with
  | some .or => .inl ()
  | _ => .inr ()

theorem condToks_leadToks (conditional : Option Connector) :
    condToks (leadToks conditional) = [Infix.opTok (leadOp conditional)] := by
  rcases conditional with _ | _ | _ <;> rfl

theorem condToks_connToks (c : Connector) :
    condToks (connToks (some c)) = [Infix.opTok (leadOp (some c))] := by
  cases c <;> rfl

section
variable {tag : TagLike} {c : CardOut}

/-- What follows the guard starts with an operator. -/
theorem head_connectorToks (is : List Item) {t : CondTok}
    (ht : t ∈ (connectorToks is ++ c.groupCond).head?) : ∃ o, t = Infix.opTok o := by
  induction is with
  | nil =>
      unfold CardOut.groupCond at ht
      cases hp : c.preds with
      | nil => simp [connectorToks, hp, condToks] at ht
      | cons i is =>
          simp only [connectorToks, hp, condToks_leadToks, List.flatMap_nil] at ht
          exact ⟨_, (Option.some.inj ht).symm⟩
  | cons i is ih =>
      cases hc : i.conditional with
      | none => exact ih (by simpa [connectorToks, hc, connToks] using ht)
      | some k =>
          simp only [connectorToks, List.flatMap_cons, hc, condToks_append, condToks_connToks] at ht
          exact ⟨_, (Option.some.inj ht).symm⟩

/-- An operator is not followed by another one, nor by the end of the text. -/
theorem read_guard_operator {o : Unit ⊕ Unit} {ts : List CondTok}
    (h : ∀ t ∈ ts.head?, ∃ o, t = Infix.opTok o) :
    Infix.read (guardToks tag ++ Infix.opTok o :: ts) = none := by
  cases ts with
  | nil => cases o <;> rfl
  | cons t ts =>
      obtain ⟨o', rfl⟩ := h t rfl
      cases o <;> cases o' <;> rfl

theorem read_guard_connectors (is : List Item)
    (h : (Infix.read (guardToks tag ++ (connectorToks is ++ c.groupCond))).isSome = true) :
    ∀ i ∈ is, i.conditional = none := by
  induction is with
  | nil =>
      intro i hi
      cases hi
  | cons i is ih =>
      cases hc : i.conditional with
      | none =>
          have hskip : connectorToks (i :: is) = connectorToks is := by
            simp [connectorToks, hc, connToks]
          rw [hskip] at h
          intro j hj
          rcases List.mem_cons.mp hj with rfl | hj
          · exact hc
          · exact ih h j hj
      | some k =>
          have hop : connectorToks (i :: is) ++ c.groupCond
              = Infix.opTok (leadOp (some k)) :: (connectorToks is ++ c.groupCond) := by
            simp [connectorToks, hc, condToks_connToks]
          rw [hop, read_guard_operator (fun t ht => head_connectorToks is ht)] at h
          cases h

theorem connectorToks_none {is : List Item} (h : ∀ i ∈ is, i.conditional = none) :
    connectorToks is = [] := by
  induction is with
  | nil => rfl
  | cons i is ih =>
      have hi := h i List.mem_cons_self
      have his := ih fun j hj => h j (List.mem_cons_of_mem _ hj)
      simpa [connectorToks, hi, connToks] using his

theorem read_guard_group {k : Option Connector} {ts : List CondTok} (hn : nested 0 ts = some 0)
    {φ : Cond} : Infix.read (guardToks tag ++ Infix.opTok (leadOp k) :: (.lpar :: ts ++ [.rpar]))
        = some φ ↔ ∃ e, Infix.read ts = some e ∧ φ = guarded tag k e := by
  have hguard : ∀ us, Infix.run {} (guardToks tag ++ Infix.opTok (leadOp k) :: us)
      = Infix.run ⟨[], match leadOp k with
          | .inl _ => { low := some (guardCond tag, ()) }
          | .inr _ => { high := some (guardCond tag, ()) }, none⟩ us := by
    intro us
    cases leadOp k <;> rfl
  constructor
  · intro h
    obtain ⟨f, v, hr, hφ⟩ := Infix.read_eq_some h
    rw [hguard] at hr
    obtain ⟨e, he, hrest⟩ := @Infix.read_of_run_group _ _ _ _ [] _ _ _ hn hr
    refine ⟨e, he, ?_⟩
    rcases k with _ | _ | _ <;> cases hrest <;> exact hφ.symm
  · rintro ⟨e, he, rfl⟩
    have hop := Infix.operand_group he
    simp only [Infix.read, hguard, hop _ _]
    rcases k with _ | _ | _ <;> rfl

/-- The `WHERE` of a card: its leading `conditionalCard`s carry no connector,
and its group, when it has one, reads. -/
theorem read_where (h : LawfulItems c.items) {φ : Cond} :
    Infix.read (c.whereToks tag) = some φ ↔
      (∀ i ∈ c.before, i.conditional = none) ∧
      ((c.preds = [] ∧ φ = guardCond tag) ∨
        ∃ i is e, c.preds = i :: is ∧ Infix.read c.inside = some e ∧
          φ = guarded tag i.conditional e) := by
  have hassoc : c.whereToks tag = guardToks tag ++ (connectorToks c.before ++ c.groupCond) := by
    simp [CardOut.whereToks]
  have hcase : (∀ i ∈ c.before, i.conditional = none) →
      (Infix.read (c.whereToks tag) = some φ ↔
        ((c.preds = [] ∧ φ = guardCond tag) ∨
        ∃ i is e, c.preds = i :: is ∧ Infix.read c.inside = some e ∧
          φ = guarded tag i.conditional e)) := by
    intro hb
    rw [hassoc, connectorToks_none hb, List.nil_append]
    unfold CardOut.groupCond
    cases hp : c.preds with
    | nil =>
        have hg : Infix.read (guardToks tag ++ []) = some (guardCond tag) := rfl
        rw [hg]
        constructor
        · intro h
          exact .inl ⟨rfl, (Option.some.inj h).symm⟩
        · rintro (⟨_, rfl⟩ | ⟨i, is, e, hcons, _⟩)
          · rfl
          · exact nomatch hcons
    | cons i is =>
        simp only [condToks_leadToks, List.singleton_append]
        rw [read_guard_group (inside_closed h)]
        constructor
        · rintro ⟨e, he, rfl⟩
          exact .inr ⟨i, is, e, rfl, he, rfl⟩
        · rintro (⟨hnil, _⟩ | ⟨j, js, e, hcons, he, rfl⟩)
          · exact nomatch hnil
          · obtain ⟨rfl, rfl⟩ := List.cons.inj hcons
            exact ⟨e, he, rfl⟩
  constructor
  · intro hr
    have hsome : (Infix.read (guardToks tag ++ (connectorToks c.before ++ c.groupCond))).isSome
        = true := by rw [← hassoc, hr]; rfl
    have hb := read_guard_connectors c.before hsome
    exact ⟨hb, (hcase hb).mp hr⟩
  · rintro ⟨hb, hr⟩
    exact (hcase hb).mpr hr

end

/-! ## Reading the cards -/

section
variable {tag : TagLike}

/-- A tag step as a link of its card's chain. -/
def tagLink (tag : TagLike) (t : TagStepData) : Infix.Link Source SetLo Unit where
  op := tagOp t
  toks := .lpar :: [.leaf (tagSource tag t)] ++ [.rpar]
  expr := .leaf (tagSource tag t)
  isOperand := Infix.operand_group rfl

/-- The set a card stands for: its `SELECT` and its tags, in one flat chain. -/
def CardOut.expr (tag : TagLike) (c : CardOut) : SetExpr :=
  Infix.foldChain .lo .hi none (.leaf (.contacts (c.select tag)))
    (c.tags.map fun t => (tagOp t, .leaf (tagSource tag t)))

theorem read_body (c : CardOut) : Infix.read (c.body tag) = some (c.expr tag) := by
  have h := Infix.read_chain (@Infix.operand_leaf _ SetLo Unit
    (Source.contacts (c.select tag))) (c.tags.map (tagLink tag))
  have htoks : c.body tag = [.leaf (.contacts (c.select tag))]
      ++ Infix.linkToks (c.tags.map (tagLink tag)) := by
    simp [CardOut.body, Infix.linkToks, tagLink, List.flatMap_map]
  rw [htoks, h]
  simp [CardOut.expr, tagLink, Function.comp_def]

theorem operand_card (c : CardOut) :
    Infix.Operand (.lpar :: c.body tag ++ [.rpar]) (c.expr tag) :=
  Infix.operand_group (read_body c)

/-- The cards after the first, each behind its operator. -/
def Chained (cs : List CardOut) (ops : List (SetLo ⊕ Unit)) : Prop :=
  cs.map (fun c => cardOp c.steps) = ops.map some

theorem setToks_operator {c : CardOut} {o : SetLo ⊕ Unit} (h : cardOp c.steps = some o) :
    c.setToks tag = Infix.opTok o :: (.lpar :: c.body tag ++ [.rpar]) := by
  unfold CardOut.setToks
  cases hs : c.steps with
  | nil => simp [hs, cardOp, cardConnector] at h
  | cons s ss => simp [← hs, h]

theorem run_cards {cs : List CardOut} : ∀ {low : Option (SetExpr × SetLo)} {v : SetExpr}
    {s : Infix.State Source SetLo Unit},
    Infix.run ⟨[], { low := low }, some v⟩ (cs.flatMap (CardOut.setToks tag)) = some s →
    ∃ ops, Chained cs ops ∧ s.outer = [] ∧ ∃ v', s.val = some v' ∧
      s.frame.closeLow v' = Infix.foldChain .lo .hi low v (ops.zip (cs.map (CardOut.expr tag))) := by
  induction cs with
  | nil =>
      intro low v s h
      cases h
      refine ⟨[], rfl, rfl, v, rfl, ?_⟩
      cases low with
      | none => rfl
      | some p => rfl
  | cons c cs ih =>
      intro low v s h
      rw [List.flatMap_cons, Infix.run_append, Option.bind_eq_some_iff] at h
      obtain ⟨s₁, hc, hrest⟩ := h
      cases ho : cardOp c.steps with
      | none =>
          -- a card without an operator is a `(` or a lone `)`: neither may stand here
          unfold CardOut.setToks at hc
          cases hs : c.steps with
          | nil =>
              simp only [hs] at hc
              exact nomatch hc
          | cons s ss =>
              simp only [hs] at hc ho
              simp only [ho, Option.toList_none, List.map_nil, List.nil_append, List.cons_append,
                Infix.run_group_after_operand, reduceCtorEq] at hc
      | some o =>
          rw [setToks_operator ho] at hc
          have hop := @operand_card tag c
          cases o with
          | inl o =>
              have hx := hop [] { low := some (Infix.Frame.closeLow { low := low } v, o) }
              simp only [Infix.opTok, Infix.run, Infix.step, Option.bind_some] at hc
              rw [hx] at hc
              cases hc
              obtain ⟨ops, hch, hout, v', hv, he⟩ := ih hrest
              refine ⟨.inl o :: ops, ?_, hout, v', hv, he.trans ?_⟩
              · simpa [Chained, ho] using hch
              · cases low with
                | none => rfl
                | some p => rfl
          | inr o =>
              have hx := hop [] { low := low, high := some (v, o) }
              simp only [Infix.opTok, Infix.run, Infix.step, Option.bind_some] at hc
              rw [hx] at hc
              cases hc
              obtain ⟨ops, hch, hout, v', hv, he⟩ := ih hrest
              refine ⟨.inr o :: ops, ?_, hout, v', hv, he.trans ?_⟩
              · simpa [Chained, ho] using hch
              · cases low with
                | none => rfl
                | some p => rfl

/-- A card behind its operator, as a link. -/
def cardLink (tag : TagLike) (o : SetLo ⊕ Unit) (c : CardOut) : Infix.Link Source SetLo Unit where
  op := o
  toks := .lpar :: c.body tag ++ [.rpar]
  expr := c.expr tag
  isOperand := operand_card c

theorem linkToks_cards : ∀ {cs : List CardOut} {ops : List (SetLo ⊕ Unit)}, Chained cs ops →
    Infix.linkToks (List.zipWith (cardLink tag) ops cs) = cs.flatMap (CardOut.setToks tag)
  | [], [], _ => rfl
  | [], _ :: _, h => nomatch h
  | _ :: _, [], h => nomatch h
  | c :: cs, o :: ops, h => by
      obtain ⟨ho, hrest⟩ := List.cons.inj h
      have ih := linkToks_cards hrest
      rw [List.flatMap_cons, setToks_operator ho, ← ih]
      rfl

/-- The set expression of a chain of cards. -/
def chainExpr (tag : TagLike) (c : CardOut) (ops : List (SetLo ⊕ Unit)) (cs : List CardOut) :
    SetExpr :=
  Infix.foldChain .lo .hi none (c.expr tag) (ops.zip (cs.map (CardOut.expr tag)))

theorem read_cards {cs : List CardOut} {e : SetExpr} :
    Infix.read (cs.flatMap (CardOut.setToks tag)) = some e ↔
      ∃ c ds ops, cs = c :: ds ∧ c.steps ≠ [] ∧ cardOp c.steps = none ∧ Chained ds ops ∧
        e = chainExpr tag c ops ds := by
  constructor
  · intro h
    obtain ⟨f, v, hr, rfl⟩ := Infix.read_eq_some h
    cases cs with
    | nil => exact nomatch hr
    | cons c ds =>
        rw [List.flatMap_cons, Infix.run_append, Option.bind_eq_some_iff] at hr
        obtain ⟨s₁, hc, hrest⟩ := hr
        cases hs : c.steps with
        | nil =>
            simp only [CardOut.setToks, hs] at hc
            exact nomatch hc
        | cons s ss =>
            cases ho : cardOp c.steps with
            | some o =>
                rw [setToks_operator ho] at hc
                cases o <;> exact nomatch hc
            | none =>
                have htoks : c.setToks tag = .lpar :: c.body tag ++ [.rpar] := by
                  rw [hs] at ho
                  simp [CardOut.setToks, hs, ho]
                rw [htoks, operand_card c [] {}] at hc
                cases hc
                obtain ⟨ops, hch, _, v', hv, he⟩ := @run_cards _ _ none _ _ hrest
                cases hv
                exact ⟨c, ds, ops, rfl, by rw [hs]; exact List.cons_ne_nil _ _, ho, hch, he⟩
  · rintro ⟨c, ds, ops, rfl, hs, ho, hch, rfl⟩
    have htoks : c.setToks tag = .lpar :: c.body tag ++ [.rpar] := by
      cases hc : c.steps with
      | nil => exact absurd hc hs
      | cons s ss =>
          rw [hc] at ho
          simp [CardOut.setToks, hc, ho]
    have h := Infix.read_chain (@operand_card tag c) (List.zipWith (cardLink tag) ops ds)
    rw [linkToks_cards hch] at h
    rw [List.flatMap_cons, htoks, h, chainExpr]
    congr 2
    clear hs ho htoks h
    induction ds generalizing ops with
    | nil => simp
    | cons d ds ih =>
        cases ops with
        | nil => rfl
        | cons o ops =>
            simp only [List.zipWith_cons_cons, List.map_cons, List.zip_cons_cons, List.cons.injEq]
            exact ⟨rfl, ih _ (List.cons.inj hch).2⟩

end

/-! ## The statement -/

section
variable {tag : TagLike} {dto : SegmentDtoLike} {cs : List CardOut}

theorem contactsSelects_assemble (h : Lawful cs) :
    contactsSelects (assemble tag dto cs).query
      = (cs.filter fun c => decide (c.steps ≠ [])).map (CardOut.select tag) := by
  simp only [contactsSelects, lex_assemble h]
  clear h
  induction cs with
  | nil => rfl
  | cons c cs ih =>
      rw [List.flatMap_cons, List.filterMap_append, ih]
      have htags : ∀ ts : List TagStepData,
          (ts.flatMap fun t => [Infix.opTok (tagOp t), .lpar, .leaf (tagSource tag t),
            .rpar]).filterMap contactsTok = [] := by
        intro ts
        induction ts with
        | nil => rfl
        | cons t ts iht =>
            rw [List.flatMap_cons, List.filterMap_append, iht]
            cases tagOp t <;> rfl
      have hword : ((cardOp c.steps).toList.map Infix.opTok).filterMap contactsTok = [] := by
        rcases cardOp c.steps with _ | _ | _ <;> rfl
      have hbody : (c.body tag).filterMap contactsTok = [c.select tag] := by
        rw [CardOut.body, List.filterMap_append, htags]
        rfl
      cases hs : c.steps with
      | nil => simp [CardOut.setToks, hs, contactsTok]
      | cons s ss =>
          have hset : (c.setToks tag).filterMap contactsTok = [c.select tag] := by
            simp only [CardOut.setToks, hs]
            rw [← hs, List.filterMap_append, hword, List.filterMap_append, List.filterMap_cons]
            simp only [contactsTok, hbody, List.filterMap_cons, List.filterMap_nil]
            rfl
          rw [hset]
          simp [hs]

/-- The operands of the set operators are SQL. -/
def Wellformed (tag : TagLike) (cs : List CardOut) : Prop :=
  ∀ c ∈ cs, (Infix.read (c.whereToks tag)).isSome = true ∧ ∀ t ∈ c.tags, t.tagId ≠ []

theorem isSql_setToks (c : CardOut) (hs : c.steps ≠ []) :
    (c.setToks tag).all isSqlTok = true ↔
      (Infix.read (c.whereToks tag)).isSome = true ∧ ∀ t ∈ c.tags, t.tagId ≠ [] := by
  have hop : ∀ o : Option (SetLo ⊕ Unit), (o.toList.map Infix.opTok).all isSqlTok = true := by
    rintro (_ | _ | _) <;> rfl
  have htags : ∀ ts : List TagStepData,
      (ts.flatMap fun t => [Infix.opTok (tagOp t), .lpar, .leaf (tagSource tag t), .rpar]).all isSqlTok
        = true ↔ ∀ t ∈ ts, t.tagId ≠ [] := by
    intro ts
    induction ts with
    | nil => simp
    | cons t ts ih =>
        rw [List.flatMap_cons, List.all_append, Bool.and_eq_true, ih]
        cases ho : tagOp t <;>
          simp [Infix.opTok, isSqlTok, tagSource, Source.isSql]
  cases hc : c.steps with
  | nil => exact absurd hc hs
  | cons s ss =>
      simp only [CardOut.setToks, hc, List.all_append, hop, CardOut.body, List.all_cons,
        Bool.and_eq_true, htags]
      simp [isSqlTok, Source.isSql, CardOut.select]

/-- What the whole text is read as. -/
theorem parse_assemble (h : Lawful cs) {q : Query} :
    parse (assemble tag dto cs).query = some q ↔
      Wellformed tag cs ∧ ∃ c ds ops, cs = c :: ds ∧ c.steps ≠ [] ∧ cardOp c.steps = none ∧
        Chained ds ops ∧ q = ⟨chainExpr tag c ops ds, dto.limit⟩ := by
  have hsteps : ∀ {ds : List CardOut} {ops : List (SetLo ⊕ Unit)}, Chained ds ops →
      ∀ d ∈ ds, d.steps ≠ [] := by
    intro ds ops hch d hd hnil
    have hmem : cardOp d.steps ∈ ops.map some := hch ▸ List.mem_map_of_mem hd
    rw [hnil] at hmem
    simp [cardOp, cardConnector] at hmem
  have hall : (∀ c ∈ cs, c.steps ≠ []) →
      ((cs.flatMap (CardOut.setToks tag)).all isSqlTok = true ↔ Wellformed tag cs) := by
    intro hne
    rw [List.all_flatMap, List.all_eq_true]
    exact forall₂_congr fun c hc => isSql_setToks c (hne c hc)
  simp only [parse, lex_assemble h]
  constructor
  · intro hq
    split at hq
    · rename_i hsql
      cases hr : Infix.read (cs.flatMap (CardOut.setToks tag)) with
      | none => simp only [hr, reduceCtorEq] at hq
      | some e =>
          simp only [hr, Option.some.injEq] at hq
          subst hq
          obtain ⟨c, ds, ops, rfl, hs, ho, hch, rfl⟩ := read_cards.mp hr
          refine ⟨(hall ?_).mp hsql, c, ds, ops, rfl, hs, ho, hch, rfl⟩
          intro d hd
          rcases List.mem_cons.mp hd with rfl | hd
          · exact hs
          · exact hsteps hch d hd
    · exact nomatch hq
  · rintro ⟨hwf, c, ds, ops, rfl, hs, ho, hch, rfl⟩
    have hne : ∀ d ∈ c :: ds, d.steps ≠ [] := by
      intro d hd
      rcases List.mem_cons.mp hd with rfl | hd
      · exact hs
      · exact hsteps hch d hd
    rw [if_pos ((hall hne).mpr hwf), read_cards.mpr ⟨c, ds, ops, rfl, hs, ho, hch, rfl⟩]

end

end OpenBms.Segment
