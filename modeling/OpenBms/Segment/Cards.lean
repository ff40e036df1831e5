/-
# `OpenBms.Segment.Cards` — the text of a segment query, card by card

The loop of `OpenBms.Segment.Generator` writes one text through shared
accumulators.  Here is the same text without them: a card's text is a function
of its steps and of what its steps emit (`CardOut.toks`), and the whole query
is the concatenation of the cards' texts (`generateWith_eq`).  Everything later
modules say about the generators goes through this theorem.

    card      word ( SELECT .. [join] WHERE account AND active  group  tags )
    group     conn₁ ( p₁  conn₂ p₂ .. )         conn₁ is AND when step 1 has none
    tags      INTERSECT ( .. ) | EXCEPT ( .. )   one for each tag step

The one assumption on the `switch` is that it writes no placeholder of its own
(`NoPlaceholder`): then `query.replace` always meets the current card's.
-/
import OpenBms.Segment.GeneratorV2

namespace OpenBms.Segment

open Js

/-! ## What the steps of a card emit -/

/-- A step other than a tag, with what the `switch` made of it. -/
structure Item where
  card : Bool
  conditional : Option Connector
  out : StepOut
  deriving DecidableEq

/-- The item a step becomes. -/
def Step.item (s : Step) (o : StepOut) : Item := ⟨s.body.isConditionalCard, s.conditional, o⟩

@[simp] theorem Step.item_out (s : Step) (o : StepOut) : (s.item o).out = o := rfl

@[simp] theorem Step.item_card (s : Step) (o : StepOut) :
    (s.item o).card = s.body.isConditionalCard := rfl

@[simp] theorem Step.item_conditional (s : Step) (o : StepOut) :
    (s.item o).conditional = s.conditional := rfl

/-- How far an item moves the counter `subQueys`. -/
def Item.bump (i : Item) : Nat := if i.out.external.isSome then 1 else 0

def bumps (is : List Item) : Nat := (is.map Item.bump).sum

/-- The items of a card, the counter passed from step to step. -/
def items (sw : Switch) : Nat → List Step → Except Error (List Item)
  | _, [] => .ok []
  | n, s :: ss =>
      match s.body with
      | .tag _ => items sw n ss
      | body =>
          match sw n body with
          | .error e => .error e
          | .ok o =>
              match items sw (n + (s.item o).bump) ss with
              | .error e => .error e
              | .ok is => .ok (s.item o :: is)

/-- A card: its steps and its items. -/
structure CardOut where
  steps : List Step
  items : List Item
  deriving DecidableEq

def cardOuts (sw : Switch) : Nat → List (List Step) → Except Error (List CardOut)
  | _, [] => .ok []
  | n, steps :: cards =>
      match items sw n steps with
      | .error e => .error e
      | .ok is =>
          match cardOuts sw (n + bumps is) cards with
          | .error e => .error e
          | .ok cs => .ok (⟨steps, is⟩ :: cs)

/-! ## The text of a card -/

def tagOf (s : Step) : Option TagStepData :=
  match s.body with
  | .tag t => some t
  | _ => none

def CardOut.tags (c : CardOut) : List TagStepData := c.steps.filterMap tagOf

def CardOut.join (c : CardOut) : Bool := c.items.any fun i => i.out.join

/-- The set operator in front of a card. -/
def CardOut.word (c : CardOut) : List Tok :=
  match c.steps with
  | { body := .conditionalCard value, .. } :: _ => cardWord value
  | _ => []

/-- The connector the group is opened with. -/
def leadToks (c : Option Connector) : List Tok :=
  match c with
  | some c => [.conn c]
  | none => [.AND]

/-- What the items write, up to the end of the loop; `st` is
`setConditionalStatus`. -/
def groupToks : Nat → List Item → List Tok
  | _, [] => []
  | st, i :: is =>
      if st = 1 ∧ i.card = false then
        leadToks i.conditional ++ [.lpar] ++ i.out.toks ++ groupToks 2 is
      else connToks i.conditional ++ i.out.toks ++ groupToks st is

/-- `setConditionalStatus` at the end of the loop. -/
def finalStatus (st : Nat) (is : List Item) : Nat :=
  if st = 1 ∧ (is.any fun i => !i.card) = true then 2 else st

def joinToks (join : Bool) : List Tok := if join then [.innerJoin] else []

/-- The `SELECT` of a card up to its group. -/
def CardOut.head (tag : TagLike) (c : CardOut) : List Tok :=
  c.word ++ [.lpar, .selectContacts tag.id] ++ joinToks c.join
    ++ [.where_, .pred (.account tag.accountId), .AND, .pred .active]

/-- The group of a card, its parenthesis closed. -/
def CardOut.group (c : CardOut) : List Tok :=
  groupToks 1 c.items ++ if finalStatus 1 c.items = 2 then [.rpar] else []

/-- A card without steps is a lone `)`. -/
def CardOut.toks (tag : TagLike) (c : CardOut) : List Tok :=
  (if c.steps = [] then [] else c.head tag ++ c.group ++ c.tags.flatMap (tagToks tag))
    ++ [.rpar]

def CardOut.externals (c : CardOut) : List ExternalQueryStep :=
  c.items.flatMap fun i => i.out.external.toList

def CardOut.drops (c : CardOut) : List String := c.items.flatMap fun i => i.out.drops

/-- The result a list of cards stands for. -/
def assemble (tag : TagLike) (dto : SegmentDtoLike) (cs : List CardOut) : GenerateResult :=
  { query := [.insertInto] ++ cs.flatMap (CardOut.toks tag) ++ limitToks dto.contactsLimit
      ++ [.finish] ++ (cs.flatMap CardOut.drops).map .dropTable
    externalQuerySteps := cs.flatMap CardOut.externals }

/-! ## The loop writes it -/

/-- The `switch` writes no join placeholder. -/
def NoPlaceholder (sw : Switch) : Prop :=
  ∀ n body o, sw n body = .ok o → .pushJoin ∉ o.toks

theorem replacePushJoin_append {b pre : List Tok} (h : .pushJoin ∉ pre) (ts : List Tok) :
    replacePushJoin b (pre ++ ts) = pre ++ replacePushJoin b ts := by
  induction pre with
  | nil => rfl
  | cons t pre ih =>
      simp only [List.mem_cons, not_or] at h
      simp only [List.cons_append, replacePushJoin, if_neg (Ne.symm h.1), ih h.2]

theorem replacePushJoin_none {b ts : List Tok} (h : .pushJoin ∉ ts) :
    replacePushJoin b ts = ts := by
  simpa [replacePushJoin] using replacePushJoin_append (b := b) h []

/-- The placeholder of an open card, or the join it has become. -/
def placeToks (join : Bool) : List Tok := if join then [.innerJoin] else [.pushJoin]

/-- Replacing the placeholder of an open card; once replaced, nothing happens. -/
theorem replacePushJoin_place {b pre mid : List Tok} (hpre : .pushJoin ∉ pre)
    (hmid : .pushJoin ∉ mid) (join : Bool) :
    replacePushJoin b (pre ++ placeToks join ++ mid)
      = pre ++ (if join then [.innerJoin] else b) ++ mid := by
  rw [List.append_assoc, replacePushJoin_append hpre, List.append_assoc]
  cases join with
  | false => simp [placeToks, replacePushJoin]
  | true =>
      have h : Tok.pushJoin ∉ placeToks true ++ mid := by simp [placeToks, hmid]
      rw [replacePushJoin_none h]
      rfl

theorem pushJoin_not_mem_connToks (c : Option Connector) : .pushJoin ∉ connToks c := by
  cases c <;> simp [connToks]

theorem pushJoin_not_mem_leadToks (c : Option Connector) : .pushJoin ∉ leadToks c := by
  cases c <;> simp [leadToks]

theorem groupToks_two (is : List Item) :
    groupToks 2 is = is.flatMap fun i => connToks i.conditional ++ i.out.toks := by
  induction is with
  | nil => rfl
  | cons i is ih => simp [groupToks, ih]

section
variable {tag : TagLike} {sw : Switch}

theorem body_of_tagOf {s : Step} {t : TagStepData} (h : tagOf s = some t) : s.body = .tag t := by
  obtain ⟨c, body⟩ := s
  cases body with
  | tag t' => exact congrArg StepBody.tag (Option.some.inj h)
  | _ => exact nomatch h

theorem loopStep_item {s : Step} {l : Loop} (hopen : l.isConditionalCard = true)
    (hs : tagOf s = none) :
    loopStep tag sw s l = (sw l.subQueys s.body).map fun o => absorb (connect s l) o := by
  have hcard : openCard tag s l = l := by simp [openCard, hopen]
  have hsub : (connect s l).subQueys = l.subQueys := by
    unfold connect
    split <;> rfl
  obtain ⟨c, body⟩ := s
  cases body with
  | tag t => exact nomatch hs
  | _ =>
      simp only [loopStep, hcard, hsub]
      cases sw l.subQueys _ with
      | error e => rfl
      | ok o => rfl

theorem items_item {s : Step} {ss : List Step} {n : Nat} (hs : tagOf s = none) :
    items sw n (s :: ss) = (sw n s.body).bind fun o =>
      (items sw (n + (s.item o).bump) ss).map fun is => s.item o :: is := by
  obtain ⟨c, body⟩ := s
  cases body with
  | tag t => exact nomatch hs
  | _ =>
      simp only [items]
      cases sw n _ with
      | error e => rfl
      | ok o =>
          simp only [Except.bind]
          cases items sw (n + (Step.item _ o).bump) ss with
          | error e => rfl
          | ok is => rfl

theorem items_tag {s : Step} {ss : List Step} {n : Nat} {t : TagStepData} (hs : tagOf s = some t) :
    items sw n (s :: ss) = items sw n ss := by
  simp only [items, body_of_tagOf hs]

theorem items_item_ok {s : Step} {ss : List Step} {n : Nat} {is : List Item}
    (hs : tagOf s = none) (h : items sw n (s :: ss) = .ok is) :
    ∃ o js, sw n s.body = .ok o ∧ items sw (n + (s.item o).bump) ss = .ok js ∧
      is = s.item o :: js := by
  rw [items_item hs] at h
  cases ho : sw n s.body with
  | error e => simp only [ho, Except.bind, reduceCtorEq] at h
  | ok o =>
      simp only [ho, Except.bind] at h
      cases hr : items sw (n + (s.item o).bump) ss with
      | error e => simp only [hr, Except.map, reduceCtorEq] at h
      | ok js =>
          simp only [hr, Except.map, Except.ok.injEq] at h
          exact ⟨o, js, rfl, hr, h.symm⟩

theorem cardOuts_cons_ok {steps : List Step} {cards : List (List Step)} {n : Nat}
    {cs : List CardOut} (h : cardOuts sw n (steps :: cards) = .ok cs) :
    ∃ is ds, items sw n steps = .ok is ∧ cardOuts sw (n + bumps is) cards = .ok ds ∧
      cs = ⟨steps, is⟩ :: ds := by
  simp only [cardOuts] at h
  cases hi : items sw n steps with
  | error e => simp only [hi, reduceCtorEq] at h
  | ok is =>
      simp only [hi] at h
      cases hr : cardOuts sw (n + bumps is) cards with
      | error e => simp only [hr, reduceCtorEq] at h
      | ok ds =>
          simp only [hr, Except.ok.injEq] at h
          exact ⟨is, ds, rfl, hr, h.symm⟩

theorem mem_items {ss : List Step} : ∀ {n : Nat} {is : List Item}, items sw n ss = .ok is →
    ∀ i ∈ is, ∃ s ∈ ss, ∃ m, tagOf s = none ∧ sw m s.body = .ok i.out ∧ i = s.item i.out := by
  induction ss with
  | nil =>
      intro n is h i hi
      cases h
      exact nomatch hi
  | cons s ss ih =>
      intro n is h i hi
      cases hs : tagOf s with
      | some t =>
          rw [items_tag hs] at h
          obtain ⟨s', hmem, m, hm⟩ := ih h i hi
          exact ⟨s', List.mem_cons_of_mem _ hmem, m, hm⟩
      | none =>
          obtain ⟨o, js, ho, hr, rfl⟩ := items_item_ok hs h
          rcases List.mem_cons.mp hi with rfl | hi
          · exact ⟨s, List.mem_cons_self, n, hs, ho, rfl⟩
          · obtain ⟨s', hmem, m, hm⟩ := ih hr i hi
            exact ⟨s', List.mem_cons_of_mem _ hmem, m, hm⟩

/-- The connector an item is written with at status `st`. -/
def Item.lead (st : Nat) (i : Item) : List Tok :=
  if st = 1 ∧ i.card = false then leadToks i.conditional ++ [.lpar] else connToks i.conditional

theorem groupToks_cons (st : Nat) (i : Item) (is : List Item) :
    groupToks st (i :: is) = i.lead st ++ i.out.toks ++ groupToks (finalStatus st [i]) is := by
  cases hc : i.card with
  | false =>
      by_cases h1 : st = 1
      · simp [groupToks, Item.lead, finalStatus, hc, h1]
      · simp [groupToks, Item.lead, finalStatus, h1]
  | true => simp [groupToks, Item.lead, finalStatus, hc]

theorem finalStatus_cons (st : Nat) (i : Item) (is : List Item) :
    finalStatus st (i :: is) = finalStatus (finalStatus st [i]) is := by
  cases hc : i.card with
  | false =>
      by_cases h1 : st = 1
      · simp [finalStatus, hc, h1]
      · simp [finalStatus, h1]
  | true => simp [finalStatus, hc]

theorem pushJoin_not_mem_lead (st : Nat) (i : Item) : .pushJoin ∉ i.lead st := by
  unfold Item.lead
  split
  · simp [pushJoin_not_mem_leadToks]
  · exact pushJoin_not_mem_connToks _

theorem connect_eq (s : Step) (l : Loop) (o : StepOut) :
    connect s l =
      { l with
        query := l.query ++ (s.item o).lead l.setConditionalStatus
        setConditionalStatus := finalStatus l.setConditionalStatus [s.item o] } := by
  unfold connect
  by_cases h : l.setConditionalStatus = 1 ∧ s.body.isConditionalCard = false
  · rw [if_pos h]
    cases hc : s.conditional <;>
      simp [Item.lead, Step.item, finalStatus, leadToks, h.1, h.2, hc]
  · rw [if_neg h]
    have hlead : (s.item o).lead l.setConditionalStatus = connToks s.conditional := if_neg h
    have hstatus : finalStatus l.setConditionalStatus [s.item o] = l.setConditionalStatus := by
      unfold finalStatus Step.item
      simp only [List.any_cons, List.any_nil, Bool.or_false, Bool.not_eq_true']
      rw [if_neg h]
    rw [hlead, hstatus]

/-- What the connector block and the case of the `switch` do to the text and
the accumulators together. -/
theorem absorb_connect {s : Step} {l : Loop} {o : StepOut} {pre mid : List Tok} {join : Bool}
    (hpre : .pushJoin ∉ pre) (hmid : .pushJoin ∉ mid)
    (hq : l.query = pre ++ placeToks join ++ mid) :
    absorb (connect s l) o =
      { l with
        query := pre ++ placeToks (join || o.join)
          ++ (mid ++ (s.item o).lead l.setConditionalStatus ++ o.toks)
        externalQuerySteps := l.externalQuerySteps ++ o.external.toList
        subQueys := l.subQueys + (s.item o).bump
        endQuery := l.endQuery ++ o.drops
        setConditionalStatus := finalStatus l.setConditionalStatus [s.item o] } := by
  have hmid' : .pushJoin ∉ mid ++ (s.item o).lead l.setConditionalStatus := by
    simp [hmid, pushJoin_not_mem_lead]
  have hbump : (if o.external.isSome then l.subQueys + 1 else l.subQueys)
      = l.subQueys + (s.item o).bump := by
    unfold Item.bump
    split <;> rename_i h <;> simp [Step.item, h]
  rw [connect_eq s l o]
  simp only [absorb, hq, hbump]
  cases o.join with
  | false => simp
  | true =>
      have h := replacePushJoin_place (b := [.innerJoin]) hpre hmid' join
      simp only [if_true, List.append_assoc] at h ⊢
      rw [h]
      cases join with
      | false => simp [placeToks]
      | true => simp [placeToks]

theorem loopSteps_eq (hsw : NoPlaceholder sw) {pre : List Tok} (hpre : .pushJoin ∉ pre) :
    ∀ (ss : List Step) (l : Loop) (join : Bool) (mid : List Tok),
      l.isConditionalCard = true → .pushJoin ∉ mid → l.query = pre ++ placeToks join ++ mid →
      loopSteps tag sw ss l = (items sw l.subQueys ss).map fun is =>
        { l with
          query := pre ++ placeToks (join || is.any fun i => i.out.join)
            ++ (mid ++ groupToks l.setConditionalStatus is)
          externalQuerySteps := l.externalQuerySteps ++ is.flatMap fun i => i.out.external.toList
          subQueys := l.subQueys + bumps is
          endQuery := l.endQuery ++ is.flatMap fun i => i.out.drops
          setConditionalStatus := finalStatus l.setConditionalStatus is
          tagsCard := l.tagsCard ++ ss.filterMap tagOf } := by
  intro ss
  induction ss with
  | nil =>
      intro l join mid _ _ hq
      cases l
      simp_all [loopSteps, items, Except.map, groupToks, bumps, finalStatus]
  | cons s ss ih =>
      intro l join mid hopen hmid hq
      cases hs : tagOf s with
      | some t =>
          have hcard : openCard tag s l = l := by simp [openCard, hopen]
          simp only [loopSteps, loopStep, hcard, body_of_tagOf hs, items_tag hs]
          rw [ih { l with tagsCard := l.tagsCard ++ [t] } join mid hopen hmid hq]
          simp [hs]
      | none =>
          simp only [loopSteps, loopStep_item hopen hs, items_item hs]
          cases ho : sw l.subQueys s.body with
          | error e => rfl
          | ok o =>
              have htoks : Tok.pushJoin ∉ o.toks := hsw _ _ _ ho
              have hmid' : Tok.pushJoin ∉
                  mid ++ (s.item o).lead l.setConditionalStatus ++ o.toks := by
                simp [hmid, htoks, pushJoin_not_mem_lead]
              simp only [Except.map, Except.bind]
              have hnext := absorb_connect (s := s) (o := o) hpre hmid hq
              rw [ih (absorb (connect s l) o) (join || o.join) _ (by rw [hnext]; exact hopen) hmid'
                (by rw [hnext]), hnext]
              cases items sw _ ss with
              | error e => rfl
              | ok is =>
                  simp [Except.map, groupToks_cons _ (s.item o) is, finalStatus_cons _ (s.item o) is,
                    hs, bumps, Bool.or_assoc, Nat.add_assoc]

theorem pushJoin_not_mem_word (c : CardOut) : .pushJoin ∉ c.word := by
  unfold CardOut.word
  split
  · rename_i value _ _
    cases value <;> simp [cardWord]
  · exact List.not_mem_nil

theorem mem_cardOuts {cards : List (List Step)} : ∀ {n : Nat} {cs : List CardOut},
    cardOuts sw n cards = .ok cs →
    ∀ c ∈ cs, c.steps ∈ cards ∧ ∃ m, items sw m c.steps = .ok c.items := by
  induction cards with
  | nil =>
      intro n cs h c hc
      cases h
      exact nomatch hc
  | cons steps cards ih =>
      intro n cs h c hc
      obtain ⟨is, ds, hi, hr, rfl⟩ := cardOuts_cons_ok h
      rcases List.mem_cons.mp hc with rfl | hc
      · exact ⟨List.mem_cons_self, n, hi⟩
      · obtain ⟨hmem, hm⟩ := ih hr c hc
        exact ⟨List.mem_cons_of_mem _ hmem, hm⟩

theorem cardOuts_steps {cards : List (List Step)} : ∀ {n : Nat} {cs : List CardOut},
    cardOuts sw n cards = .ok cs → cs.map CardOut.steps = cards := by
  induction cards with
  | nil =>
      intro n cs h
      cases h
      rfl
  | cons steps cards ih =>
      intro n cs h
      obtain ⟨is, ds, _, hr, rfl⟩ := cardOuts_cons_ok h
      rw [List.map_cons, ih hr]

theorem pushJoin_not_mem_groupToks {is : List Item} (h : ∀ i ∈ is, .pushJoin ∉ i.out.toks) :
    ∀ st, .pushJoin ∉ groupToks st is := by
  induction is with
  | nil =>
      intro st
      exact List.not_mem_nil
  | cons i is ih =>
      intro st
      have hi := h i List.mem_cons_self
      have his := ih (fun j hj => h j (List.mem_cons_of_mem _ hj)) (finalStatus st [i])
      rw [groupToks_cons]
      simp only [List.mem_append, not_or]
      exact ⟨⟨pushJoin_not_mem_lead st i, hi⟩, his⟩

/-- What the outer loop keeps of a card: the next card starts its own. -/
def Loop.settle (l : Loop) : Loop :=
  { l with isConditionalCard := false, setConditionalStatus := 0, tagsCard := [] }

/-- The accumulators after a card. -/
def Loop.after (l : Loop) (tag : TagLike) (c : CardOut) : Loop :=
  { l.settle with
    query := l.query ++ c.toks tag
    externalQuerySteps := l.externalQuerySteps ++ c.externals
    subQueys := l.subQueys + bumps c.items
    endQuery := l.endQuery ++ c.drops }

/-- One turn of the outer loop. -/
theorem loopCard_eq (hsw : NoPlaceholder sw) {l : Loop} (hl : .pushJoin ∉ l.query)
    (steps : List Step) :
    ((loopSteps tag sw steps l.settle).map fun l' => (closeCard tag l').settle)
      = (items sw l.subQueys steps).map fun is => l.after tag ⟨steps, is⟩ := by
  cases steps with
  | nil =>
      simp [loopSteps, items, Except.map, closeCard, Loop.settle, Loop.after, CardOut.toks,
        CardOut.externals, CardOut.drops, bumps, replacePushJoin_none hl]
  | cons s ss =>
      let pre := l.query ++ CardOut.word ⟨s :: ss, []⟩ ++ [.lpar, .selectContacts tag.id]
      let mid : List Tok := [.where_, .pred (.account tag.accountId), .AND, .pred .active]
      have hopen : (openCard tag s l.settle).isConditionalCard = true := rfl
      have hpre : .pushJoin ∉ pre := by
        simp only [pre, List.mem_append, not_or]
        exact ⟨⟨hl, pushJoin_not_mem_word _⟩, by simp⟩
      have hmid : .pushJoin ∉ mid := by simp [mid]
      have hq : (openCard tag s l.settle).query = pre ++ placeToks false ++ mid := by
        obtain ⟨conditional, body⟩ := s
        cases body <;> simp [openCard, Loop.settle, pre, mid, placeToks, CardOut.word]
      have hstart : loopSteps tag sw (s :: ss) l.settle
          = loopSteps tag sw (s :: ss) (openCard tag s l.settle) := by
        have hidem : openCard tag s (openCard tag s l.settle) = openCard tag s l.settle := by
          rw [openCard, if_pos hopen]
        simp only [loopSteps, loopStep, hidem]
      have hn : (openCard tag s l.settle).subQueys = l.subQueys := rfl
      rw [hstart, loopSteps_eq hsw hpre (s :: ss) _ false mid hopen hmid hq, hn]
      cases his : items sw l.subQueys (s :: ss) with
      | error e => rfl
      | ok is =>
          have hout : ∀ i ∈ is, Tok.pushJoin ∉ i.out.toks := by
            intro i hi
            obtain ⟨_, _, _, _, ho, _⟩ := mem_items his i hi
            exact hsw _ _ _ ho
          have hmid' : Tok.pushJoin ∉ mid ++ groupToks 1 is := by
            simp only [List.mem_append, not_or]
            exact ⟨hmid, pushJoin_not_mem_groupToks hout 1⟩
          have hclose := replacePushJoin_place (b := []) hpre hmid' (is.any fun i => i.out.join)
          simp only [Except.map]
          have hst : (openCard tag s l.settle).setConditionalStatus = 1 := rfl
          simp only [hst, Bool.false_or, closeCard, hclose]
          simp [Loop.after, Loop.settle, CardOut.toks, CardOut.head, CardOut.group, CardOut.join,
            CardOut.tags, CardOut.externals, CardOut.drops, pre, mid, joinToks, openCard,
            CardOut.word]

/-- The accumulators after a list of cards. -/
def Loop.afterAll (l : Loop) (tag : TagLike) (cs : List CardOut) : Loop :=
  { l.settle with
    query := l.query ++ cs.flatMap (CardOut.toks tag)
    externalQuerySteps := l.externalQuerySteps ++ cs.flatMap CardOut.externals
    subQueys := l.subQueys + (cs.map fun c => bumps c.items).sum
    endQuery := l.endQuery ++ cs.flatMap CardOut.drops }

theorem afterAll_cons (l : Loop) (c : CardOut) (cs : List CardOut) :
    (l.after tag c).afterAll tag cs = l.afterAll tag (c :: cs) := by
  simp [Loop.afterAll, Loop.after, Loop.settle, Nat.add_assoc]

theorem pushJoin_not_mem_toks {c : CardOut} (h : ∀ i ∈ c.items, .pushJoin ∉ i.out.toks) :
    .pushJoin ∉ c.toks tag := by
  have hgroup := pushJoin_not_mem_groupToks h 1
  have hword := pushJoin_not_mem_word c
  have htags : Tok.pushJoin ∉ c.tags.flatMap (tagToks tag) := by
    intro hmem
    obtain ⟨t, _, ht⟩ := List.mem_flatMap.mp hmem
    unfold tagToks at ht
    split at ht <;> simp at ht
  have hjoin : Tok.pushJoin ∉ joinToks c.join := by
    unfold joinToks
    split <;> simp
  have hclose : Tok.pushJoin ∉ if finalStatus 1 c.items = 2 then [Tok.rpar] else [] := by
    split <;> simp
  simp only [CardOut.toks, List.mem_append, not_or]
  refine ⟨?_, by simp⟩
  split
  · exact List.not_mem_nil
  · simp only [CardOut.head, CardOut.group, List.mem_append, not_or]
    exact ⟨⟨⟨⟨⟨hword, by simp⟩, hjoin⟩, by simp⟩, hgroup, hclose⟩, htags⟩

theorem loopCards_cons (steps : List Step) (cards : List (List Step)) (l : Loop) :
    loopCards tag sw (steps :: cards) l =
      (loopSteps tag sw steps l.settle).bind fun l' => loopCards tag sw cards (closeCard tag l') := by
  rw [loopCards]
  split
  · rename_i e hs
    have he : loopSteps tag sw steps l.settle = .error e := hs
    rw [he]
    rfl
  · rename_i l' hs
    have hl' : loopSteps tag sw steps l.settle = .ok l' := hs
    rw [hl']
    rfl

theorem loopCards_eq (hsw : NoPlaceholder sw) :
    ∀ (cards : List (List Step)) (l : Loop), .pushJoin ∉ l.query →
      (loopCards tag sw cards l).map Loop.settle
        = (cardOuts sw l.subQueys cards).map (l.afterAll tag) := by
  intro cards
  induction cards with
  | nil =>
      intro l _
      simp [loopCards, cardOuts, Except.map, Loop.afterAll, Loop.settle]
  | cons steps cards ih =>
      intro l hl
      have hcard := @loopCard_eq tag _ hsw _ hl steps
      rw [loopCards_cons]
      simp only [cardOuts]
      cases hi : items sw l.subQueys steps with
      | error e =>
          cases hs : loopSteps tag sw steps l.settle with
          | error e' =>
              simp only [hi, hs, Except.map, Except.bind, Except.error.injEq] at hcard ⊢
              exact hcard
          | ok l' => simp only [hi, hs, Except.map, reduceCtorEq] at hcard
      | ok is =>
          cases hs : loopSteps tag sw steps l.settle with
          | error e' => simp only [hi, hs, Except.map, reduceCtorEq] at hcard
          | ok l' =>
              simp only [hi, hs, Except.map, Except.ok.injEq] at hcard
              have hquery : (closeCard tag l').query = l.query ++ CardOut.toks tag ⟨steps, is⟩ :=
                congrArg Loop.query hcard
              have hsub : (closeCard tag l').subQueys = l.subQueys + bumps is :=
                congrArg Loop.subQueys hcard
              have hout : ∀ i ∈ is, Tok.pushJoin ∉ i.out.toks := by
                intro i hmem
                obtain ⟨_, _, _, _, ho, _⟩ := mem_items hi i hmem
                exact hsw _ _ _ ho
              have hnext : Tok.pushJoin ∉ (closeCard tag l').query := by
                simp only [hquery, List.mem_append, not_or]
                exact ⟨hl, pushJoin_not_mem_toks hout⟩
              have hall : (closeCard tag l').afterAll tag = (l.after tag ⟨steps, is⟩).afterAll tag := by
                rw [← hcard]
                rfl
              have ihl := ih (closeCard tag l') hnext
              rw [hsub, hall] at ihl
              refine ihl.trans ?_
              cases hrest : cardOuts sw (l.subQueys + bumps is) cards with
              | error e => simp only [hrest, Except.map]
              | ok cs => simp only [hrest, Except.map, afterAll_cons]

theorem generateWith_eq (hsw : NoPlaceholder sw) (dto : SegmentDtoLike) :
    generateWith sw tag dto = (cardOuts sw 0 dto.steps).map (assemble tag dto) := by
  have h := @loopCards_eq tag _ hsw dto.steps { query := [.insertInto] } (by simp)
  unfold generateWith
  cases hl : loopCards tag sw dto.steps { query := [.insertInto] } with
  | error e =>
      cases hc : cardOuts sw 0 dto.steps with
      | error e' =>
          simp only [hl, hc, Except.map, Except.error.injEq] at h ⊢
          exact h
      | ok cs => simp only [hl, hc, Except.map, reduceCtorEq] at h
  | ok l =>
      cases hc : cardOuts sw 0 dto.steps with
      | error e' => simp only [hl, hc, Except.map, reduceCtorEq] at h
      | ok cs =>
          simp only [hl, hc, Except.map, Except.ok.injEq] at h ⊢
          have hq : l.query = [.insertInto] ++ cs.flatMap (CardOut.toks tag) :=
            congrArg Loop.query h
          have he : l.endQuery = cs.flatMap CardOut.drops := congrArg Loop.endQuery h
          have hx : l.externalQuerySteps = cs.flatMap CardOut.externals :=
            congrArg Loop.externalQuerySteps h
          simp only [assemble, hq, he, hx]

/-- A query that was generated is the text of its cards. -/
theorem generateWith_ok (hsw : NoPlaceholder sw) {dto : SegmentDtoLike} {r : GenerateResult}
    (h : generateWith sw tag dto = .ok r) :
    ∃ cs, cardOuts sw 0 dto.steps = .ok cs ∧ r = assemble tag dto cs := by
  rw [generateWith_eq hsw] at h
  cases hc : cardOuts sw 0 dto.steps with
  | error e => simp only [hc, Except.map, reduceCtorEq] at h
  | ok cs =>
      simp only [hc, Except.map, Except.ok.injEq] at h
      exact ⟨cs, rfl, h.symm⟩

end

end OpenBms.Segment
