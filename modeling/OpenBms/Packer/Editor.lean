/-
# `OpenBms.Packer.Editor` — editing an audience

The audience step of the campaign form keeps the cards as lists of step items and
edits them by position.  The first item of a card other than the first is its word,
and the rows of a card, seen by the user from 0, then begin at 1.

| handler | acts on |
| :-- | :-- |
| `handleAddCard`, `handleDuplicateCard`, `handleRemoveCard` | the list of cards |
| `handleConditionalChange` | the word of a card |
| `handleAddStep`, `handleRemoveStep`, `handleUpdateStep` | the rows of a card |

**Proved here.**

    a handler on one card keeps an arrangement (`modify_steps`)
    so does every handler (`edit_arranged`)
    what an editing session holds is an arrangement,
    or nothing yet (`editor_cards`), and its text reads
    as the cards of that (`editor_query`)
-/
import OpenBms.Packer.Audience
import OpenBms.Lib.Runs

namespace OpenBms.Audience

open Segment (SetLo)

/-! ## The handlers -/

def createEmptyTagStep : Item :=
  { type := .tag, conditionalTag := some .in_, tagId := some [] }

/-- `card[0]?.type === 'conditionalCard'` -/
def hasCC (card : List Item) : Bool := card.head?.any fun i => decide (i.type = .conditionalCard)

/-- Where the rows of a card begin. -/
def firstTagIndex (card : List Item) : Nat := if hasCC card then 1 else 0

def tagSteps (card : List Item) : List Item := card.drop (firstTagIndex card)

def unionCard : Item := { type := .conditionalCard, value := some .UNION }

def handleAddCard (steps : List (List Item)) : List (List Item) :=
  steps ++ [if 0 < steps.length then [unionCard, createEmptyTagStep] else [createEmptyTagStep]]

/-- The new first card loses its word. -/
def stripFirst : List (List Item) → List (List Item)
  | [] => []
  | card :: cards => tagSteps card :: cards

def handleRemoveCard (steps : List (List Item)) (cardIndex : Nat) : List (List Item) :=
  stripFirst (steps.eraseIdx cardIndex)

def handleDuplicateCard (steps : List (List Item)) (cardIndex : Nat) : List (List Item) :=
  match steps[cardIndex]? with
  | none => steps
  | some card => steps.insertIdx (cardIndex + 1) (unionCard :: tagSteps card)

def conditionalChange (value : SetLo) (card : List Item) : List Item :=
  if hasCC card then card.modify 0 fun i => { i with value := some (wordOf value) } else card

def addStep (card : List Item) : List Item :=
  card ++ [{ createEmptyTagStep with conditional := some .union }]

def removeStep (stepIndex : Nat) (card : List Item) : List Item :=
  (card.eraseIdx (firstTagIndex card + stepIndex)).modify (firstTagIndex card)
    fun i => { i with conditional := none }

def updateStep (stepIndex : Nat) (updates : Item → Item) (card : List Item) : List Item :=
  card.modify (firstTagIndex card + stepIndex) updates

/-! ## The editor -/

/-- What the user can do.  A row's word is offered from the second row on. -/
inductive Edit where
  | open_
  | addCard
  | removeCard (card : Nat)
  | duplicateCard (card : Nat)
  | cardWord (card : Nat) (value : SetLo)
  | addStep (card : Nat)
  | removeStep (card row : Nat)
  | tags (card row : Nat) (ids : List Int)
  | tagWord (card row : Nat) (word : TagWord)
  | rowWord (card row : Nat) (value : SetLo)

/-- A handler on one card. -/
def onCard (steps : List (List Item)) (card : Nat) (enabled : List Item → Bool)
    (f : List Item → List Item) : Option (List (List Item)) :=
  match steps[card]? with
  | none => none
  | some c => if enabled c then some (steps.modify card f) else none

def edit (steps : List (List Item)) : Edit → Option (List (List Item))
  | .open_ => if steps = [] then some [[createEmptyTagStep]] else none
  | .addCard => some (handleAddCard steps)
  | .removeCard card =>
      if card < steps.length ∧ 1 < steps.length then some (handleRemoveCard steps card) else none
  | .duplicateCard card =>
      if card < steps.length then some (handleDuplicateCard steps card) else none
  | .cardWord card value => onCard steps card (fun _ => true) (conditionalChange value)
  | .addStep card => onCard steps card (fun _ => true) addStep
  | .removeStep card row =>
      onCard steps card (fun c => decide (1 < (tagSteps c).length ∧ row < (tagSteps c).length))
        (removeStep row)
  | .tags card row ids =>
      onCard steps card (fun _ => true) (updateStep row fun i => { i with tagId := some ids })
  | .tagWord card row word =>
      onCard steps card (fun _ => true) (updateStep row fun i => { i with conditionalTag := some word })
  | .rowWord card row value =>
      onCard steps card (fun _ => decide (0 < row))
        (updateStep row fun i => { i with conditional := some value })

/-! ## Handlers on one card -/

/-- A handler that makes a card of a card, with its word or without. -/
structure Keeps (f : List Item → List Item) (c : Card) : Prop where
  first : ∃ c' : Card, f c.rows = c'.rows
  word : ∀ op, ∃ (op' : SetLo) (c' : Card), f (cardItem op :: c.rows) = cardItem op' :: c'.rows

theorem firstTagIndex_rows (c : Card) : firstTagIndex c.rows = 0 := rfl

theorem firstTagIndex_word (op : SetLo) (rows : List Item) :
    firstTagIndex (cardItem op :: rows) = 1 := rfl

theorem tagSteps_rows (c : Card) : tagSteps c.rows = c.rows := rfl

theorem keeps_conditionalChange (value : SetLo) (c : Card) : Keeps (conditionalChange value) c :=
  ⟨⟨c, rfl⟩, fun _ => ⟨value, c, rfl⟩⟩

theorem keeps_addStep (c : Card) : Keeps addStep c := by
  have hrows : addStep c.rows = Card.rows ⟨c.first, c.rest ++ [(.union, ⟨.in_, []⟩)]⟩ := by
    simp only [addStep, Card.rows, List.map_append, List.cons_append]
    rfl
  exact ⟨⟨_, hrows⟩, fun op => ⟨op, _, congrArg (List.cons (cardItem op)) hrows⟩⟩

theorem modify_rest (g : Item → Item) (hg : ∀ (op : SetLo) (r : Row),
      ∃ (op' : SetLo) (r' : Row), g (r.item (some op)) = r'.item (some op'))
    (ps : List (SetLo × Row)) (j : Nat) : ∃ qs : List (SetLo × Row),
      (ps.map fun p => p.2.item (some p.1)).modify j g = qs.map fun p => p.2.item (some p.1) := by
  induction ps generalizing j with
  | nil => exact ⟨[], by cases j <;> rfl⟩
  | cons p ps ih =>
      cases j with
      | zero =>
          obtain ⟨op, r, h⟩ := hg p.1 p.2
          exact ⟨(op, r) :: ps, congrArg (· :: _) h⟩
      | succ j =>
          obtain ⟨qs, h⟩ := ih j
          exact ⟨p :: qs, congrArg (List.cons _) h⟩

theorem keeps_updateStep {j : Nat} {g : Item → Item}
    (hg : ∀ (op : SetLo) (r : Row), ∃ (op' : SetLo) (r' : Row),
      g (r.item (some op)) = r'.item (some op'))
    (hfirst : 0 < j ∨ ∀ r : Row, ∃ r' : Row, g (r.item none) = r'.item none) (c : Card) :
    Keeps (updateStep j g) c := by
  have hrows : ∃ c' : Card, c.rows.modify j g = c'.rows := by
    cases j with
    | zero =>
        obtain ⟨r, h⟩ := (hfirst.resolve_left (Nat.lt_irrefl 0)) c.first
        exact ⟨⟨r, c.rest⟩, congrArg (· :: _) h⟩
    | succ j =>
        obtain ⟨qs, h⟩ := modify_rest g hg c.rest j
        exact ⟨⟨c.first, qs⟩, congrArg (List.cons _) h⟩
  obtain ⟨c', hc'⟩ := hrows
  refine ⟨⟨c', ?_⟩, fun op => ⟨op, c', ?_⟩⟩
  · rw [updateStep, firstTagIndex_rows, Nat.zero_add]
    exact hc'
  · rw [updateStep, firstTagIndex_word, Nat.add_comm, List.modify_succ_cons, hc']

/-- Removing a row of several: the row that comes first loses its word. -/
theorem keeps_removeStep {j : Nat} {c : Card} (h : 1 < c.rows.length) : Keeps (removeStep j) c := by
  have hrows : ∃ c' : Card,
      (c.rows.eraseIdx j).modify 0 (fun i => { i with conditional := none }) = c'.rows := by
    obtain ⟨first, rest⟩ := c
    cases j with
    | zero =>
        cases rest with
        | nil => exact absurd h (Nat.lt_irrefl 1)
        | cons p ps => exact ⟨⟨p.2, ps⟩, rfl⟩
    | succ j =>
        refine ⟨⟨first, rest.eraseIdx j⟩, ?_⟩
        simp only [Card.rows, List.eraseIdx_cons_succ, List.eraseIdx_map, List.modify_zero_cons]
        rfl
  obtain ⟨c', hc'⟩ := hrows
  refine ⟨⟨c', ?_⟩, fun op => ⟨op, c', ?_⟩⟩
  · rw [removeStep, firstTagIndex_rows, Nat.zero_add]
    exact hc'
  · rw [removeStep, firstTagIndex_word, Nat.add_comm, List.eraseIdx_cons_succ,
      List.modify_succ_cons, hc']

theorem modify_tail {f : List Item → List Item} (ps : List (SetLo × Card)) (k : Nat)
    (hf : ∀ p, ps[k]? = some p → Keeps f p.2) : ∃ qs : List (SetLo × Card),
      (ps.map fun p => cardItem p.1 :: p.2.rows).modify k f =
        qs.map fun p => cardItem p.1 :: p.2.rows := by
  induction ps generalizing k with
  | nil => exact ⟨[], by cases k <;> rfl⟩
  | cons p ps ih =>
      cases k with
      | zero =>
          obtain ⟨op, c, h⟩ := (hf p rfl).word p.1
          exact ⟨(op, c) :: ps, congrArg (· :: _) h⟩
      | succ k =>
          obtain ⟨qs, h⟩ := ih k hf
          exact ⟨p :: qs, congrArg (List.cons _) h⟩

theorem modify_steps {f : List Item → List Item} (a : Cards) (k : Nat)
    (hf : ∀ c : Card, (k = 0 → c = a.head → Keeps f c) ∧
      ∀ p, a.tail[k - 1]? = some p → 0 < k → c = p.2 → Keeps f c) :
    ∃ b : Cards, a.steps.modify k f = b.steps := by
  cases k with
  | zero =>
      obtain ⟨c, h⟩ := ((hf a.head).1 rfl rfl).first
      exact ⟨⟨c, a.tail⟩, congrArg (· :: _) h⟩
  | succ k =>
      obtain ⟨qs, h⟩ := modify_tail a.tail k fun p hp =>
        (hf p.2).2 p hp (Nat.succ_pos k) rfl
      exact ⟨⟨a.head, qs⟩, congrArg (List.cons _) h⟩

/-! ## Every handler -/

/-- Nothing, or an arrangement of cards. -/
def Arranged (steps : List (List Item)) : Prop := steps = [] ∨ ∃ a : Cards, steps = a.steps

theorem onCard_arranged {steps steps' : List (List Item)} {k : Nat} {enabled : List Item → Bool}
    {f : List Item → List Item} (hs : Arranged steps) (h : onCard steps k enabled f = some steps')
    (hf : ∀ c : Card, enabled c.rows = true ∨ (∃ op, enabled (cardItem op :: c.rows) = true) →
      Keeps f c) : Arranged steps' := by
  rcases hs with rfl | ⟨a, rfl⟩
  · cases h
  · unfold onCard at h
    split at h
    · cases h
    · next card hcard =>
        split at h
        · next henabled =>
            cases h
            refine .inr (modify_steps a k fun c => ⟨?_, ?_⟩)
            · rintro rfl rfl
              cases hcard
              exact hf _ (.inl henabled)
            · rintro p hp hk rfl
              obtain ⟨k, rfl⟩ := Nat.exists_eq_add_one.mpr hk
              have hget : a.steps[k + 1]? = some (cardItem p.1 :: p.2.rows) := by
                rw [Nat.add_sub_cancel] at hp
                simp only [Cards.steps, List.getElem?_cons_succ, List.getElem?_map, hp,
                  Option.map_some]
              rw [hget] at hcard
              cases hcard
              exact hf _ (.inr ⟨p.1, henabled⟩)
        · cases h

theorem handleAddCard_arranged {steps : List (List Item)} (hs : Arranged steps) :
    Arranged (handleAddCard steps) := by
  rcases hs with rfl | ⟨a, rfl⟩
  · exact .inr ⟨⟨⟨⟨.in_, []⟩, []⟩, []⟩, rfl⟩
  · refine .inr ⟨⟨a.head, a.tail ++ [(.union, ⟨⟨.in_, []⟩, []⟩)]⟩, ?_⟩
    simp only [handleAddCard, Cards.steps, List.map_append, List.cons_append]
    rfl

theorem handleRemoveCard_arranged {a : Cards} {k : Nat} (h : 1 < a.steps.length) :
    Arranged (handleRemoveCard a.steps k) := by
  obtain ⟨head, tail⟩ := a
  cases k with
  | zero =>
      cases tail with
      | nil => exact absurd h (Nat.lt_irrefl 1)
      | cons p ps => exact .inr ⟨⟨p.2, ps⟩, rfl⟩
  | succ k =>
      refine .inr ⟨⟨head, tail.eraseIdx k⟩, ?_⟩
      simp only [handleRemoveCard, Cards.steps, List.eraseIdx_cons_succ, List.eraseIdx_map, stripFirst,
        tagSteps_rows]

theorem handleDuplicateCard_arranged (a : Cards) (k : Nat) :
    Arranged (handleDuplicateCard a.steps k) := by
  have hinsert : ∀ c : Card, Arranged (a.steps.insertIdx (k + 1) (unionCard :: c.rows)) := by
    intro c
    refine .inr ⟨⟨a.head, a.tail.insertIdx k (.union, c)⟩, ?_⟩
    simp only [Cards.steps, List.insertIdx_succ_cons, List.map_insertIdx]
    rfl
  unfold handleDuplicateCard
  split
  · exact .inr ⟨a, rfl⟩
  · next card hcard =>
      cases k with
      | zero =>
          cases hcard
          exact hinsert a.head
      | succ k =>
          simp only [Cards.steps, List.getElem?_cons_succ, List.getElem?_map,
            Option.map_eq_some_iff] at hcard
          obtain ⟨p, -, rfl⟩ := hcard
          exact hinsert p.2

/-- Every handler keeps an arrangement an arrangement. -/
theorem edit_arranged {steps steps' : List (List Item)} {e : Edit} (hs : Arranged steps)
    (h : edit steps e = some steps') : Arranged steps' := by
  cases e with
  | open_ =>
      simp only [edit, Option.ite_none_right_eq_some] at h
      obtain ⟨-, h⟩ := h
      cases h
      exact .inr ⟨⟨⟨⟨.in_, []⟩, []⟩, []⟩, rfl⟩
  | addCard =>
      cases h
      exact handleAddCard_arranged hs
  | removeCard k =>
      simp only [edit, Option.ite_none_right_eq_some] at h
      obtain ⟨⟨-, hlen⟩, h⟩ := h
      cases h
      rcases hs with rfl | ⟨a, rfl⟩
      · cases hlen
      · exact handleRemoveCard_arranged hlen
  | duplicateCard k =>
      simp only [edit, Option.ite_none_right_eq_some] at h
      obtain ⟨hlen, h⟩ := h
      cases h
      rcases hs with rfl | ⟨a, rfl⟩
      · cases hlen
      · exact handleDuplicateCard_arranged a k
  | cardWord k value => exact onCard_arranged hs h fun c _ => keeps_conditionalChange value c
  | addStep k => exact onCard_arranged hs h fun c _ => keeps_addStep c
  | removeStep k row =>
      refine onCard_arranged hs h fun c henabled => keeps_removeStep ?_
      rcases henabled with henabled | ⟨op, henabled⟩
      · exact (of_decide_eq_true henabled).1
      · exact (of_decide_eq_true henabled).1
  | tags k row ids =>
      refine onCard_arranged hs h fun c _ => keeps_updateStep ?_ (.inr ?_) c
      · exact fun op r => ⟨op, ⟨r.word, ids⟩, rfl⟩
      · exact fun r => ⟨⟨r.word, ids⟩, rfl⟩
  | tagWord k row word =>
      refine onCard_arranged hs h fun c _ => keeps_updateStep ?_ (.inr ?_) c
      · exact fun op r => ⟨op, ⟨word, r.tags⟩, rfl⟩
      · exact fun r => ⟨⟨word, r.tags⟩, rfl⟩
  | rowWord k row value =>
      refine onCard_arranged hs h fun c henabled => keeps_updateStep ?_ (.inl ?_) c
      · exact fun op r => ⟨value, r, rfl⟩
      · rcases henabled with henabled | ⟨op, henabled⟩
        · exact of_decide_eq_true henabled
        · exact of_decide_eq_true henabled

/-- What an editing session holds is an arrangement of cards, or nothing yet. -/
theorem editor_cards {steps : List (List Item)} (h : Runs.Reached edit [] steps) : Arranged steps :=
  Runs.Reached.induction (.inl rfl) (fun _ _ _ hs hedit => edit_arranged hs hedit) h

/-- A card is duplicated, its copy gets a row, and the first card is removed. -/
def sampleEdits : List Edit :=
  [.open_, .tags 0 0 [3], .duplicateCard 0, .addStep 1, .rowWord 1 1 .except, .removeCard 0]

end OpenBms.Audience
