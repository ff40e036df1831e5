/-
# `OpenBms.Segment.Generator` — the card loop the two generators share

`generateSegmentQueryV1` and `generateSegmentQueryV2` are the same loop over
cards and steps around two different `switch` statements; the loop is written
once here, with the `switch` as a parameter, and the two files instantiate it.

The loop keeps the source's variables.  `query` is the token list written so
far; every `query += ...` appends, and `query.replace('#PUSH_JOIN_REPLACE#', _)`
replaces the first placeholder in the whole list.

The text of the external queries is kept in fragments, so that the time
placeholders the generators leave in it are visible (`Frag`).  A line break of
a template literal is one space.
-/
import OpenBms.Segment.Sql

namespace OpenBms.Segment

open Js

/-! ## What a step emits -/

/-- A piece of an external query's text. -/
inductive Frag where
  | text (s : String)
  /-- `#REPLACE_TIME_${time}_EVENTS_LOGS#` -/
  | replaceTime (time : Val)
  /-- `#BETWEEN_REPLACE_${time},${weekDay}_EVENTS_LOGS#` -/
  | betweenReplace (time weekDay : Val)
  deriving DecidableEq

def Frag.render : Frag → String
  | .text s => s
  | .replaceTime time => "#REPLACE_TIME_" ++ time.text ++ "_EVENTS_LOGS#"
  | .betweenReplace time weekDay =>
      "#BETWEEN_REPLACE_" ++ time.text ++ "," ++ weekDay.text ++ "_EVENTS_LOGS#"

structure ExternalQueryStep where
  tableName : String
  query : List Frag
  filterType : Option String := none
  deriving DecidableEq

/-- What one case of the `switch` does: the text it appends, whether it asks
for the device join, the external query it pushes (with it, `subQueys++`) and
whether it appends the `DROP TABLE` of that query's table to `endQuery`. -/
structure StepOut where
  toks : List Tok := []
  join : Bool := false
  external : Option ExternalQueryStep := none
  drop : Bool := false
  deriving DecidableEq

def StepOut.drops (o : StepOut) : List String :=
  if o.drop then (o.external.map (·.tableName)).toList else []

/-- The `switch` on `step.type`, given the counter `subQueys`. -/
abbrev Switch := Nat → StepBody → Except Error StepOut

/-! ## The loop -/

/-- The variables of the outer function and, below them, of one card. -/
structure Loop where
  query : List Tok := []
  externalQuerySteps : List ExternalQueryStep := []
  subQueys : Nat := 0
  endQuery : List String := []
  isConditionalCard : Bool := false
  setConditionalStatus : Nat := 0
  tagsCard : List TagStepData := []

/-- `query.replace('#PUSH_JOIN_REPLACE#', by)`: the first occurrence only. -/
def replacePushJoin (by_ : List Tok) : List Tok → List Tok
  | [] => []
  | t :: ts => if t = .pushJoin then by_ ++ ts else t :: replacePushJoin by_ ts

def cardWord : CardConnector → List Tok
  | .blank => []
  | .UNION => [.union]
  | .INTERSECT => [.intersect]

def connToks (c : Option Connector) : List Tok :=
  match c with
  | none => []
  | some c => [.conn c]

/-- The `if (!isConditionalCard)` block: the first step opens the card. -/
def openCard (tag : TagLike) (s : Step) (l : Loop) : Loop :=
  if l.isConditionalCard then l
  else
    let word := match s.body with
      | .conditionalCard value => cardWord value
      | _ => []
    { l with
      query := l.query ++ word ++ [.lpar, .selectContacts tag.id, .pushJoin, .where_,
        .pred (.account tag.accountId), .AND, .pred .active]
      isConditionalCard := true
      setConditionalStatus := 1 }

/-- The connector block: the first predicate step opens the group with its own
connector, or `AND` when it has none. -/
def connect (s : Step) (l : Loop) : Loop :=
  if l.setConditionalStatus = 1 ∧ s.body.isConditionalCard = false then
    { l with
      query := l.query ++ (match s.conditional with
        | some c => [.conn c]
        | none => [.AND]) ++ [.lpar]
      setConditionalStatus := 2 }
  else { l with query := l.query ++ connToks s.conditional }

/-- The effect of one case of the `switch`. -/
def absorb (l : Loop) (o : StepOut) : Loop :=
  { l with
    query := (if o.join then replacePushJoin [.innerJoin] l.query else l.query) ++ o.toks
    externalQuerySteps := l.externalQuerySteps ++ o.external.toList
    subQueys := if o.external.isSome then l.subQueys + 1 else l.subQueys
    endQuery := l.endQuery ++ o.drops }

/-- One turn of the loop over a card's steps. -/
def loopStep (tag : TagLike) (sw : Switch) (s : Step) (l : Loop) : Except Error Loop :=
  let l := openCard tag s l
  match s.body with
  | .tag t => .ok { l with tagsCard := l.tagsCard ++ [t] }
  | body =>
      let l := connect s l
      match sw l.subQueys body with
      | .error e => .error e
      | .ok o => .ok (absorb l o)

def loopSteps (tag : TagLike) (sw : Switch) : List Step → Loop → Except Error Loop
  | [], l => .ok l
  | s :: ss, l =>
      match loopStep tag sw s l with
      | .error e => .error e
      | .ok l' => loopSteps tag sw ss l'

/-- A tag condition, appended after the card's `SELECT`. -/
def tagToks (tag : TagLike) (t : TagStepData) : List Tok :=
  [if t.conditionalTag = .str "in" then .intersect else .except,
    .lpar, .selectTags tag.id tag.accountId t.tagId, .rpar]

/-- What follows the loop over a card's steps. -/
def closeCard (tag : TagLike) (l : Loop) : Loop :=
  { l with
    query := replacePushJoin [] l.query
      ++ (if l.setConditionalStatus = 2 then [.rpar] else [])
      ++ l.tagsCard.flatMap (tagToks tag) ++ [.rpar] }

def loopCards (tag : TagLike) (sw : Switch) : List (List Step) → Loop → Except Error Loop
  | [], l => .ok l
  | steps :: cards, l =>
      match loopSteps tag sw steps
          { l with isConditionalCard := false, setConditionalStatus := 0, tagsCard := [] } with
      | .error e => .error e
      | .ok l' => loopCards tag sw cards (closeCard tag l')

structure GenerateResult where
  query : List Tok
  externalQuerySteps : List ExternalQueryStep
  deriving DecidableEq

/-- `if (segmentDto.contactsLimit)`. -/
def limitToks (limit : Option Nat) : List Tok :=
  match limit with
  | none | some 0 => []
  | some n => [.limit n]

/-- The function around the loop.  `externalQuerySteps` is `null` in the source
when it is empty. -/
def generateWith (sw : Switch) (tag : TagLike) (dto : SegmentDtoLike) :
    Except Error GenerateResult :=
  match loopCards tag sw dto.steps { query := [.insertInto] } with
  | .error e => .error e
  | .ok l => .ok
      { query := l.query ++ limitToks dto.contactsLimit ++ [.finish]
          ++ l.endQuery.map .dropTable
        externalQuerySteps := l.externalQuerySteps }

end OpenBms.Segment
