/-
# `OpenBms.Segment.Types` — the segment DTO the query generators read

The wire format of a segment is a list of cards, each a list of steps.  A
step's fields are optional and loosely typed; the generators read them as
`Js.Val`.  Where a field's type is a fixed set of words that is put into the
SQL text as an operator (`conditional`, the value of a `conditionalCard`,
`conditional_event_type`), the words are an enumeration.

Sources: `packages/segment-query-builder/src/types.ts` and the step types of
`features/segments/builder/types.ts`.
-/
import OpenBms.Lib.Js

namespace OpenBms.Segment

open Js

/-- `stepConnector`, serialised as `conditional`. -/
inductive Connector where
  | and
  | or
  deriving DecidableEq

/-- The value of a `conditionalCard`; a first card may carry the empty word. -/
inductive CardConnector where
  | blank
  | UNION
  | INTERSECT
  deriving DecidableEq

/-- The membership operators put in front of a subquery. -/
inductive InWord where
  | IN
  | NOT_IN
  | lowerIn
  | lowerNotIn
  deriving DecidableEq

def InWord.negated : InWord → Bool
  | .IN | .lowerIn => false
  | .NOT_IN | .lowerNotIn => true

/-- `'any' | { id } | null`: the `message` and `automation` fields. -/
inductive Ref where
  | absent
  | any
  | obj (id : Val)
  deriving DecidableEq

def Ref.truthy : Ref → Bool
  | .absent => false
  | .any | .obj _ => true

/-- The `id` property; a string has none. -/
def Ref.id : Ref → Val
  | .absent | .any => .undefined
  | .obj id => id

structure InteractionStepData where
  eventType : Val := .undefined
  event : Val := .undefined
  conditionalInteration : Val := .undefined
  message : Ref := .absent
  conditionalTimesValue : Val := .undefined
  customTimesValue : Val := .undefined
  time : Val := .undefined
  pageViewFilter : Val := .undefined
  pageViewValue : Val := .undefined
  deriving DecidableEq

structure CustomFieldStepData where
  customFieldId : Val := .undefined
  customFieldType : Val := .undefined
  conditionalCustomField : Val := .undefined
  customFieldValue : Val := .undefined
  deriving DecidableEq

structure UserFieldStepData where
  userFieldKey : Val := .undefined
  conditionalUserField : Val := .undefined
  userFieldValue : Val := .undefined
  deriving DecidableEq

structure TagStepData where
  conditionalTag : Val := .undefined
  tagId : List Int := []
  deriving DecidableEq

structure CustomEventStepData where
  eventName : Val := .undefined
  conditionalEventType : InWord := .lowerIn
  timeType : Val := .undefined
  time : Val := .undefined
  conditionalEventFilter : Val := .undefined
  conditionalWeekDayFilter : Val := .undefined
  customEventDate : Val := .undefined
  customEventDateEnd : Val := .undefined
  properties : List (Val × Val) := []
  conditionalTimesValue : Val := .undefined
  customTimesValue : Val := .undefined
  deriving DecidableEq

structure AutomationStateStepData where
  event : Val := .undefined
  automation : Ref := .absent
  time : Val := .undefined
  conditionalTimesValue : Val := .undefined
  customTimesValue : Val := .undefined
  deriving DecidableEq

/-- A step by its `type`; `other` is any type the generators have no case for
(`lead` and the unknown types the builder keeps as they are). -/
inductive StepBody where
  | conditionalCard (value : CardConnector)
  | interation (d : InteractionStepData)
  | customField (d : CustomFieldStepData)
  | userField (d : UserFieldStepData)
  | tag (d : TagStepData)
  | customEvent (d : CustomEventStepData)
  | automationState (d : AutomationStateStepData)
  | other (type : String)
  deriving DecidableEq

structure Step where
  conditional : Option Connector := none
  body : StepBody
  deriving DecidableEq

def StepBody.isConditionalCard : StepBody → Bool
  | .conditionalCard _ => true
  | _ => false

structure TagLike where
  id : Int
  accountId : Int
  deriving DecidableEq

structure SegmentDtoLike where
  steps : List (List Step)
  addBounced : Bool := false
  addInvalid : Bool := false
  addUnsubscribed : Bool := false
  contactsLimit : Option Nat := none

/-- The comparison operators allowed in `HAVING COUNT(...)`. -/
inductive TimesOperator where
  | ge
  | gt
  | eq
  | le
  | lt
  deriving DecidableEq

def TimesOperator.text : TimesOperator → String
  | .ge => ">="
  | .gt => ">"
  | .eq => "="
  | .le => "<="
  | .lt => "<"

/-- `n op m`. -/
def TimesOperator.holds : TimesOperator → Int → Int → Bool
  | .ge, n, m => decide (m ≤ n)
  | .gt, n, m => decide (m < n)
  | .eq, n, m => decide (n = m)
  | .le, n, m => decide (n ≤ m)
  | .lt, n, m => decide (n < m)

/-- `TIMES_OPERATORS.includes(v) ? v : '>='`. -/
def timesOperator (v : Val) : TimesOperator :=
  if v = .str ">" then .gt
  else if v = .str "=" then .eq
  else if v = .str "<=" then .le
  else if v = .str "<" then .lt
  else .ge

/-- `Number.isFinite(parsedTimesCount) ? parsedTimesCount : 1`. -/
def timesCount (v : Val) : Int := v.parseInt.getD 1

/-- The column of `FieldsType` for a custom field's type. -/
def fieldsType (type : Val) : String :=
  match if type.truthy then type else .str "text" with
  | .str "text" => "value"
  | .str "date" => "time"
  | .str "number" => "number"
  | _ => "undefined"

/-- `parseEventType`: the event an interaction column records. -/
def parseEventType (event : Val) : Val :=
  match event with
  | .str "last_sent_date" => .str "delivered"
  | .str "last_delivered_date" => .str "delivered"
  | .str "last_open_date" => .str "open"
  | .str "last_click_date" => .str "click"
  | _ => .undefined

/-- What the generators use of the JavaScript runtime beyond its syntax: the
Unicode case mapping of `toLowerCase`, and `new Date(v).toISOString()`, which
throws on a value it cannot read as a date. -/
structure Runtime where
  toLowerCase : String → String
  toISOString : Val → Option String

end OpenBms.Segment
