/-
# `OpenBms.Segment.GeneratorV2` — `generateSegmentQueryV2` and the dispatcher

The `switch` of `generator-v2.ts`.  It differs from the V1 `switch` in two
cases: an interaction with messages is looked up by `email` in
`user_events_daily_v3`, and an `automation_state` step has no case for
yesterday.  The text of the other cases differs in white space only.
-/
import OpenBms.Segment.GeneratorV1

namespace OpenBms.Segment

open Js

/-- `ct.email IN (select email from table)`. -/
def inEmailTableToks (word : InWord) (table : String) : List Tok :=
  [.pred (.inTable "email" word table)]

/-- One event of a message, by e-mail. -/
def viewOutV2 (tag : TagLike) (siblings : String) (n : Nat) (d : InteractionStepData) : StepOut :=
  let table := tableName "_view" n tag
  let messageFilter :=
    if d.message.truthy ∧ d.message.id.truthy then
      "AND message_id = " ++ d.message.id.text ++ " "
        ++ (if d.conditionalInteration ≠ .str "yes" then "AND contact_id IS NOT NULL" else "")
    else ""
  { toks := inEmailTableToks (filterWord d.conditionalInteration) table
    external := some
      { tableName := table
        query :=
          [.text ("SELECT DISTINCT email FROM user_events_daily_v3 FINAL WHERE account_id IN ("
            ++ siblings ++ ") AND event_name = '" ++ (parseEventType d.event).text
            ++ "' AND event_type = '" ++ d.eventType.text ++ "' " ++ messageFilter)]
          ++ (if d.time ≠ .str "all" then [.text " AND event_date >= ", .replaceTime d.time]
              else [])
        filterType := some "email" } }

/-- Repeated events, by e-mail. -/
def repeatedOutV2 (tag : TagLike) (siblings : String) (n : Nat) (d : InteractionStepData) :
    StepOut :=
  let table := tableName "" n tag
  { toks := inEmailTableToks (filterWord d.conditionalInteration) table
    external := some
      { tableName := table
        query :=
          [.text ("SELECT email FROM user_events_daily_v3 FINAL WHERE event_name = '"
              ++ (parseEventType d.event).text ++ "' AND account_id IN (" ++ siblings
              ++ ") AND event_date >= "),
            .replaceTime d.time,
            .text (" "
              ++ (if d.message.truthy ∧ d.message.id.truthy then
                    " AND message_id = " ++ d.message.id.text ++ " " else "") ++ " "
              ++ (if d.eventType = .str "email" then " AND event_type = 'email' " else "") ++ " "
              ++ (if d.conditionalInteration ≠ .str "yes" then " AND contact_id IS NOT NULL"
                  else "")
              ++ " GROUP BY email HAVING SUM(total) "
              ++ (timesOperator d.conditionalTimesValue).text ++ " "
              ++ toString (timesCount d.customTimesValue))]
        filterType := some "email" }
    drop := true }

/-- `case 'interation'` of the V2 generator. -/
def interationV2 (tag : TagLike) (zone siblings : String) (n : Nat) (d : InteractionStepData) :
    StepOut :=
  if d.eventType = .str "anyChannel" then anyChannelOut zone d.time
  else if d.eventType = .str "page_view" then pageViewOut tag n d
  else if isSingle d.customTimesValue then viewOutV2 tag siblings n d
  else repeatedOutV2 tag siblings n d

/-- `case 'automation_state'` of the V2 generator. -/
def automationStateV2 (tag : TagLike) (zone : String) (d : AutomationStateStepData) : StepOut :=
  { toks := [.pred (.inAutomations (automationQuery tag zone .since d))] }

/-- The `switch` of the V2 generator. -/
def switchV2 (rt : Runtime) (tag : TagLike) (dto : SegmentDtoLike) (zone siblings : String) : Switch
  | n, .interation d => .ok (interationV2 tag zone siblings n d)
  | _, .customField d => customFieldOut rt tag d
  | _, .userField d => userFieldOut rt dto zone d
  | n, .customEvent d => .ok (customEventOut tag n d)
  | _, .automationState d => .ok (automationStateV2 tag zone d)
  | _, .conditionalCard _ | _, .tag _ | _, .other _ => .ok {}

def generateSegmentQueryV2 (rt : Runtime) (tag : TagLike) (dto : SegmentDtoLike)
    (timeZone : Option String) (siblingAccounts : Option (List Int)) :
    Except Error GenerateResult :=
  match siblingAccounts with
  | none => .error (.error ("generateSegmentQueryV2: siblingAccounts missing for accountId="
      ++ toString tag.accountId
      ++ ". An account routed to V2 must have an entry in V2_SIBLING_ACCOUNTS_BY_ACCOUNT_ID."))
  | some siblings =>
      let siblings := ",".intercalate (siblings.map toString)
      generateWith (switchV2 rt tag dto (timeZoneValue timeZone) siblings) tag dto

/-! ## The dispatcher -/

def V2_ACCOUNTS : List Int := [65, 22, 60, 61]

def V2_SIBLING_ACCOUNTS_BY_ACCOUNT_ID : List (Int × List Int) :=
  [(65, [65, 150, 243]), (22, [22, 254]), (60, [60, 159]), (61, [61, 158])]

def generateSegmentQuery (rt : Runtime) (tag : TagLike) (dto : SegmentDtoLike)
    (timeZone : Option String) (v2Accounts : List Int)
    (v2SiblingAccountsByAccountId : List (Int × List Int)) : Except Error GenerateResult :=
  if tag.accountId ∈ v2Accounts then
    generateSegmentQueryV2 rt tag dto timeZone
      (v2SiblingAccountsByAccountId.lookup tag.accountId)
  else generateSegmentQueryV1 rt tag dto timeZone

def generateForSegment (rt : Runtime) (tag : TagLike) (dto : SegmentDtoLike)
    (timeZone : Option String) : Except Error GenerateResult :=
  generateSegmentQuery rt tag dto timeZone V2_ACCOUNTS V2_SIBLING_ACCOUNTS_BY_ACCOUNT_ID

end OpenBms.Segment
