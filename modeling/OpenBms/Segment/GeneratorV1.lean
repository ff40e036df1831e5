/-
# `OpenBms.Segment.GeneratorV1` — `generateSegmentQueryV1`

The `switch` of `generator-v1.ts`, case by case.  `zone` is `timeZoneValue`,
`n` the counter `subQueys` the step finds.
-/
import OpenBms.Segment.Generator

namespace OpenBms.Segment

open Js

/-! ## Pieces the cases share -/

/-- `step.conditional_interation === 'yes' ? 'IN' : 'NOT IN'`. -/
def filterWord (conditional : Val) : InWord :=
  if conditional = .str "yes" then .IN else .NOT_IN

/-- `` `table_segment<kind><n>_<tag.id>` `` -/
def tableName (kind : String) (n : Nat) (tag : TagLike) : String :=
  "table_segment" ++ kind ++ toString n ++ "_" ++ toString tag.id

/-- `!v || parseInt(v, 10) === 1`. -/
def isSingle (customTimesValue : Val) : Bool :=
  !customTimesValue.truthy || customTimesValue.parseInt == some 1

/-- `HAVING COUNT(contact_id) op n`, after its `GROUP BY`. -/
def havingCount (conditionalTimesValue customTimesValue : Val) : String :=
  " GROUP BY contact_id HAVING COUNT(contact_id) "
    ++ (timesOperator conditionalTimesValue).text ++ " "
    ++ toString (timesCount customTimesValue)

/-- `ct.id IN (select contact_id from table)`. -/
def inTableToks (word : InWord) (table : String) : List Tok :=
  [.pred (.inTable "id" word table)]

/-- The columns of the `anyChannel` case, with their qualifier. -/
def anyChannelColumns : List (Alias × String) :=
  [(.ct, "last_open_date"), (.ct, "last_click_date"), (.ct, "sms_last_click"),
    (.ct, "whatsapp_last_open"), (.ct, "whatsapp_last_click"), (.ctd, "last_click_date")]

/-- `(p OR q OR ...)`. -/
def orGroup (ps : List Pred) : List Tok :=
  [.lpar] ++ (ps.map Tok.pred).intersperse .OR ++ [.rpar]

/-- `p AND q AND ...`, without parentheses. -/
def andToks (ps : List Pred) : List Tok :=
  (ps.map Tok.pred).intersperse .AND

/-- The `anyChannel` case. -/
def anyChannelOut (zone : String) (time : Val) : StepOut :=
  { toks := orGroup (anyChannelColumns.map fun c => .cmp c.1 c.2 ">=" (.daysAgo zone time))
    join := true }

/-- The `page_view` case. -/
def pageViewOut (tag : TagLike) (n : Nat) (d : InteractionStepData) : StepOut :=
  let table := tableName "_page_view" n tag
  let valueFilter :=
    if d.pageViewFilter = .str "iLike" then "'%" ++ d.pageViewValue.text ++ "%'"
    else d.pageViewValue.text
  { toks := inTableToks (filterWord d.conditionalInteration) table
    external := some
      { tableName := table
        query :=
          [.text ("SELECT contact_id FROM events_logs_v2 WHERE event = 'page_view' AND account_id = "
              ++ toString tag.accountId ++ " AND time_date > "),
            .replaceTime d.time,
            .text (" AND url " ++ d.pageViewFilter.text ++ " " ++ valueFilter
              ++ (if d.customTimesValue.gt 1 then
                    havingCount d.conditionalTimesValue d.customTimesValue ++ " "
                  else ""))] } }

/-- `step.time != null && step.time !== '' && step.time !== 'all'`. -/
def hasValidTime (time : Val) : Bool :=
  time != .undefined && time != .null && time != .str "" && time != .str "all"

/-- The last-event column of a channel, read off the contact or its device. -/
def lastEventOut (zone : String) (d : InteractionStepData) : StepOut :=
  let push := d.eventType = .str "web-push" ∨ d.eventType = .str "mobile-push"
  let a : Alias := if push then .ctd else .ct
  let event := d.event.text
  -- `ctd.type = '...' AND `, the first half of a push step's `eventFilter`
  let typed : List Tok :=
    if push then [.pred (.cmp .ctd "type" "=" (.quoted d.eventType.text)), .AND] else []
  let bound := Scalar.daysAgo zone d.time
  let test : List Tok :=
    if hasValidTime d.time then
      if d.conditionalInteration = .str "yes" then [.pred (.cmp a event ">" bound)]
      else [.pred (.cmp a event "<" bound), .OR] ++ typed
        ++ [.pred (.isNull a event false)]
    else [.pred (.isNull a event (decide (d.conditionalInteration = .str "yes")))]
  { toks := [.lpar] ++ typed ++ test ++ [.rpar]
    join := decide push }

/-- One event of a message: the table of the contacts that have it. -/
def viewOut (tag : TagLike) (n : Nat) (d : InteractionStepData) : StepOut :=
  let table := tableName "_view" n tag
  let messageFilter :=
    if d.message.truthy then
      "AND message_id = " ++ d.message.id.text ++ " "
        ++ (if d.conditionalInteration ≠ .str "yes" then "AND contact_id IS NOT NULL" else "")
    else ""
  { toks := inTableToks (filterWord d.conditionalInteration) table
    external := some
      { tableName := table
        query :=
          [.text ("SELECT DISTINCT contact_id FROM events_logs_v2 WHERE account_id = "
            ++ toString tag.accountId ++ " AND event = '" ++ (parseEventType d.event).text
            ++ "' " ++ messageFilter)]
          ++ (if d.time ≠ .str "all" then [.text " AND time_date >= ", .replaceTime d.time]
              else []) } }

/-- Repeated events: the table of the contacts whose count compares. -/
def repeatedOut (tag : TagLike) (n : Nat) (d : InteractionStepData) : StepOut :=
  let table := tableName "" n tag
  { toks := inTableToks (filterWord d.conditionalInteration) table
    external := some
      { tableName := table
        query :=
          [.text ("SELECT contact_id FROM events_logs_v2 WHERE event = '"
              ++ (parseEventType d.event).text ++ "' AND account_id = "
              ++ toString tag.accountId ++ " AND time_date >= "),
            .replaceTime d.time,
            .text (" "
              ++ (if d.message.truthy ∧ d.message.id.truthy then
                    " AND message_id = " ++ d.message.id.text ++ " " else "") ++ " "
              ++ (if d.eventType = .str "email" then " AND message_type = 'email' " else "") ++ " "
              ++ (if d.conditionalInteration ≠ .str "yes" then " AND contact_id IS NOT NULL"
                  else "")
              ++ havingCount d.conditionalTimesValue d.customTimesValue)] }
    drop := true }

/-- `case 'interation'` of the V1 generator. -/
def interationV1 (tag : TagLike) (zone : String) (n : Nat) (d : InteractionStepData) : StepOut :=
  if d.eventType = .str "anyChannel" then anyChannelOut zone d.time
  else if d.eventType = .str "page_view" then pageViewOut tag n d
  else if d.message = .any ∧ isSingle d.customTimesValue then lastEventOut zone d
  else if isSingle d.customTimesValue then viewOut tag n d
  else repeatedOut tag n d

/-- `case 'custom_field'`: `toLowerCase` throws on a value that is no string. -/
def customFieldOut (rt : Runtime) (tag : TagLike) (d : CustomFieldStepData) :
    Except Error StepOut :=
  let value : Val :=
    if d.conditionalCustomField = .str "iLike" then .str ("%" ++ d.customFieldValue.text ++ "%")
    else d.customFieldValue
  match value with
  | .str s => .ok
      { toks := [.pred (.inCustomFields tag.accountId d.customFieldId
          (fieldsType d.customFieldType) d.conditionalCustomField.text (rt.toLowerCase s))] }
  | _ => .error .typeError

/-- The `created_at_date` and `last_automation_date` keys. -/
def dateFieldOut (rt : Runtime) (zone key : String) (d : UserFieldStepData) :
    Except Error StepOut :=
  if d.conditionalUserField = .str "-" then
    .ok { toks := [.pred (.cmp .ct key ">=" (.daysAgo zone d.userFieldValue))] }
  else
    match rt.toISOString d.userFieldValue with
    | none => .error .rangeError
    | some date => .ok
        { toks := [.pred (.cmp .bare key (d.conditionalUserField.orElse (.str "=")).text
            (.quoted date))] }

/-- The `communication_channels` key. -/
def channelOut (dto : SegmentDtoLike) (d : UserFieldStepData) : StepOut :=
  if d.userFieldValue.truthy then
    let channel := .pred (.cmp .ct d.userFieldValue.text "="
      (.bool (d.conditionalUserField ≠ .str "false")))
    { toks := [channel]
        ++ (if d.userFieldValue = .str "has_email" then
              (if dto.addBounced then [] else [.AND, .pred (.flag true "has_bounced")])
              ++ (if dto.addInvalid then [] else [.AND, .pred (.flag false "is_valid")])
              ++ (if dto.addUnsubscribed then [] else [.AND, .pred (.flag true "is_unsubscribed")])
            else [])
      join := decide (d.userFieldValue = .str "has_web_push") }
  else { toks := [.pred .noop] }

/-- The last lines of `case 'user_field'`: any other key with a text value. -/
def textFieldOut (rt : Runtime) (key : String) (d : UserFieldStepData) : StepOut :=
  match d.userFieldValue with
  | .str s =>
      if d.conditionalUserField.truthy then
        { toks := [.pred (.cmp .bare key d.conditionalUserField.text
            (.quoted (rt.toLowerCase s)))] }
      else { toks := [.pred .noop] }
  | _ => { toks := [.pred .noop] }

/-- `case 'user_field'`. -/
def userFieldOut (rt : Runtime) (dto : SegmentDtoLike) (zone : String)
    (d : UserFieldStepData) : Except Error StepOut :=
  if d.userFieldKey.truthy = false then .ok { toks := [.pred .noop] }
  else if d.userFieldKey = .str "created_at_date" ∨ d.userFieldKey = .str "last_automation_date" then
    dateFieldOut rt zone d.userFieldKey.text d
  else if d.userFieldKey = .str "email_provider" then
    let op := if d.conditionalUserField = .str "!=" then "!=" else "="
    .ok { toks := [.pred (.cmp .bare d.userFieldKey.text op (.quoted d.userFieldValue.text))] }
  else if d.userFieldKey = .str "is_email_deliverable"
      ∧ d.conditionalUserField.orElse (.str "true") = .str "true" then
    .ok { toks := andToks [.flag false "is_valid", .cmp .ct "is_unsubscribed" "=" (.bool false),
      .cmp .ct "has_bounced" "=" (.bool false)] }
  else if d.userFieldKey = .str "is_email_deliverable"
      ∧ d.conditionalUserField.orElse (.str "true") = .str "false" then
    .ok { toks := orGroup [.cmp .ct "is_valid" "=" (.bool false),
      .cmp .ct "is_unsubscribed" "=" (.bool true), .cmp .ct "has_bounced" "=" (.bool true)] }
  else if d.userFieldKey = .str "communication_channels" then .ok (channelOut dto d)
  else .ok (textFieldOut rt d.userFieldKey.text d)

/-- The window of a custom event's external query. -/
def customEventWindow (d : CustomEventStepData) : List Frag :=
  if d.timeType = .str "range" then
    [.text (" AND time_date BETWEEN '" ++ d.customEventDate.text ++ "' AND '"
      ++ d.customEventDateEnd.text ++ "'")]
  else if d.timeType = .str "date" then
    [.text (" AND time_date " ++ d.conditionalEventFilter.text ++ " '"
      ++ d.customEventDate.text ++ "'")]
  else if d.time = .str "current_week" ∨ d.time = .str "last_week" then
    [.text " AND time_date BETWEEN ", .betweenReplace d.time d.conditionalWeekDayFilter]
  else
    [.text (" AND time_date " ++ d.conditionalEventFilter.text ++ " "), .replaceTime d.time]

/-- `case 'custom_event'`. -/
def customEventOut (tag : TagLike) (n : Nat) (d : CustomEventStepData) : StepOut :=
  let table := tableName "_custom_event" n tag
  let eventName := if d.eventName.truthy then d.eventName else .num 0
  { toks := inTableToks d.conditionalEventType table
    external := some
      { tableName := table
        query :=
          [.text ("SELECT contact_id FROM events_logs_v2 WHERE account_id = "
            ++ toString tag.accountId ++ " AND event = '" ++ eventName.text
            ++ "' AND contact_id IS NOT NULL")]
          ++ customEventWindow d
          ++ d.properties.map (fun p =>
              .text (" AND properties.'" ++ p.1.text ++ "' = '" ++ p.2.text ++ "'"))
          ++ (if d.customTimesValue.truthy then
                [.text (havingCount d.conditionalTimesValue d.customTimesValue ++ " ")]
              else []) } }

/-- The subquery of an `automation_state` step, given how its day is compared. -/
def automationQuery (tag : TagLike) (zone : String) (test : CreatedTest)
    (d : AutomationStateStepData) : AutomationQuery :=
  { accountId := tag.accountId
    test := test
    zone := zone
    days := d.time
    automationId := if d.automation.truthy then some d.automation.id else none
    status := if d.event ≠ .str "entered" then some d.event else none
    timesOperator := timesOperator d.conditionalTimesValue
    timesCount := timesCount d.customTimesValue }

/-- `case 'automation_state'` of the V1 generator: `step.time == 1` asks for
yesterday only. -/
def automationStateV1 (tag : TagLike) (zone : String) (d : AutomationStateStepData) : StepOut :=
  { toks := [.pred (.inAutomations
      (automationQuery tag zone (if d.time.looseEq 1 then .onDay else .since) d))] }

/-! ## The generator -/

/-- The `switch` of the V1 generator.  A `conditionalCard` and the types without
a case emit nothing. -/
def switchV1 (rt : Runtime) (tag : TagLike) (dto : SegmentDtoLike) (zone : String) : Switch
  | n, .interation d => .ok (interationV1 tag zone n d)
  | _, .customField d => customFieldOut rt tag d
  | _, .userField d => userFieldOut rt dto zone d
  | n, .customEvent d => .ok (customEventOut tag n d)
  | _, .automationState d => .ok (automationStateV1 tag zone d)
  | _, .conditionalCard _ | _, .tag _ | _, .other _ => .ok {}

/-- `deps.timeZone || 'UTC'`. -/
def timeZoneValue (timeZone : Option String) : String :=
  match timeZone with
  | none | some "" => "UTC"
  | some z => z

def generateSegmentQueryV1 (rt : Runtime) (tag : TagLike) (dto : SegmentDtoLike)
    (timeZone : Option String) : Except Error GenerateResult :=
  generateWith (switchV1 rt tag dto (timeZoneValue timeZone)) tag dto

end OpenBms.Segment
