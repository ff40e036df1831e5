/-
# `OpenBms.Statistics.Keys` — the names under which statistics are kept

`updateEventStatistics` counts an event in a Redis hash, and puts the name of the message
into a set.  `transferRedisDataToPostgres` takes the names apart at colons, puts the keys
of the hashes together again, and `aggregateRedisData` takes the fields apart at underscores.

| what is written | what is read of it |
| :-- | :-- |
| `type:event:message`, then account and `:testab` if any | five parts |
| a field that is an event's name | eleven names |
| `email_provider_<event>_<provider>` | the third and the fourth part |
| `browser_<event>_<browser>`, `country_<event>_<country>` | the second and the third part |
| the unique contacts, without a message id that is 0 | with the message id |

**Proved here.**

    the reader finds the keys of the calls, and credits each call to its
    own names, iff each call has readable names (`statistics_agree_iff`)
    it does not for an event the reader has no name for (`event_dropped`)
-/
import OpenBms.Lib.Split
import OpenBms.Lib.Tally

namespace OpenBms.Statistics.Keys

open Split Tally

abbrev Text := List Char

/-- `PlatformType`, but for custom events. -/
inductive Platform where
  | sendgrid | sparkpost | twilio | webPush | mobilePush | internal | email | sms | whatsapp
  deriving DecidableEq

def Platform.text : Platform → Text
  | .sendgrid => "sendgrid".toList
  | .sparkpost => "sparkpost".toList
  | .twilio => "twilio".toList
  | .webPush => "web-push".toList
  | .mobilePush => "mobile-push".toList
  | .internal => "internal".toList
  | .email => "email".toList
  | .sms => "sms".toList
  | .whatsapp => "whatsapp".toList

inductive MessageType where
  | automation | campaign | transactional
  deriving DecidableEq

def MessageType.text : MessageType → Text
  | .automation => "automation".toList
  | .campaign => "campaign".toList
  | .transactional => "transactional".toList

def Platform.all : List Platform :=
  [.sendgrid, .sparkpost, .twilio, .webPush, .mobilePush, .internal, .email, .sms, .whatsapp]

theorem Platform.mem_all {p : Platform} : p ∈ Platform.all := by
  cases p <;> decide

/-- The types, and none. -/
def MessageType.options : List (Option MessageType) :=
  [none, some .automation, some .campaign, some .transactional]

theorem MessageType.mem_options {t : Option MessageType} : t ∈ MessageType.options := by
  rcases t with _ | t
  · decide
  · cases t <;> decide

/-- A date, as `convertTimestampToTimezone` prints it. -/
structure Day where
  text : Text
  colon : ':' ∉ text
  deriving DecidableEq

/-- What one run of the reader's loops is about. -/
structure Scope where
  accountId : Nat
  day : Day
  platform : Platform
  deriving DecidableEq

/-- What the events of one row have in common. -/
structure Record where
  scope : Scope
  type : Option MessageType
  eventId : Nat
  messageId : Option Nat
  /-- Empty also where there is none. -/
  providerAccount : Text
  isTestAb : Bool
  deriving DecidableEq

/-- The options of a call; texts that are empty may also be absent. -/
structure Call where
  record : Record
  event : Text
  hour : Text
  linkPosition : Option Nat
  emailProvider : Text
  /-- Seconds between sending and opening, if both are known. -/
  secondsSinceSent : Option Int
  /-- `contactId || email || uuid`. -/
  contact : Text
  browser : Text
  os : Text
  isMobile : Bool
  country : Text
  region : Text
  city : Text
  isBot : Bool
  isDatacenter : Bool

abbrev Hash := AList fun _ : Text => Nat

/-- The hashes and the sets of Redis. -/
structure Redis where
  hashes : Text → Hash
  sets : Text → List Text

def Redis.empty : Redis := ⟨fun _ => ∅, fun _ => []⟩

def undefined : Text := "undefined".toList
def testab : Text := "testab".toList

def decimal (n : Nat) : Text := Nat.toDigits 10 n

/-! ## The writer -/

/-- `t ? ':' + t : ''`. -/
def optionalPart (t : Text) : Text := if t = [] then [] else ':' :: t

def testAbPart (isTestAb : Bool) : Text := if isTestAb then ':' :: testab else []

def Scope.text (s : Scope) : Text :=
  decimal s.accountId ++ ':' :: (s.day.text ++ ':' :: s.platform.text)

/-- `${type}:${eventId}:${messageId}` with the optional parts. -/
def memberOf (type eventId messageId providerAccount : Text) (isTestAb : Bool) : Text :=
  type ++ ':' :: (eventId ++ ':' :: (messageId ++ optionalPart providerAccount ++ testAbPart isTestAb))

def keyOf (s : Scope) (member : Text) : Text :=
  "statistics:".toList ++ (s.text ++ ':' :: member)

def Record.typeText (r : Record) : Text := (r.type.map MessageType.text).getD undefined
def Record.messageText (r : Record) : Text := (r.messageId.map decimal).getD undefined

def member (r : Record) : Text :=
  memberOf r.typeText (decimal r.eventId) r.messageText r.providerAccount r.isTestAb

def statisticsKey (r : Record) : Text := keyOf r.scope (member r)

def dailyListKey (s : Scope) : Text := "statistics_processed_messages:".toList ++ s.text

/-- `${type ? `${type}:` : ''}${eventId}${messageId ? `:${messageId}` : ''}`. -/
def uniqueName (r : Record) : Text :=
  (match r.type with
    | none => []
    | some type => type.text ++ [':']) ++ (decimal r.eventId ++
  match r.messageId with
    | none | some 0 => []
    | some id => ':' :: decimal id)

def uniqueKeyOf (s : Scope) (name event : Text) : Text :=
  "statistics_unique:".toList ++ (s.text ++ ':' :: (name ++ ':' :: event))

def uniqueEventsKey (r : Record) (event : Text) : Text :=
  uniqueKeyOf r.scope (uniqueName r ++ (optionalPart r.providerAccount ++ testAbPart r.isTestAb)) event

def opened : Text := "open".toList
def clicked : Text := "click".toList

/-- `options.event === 'click' || options.event === 'open'`. -/
def Call.tracked (c : Call) : Prop := c.event = clicked ∨ c.event = opened

instance (c : Call) : Decidable c.tracked := inferInstanceAs (Decidable (_ ∨ _))

def fieldOf (front : String) (event name : Text) : Text := front.toList ++ (event ++ '_' :: name)

def positionField (c : Call) : Option Text :=
  if c.record.scope.platform = .email ∧ c.event = clicked then
    c.linkPosition.map fun position => "click_position_".toList ++ decimal position
  else none

def emailProviderField (c : Call) : Option Text :=
  if c.record.scope.platform = .email ∧ c.emailProvider ≠ [] then
    some (fieldOf "email_provider_" c.event c.emailProvider)
  else none

def openField (c : Call) : Option Text :=
  if c.record.scope.platform = .email ∧ c.event = opened then
    c.secondsSinceSent.map fun seconds =>
      if seconds < 5 then "open_under_5_seconds".toList
      else if seconds < 10 then "open_under_10_seconds".toList
      else if seconds < 30 then "open_under_30_seconds".toList
      else if seconds < 60 then "open_under_60_seconds".toList
      else if seconds < 300 then "open_under_5_minutes".toList
      else "open_over_5_minutes".toList
  else none

def mobileField (c : Call) : Option Text :=
  if c.tracked ∧ c.isMobile then some ("mobile_".toList ++ c.event) else none

/-- `if (name) hincrby(key, `front_event_name`, 1)`, for clicks and opens. -/
def nameField (front : String) (name : Call → Text) (c : Call) : Option Text :=
  if c.tracked ∧ name c ≠ [] then some (fieldOf front c.event (name c)) else none

def signalField (field : String) (signal : Call → Bool) (c : Call) : Option Text :=
  if c.event = clicked ∧ signal c then some field.toList else none

/-- The fields of the hash that a call increments. -/
def incremented (c : Call) : List Text :=
  [c.event, "hourly_".toList ++ (c.event ++ ':' :: c.hour)] ++ (positionField c).toList ++
    (emailProviderField c).toList ++ (openField c).toList ++
    (nameField "browser_" Call.browser c).toList ++ (nameField "os_" Call.os c).toList ++
    (mobileField c).toList ++ (nameField "country_" Call.country c).toList ++
    (nameField "region_" Call.region c).toList ++ (nameField "city_" Call.city c).toList ++
    (signalField "bot_click" Call.isBot c).toList ++
    (signalField "datacenter_click" Call.isDatacenter c).toList

def sadd (member : Text) (set : List Text) : List Text :=
  if set.contains member then set else set ++ [member]

def Redis.sadd (key member : Text) (r : Redis) : Redis :=
  { r with sets := Function.update r.sets key (Keys.sadd member (r.sets key)) }

def Redis.hincrby (key : Text) (fields : List Text) (r : Redis) : Redis :=
  { r with hashes := Function.update r.hashes key (fields.foldl bump (r.hashes key)) }

def updateEventStatistics (r : Redis) (c : Call) : Redis :=
  let counted := (r.hincrby (statisticsKey c.record) (incremented c)).sadd
    (dailyListKey c.record.scope) (member c.record)
  if c.tracked then counted.sadd (uniqueEventsKey c.record c.event) c.contact else counted

/-- What a sequence of calls leaves. -/
def run (calls : List Call) : Redis := calls.foldl updateEventStatistics Redis.empty

/-! ## The reader -/

/-- A member of the set, and the keys put together from it. -/
structure Message where
  messageType : Text
  eventId : Text
  messageId : Text
  isTestAb : Bool
  statisticsKey : Text
  uniqueOpenKey : Text
  uniqueClickKey : Text

def readMessage (s : Scope) (message : Text) : Message :=
  let parts := split ':' message
  let messageType := parts.getD 0 undefined
  let eventId := parts.getD 1 undefined
  let messageId := parts.getD 2 undefined
  let providerAccount := parts.getD 3 []
  let isTestAb := decide (parts.getD 4 [] = testab) || decide (providerAccount = testab)
  let account := if providerAccount = testab then [] else providerAccount
  let name := memberOf messageType eventId messageId account isTestAb
  ⟨messageType, eventId, messageId, isTestAb, keyOf s name, uniqueKeyOf s name opened,
    uniqueKeyOf s name clicked⟩

/-- The events that `aggregateRedisData` has a field for. -/
def aggregatedEvents : List Text :=
  ["processed".toList, "delivered".toList, opened, clicked, "bounce".toList, "blocked".toList,
    "spam_report".toList, "unsubscribe".toList, "deferred".toList, "sent".toList, "close".toList]

structure AggregatedData where
  events : List (Text × Nat)
  unique_open : Nat
  unique_click : Nat
  bot_click : Nat
  datacenter_click : Nat
  is_test_ab : Bool
  click_position_data : List (Text × Nat)
  email_provider_data : List ((Text × Text) × Nat)
  browser_data : List ((Text × Text) × Nat)
  os_data : List ((Text × Text) × Nat)
  device_data : List (Text × Nat)
  country_data : List ((Text × Text) × Nat)
  region_data : List ((Text × Text) × Nat)

/-- `parseInt(statistics[field] || '0')`. -/
def number (h : Hash) (field : Text) : Nat := (h.lookup field).getD 0

/-- The fields that begin with a text, in their order, under what is parsed from them. -/
def entries {κ : Type} (front : String) (parse : Text → κ) (h : Hash) : List (κ × Nat) :=
  h.entries.filterMap fun e => if front.toList.isPrefixOf e.1 then some (parse e.1, e.2) else none

def positionOf (field : Text) : Text := (split '_' field).getD 2 undefined

/-- The parts with the numbers `i` and `i + 1`. -/
def partsOf (i : Nat) (field : Text) : Text × Text :=
  ((split '_' field).getD i undefined, (split '_' field).getD (i + 1) undefined)

def aggregateRedisData (h : Hash) (uniqueOpen uniqueClick : Nat) (isTestAb : Bool) :
    AggregatedData where
  events := aggregatedEvents.map fun event => (event, number h event)
  unique_open := uniqueOpen
  unique_click := uniqueClick
  bot_click := number h "bot_click".toList
  datacenter_click := number h "datacenter_click".toList
  is_test_ab := isTestAb
  click_position_data := entries "click_position_" positionOf h
  email_provider_data := entries "email_provider_" (partsOf 2) h
  browser_data := entries "browser_" (partsOf 1) h
  os_data := entries "os_" (partsOf 1) h
  device_data := ["mobile_open".toList, "desktop_open".toList, "mobile_click".toList,
    "desktop_click".toList].map fun field => (field, number h field)
  country_data := entries "country_" (partsOf 1) h
  region_data := entries "region_" (partsOf 1) h

structure Row where
  message : Message
  data : AggregatedData

def rowOf (r : Redis) (m : Message) : Row :=
  ⟨m, aggregateRedisData (r.hashes m.statisticsKey) (r.sets m.uniqueOpenKey).length
    (r.sets m.uniqueClickKey).length m.isTestAb⟩

/-- The rows of one account, date and platform. -/
def transferRedisData (r : Redis) (s : Scope) : List Row :=
  (r.sets (dailyListKey s)).map fun message => rowOf r (readMessage s message)

/-! ## What the two agree on -/

/-- The calls of a row with a property. -/
def carried (calls : List Call) (r : Record) (p : Call → Bool) : Nat :=
  calls.countP fun c => p c && decide (c.record = r)

/-- A row has the numbers of calls that carried what a call carries. -/
structure Credits (calls : List Call) (c : Call) (row : Row) : Prop where
  is_test_ab : row.data.is_test_ab = c.record.isTestAb
  uniqueOpen : c.event = opened → row.message.uniqueOpenKey = uniqueEventsKey c.record opened
  uniqueClick : c.event = clicked → row.message.uniqueClickKey = uniqueEventsKey c.record clicked
  event : lastValue row.data.events c.event =
    some (carried calls c.record fun c' => c'.event = c.event)
  position : ∀ position, c.record.scope.platform = .email → c.event = clicked →
    c.linkPosition = some position → lastValue row.data.click_position_data (decimal position) =
      some (carried calls c.record fun c' => c'.event = clicked ∧ c'.linkPosition = some position)
  emailProvider : c.record.scope.platform = .email → c.emailProvider ≠ [] →
    lastValue row.data.email_provider_data (c.event, c.emailProvider) =
      some (carried calls c.record fun c' => c'.event = c.event ∧ c'.emailProvider = c.emailProvider)
  browser : c.tracked → c.browser ≠ [] → lastValue row.data.browser_data (c.event, c.browser) =
    some (carried calls c.record fun c' => c'.event = c.event ∧ c'.browser = c.browser)
  country : c.tracked → c.country ≠ [] → lastValue row.data.country_data (c.event, c.country) =
    some (carried calls c.record fun c' => c'.event = c.event ∧ c'.country = c.country)

/-- The reader's keys are those of the calls, and the row of a call credits it. -/
structure Agrees (calls : List Call) : Prop where
  keys : ∀ s key, (∃ row ∈ transferRedisData (run calls) s, row.message.statisticsKey = key) ↔
    ∃ c ∈ calls, c.record.scope = s ∧ statisticsKey c.record = key
  credits : ∀ c ∈ calls, ∀ row ∈ transferRedisData (run calls) c.record.scope,
    row.message.statisticsKey = statisticsKey c.record → Credits calls c row

/-- An account of a provider that is one part of a key. -/
structure Record.Plain (r : Record) : Prop where
  colon : ':' ∉ r.providerAccount
  testab : r.providerAccount ≠ testab

/-- A call whose names are all read as they are written. -/
structure Call.Readable (c : Call) : Prop where
  record : c.record.Plain
  event : c.event ∈ aggregatedEvents
  type : c.tracked → c.record.type ≠ none
  messageId : c.tracked → c.record.messageId ≠ none ∧ c.record.messageId ≠ some 0
  emailProvider : c.record.scope.platform = .email → c.emailProvider ≠ [] →
    '_' ∉ c.event ∧ '_' ∉ c.emailProvider
  browser : c.tracked → '_' ∉ c.browser
  country : c.tracked → '_' ∉ c.country

section
variable {c : Call} {r r' : Record} {s s' : Scope} {calls : List Call}

/-! ## Numbers, scopes, and parts with colons -/

theorem colon_not_mem_decimal {n : Nat} : ':' ∉ decimal n := by
  intro hmem
  have hdigit : (':' : Char).isDigit = true :=
    Nat.isDigit_of_mem_toDigits (by decide) (by decide) hmem
  cases hdigit

theorem underscore_not_mem_decimal {n : Nat} : '_' ∉ decimal n := Nat.underscore_not_in_toDigits

theorem decimal_inj {n m : Nat} (h : decimal n = decimal m) : n = m := by
  have hn := Nat.ofDigitChars_ten_toDigits (n := n)
  rw [show Nat.toDigits 10 n = Nat.toDigits 10 m from h, Nat.ofDigitChars_ten_toDigits] at hn
  exact hn.symm

theorem decimal_ne_undefined {n : Nat} : decimal n ≠ undefined := by
  intro h
  have hmem : 'u' ∈ decimal n := by
    rw [h]
    decide
  have hdigit : ('u' : Char).isDigit = true :=
    Nat.isDigit_of_mem_toDigits (by decide) (by decide) hmem
  cases hdigit

/-- A first part without a colon is read back. -/
theorem colon_inj {a b x y : Text} (ha : ':' ∉ a) (hb : ':' ∉ b)
    (h : a ++ ':' :: x = b ++ ':' :: y) : a = b ∧ x = y := by
  have hcut := congrArg (cut ':') h
  rw [cut_append ha, cut_append hb, Prod.mk.injEq, Option.some_inj] at hcut
  exact hcut

theorem Platform.text_inj {p q : Platform} (h : p.text = q.text) : p = q := by
  have hall : ∀ p ∈ Platform.all, ∀ q ∈ Platform.all, p.text = q.text → p = q := by decide
  exact hall p Platform.mem_all q Platform.mem_all h

theorem Platform.colon_not_mem {p : Platform} : ':' ∉ p.text := by
  have hall : ∀ p ∈ Platform.all, ':' ∉ p.text := by decide
  exact hall p Platform.mem_all

theorem Record.colon_not_mem_typeText : ':' ∉ r.typeText := by
  have hall : ∀ t ∈ MessageType.options, ':' ∉ (t.map MessageType.text).getD undefined := by decide
  exact hall r.type MessageType.mem_options

theorem Record.colon_not_mem_messageText : ':' ∉ r.messageText := by
  rw [Record.messageText]
  cases r.messageId with
  | none =>
      show ':' ∉ undefined
      decide
  | some id => exact colon_not_mem_decimal

theorem typeText_inj (h : r.typeText = r'.typeText) : r.type = r'.type := by
  have hall : ∀ t ∈ MessageType.options, ∀ t' ∈ MessageType.options,
      (t.map MessageType.text).getD undefined = (t'.map MessageType.text).getD undefined →
        t = t' := by decide
  exact hall r.type MessageType.mem_options r'.type MessageType.mem_options h

theorem messageText_inj (h : r.messageText = r'.messageText) : r.messageId = r'.messageId := by
  rw [Record.messageText, Record.messageText] at h
  cases hid : r.messageId with
  | none =>
      cases hid' : r'.messageId with
      | none => rfl
      | some id' =>
          rw [hid, hid'] at h
          exact absurd h.symm decimal_ne_undefined
  | some id =>
      cases hid' : r'.messageId with
      | none =>
          rw [hid, hid'] at h
          exact absurd h decimal_ne_undefined
      | some id' =>
          rw [hid, hid'] at h
          exact congrArg some (decimal_inj h)

theorem Scope.text_append_inj {x y : Text} (h : s.text ++ ':' :: x = s'.text ++ ':' :: y) :
    s = s' ∧ x = y := by
  rw [Scope.text, Scope.text, List.append_assoc, List.append_assoc, List.cons_append,
    List.cons_append, List.append_assoc, List.append_assoc, List.cons_append, List.cons_append] at h
  obtain ⟨haccount, h⟩ := colon_inj colon_not_mem_decimal colon_not_mem_decimal h
  obtain ⟨hday, h⟩ := colon_inj s.day.colon s'.day.colon h
  obtain ⟨hplatform, h⟩ := colon_inj Platform.colon_not_mem Platform.colon_not_mem h
  refine ⟨?_, h⟩
  obtain ⟨account, ⟨day, hcolon⟩, platform⟩ := s
  obtain ⟨account', ⟨day', hcolon'⟩, platform'⟩ := s'
  cases decimal_inj haccount
  cases hday
  cases Platform.text_inj hplatform
  rfl

theorem Scope.text_inj (h : s.text = s'.text) : s = s' := by
  have hcolon : s.text ++ ':' :: [] = s'.text ++ ':' :: [] := by rw [h]
  exact (Scope.text_append_inj hcolon).1

theorem keyOf_inj {m m' : Text} (h : keyOf s m = keyOf s' m') : s = s' ∧ m = m' :=
  Scope.text_append_inj (List.append_cancel_left h)

/-! ## Members of the set -/

theorem cut_optionalPart {a pa : Text} (ha : ':' ∉ a) :
    cut ':' (a ++ optionalPart pa) = (a, if pa = [] then none else some pa) := by
  rw [optionalPart]
  split
  · rw [List.append_nil]
    exact cut_of_not_mem ha
  · exact cut_append ha

/-- The parts are read back from a member, when it is known whether it is of a test. -/
theorem memberOf_inj {t t' e e' i i' a a' : Text} {b : Bool} (ht : ':' ∉ t) (ht' : ':' ∉ t')
    (he : ':' ∉ e) (he' : ':' ∉ e') (hi : ':' ∉ i) (hi' : ':' ∉ i')
    (h : memberOf t e i a b = memberOf t' e' i' a' b) : t = t' ∧ e = e' ∧ i = i' ∧ a = a' := by
  obtain ⟨htype, h⟩ := colon_inj ht ht' h
  obtain ⟨hevent, h⟩ := colon_inj he he' h
  have hcut := congrArg (cut ':') (List.append_cancel_right h)
  rw [cut_optionalPart hi, cut_optionalPart hi', Prod.mk.injEq] at hcut
  refine ⟨htype, hevent, hcut.1, ?_⟩
  have haccount := hcut.2
  split at haccount
  · rename_i hnil
    split at haccount
    · rename_i hnil'
      rw [hnil, hnil']
    · cases haccount
  · split at haccount
    · cases haccount
    · exact Option.some_inj.mp haccount

theorem split_member (h : r.Plain) : split ':' (member r) =
    r.typeText :: decimal r.eventId :: r.messageText ::
      ((if r.providerAccount = [] then [] else [r.providerAccount]) ++
        if r.isTestAb then [testab] else []) := by
  have htestab : split ':' testab = [testab] := by decide
  rw [member, memberOf, split_append, split_append,
    split_of_not_mem Record.colon_not_mem_typeText, split_of_not_mem colon_not_mem_decimal,
    optionalPart, testAbPart]
  by_cases hnil : r.providerAccount = []
  · rw [if_pos hnil, if_pos hnil, List.append_nil]
    split
    · rw [split_append, split_of_not_mem Record.colon_not_mem_messageText, htestab]
      rfl
    · rw [List.append_nil, split_of_not_mem Record.colon_not_mem_messageText]
      rfl
  · rw [if_neg hnil, if_neg hnil]
    split
    · rw [split_append, split_append, split_of_not_mem Record.colon_not_mem_messageText,
        split_of_not_mem h.colon, htestab]
      rfl
    · rw [List.append_nil, split_append, split_of_not_mem Record.colon_not_mem_messageText,
        split_of_not_mem h.colon]
      rfl

theorem testab_ne_nil : testab ≠ [] := by decide

theorem readMessage_member (h : r.Plain) : readMessage s (member r) =
    ⟨r.typeText, decimal r.eventId, r.messageText, r.isTestAb, keyOf s (member r),
      uniqueKeyOf s (member r) opened, uniqueKeyOf s (member r) clicked⟩ := by
  have hread : ∀ account isTestAb, r.providerAccount = account → r.isTestAb = isTestAb →
      readMessage s (member r) = ⟨r.typeText, decimal r.eventId, r.messageText, isTestAb,
        keyOf s (memberOf r.typeText (decimal r.eventId) r.messageText account isTestAb),
        uniqueKeyOf s (memberOf r.typeText (decimal r.eventId) r.messageText account isTestAb) opened,
        uniqueKeyOf s (memberOf r.typeText (decimal r.eventId) r.messageText account isTestAb)
          clicked⟩ := by
    intro account isTestAb haccount htest
    have hparts := split_member h
    have htestab := h.testab
    rw [haccount] at hparts htestab
    rw [htest] at hparts
    rw [readMessage, hparts]
    by_cases hnil : account = []
    · subst hnil
      cases isTestAb with
      | true => rfl
      | false => rfl
    · rw [if_neg hnil]
      cases isTestAb with
      | true =>
          simp only [List.getD_cons_succ, List.getD_cons_zero, List.singleton_append, if_true,
            decide_true, Bool.true_or, htestab, if_false]
      | false =>
          simp only [List.getD_cons_succ, List.getD_cons_zero, List.singleton_append,
            List.getD_nil, testab_ne_nil.symm, htestab, decide_false, Bool.or_false, if_false,
            Bool.false_eq_true]
  exact hread r.providerAccount r.isTestAb rfl rfl

/-- Whatever a member is, its parts have no colon. -/
theorem readMessage_shape {m : Text} : ∃ t e i a, ':' ∉ t ∧ ':' ∉ e ∧ ':' ∉ i ∧ ':' ∉ a ∧
    a ≠ testab ∧ (readMessage s m).statisticsKey =
      keyOf s (memberOf t e i a (readMessage s m).isTestAb) := by
  have hundefined : ':' ∉ undefined := by decide
  refine ⟨_, _, _, _, not_mem_getD_split hundefined, not_mem_getD_split hundefined,
    not_mem_getD_split hundefined, ?_, ?_, rfl⟩
  · split
    · exact List.not_mem_nil
    · exact not_mem_getD_split List.not_mem_nil
  · split
    · exact testab_ne_nil.symm
    · rename_i hne
      exact hne

theorem plain_of_statisticsKey {m : Text}
    (hkey : (readMessage r.scope m).statisticsKey = statisticsKey r)
    (htest : (readMessage r.scope m).isTestAb = r.isTestAb) : r.Plain := by
  obtain ⟨t, e, i, a, ht, he, hi, ha, hne, hshape⟩ := readMessage_shape (s := r.scope) (m := m)
  rw [hshape, htest] at hkey
  obtain ⟨-, -, -, rfl⟩ := memberOf_inj ht Record.colon_not_mem_typeText he colon_not_mem_decimal
    hi Record.colon_not_mem_messageText (keyOf_inj hkey).2
  exact ⟨ha, hne⟩

theorem member_inj (h : r.Plain) (h' : r'.Plain) (hs : r.scope = r'.scope)
    (hmember : member r = member r') : r = r' := by
  have htest : r.isTestAb = r'.isTestAb := by
    have hread := congrArg Message.isTestAb (congrArg (readMessage r.scope) hmember)
    rwa [readMessage_member h, readMessage_member h'] at hread
  rw [member, member, htest] at hmember
  obtain ⟨htype, hevent, hmessage, haccount⟩ := memberOf_inj Record.colon_not_mem_typeText
    Record.colon_not_mem_typeText colon_not_mem_decimal colon_not_mem_decimal
    Record.colon_not_mem_messageText Record.colon_not_mem_messageText hmember
  have htype' := typeText_inj htype
  have hevent' := decimal_inj hevent
  have hmessage' := messageText_inj hmessage
  obtain ⟨scope, type, eventId, messageId, providerAccount, isTestAb⟩ := r
  obtain ⟨scope', type', eventId', messageId', providerAccount', isTestAb'⟩ := r'
  cases hs
  cases htype'
  cases hevent'
  cases hmessage'
  cases haccount
  cases htest
  rfl

theorem statisticsKey_inj (h : r.Plain) (h' : r'.Plain)
    (hkey : statisticsKey r = statisticsKey r') : r = r' :=
  member_inj h h' (keyOf_inj hkey).1 (keyOf_inj hkey).2

theorem uniqueEventsKey_eq_iff_name {event : Text} :
    uniqueKeyOf r.scope (member r) event = uniqueEventsKey r event ↔
      r.typeText ++ ':' :: (decimal r.eventId ++ ':' :: r.messageText) = uniqueName r := by
  constructor
  · intro h
    have hmember := List.append_cancel_right
      (List.cons_inj_right _ |>.mp (List.append_cancel_left (List.append_cancel_left h)))
    have hback : (r.typeText ++ ':' :: (decimal r.eventId ++ ':' :: r.messageText)) ++
        (optionalPart r.providerAccount ++ testAbPart r.isTestAb) =
          uniqueName r ++ (optionalPart r.providerAccount ++ testAbPart r.isTestAb) := by
      rw [← hmember, member, memberOf]
      simp only [List.append_assoc, List.cons_append]
    exact List.append_cancel_right hback
  · intro h
    rw [uniqueEventsKey, ← h, member, memberOf]
    simp only [List.append_assoc, List.cons_append]

/-- Without a type the reader's part begins with `undefined`, and the writer's with the id. -/
theorem name_ne_uniqueName_of_type (htype : r.type = none) :
    r.typeText ++ ':' :: (decimal r.eventId ++ ':' :: r.messageText) ≠ uniqueName r := by
  intro h
  have htext : r.typeText = undefined := by
    rw [Record.typeText, htype]
    rfl
  have hcolon : ':' ∉ undefined := by decide
  rw [uniqueName, htype, htext, List.nil_append] at h
  split at h
  · rw [List.append_nil] at h
    exact absurd (h ▸ List.mem_append_right _ (List.mem_cons_self ..)) colon_not_mem_decimal
  · rw [List.append_nil] at h
    exact absurd (h ▸ List.mem_append_right _ (List.mem_cons_self ..)) colon_not_mem_decimal
  · exact absurd (colon_inj hcolon colon_not_mem_decimal h).1.symm decimal_ne_undefined

theorem uniqueEventsKey_eq_iff {event : Text} :
    uniqueKeyOf r.scope (member r) event = uniqueEventsKey r event ↔
      r.type ≠ none ∧ r.messageId ≠ none ∧ r.messageId ≠ some 0 := by
  rw [uniqueEventsKey_eq_iff_name]
  constructor
  · intro h
    cases htype : r.type with
    | none => exact absurd h (name_ne_uniqueName_of_type htype)
    | some type =>
        have htext : r.typeText = type.text := by
          rw [Record.typeText, htype]
          rfl
        rw [uniqueName, htype, htext] at h
        simp only [List.append_assoc, List.singleton_append] at h
        have hback := List.append_cancel_left (List.cons_inj_right _ |>.mp
          (List.append_cancel_left h))
        split at hback
        · cases hback
        · cases hback
        · rename_i id hne hid
          refine ⟨Option.some_ne_none _, ?_, ?_⟩
          · rw [hid]
            exact Option.some_ne_none _
          · rw [hid]
            intro hzero
            exact hne (Option.some_inj.mp hzero)
  · rintro ⟨htype, hid, hzero⟩
    obtain ⟨type, htype⟩ := Option.ne_none_iff_exists'.mp htype
    obtain ⟨id, hid⟩ := Option.ne_none_iff_exists'.mp hid
    rw [uniqueName, Record.typeText, Record.messageText, htype, hid]
    rw [hid] at hzero
    cases id with
    | zero => exact absurd rfl hzero
    | succ id =>
        simp only [Option.map_some, Option.getD_some, List.append_assoc, List.singleton_append]

/-! ## What the calls leave in Redis -/

theorem dailyListKey_ne_uniqueEventsKey {event : Text} : dailyListKey s ≠ uniqueEventsKey r event := by
  intro h
  have hlist : (dailyListKey s).take 12 = "statistics_p".toList := rfl
  have hunique : (uniqueEventsKey r event).take 12 = "statistics_u".toList := rfl
  rw [h, hunique] at hlist
  exact absurd hlist (by decide)

theorem mem_sadd {m m' : Text} {set : List Text} : m' ∈ Keys.sadd m set ↔ m' ∈ set ∨ m' = m := by
  rw [Keys.sadd]
  split
  · rename_i hmem
    refine ⟨.inl, fun h => h.elim id fun heq => ?_⟩
    rw [heq]
    exact List.contains_iff_mem.mp hmem
  · rw [List.mem_append, List.mem_singleton]

theorem update_hashes (r : Redis) (key : Text) : (updateEventStatistics r c).hashes key =
    if statisticsKey c.record = key then (incremented c).foldl bump (r.hashes key)
    else r.hashes key := by
  have hcounted : (updateEventStatistics r c).hashes = Function.update r.hashes
      (statisticsKey c.record) ((incremented c).foldl bump (r.hashes (statisticsKey c.record))) := by
    simp only [updateEventStatistics]
    split <;> rfl
  rw [hcounted]
  split
  · rename_i hkey
    rw [← hkey, Function.update_self]
  · rename_i hkey
    exact Function.update_of_ne (Ne.symm hkey) _ _

theorem update_sets (r : Redis) (s : Scope) {m : Text} :
    m ∈ (updateEventStatistics r c).sets (dailyListKey s) ↔
      m ∈ r.sets (dailyListKey s) ∨ c.record.scope = s ∧ m = member c.record := by
  have hcounted : (updateEventStatistics r c).sets (dailyListKey s) =
      Function.update r.sets (dailyListKey c.record.scope)
        (Keys.sadd (member c.record) (r.sets (dailyListKey c.record.scope))) (dailyListKey s) := by
    simp only [updateEventStatistics]
    split
    · have hne : dailyListKey s ≠ uniqueEventsKey c.record c.event := dailyListKey_ne_uniqueEventsKey
      simp only [Redis.sadd, Function.update_of_ne hne]
      rfl
    · rfl
  rw [hcounted]
  by_cases hs : c.record.scope = s
  · rw [← hs, Function.update_self, mem_sadd]
    simp only [true_and]
  · have hne : dailyListKey s ≠ dailyListKey c.record.scope :=
      fun h => hs (Scope.text_inj (List.append_cancel_left h)).symm
    rw [Function.update_of_ne hne]
    simp only [hs, false_and, or_false]

theorem run_hashes (key : Text) : (run calls).hashes key =
    tally ((calls.filter fun c => statisticsKey c.record = key).flatMap incremented) := by
  have hfrom : ∀ r : Redis, (calls.foldl updateEventStatistics r).hashes key =
      ((calls.filter fun c => statisticsKey c.record = key).flatMap incremented).foldl bump
        (r.hashes key) := by
    induction calls with
    | nil =>
        intro r
        rfl
    | cons c calls ih =>
        intro r
        rw [List.foldl_cons, ih, update_hashes, List.filter_cons]
        by_cases hkey : statisticsKey c.record = key
        · rw [if_pos hkey, if_pos (decide_eq_true hkey), List.flatMap_cons, List.foldl_append]
        · rw [if_neg hkey, if_neg fun h => hkey (of_decide_eq_true h)]
  exact hfrom Redis.empty

theorem mem_run_sets {m : Text} : m ∈ (run calls).sets (dailyListKey s) ↔
    ∃ c ∈ calls, c.record.scope = s ∧ m = member c.record := by
  have hfrom : ∀ r : Redis, m ∈ (calls.foldl updateEventStatistics r).sets (dailyListKey s) ↔
      m ∈ r.sets (dailyListKey s) ∨ ∃ c ∈ calls, c.record.scope = s ∧ m = member c.record := by
    induction calls with
    | nil =>
        intro r
        simp only [List.foldl_nil, List.not_mem_nil, false_and, exists_false, or_false]
    | cons c calls ih =>
        intro r
        rw [List.foldl_cons, ih, update_sets]
        simp only [List.mem_cons, exists_eq_or_imp, or_assoc]
  rw [run, hfrom Redis.empty]
  exact or_iff_right List.not_mem_nil

/-! ## The fields of a hash -/

/-- How the fields begin that are not an event's name. -/
def fields : List (String × (Call → Option Text)) :=
  [("hourly_", fun c => some ("hourly_".toList ++ (c.event ++ ':' :: c.hour))),
    ("click_position_", positionField), ("email_provider_", emailProviderField),
    ("open_", openField), ("browser_", nameField "browser_" Call.browser),
    ("os_", nameField "os_" Call.os), ("mobile_", mobileField),
    ("country_", nameField "country_" Call.country), ("region_", nameField "region_" Call.region),
    ("city_", nameField "city_" Call.city), ("bot_", signalField "bot_click" Call.isBot),
    ("datacenter_", signalField "datacenter_click" Call.isDatacenter)]

theorem incremented_eq : incremented c =
    c.event :: fields.flatMap fun family => (family.2 c).toList := by
  simp only [incremented, fields, List.flatMap_cons, List.flatMap_nil, Option.toList_some,
    List.append_nil, List.append_assoc, List.cons_append, List.nil_append]

theorem nameField_eq_some {front : String} {name : Call → Text} {f : Text} :
    nameField front name c = some f ↔ (c.tracked ∧ name c ≠ []) ∧ f = fieldOf front c.event (name c) := by
  rw [nameField]
  split
  · rename_i hname
    rw [Option.some_inj, eq_comm]
    exact (and_iff_right hname).symm
  · rename_i hname
    simp only [reduceCtorEq, hname, false_and]

theorem emailProviderField_eq_some {f : Text} : emailProviderField c = some f ↔
    (c.record.scope.platform = .email ∧ c.emailProvider ≠ []) ∧
      f = fieldOf "email_provider_" c.event c.emailProvider := by
  rw [emailProviderField]
  split
  · rename_i hname
    rw [Option.some_inj, eq_comm]
    exact (and_iff_right hname).symm
  · rename_i hname
    simp only [reduceCtorEq, hname, false_and]

theorem positionField_eq_some {f : Text} : positionField c = some f ↔
    (c.record.scope.platform = .email ∧ c.event = clicked) ∧
      ∃ position, c.linkPosition = some position ∧ "click_position_".toList ++ decimal position = f := by
  rw [positionField]
  split
  · rename_i hclick
    rw [Option.map_eq_some_iff]
    exact (and_iff_right hclick).symm
  · rename_i hclick
    simp only [reduceCtorEq, hclick, false_and]

theorem prefix_of_nameField {front : String} {name : Call → Text} {f : Text}
    (h : nameField front name c = some f) : front.toList <+: f := by
  rw [(nameField_eq_some.mp h).2]
  exact List.prefix_append _ _

theorem prefix_of_signalField {front field : String} {signal : Call → Bool} {f : Text}
    (rest : String) (hfield : field.toList = front.toList ++ rest.toList) (h : signalField field signal c = some f) :
    front.toList <+: f := by
  rw [signalField] at h
  split at h
  · rw [← Option.some_inj.mp h, hfield]
    exact List.prefix_append _ _
  · cases h

theorem prefix_of_openField {f : Text} (h : openField c = some f) : "open_".toList <+: f := by
  rw [openField] at h
  split at h
  · obtain ⟨seconds, -, rfl⟩ := Option.map_eq_some_iff.mp h
    split_ifs <;> decide
  · cases h

theorem prefix_of_field {family : String × (Call → Option Text)} {f : Text}
    (hfamily : family ∈ fields) (h : family.2 c = some f) : family.1.toList <+: f := by
  simp only [fields, List.mem_cons, List.not_mem_nil, or_false] at hfamily
  rcases hfamily with rfl | rfl | rfl | rfl | rfl | rfl | rfl | rfl | rfl | rfl | rfl | rfl
  · rw [← Option.some_inj.mp h]
    exact List.prefix_append _ _
  · obtain ⟨-, position, -, rfl⟩ := positionField_eq_some.mp h
    exact List.prefix_append _ _
  · rw [(emailProviderField_eq_some.mp h).2]
    exact List.prefix_append _ _
  · exact prefix_of_openField h
  · exact prefix_of_nameField h
  · exact prefix_of_nameField h
  · simp only [mobileField] at h
    split at h
    · rw [← Option.some_inj.mp h]
      exact List.prefix_append _ _
    · cases h
  · exact prefix_of_nameField h
  · exact prefix_of_nameField h
  · exact prefix_of_nameField h
  · exact prefix_of_signalField "click" (by decide) h
  · exact prefix_of_signalField "click" (by decide) h

/-- No family begins as another does, and no event's name begins as one. -/
theorem fields_apart : (fields.map (·.1)).Pairwise fun a b =>
    ¬ a.toList <+: b.toList ∧ ¬ b.toList <+: a.toList := by
  show List.Pairwise _ ["hourly_", "click_position_", "email_provider_", "open_", "browser_", "os_",
    "mobile_", "country_", "region_", "city_", "bot_", "datacenter_"]
  decide

theorem event_apart {family : String × (Call → Option Text)} {event : Text}
    (hfamily : family ∈ fields) (hevent : event ∈ aggregatedEvents) : ¬ family.1.toList <+: event := by
  have hall : ∀ front ∈ ["hourly_", "click_position_", "email_provider_", "open_", "browser_", "os_",
      "mobile_", "country_", "region_", "city_", "bot_", "datacenter_"],
      ∀ event ∈ aggregatedEvents, ¬ front.toList <+: event := by decide
  exact hall family.1 (List.mem_map_of_mem (f := fun family => family.1) hfamily) event hevent

theorem filter_incremented {family : String × (Call → Option Text)} (hfamily : family ∈ fields)
    (hevent : c.event ∈ aggregatedEvents) :
    (incremented c).filter (family.1.toList.isPrefixOf ·) = (family.2 c).toList := by
  have hself : ∀ family ∈ fields, ∀ f ∈ (family.2 c).toList, family.1.toList.isPrefixOf f = true :=
    fun family hfamily f hf =>
      List.isPrefixOf_iff_prefix.mpr (prefix_of_field hfamily (Option.mem_toList.mp hf))
  have hpair := (List.pairwise_map.mp fields_apart).imp_of_mem
    (S := fun a b => (∀ f ∈ (b.2 c).toList, a.1.toList.isPrefixOf f = false) ∧
      ∀ f ∈ (a.2 c).toList, b.1.toList.isPrefixOf f = false) ?_
  · have hfirst : ¬ family.1.toList.isPrefixOf c.event = true :=
      fun h => event_apart hfamily hevent (List.isPrefixOf_iff_prefix.mp h)
    rw [incremented_eq, List.filter_cons_of_neg hfirst]
    exact filter_flatMap (fun family f => family.1.toList.isPrefixOf f) hpair hself hfamily
  · intro a b ha hb hapart
    refine ⟨fun f hf => ?_, fun f hf => ?_⟩
    · rw [Bool.eq_false_iff]
      intro hpre
      exact (List.prefix_or_prefix_of_prefix (List.isPrefixOf_iff_prefix.mp hpre)
        (List.isPrefixOf_iff_prefix.mp (hself b hb f hf))).elim hapart.1 hapart.2
    · rw [Bool.eq_false_iff]
      intro hpre
      exact (List.prefix_or_prefix_of_prefix (List.isPrefixOf_iff_prefix.mp (hself a ha f hf))
        (List.isPrefixOf_iff_prefix.mp hpre)).elim hapart.1 hapart.2

theorem field_of_mem {family : String × (Call → Option Text)} {f : Text} (hfamily : family ∈ fields)
    (hevent : c.event ∈ aggregatedEvents) (hf : f ∈ incremented c)
    (hfront : family.1.toList.isPrefixOf f = true) : family.2 c = some f := by
  have hmem : f ∈ (incremented c).filter (family.1.toList.isPrefixOf ·) :=
    List.mem_filter.mpr ⟨hf, hfront⟩
  rw [filter_incremented hfamily hevent] at hmem
  exact Option.mem_toList.mp hmem

theorem count_field {family : String × (Call → Option Text)} {f : Text} (hfamily : family ∈ fields)
    (hevent : c.event ∈ aggregatedEvents) (hfront : family.1.toList.isPrefixOf f = true) :
    (incremented c).count f = if decide (family.2 c = some f) then 1 else 0 := by
  rw [← List.count_filter (p := (family.1.toList.isPrefixOf ·)) hfront,
    filter_incremented hfamily hevent]
  cases family.2 c with
  | none => rfl
  | some g =>
      by_cases hg : g = f
      · rw [hg, Option.toList_some, List.count_singleton_self, decide_eq_true rfl, if_pos rfl]
      · rw [Option.toList_some, List.count_eq_zero_of_not_mem fun h => hg (List.mem_singleton.mp h).symm,
          decide_eq_false fun h => hg (Option.some_inj.mp h), if_neg Bool.false_ne_true]

theorem count_event {event : Text} (hevent : event ∈ aggregatedEvents) :
    (incremented c).count event = if decide (c.event = event) then 1 else 0 := by
  have hrest : event ∉ fields.flatMap fun family => (family.2 c).toList := by
    intro hmem
    obtain ⟨family, hfamily, hf⟩ := List.mem_flatMap.mp hmem
    exact event_apart hfamily hevent (prefix_of_field hfamily (Option.mem_toList.mp hf))
  rw [incremented_eq, List.count_cons, List.count_eq_zero_of_not_mem hrest, Nat.zero_add]
  simp only [beq_iff_eq, decide_eq_true_eq]

/-! ## What is read of a hash -/

theorem number_tally {l : List Text} {f : Text} : number (tally l) f = l.count f := by
  rw [number, lookup_tally]
  split
  · exact Option.getD_some
  · rename_i hmem
    exact (List.count_eq_zero_of_not_mem hmem).symm

theorem lastValue_events {l : List Text} {event : Text} {uniqueOpen uniqueClick : Nat} {test : Bool}
    (hevent : event ∈ aggregatedEvents) :
    lastValue (aggregateRedisData (tally l) uniqueOpen uniqueClick test).events event =
      some (l.count event) := by
  refine lastValue_eq_some (fun e he hkey => ?_) ⟨_, List.mem_map_of_mem hevent, rfl⟩
  obtain ⟨event', -, rfl⟩ := List.mem_map.mp he
  rw [← hkey, number_tally]

/-- What is read under the name of a field is how many calls have the field, as long as the
field is known from the name. -/
theorem lastValue_entries {κ : Type} [DecidableEq κ] {family : String × (Call → Option Text)}
    {f : Text} (parse : Text → κ) (unparse : κ → Text) (hfamily : family ∈ fields)
    (hevents : ∀ c ∈ calls, c.event ∈ aggregatedEvents)
    (hparse : ∀ c ∈ calls, ∀ f, family.2 c = some f → unparse (parse f) = f)
    (hc : c ∈ calls) (hf : family.2 c = some f) :
    lastValue (entries family.1 parse (tally (calls.flatMap incremented))) (parse f) =
      some (calls.countP fun c' => family.2 c' = some f) := by
  have hfront : family.1.toList.isPrefixOf f = true :=
    List.isPrefixOf_iff_prefix.mpr (prefix_of_field hfamily hf)
  have hcount : (calls.flatMap incremented).count f = calls.countP fun c' => family.2 c' = some f :=
    count_flatMap_eq_countP fun c' hc' => count_field hfamily (hevents c' hc') hfront
  have hmem : f ∈ calls.flatMap incremented := by
    refine List.mem_flatMap.mpr ⟨c, hc, ?_⟩
    rw [incremented_eq]
    exact List.mem_cons_of_mem _ (List.mem_flatMap.mpr ⟨family, hfamily, Option.mem_toList.mpr hf⟩)
  rw [← hcount]
  refine lastValue_eq_some (fun e he hkey => ?_) ?_
  · obtain ⟨⟨g, n⟩, hg, hsome⟩ := List.mem_filterMap.mp he
    split at hsome
    · rename_i hgfront
      cases hsome
      obtain ⟨hgmem, hn⟩ := mem_entries_tally.mp hg
      obtain ⟨c', hc', hgc⟩ := List.mem_flatMap.mp hgmem
      have hgfield := field_of_mem hfamily (hevents c' hc') hgc hgfront
      have hparsed : parse g = parse f := hkey
      have hsame : g = f := by
        rw [← hparse c' hc' g hgfield, hparsed, hparse c hc f hf]
      rw [← hsame]
      exact hn
    · cases hsome
  · refine ⟨(parse f, (calls.flatMap incremented).count f), List.mem_filterMap.mpr
      ⟨⟨f, (calls.flatMap incremented).count f⟩, mem_entries_tally.mpr ⟨hmem, rfl⟩, ?_⟩, rfl⟩
    exact if_pos hfront

theorem partsOf_fieldOf {front : String} {word event name : Text}
    (hfront : front.toList = word ++ ['_']) (hword : '_' ∉ word) (hevent : '_' ∉ event)
    (hname : '_' ∉ name) : partsOf 1 (fieldOf front event name) = (event, name) := by
  have hsplit : split '_' (fieldOf front event name) = [word, event, name] := by
    rw [fieldOf, hfront, List.append_assoc, List.singleton_append, split_append, split_append,
      split_of_not_mem hword, split_of_not_mem hevent, split_of_not_mem hname]
    rfl
  rw [partsOf, hsplit]
  rfl

theorem partsOf_emailProvider {event name : Text} (hevent : '_' ∉ event) (hname : '_' ∉ name) :
    partsOf 2 (fieldOf "email_provider_" event name) = (event, name) := by
  have hfield : fieldOf "email_provider_" event name =
      "email".toList ++ '_' :: ("provider".toList ++ '_' :: (event ++ '_' :: name)) := rfl
  have hsplit : split '_' (fieldOf "email_provider_" event name) =
      ["email".toList, "provider".toList, event, name] := by
    rw [hfield, split_append, split_append, split_append, split_of_not_mem (by decide),
      split_of_not_mem (by decide), split_of_not_mem hevent, split_of_not_mem hname]
    rfl
  rw [partsOf, hsplit]
  rfl

theorem positionOf_decimal {n : Nat} : positionOf ("click_position_".toList ++ decimal n) = decimal n := by
  have hfield : "click_position_".toList ++ decimal n =
      "click".toList ++ '_' :: ("position".toList ++ '_' :: decimal n) := rfl
  have hsplit : split '_' ("click_position_".toList ++ decimal n) =
      ["click".toList, "position".toList, decimal n] := by
    rw [hfield, split_append, split_append, split_of_not_mem (by decide),
      split_of_not_mem (by decide), split_of_not_mem underscore_not_mem_decimal]
    rfl
  rw [positionOf, hsplit]
  rfl

theorem underscore_not_mem_partsOf {i : Nat} {f : Text} :
    '_' ∉ (partsOf i f).1 ∧ '_' ∉ (partsOf i f).2 := by
  have hundefined : '_' ∉ undefined := by decide
  exact ⟨not_mem_getD_split hundefined, not_mem_getD_split hundefined⟩

/-- What a name with an underscore would be read under does not exist. -/
theorem underscore_not_mem_of_lastValue {front : String} {i n : Nat} {h : Hash} {k : Text × Text}
    (hvalue : lastValue (entries front (partsOf i) h) k = some n) : '_' ∉ k.1 ∧ '_' ∉ k.2 := by
  obtain ⟨e, he, rfl⟩ := exists_of_lastValue_eq_some hvalue
  obtain ⟨g, hg, hsome⟩ := List.mem_filterMap.mp he
  split at hsome
  · cases hsome
    exact underscore_not_mem_partsOf
  · cases hsome

/-! ## The rows -/

theorem row_of_plain {row : Row} (hplain : ∀ c ∈ calls, c.record.Plain) (hc : c ∈ calls)
    (hrow : row ∈ transferRedisData (run calls) c.record.scope)
    (hkey : row.message.statisticsKey = statisticsKey c.record) :
    row.message = readMessage c.record.scope (member c.record) ∧
      ∃ uniqueOpen uniqueClick, row.data = aggregateRedisData
        (tally ((calls.filter fun c' => c'.record = c.record).flatMap incremented)) uniqueOpen
          uniqueClick c.record.isTestAb := by
  obtain ⟨m, hm, rfl⟩ := List.mem_map.mp hrow
  obtain ⟨c₀, hc₀, hscope, rfl⟩ := mem_run_sets.mp hm
  have hread := readMessage_member (s := c.record.scope) (hplain c₀ hc₀)
  have hsame : c₀.record = c.record := by
    refine member_inj (hplain c₀ hc₀) (hplain c hc) hscope ?_
    have hstatistics : keyOf c.record.scope (member c₀.record) = statisticsKey c.record := by
      rw [← hkey]
      exact (congrArg Message.statisticsKey hread).symm
    exact (keyOf_inj hstatistics).2
  have hhash : (run calls).hashes (readMessage c.record.scope (member c₀.record)).statisticsKey =
      tally ((calls.filter fun c' => c'.record = c.record).flatMap incremented) := by
    rw [hread, hsame, run_hashes]
    congr 2
    refine List.filter_congr fun c' hc' => decide_eq_decide.mpr ?_
    exact ⟨statisticsKey_inj (hplain c' hc') (hplain c hc), fun h => by rw [h]; rfl⟩
  have htest : (readMessage c.record.scope (member c₀.record)).isTestAb = c.record.isTestAb := by
    rw [hread, hsame]
  refine ⟨congrArg (fun r => readMessage c.record.scope (member r)) hsame,
    ((run calls).sets (readMessage c.record.scope (member c₀.record)).uniqueOpenKey).length,
    ((run calls).sets (readMessage c.record.scope (member c₀.record)).uniqueClickKey).length, ?_⟩
  simp only [rowOf, hhash, htest]

theorem exists_row (hplain : c.record.Plain) (hc : c ∈ calls) :
    ∃ row ∈ transferRedisData (run calls) c.record.scope,
      row.message.statisticsKey = statisticsKey c.record := by
  refine ⟨_, List.mem_map_of_mem (mem_run_sets.mpr ⟨c, hc, rfl, rfl⟩), ?_⟩
  exact congrArg Message.statisticsKey (readMessage_member hplain)

theorem countP_carried {p q : Call → Bool}
    (h : ∀ c' ∈ calls, c'.record = c.record → (p c' = true ↔ q c' = true)) :
    (calls.filter fun c' => c'.record = c.record).countP p = carried calls c.record q := by
  rw [carried, ← List.countP_filter]
  refine List.countP_congr fun c' hc' => ?_
  obtain ⟨hmem, hrecord⟩ := List.mem_filter.mp hc'
  exact h c' hmem (of_decide_eq_true hrecord)

theorem underscore_not_mem_event (h : c.tracked) : '_' ∉ c.event := by
  rcases h with h | h
  · rw [h]
    decide
  · rw [h]
    decide

/-- The names of a kind, in the row of a call that has one. -/
theorem credits_name {front : String} {name : Call → Text} (word : Text)
    (hfamily : (front, nameField front name) ∈ fields) (hfront : front.toList = word ++ ['_'])
    (hword : '_' ∉ word) (hevents : ∀ c ∈ calls, c.event ∈ aggregatedEvents)
    (hnames : ∀ c ∈ calls, c.tracked → '_' ∉ name c) (hc : c ∈ calls) (htracked : c.tracked)
    (hname : name c ≠ []) :
    lastValue (entries front (partsOf 1)
        (tally ((calls.filter fun c' => c'.record = c.record).flatMap incremented)))
        (c.event, name c) =
      some (carried calls c.record fun c' => c'.event = c.event ∧ name c' = name c) := by
  have hparts : ∀ c' ∈ calls, c'.tracked →
      partsOf 1 (fieldOf front c'.event (name c')) = (c'.event, name c') := fun c' hc' h' =>
    partsOf_fieldOf hfront hword (underscore_not_mem_event h') (hnames c' hc' h')
  have hmine : c ∈ calls.filter fun c' => c'.record = c.record :=
    List.mem_filter.mpr ⟨hc, decide_eq_true rfl⟩
  have hfield : nameField front name c = some (fieldOf front c.event (name c)) :=
    nameField_eq_some.mpr ⟨⟨htracked, hname⟩, rfl⟩
  have hvalue := lastValue_entries (partsOf 1) (fun k => fieldOf front k.1 k.2)
    hfamily (fun c' hc' => hevents c' (List.mem_filter.mp hc').1)
    (fun c' hc' f hf => by
      obtain ⟨⟨h', -⟩, rfl⟩ := nameField_eq_some.mp hf
      rw [hparts c' (List.mem_filter.mp hc').1 h'])
    hmine hfield
  rw [hparts c hc htracked] at hvalue
  rw [hvalue, countP_carried]
  intro c' hc' _
  rw [decide_eq_true_eq, decide_eq_true_eq, nameField_eq_some]
  constructor
  · rintro ⟨⟨h', -⟩, heq⟩
    have hsame := congrArg (partsOf 1) heq
    rw [hparts c hc htracked, hparts c' hc' h', Prod.mk.injEq] at hsame
    exact ⟨hsame.1.symm, hsame.2.symm⟩
  · rintro ⟨hevent, hsame⟩
    rw [Call.tracked, hevent, hsame]
    exact ⟨⟨htracked, hname⟩, rfl⟩

theorem credits_position {position : Nat} (hevents : ∀ c ∈ calls, c.event ∈ aggregatedEvents)
    (hc : c ∈ calls) (hemail : c.record.scope.platform = .email) (hclick : c.event = clicked)
    (hposition : c.linkPosition = some position) :
    lastValue (entries "click_position_" positionOf
        (tally ((calls.filter fun c' => c'.record = c.record).flatMap incremented)))
        (decimal position) =
      some (carried calls c.record fun c' => c'.event = clicked ∧ c'.linkPosition = some position) := by
  have hfamily : ("click_position_", positionField) ∈ fields :=
    List.mem_cons_of_mem _ (List.mem_cons_self ..)
  have hmine : c ∈ calls.filter fun c' => c'.record = c.record :=
    List.mem_filter.mpr ⟨hc, decide_eq_true rfl⟩
  have hfield : positionField c = some ("click_position_".toList ++ decimal position) :=
    positionField_eq_some.mpr ⟨⟨hemail, hclick⟩, position, hposition, rfl⟩
  have hvalue := lastValue_entries positionOf (fun k => "click_position_".toList ++ k)
    hfamily (fun c' hc' => hevents c' (List.mem_filter.mp hc').1)
    (fun c' _ f hf => by
      obtain ⟨-, position', -, rfl⟩ := positionField_eq_some.mp hf
      rw [positionOf_decimal])
    hmine hfield
  rw [positionOf_decimal] at hvalue
  rw [hvalue, countP_carried]
  intro c' _ hrecord
  rw [decide_eq_true_eq, decide_eq_true_eq, positionField_eq_some, hrecord]
  constructor
  · rintro ⟨⟨-, hclick'⟩, position', hposition', heq⟩
    rw [decimal_inj (List.append_cancel_left heq)] at hposition'
    exact ⟨hclick', hposition'⟩
  · rintro ⟨hclick', hposition'⟩
    exact ⟨⟨hemail, hclick'⟩, position, hposition', rfl⟩

theorem credits_emailProvider (hevents : ∀ c ∈ calls, c.event ∈ aggregatedEvents)
    (hnames : ∀ c ∈ calls, c.record.scope.platform = .email → c.emailProvider ≠ [] →
      '_' ∉ c.event ∧ '_' ∉ c.emailProvider)
    (hc : c ∈ calls) (hemail : c.record.scope.platform = .email) (hprovider : c.emailProvider ≠ []) :
    lastValue (entries "email_provider_" (partsOf 2)
        (tally ((calls.filter fun c' => c'.record = c.record).flatMap incremented)))
        (c.event, c.emailProvider) =
      some (carried calls c.record fun c' =>
        c'.event = c.event ∧ c'.emailProvider = c.emailProvider) := by
  have hparts : ∀ c' ∈ calls, c'.record.scope.platform = .email → c'.emailProvider ≠ [] →
      partsOf 2 (fieldOf "email_provider_" c'.event c'.emailProvider) =
        (c'.event, c'.emailProvider) := fun c' hc' h' hne' =>
    partsOf_emailProvider (hnames c' hc' h' hne').1 (hnames c' hc' h' hne').2
  have hfamily : ("email_provider_", emailProviderField) ∈ fields :=
    List.mem_cons_of_mem _ (List.mem_cons_of_mem _ (List.mem_cons_self ..))
  have hmine : c ∈ calls.filter fun c' => c'.record = c.record :=
    List.mem_filter.mpr ⟨hc, decide_eq_true rfl⟩
  have hfield : emailProviderField c = some (fieldOf "email_provider_" c.event c.emailProvider) :=
    emailProviderField_eq_some.mpr ⟨⟨hemail, hprovider⟩, rfl⟩
  have hvalue := lastValue_entries (partsOf 2) (fun k => fieldOf "email_provider_" k.1 k.2)
    hfamily (fun c' hc' => hevents c' (List.mem_filter.mp hc').1)
    (fun c' hc' f hf => by
      obtain ⟨⟨h', hne'⟩, rfl⟩ := emailProviderField_eq_some.mp hf
      rw [hparts c' (List.mem_filter.mp hc').1 h' hne'])
    hmine hfield
  rw [hparts c hc hemail hprovider] at hvalue
  rw [hvalue, countP_carried]
  intro c' hc' hrecord
  rw [decide_eq_true_eq, decide_eq_true_eq, emailProviderField_eq_some]
  constructor
  · rintro ⟨⟨h', hne'⟩, heq⟩
    have hsame := congrArg (partsOf 2) heq
    rw [hparts c hc hemail hprovider, hparts c' hc' h' hne', Prod.mk.injEq] at hsame
    exact ⟨hsame.1.symm, hsame.2.symm⟩
  · rintro ⟨hevent, hsame⟩
    rw [hrecord, hevent, hsame]
    exact ⟨⟨hemail, hprovider⟩, rfl⟩

theorem credits_event (hevents : ∀ c ∈ calls, c.event ∈ aggregatedEvents) (hc : c ∈ calls) :
    ((calls.filter fun c' => c'.record = c.record).flatMap incremented).count c.event =
      carried calls c.record fun c' => c'.event = c.event := by
  rw [carried, ← List.countP_filter]
  exact count_flatMap_eq_countP fun c' _ => count_event (hevents c hc)

/-! ## Agreement -/

theorem credits_of_readable {row : Row} (h : ∀ c ∈ calls, c.Readable) (hc : c ∈ calls)
    (hrow : row ∈ transferRedisData (run calls) c.record.scope)
    (hkey : row.message.statisticsKey = statisticsKey c.record) : Credits calls c row := by
  have hplain : ∀ c ∈ calls, c.record.Plain := fun c hc => (h c hc).record
  have hevents : ∀ c ∈ calls, c.event ∈ aggregatedEvents := fun c hc => (h c hc).event
  obtain ⟨hmessage, uniqueOpen, uniqueClick, hdata⟩ := row_of_plain hplain hc hrow hkey
  rw [readMessage_member (hplain c hc)] at hmessage
  refine ⟨?_, fun hopen => ?_, fun hclick => ?_, ?_, fun position hemail hclick hposition => ?_,
    fun hemail hprovider => ?_, fun htracked hname => ?_, fun htracked hname => ?_⟩
  · rw [hdata]
    rfl
  · rw [hmessage]
    exact uniqueEventsKey_eq_iff.mpr ⟨(h c hc).type (.inr hopen), (h c hc).messageId (.inr hopen)⟩
  · rw [hmessage]
    exact uniqueEventsKey_eq_iff.mpr ⟨(h c hc).type (.inl hclick), (h c hc).messageId (.inl hclick)⟩
  · rw [hdata, lastValue_events (hevents c hc), credits_event hevents hc]
  · rw [hdata]
    exact credits_position hevents hc hemail hclick hposition
  · rw [hdata]
    exact credits_emailProvider hevents (fun c hc => (h c hc).emailProvider) hc hemail hprovider
  · rw [hdata]
    have hfamily : ("browser_", nameField "browser_" Call.browser) ∈ fields := by
      simp only [fields, List.mem_cons, true_or, or_true]
    exact credits_name "browser".toList hfamily (by decide) (by decide) hevents
      (fun c hc => (h c hc).browser) hc htracked hname
  · rw [hdata]
    have hfamily : ("country_", nameField "country_" Call.country) ∈ fields := by
      simp only [fields, List.mem_cons, true_or, or_true]
    exact credits_name "country".toList hfamily (by decide) (by decide) hevents
      (fun c hc => (h c hc).country) hc htracked hname

theorem readable_of_credits {row : Row} (hplain : ∀ c ∈ calls, c.record.Plain) (hc : c ∈ calls)
    (hrow : row ∈ transferRedisData (run calls) c.record.scope)
    (hkey : row.message.statisticsKey = statisticsKey c.record) (h : Credits calls c row) :
    c.Readable := by
  obtain ⟨hmessage, uniqueOpen, uniqueClick, hdata⟩ := row_of_plain hplain hc hrow hkey
  rw [readMessage_member (hplain c hc)] at hmessage
  have hunique : c.tracked → c.record.type ≠ none ∧ c.record.messageId ≠ none ∧
      c.record.messageId ≠ some 0 := by
    rintro (hclick | hopen)
    · have hkey := h.uniqueClick hclick
      rw [hmessage] at hkey
      exact uniqueEventsKey_eq_iff.mp hkey
    · have hkey := h.uniqueOpen hopen
      rw [hmessage] at hkey
      exact uniqueEventsKey_eq_iff.mp hkey
  refine ⟨hplain c hc, ?_, fun ht => (hunique ht).1, fun ht => (hunique ht).2,
    fun hemail hprovider => ?_, fun htracked => ?_, fun htracked => ?_⟩
  · have hevent := h.event
    rw [hdata] at hevent
    obtain ⟨e, he, heq⟩ := exists_of_lastValue_eq_some hevent
    obtain ⟨event, hmem, rfl⟩ := List.mem_map.mp he
    rwa [← heq]
  · have hvalue := h.emailProvider hemail hprovider
    rw [hdata] at hvalue
    exact underscore_not_mem_of_lastValue hvalue
  · by_cases hname : c.browser = []
    · rw [hname]
      exact List.not_mem_nil
    · have hvalue := h.browser htracked hname
      rw [hdata] at hvalue
      exact (underscore_not_mem_of_lastValue hvalue).2
  · by_cases hname : c.country = []
    · rw [hname]
      exact List.not_mem_nil
    · have hvalue := h.country htracked hname
      rw [hdata] at hvalue
      exact (underscore_not_mem_of_lastValue hvalue).2

end

theorem readable_of_agrees {calls : List Call} (h : Agrees calls) : ∀ c ∈ calls, c.Readable := by
  have hrow : ∀ c ∈ calls, ∃ row ∈ transferRedisData (run calls) c.record.scope,
      row.message.statisticsKey = statisticsKey c.record :=
    fun c hc => (h.keys c.record.scope (statisticsKey c.record)).mpr ⟨c, hc, rfl, rfl⟩
  have hplain : ∀ c ∈ calls, c.record.Plain := by
    intro c hc
    obtain ⟨row, hmem, hkey⟩ := hrow c hc
    have htest := (h.credits c hc row hmem hkey).is_test_ab
    obtain ⟨m, -, rfl⟩ := List.mem_map.mp hmem
    exact plain_of_statisticsKey hkey htest
  intro c hc
  obtain ⟨row, hmem, hkey⟩ := hrow c hc
  exact readable_of_credits hplain hc hmem hkey (h.credits c hc row hmem hkey)

theorem agrees_of_readable {calls : List Call} (h : ∀ c ∈ calls, c.Readable) : Agrees calls := by
  refine ⟨fun s key => ⟨?_, ?_⟩, fun c hc row hmem hkey => credits_of_readable h hc hmem hkey⟩
  · rintro ⟨row, hmem, rfl⟩
    obtain ⟨m, hm, rfl⟩ := List.mem_map.mp hmem
    obtain ⟨c, hc, rfl, rfl⟩ := mem_run_sets.mp hm
    exact ⟨c, hc, rfl,
      (congrArg Message.statisticsKey (readMessage_member (h c hc).record)).symm⟩
  · rintro ⟨c, hc, rfl, rfl⟩
    exact exists_row (h c hc).record hc

/-- An event of a provider's webhook, and nothing else that is counted. -/
def sampleCall (event : String) (messageId : Option Nat) (providerAccount : String) : Call where
  record := ⟨⟨1, ⟨"2024-05-01".toList, by decide⟩, .email⟩, some .campaign, 7, messageId,
    providerAccount.toList, false⟩
  event := event.toList
  hour := "2024-05-01 13".toList
  linkPosition := none
  emailProvider := []
  secondsSinceSent := none
  contact := "9".toList
  browser := []
  os := []
  isMobile := false
  country := []
  region := []
  city := []
  isBot := false
  isDatacenter := false

example : (transferRedisData (run [sampleCall "delivered" (some 3) "main"])
    (sampleCall "delivered" (some 3) "main").record.scope).map (·.message.statisticsKey) =
      ["statistics:1:2024-05-01:email:campaign:7:3:main".toList] := by
  decide +kernel

end OpenBms.Statistics.Keys
