/-
# `OpenBms.TagProcess.Lookups` — the cached lookups of tags, automations and campaigns

Five functions of `tag-process` look something up for a trigger.  Each puts a
Redis key together, returns the document under it when there is one, and
otherwise queries the database and stores what came back.

| function | key | left out of the key |
| :-- | :-- | :-- |
| `getAutomationsByTag` | `automations_tag:{account}:{tag}` | |
| `getAutomationsByPush` | `automations_push:{account}` | the push type |
| `getAutomationsByEvent` | `events_trigger:{account}:{event}:{message}:automations` | |
| `getCampaignsByEvent` | `events_trigger:{account}:{event}:{message}:campaigns` | |
| `getTagByName` | `tag:{name}:{account}` | |

What the database does with a text it casts, compares by pattern or runs as part
of the query is a field of `Database`.  Documents are compared as the JSON that
Redis holds.

**Proved here.**

    lookups of one key have one answer, or are push lookups (`query_eq_or_push`)
    a sequence of lookups returns what the queries return iff
    its push lookups of each account agree (`lookups_iff`)
-/
import OpenBms.Lib.Cache
import OpenBms.Lib.Text

namespace OpenBms.Lookups

/-! ## Rows and documents -/

/-- `triggers.settings`, each field as its text. -/
structure Settings where
  id : Option String
  type : Option String
  eventType : Option String
  deriving DecidableEq

/-- An account; `isLoadConfig` when one of its configurations is the loaded one. -/
structure Account where
  id : Int
  isLoadConfig : Bool
  deriving DecidableEq

structure AutomationEntity where
  id : Int
  title : String
  name : String
  isActive : Bool
  type : String
  steps : String
  triggers : Settings
  isRateLimit : Bool
  verticalType : String
  account : Account
  deriving DecidableEq

structure CampaignEntity where
  id : Int
  title : String
  name : String
  steps : String
  triggers : Settings
  isRateLimit : Bool
  account : Account

structure TagEntity where
  id : Int
  accountId : Int
  name : String
  deriving DecidableEq

/-- A document in Redis. -/
inductive Doc where
  | automations (rows : List AutomationEntity)
  | tag (row : Option TagEntity)
  deriving DecidableEq

/-- `if (cache)`: a list is truthy also when it is empty, `null` is not. -/
def Doc.truthy : Doc → Bool
  | .automations _ => true
  | .tag row => row.isSome

def Doc.nonempty : Doc → Bool
  | .automations rows => rows.length ≠ 0
  | .tag row => row.isSome

inductive EventType where
  | «open»
  | click
  | customEvents
  | firstOpen30Days
  deriving DecidableEq

def EventType.text : EventType → String
  | .open => "open"
  | .click => "click"
  | .customEvents => "custom_events"
  | .firstOpen30Days => "first_open_30_days"

/-! ## Queries -/

/-- The tables, and the database's own operations: a cast to `int` raises on the
texts without a value, a push type with a quote ends its literal early. -/
structure Database where
  automations : List AutomationEntity
  campaigns : List CampaignEntity
  tags : List TagEntity
  castInt : String → Option Int
  ilike : String → String → Bool
  quoted : Int → String → Option (List AutomationEntity)

/-- The rows a condition holds of; `none` when the condition raises. -/
def select {α : Type} (cond : α → Option Bool) : List α → Option (List α)
  | [] => some []
  | r :: rs =>
      (cond r).bind fun b => (select cond rs).map fun rs => if b then r :: rs else rs

namespace Database

variable (db : Database)

/-- `(automations.triggers->'settings'->>'id')::int = :id`. -/
def idIs (s : Settings) (id : Int) : Option Bool :=
  match s.id with
  | none => some false
  | some t => (db.castInt t).map fun n => n = id

/-- The automations every query is about. -/
def loaded (accountId : Int) (a : AutomationEntity) : Bool :=
  a.account.id = accountId && a.isActive && a.account.isLoadConfig

def queryByTag (tagId accountId : Int) : Option Doc :=
  (select (fun a => if loaded accountId a then db.idIs a.triggers tagId else some false)
    db.automations).map .automations

def queryByPush (accountId : Int) (type : String) : Option Doc :=
  if '\'' ∈ type.toList then (db.quoted accountId type).map .automations
  else some (.automations
    (db.automations.filter fun a => loaded accountId a && a.triggers.type = some type))

def queryByEvent (accountId : Int) (eventType : EventType) (messageId : Int) : Option Doc :=
  (select (fun a =>
      if loaded accountId a && (match eventType with
        | .customEvents => a.triggers.type = some "custom_events"
        | e => a.triggers.type = some "events" && a.triggers.eventType = some e.text)
      then db.idIs a.triggers messageId else some false)
    db.automations).map .automations

/-- A campaign as the automation that is returned for it. -/
def converted (c : CampaignEntity) : AutomationEntity where
  id := c.id
  title := c.title
  name := c.name
  account := c.account
  type := "campaign"
  steps := c.steps
  triggers := c.triggers
  isActive := true
  verticalType := "campaign"
  isRateLimit := c.isRateLimit

/-- The id is compared as a text here. -/
def queryCampaigns (accountId : Int) (eventType : EventType) (messageId : Int) : Option Doc :=
  some (.automations ((db.campaigns.filter fun c =>
    c.account.id = accountId &&
    (match eventType with
      | .customEvents => c.triggers.type = some eventType.text
      | _ => c.triggers.eventType = some eventType.text) &&
    c.triggers.id = some (toString messageId)).map converted))

/-- `findOne` with `ILike`. -/
def queryTag (name : String) (accountId : Int) : Option Doc :=
  some (.tag (db.tags.find? fun t => db.ilike t.name name && t.accountId = accountId))

end Database

/-! ## Lookups -/

/-- A call of one of the five functions. -/
inductive Lookup where
  | automationsByTag (tagId accountId : Int)
  | automationsByPush (accountId : Int) (type : String)
  | automationsByEvent (accountId : Int) (eventType : EventType) (messageId : Int)
  | campaignsByEvent (accountId : Int) (eventType : EventType) (messageId : Int)
  | tagByName (name : String) (accountId : Int)

def tagKey (accountId tagId : Int) : String :=
  "automations_tag:" ++ (toString accountId ++ (":" ++ toString tagId))

def pushKey (accountId : Int) : String := "automations_push:" ++ toString accountId

def eventsKey (accountId : Int) (eventType : EventType) (messageId : Int) (what : String) : String :=
  "events_trigger:" ++ (toString accountId ++ (":" ++ (eventType.text ++ (":" ++
    (toString messageId ++ (":" ++ what))))))

def nameKey (name : String) (accountId : Int) : String :=
  "tag:" ++ (name ++ (":" ++ toString accountId))

abbrev Redis := String → Option Doc

section
variable (toLowerCase : String → String) (db : Database) (redis : Redis)

def getAutomationsByTag (tagId accountId : Int) : Option Doc × Redis :=
  Cache.readThrough (tagKey accountId tagId) (db.queryByTag tagId accountId) Doc.truthy
    (fun _ => true) redis

def getAutomationsByPush (accountId : Int) (type : String) : Option Doc × Redis :=
  Cache.readThrough (pushKey accountId) (db.queryByPush accountId type) Doc.truthy
    (fun _ => true) redis

def getAutomationsByEvent (accountId : Int) (eventType : EventType) (messageId : Int) :
    Option Doc × Redis :=
  Cache.readThrough (eventsKey accountId eventType messageId "automations")
    (db.queryByEvent accountId eventType messageId) Doc.truthy (fun _ => true) redis

/-- Campaigns are stored only when there are some. -/
def getCampaignsByEvent (accountId : Int) (eventType : EventType) (messageId : Int) :
    Option Doc × Redis :=
  Cache.readThrough (eventsKey accountId eventType messageId "campaigns")
    (db.queryCampaigns accountId eventType messageId) Doc.truthy Doc.nonempty redis

def getTagByName (name : String) (accountId : Int) : Option Doc × Redis :=
  let name := toLowerCase name
  Cache.readThrough (nameKey name accountId) (db.queryTag name accountId) Doc.truthy
    (fun _ => true) redis

def Lookup.call : Lookup → Option Doc × Redis
  | .automationsByTag tagId accountId => getAutomationsByTag db redis tagId accountId
  | .automationsByPush accountId type => getAutomationsByPush db redis accountId type
  | .automationsByEvent accountId e messageId => getAutomationsByEvent db redis accountId e messageId
  | .campaignsByEvent accountId e messageId => getCampaignsByEvent db redis accountId e messageId
  | .tagByName name accountId => getTagByName toLowerCase db redis name accountId

/-- What the query for the same arguments returns. -/
def Lookup.query : Lookup → Option Doc
  | .automationsByTag tagId accountId => db.queryByTag tagId accountId
  | .automationsByPush accountId type => db.queryByPush accountId type
  | .automationsByEvent accountId e messageId => db.queryByEvent accountId e messageId
  | .campaignsByEvent accountId e messageId => db.queryCampaigns accountId e messageId
  | .tagByName name accountId => db.queryTag (toLowerCase name) accountId

/-- What a sequence of calls returns, one after the other. -/
def returned : Redis → List Lookup → List (Option Doc)
  | _, [] => []
  | redis, l :: ls =>
      (l.call toLowerCase db redis).1 :: returned (l.call toLowerCase db redis).2 ls

end

/-! ## As a read-through cache -/

def Lookup.key (toLowerCase : String → String) : Lookup → String
  | .automationsByTag tagId accountId => tagKey accountId tagId
  | .automationsByPush accountId _ => pushKey accountId
  | .automationsByEvent accountId e messageId => eventsKey accountId e messageId "automations"
  | .campaignsByEvent accountId e messageId => eventsKey accountId e messageId "campaigns"
  | .tagByName name accountId => nameKey (toLowerCase name) accountId

def Lookup.keep : Lookup → Doc → Bool
  | .campaignsByEvent .. => Doc.nonempty
  | _ => fun _ => true

section
variable {toLowerCase : String → String} {db : Database} {redis : Redis}

theorem call_eq (l : Lookup) :
    l.call toLowerCase db redis =
      Cache.lookup (Lookup.key toLowerCase) (Lookup.query toLowerCase db) Doc.truthy Lookup.keep
        redis l := by
  cases l <;> rfl

theorem returned_eq (ls : List Lookup) :
    returned toLowerCase db redis ls =
      Cache.run (Lookup.key toLowerCase) (Lookup.query toLowerCase db) Doc.truthy Lookup.keep
        redis ls := by
  induction ls generalizing redis with
  | nil => rfl
  | cons l ls ih => rw [returned, Cache.run, ih, call_eq]

/-! ## Keys -/

theorem tagKey_inj {a b c d : Int} (h : tagKey a b = tagKey c d) : a = c ∧ b = d := by
  have htail := (String.append_right_inj "automations_tag:").mp h
  obtain ⟨hac, hbd⟩ := Text.colon_inj (Text.colon_not_mem_toString a)
    (Text.colon_not_mem_toString c) htail
  exact ⟨Text.toString_inj hac, Text.toString_inj hbd⟩

theorem pushKey_inj {a b : Int} (h : pushKey a = pushKey b) : a = b :=
  Text.toString_inj ((String.append_right_inj "automations_push:").mp h)

theorem EventType.colon_not_mem_text (e : EventType) : ':' ∉ e.text.toList := by
  cases e <;> decide

theorem EventType.text_inj {e f : EventType} (h : e.text = f.text) : e = f := by
  revert h
  cases e <;> cases f <;> decide

theorem eventsKey_inj {a b m n : Int} {e f : EventType} {v w : String}
    (h : eventsKey a e m v = eventsKey b f n w) : a = b ∧ e = f ∧ m = n ∧ v = w := by
  have htail := (String.append_right_inj "events_trigger:").mp h
  obtain ⟨hab, htail⟩ := Text.colon_inj (Text.colon_not_mem_toString a)
    (Text.colon_not_mem_toString b) htail
  obtain ⟨hef, htail⟩ := Text.colon_inj e.colon_not_mem_text f.colon_not_mem_text htail
  obtain ⟨hmn, hvw⟩ := Text.colon_inj (Text.colon_not_mem_toString m)
    (Text.colon_not_mem_toString n) htail
  exact ⟨Text.toString_inj hab, EventType.text_inj hef, Text.toString_inj hmn, hvw⟩

/-- The name may hold colons, the account does not. -/
theorem nameKey_inj {s t : String} {a b : Int} (h : nameKey s a = nameKey t b) :
    s = t ∧ a = b := by
  have htail := (String.append_right_inj "tag:").mp h
  obtain ⟨hst, hab⟩ := Text.last_colon_inj (Text.colon_not_mem_toString a)
    (Text.colon_not_mem_toString b) htail
  exact ⟨hst, Text.toString_inj hab⟩

/-- The first letters of the keys of different tables differ. -/
theorem tagKey_ne_pushKey (a b c : Int) : tagKey a b ≠ pushKey c :=
  Text.append_ne_append _ _ 13 (by decide) (by decide) (by decide)

theorem tagKey_ne_eventsKey (a b c m : Int) (e : EventType) (w : String) :
    tagKey a b ≠ eventsKey c e m w :=
  Text.append_ne_append _ _ 1 (by decide) (by decide) (by decide)

theorem tagKey_ne_nameKey (a b c : Int) (s : String) : tagKey a b ≠ nameKey s c :=
  Text.append_ne_append _ _ 1 (by decide) (by decide) (by decide)

theorem pushKey_ne_eventsKey (a c m : Int) (e : EventType) (w : String) :
    pushKey a ≠ eventsKey c e m w :=
  Text.append_ne_append _ _ 1 (by decide) (by decide) (by decide)

theorem pushKey_ne_nameKey (a c : Int) (s : String) : pushKey a ≠ nameKey s c :=
  Text.append_ne_append _ _ 1 (by decide) (by decide) (by decide)

theorem eventsKey_ne_nameKey (a m c : Int) (e : EventType) (w s : String) :
    eventsKey a e m w ≠ nameKey s c :=
  Text.append_ne_append _ _ 1 (by decide) (by decide) (by decide)

theorem eventsKey_ne (a b m n : Int) (e f : EventType) :
    eventsKey a e m "automations" ≠ eventsKey b f n "campaigns" := by
  intro h
  exact absurd (eventsKey_inj h).2.2.2 (by decide)

theorem query_eq_or_push (db : Database) {l l' : Lookup}
    (h : l.key toLowerCase = l'.key toLowerCase) :
    l.query toLowerCase db = l'.query toLowerCase db ∨
      ∃ a t t', l = .automationsByPush a t ∧ l' = .automationsByPush a t' := by
  cases l with
  | automationsByTag t a =>
      refine .inl ?_
      cases l' with
      | automationsByTag t' a' =>
          obtain ⟨rfl, rfl⟩ := tagKey_inj h
          rfl
      | automationsByPush a' p => exact absurd h (tagKey_ne_pushKey _ _ _)
      | automationsByEvent a' e m => exact absurd h (tagKey_ne_eventsKey _ _ _ _ _ _)
      | campaignsByEvent a' e m => exact absurd h (tagKey_ne_eventsKey _ _ _ _ _ _)
      | tagByName s a' => exact absurd h (tagKey_ne_nameKey _ _ _ _)
  | automationsByPush a p =>
      cases l' with
      | automationsByTag t' a' => exact absurd h.symm (tagKey_ne_pushKey _ _ _)
      | automationsByPush a' p' =>
          obtain rfl := pushKey_inj h
          exact .inr ⟨a, p, p', rfl, rfl⟩
      | automationsByEvent a' e m => exact absurd h (pushKey_ne_eventsKey _ _ _ _ _)
      | campaignsByEvent a' e m => exact absurd h (pushKey_ne_eventsKey _ _ _ _ _)
      | tagByName s a' => exact absurd h (pushKey_ne_nameKey _ _ _)
  | automationsByEvent a e m =>
      refine .inl ?_
      cases l' with
      | automationsByTag t' a' => exact absurd h.symm (tagKey_ne_eventsKey _ _ _ _ _ _)
      | automationsByPush a' p' => exact absurd h.symm (pushKey_ne_eventsKey _ _ _ _ _)
      | automationsByEvent a' e' m' =>
          obtain ⟨rfl, rfl, rfl, -⟩ := eventsKey_inj h
          rfl
      | campaignsByEvent a' e' m' => exact absurd h (eventsKey_ne _ _ _ _ _ _)
      | tagByName s a' => exact absurd h (eventsKey_ne_nameKey _ _ _ _ _ _)
  | campaignsByEvent a e m =>
      refine .inl ?_
      cases l' with
      | automationsByTag t' a' => exact absurd h.symm (tagKey_ne_eventsKey _ _ _ _ _ _)
      | automationsByPush a' p' => exact absurd h.symm (pushKey_ne_eventsKey _ _ _ _ _)
      | automationsByEvent a' e' m' => exact absurd h.symm (eventsKey_ne _ _ _ _ _ _)
      | campaignsByEvent a' e' m' =>
          obtain ⟨rfl, rfl, rfl, -⟩ := eventsKey_inj h
          rfl
      | tagByName s a' => exact absurd h (eventsKey_ne_nameKey _ _ _ _ _ _)
  | tagByName s a =>
      refine .inl ?_
      cases l' with
      | automationsByTag t' a' => exact absurd h.symm (tagKey_ne_nameKey _ _ _ _)
      | automationsByPush a' p' => exact absurd h.symm (pushKey_ne_nameKey _ _ _)
      | automationsByEvent a' e' m' => exact absurd h.symm (eventsKey_ne_nameKey _ _ _ _ _ _)
      | campaignsByEvent a' e' m' => exact absurd h.symm (eventsKey_ne_nameKey _ _ _ _ _ _)
      | tagByName s' a' =>
          obtain ⟨hname, rfl⟩ := nameKey_inj h
          show db.queryTag (toLowerCase s) a = db.queryTag (toLowerCase s') a
          rw [hname]

/-! ## Sequences of lookups -/

/-- If both look the push automations of one account up and the earlier one's query
answers, the later one's query answers the same. -/
def PushAgree (db : Database) (l l' : Lookup) : Prop :=
  ∀ account type type', l = .automationsByPush account type →
    l' = .automationsByPush account type' → ∀ d, db.queryByPush account type = some d →
      db.queryByPush account type' = some d

theorem queryByPush_truthy {account : Int} {type : String} {d : Doc}
    (h : db.queryByPush account type = some d) : d.truthy = true := by
  rw [Database.queryByPush] at h
  split at h
  · obtain ⟨rows, -, rfl⟩ := Option.map_eq_some_iff.mp h
    rfl
  · cases h
    rfl

theorem agree_iff (l l' : Lookup) :
    Cache.Agree (Lookup.key toLowerCase) (Lookup.query toLowerCase db) Doc.truthy Lookup.keep l l' ↔
      PushAgree db l l' := by
  constructor
  · rintro h account type type' rfl rfl d hd
    exact h rfl d hd (queryByPush_truthy hd) rfl
  · intro h hkey d hd _ _
    rcases query_eq_or_push db hkey with heq | ⟨account, type, type', rfl, rfl⟩
    · rw [← heq]
      exact hd
    · exact h account type type' rfl rfl d hd

/-- Each lookup of a sequence returns what its query returns iff any two push
lookups of one account in it have queries that agree. -/
theorem lookups_iff (toLowerCase : String → String) (db : Database) (ls : List Lookup) :
    returned toLowerCase db (fun _ => none) ls = ls.map (Lookup.query toLowerCase db) ↔
      ls.Pairwise (PushAgree db) := by
  rw [returned_eq, Cache.run_eq_answers_iff]
  exact List.Pairwise.iff_of_mem fun _ _ => agree_iff _ _

/-- One account with an automation for each kind of push. -/
def pushAutomation (id : Int) (type : String) : AutomationEntity where
  id := id
  title := type
  name := type
  isActive := true
  type := "automation"
  steps := "[]"
  triggers := ⟨none, some type, none⟩
  isRateLimit := false
  verticalType := "automation"
  account := ⟨1, true⟩

def pushDatabase : Database where
  automations := [pushAutomation 10 "web-push", pushAutomation 11 "mobile-push"]
  campaigns := []
  tags := []
  castInt := String.toInt?
  ilike := fun a b => a = b
  quoted := fun _ _ => none

/-- A web push, then a mobile push: the second one starts the first one's automation. -/
theorem mobilePush_webPush :
    returned String.toLower pushDatabase (fun _ => none)
        [.automationsByPush 1 "web-push", .automationsByPush 1 "mobile-push"] =
      [some (.automations [pushAutomation 10 "web-push"]),
        some (.automations [pushAutomation 10 "web-push"])] ∧
    [Lookup.automationsByPush 1 "web-push", .automationsByPush 1 "mobile-push"].map
        (Lookup.query String.toLower pushDatabase) =
      [some (.automations [pushAutomation 10 "web-push"]),
        some (.automations [pushAutomation 11 "mobile-push"])] := by
  decide +kernel

end

end OpenBms.Lookups
