/-
# `OpenBms.Tracker.ShortLink` — the short links of WhatsApp messages

`createRedirectLink` writes the tracking fields behind the URL of a message, and stores
the text under a short code.  `processShortLink` parses it, publishes a click with its
parameters, deletes those with the names of the tracking fields, and redirects.

| a part of the destination | what becomes of it |
| :-- | :-- |
| a parameter with another name | stays |
| a parameter named like a tracking field | is deleted, and may be in the click |
| a fragment | takes the tracking fields in |

**Proved here.**

    a link takes the visitor to its destination, and the click has the
    fields of the sender, iff the destination has no fragment and no
    parameter named like a tracking field (`roundTrip_iff`)
    neither is so for some destinations, and a campaign's name can
    bring fields of its own (`link_breaks`)
-/
import OpenBms.Lib.Split

namespace OpenBms.Tracker.ShortLink

open Split

abbrev Text := List Char

abbrev Param := Text × Text

/-- What `new URL` takes a URL apart into; `base` is all up to the query. -/
structure Url where
  base : Text
  query : Option Text
  fragment : Option Text
  deriving DecidableEq

/-- `new URL(text)`, of a text without white space. -/
def parse (text : Text) : Url :=
  let front := cut '#' text
  let parts := cut '?' front.1
  ⟨parts.1, parts.2, front.2⟩

/-- How the parts of a query are decoded: `+` is a blank, `%` starts a byte, and other
characters stand for themselves. -/
structure FormDecoding where
  decode : Text → Text
  plain : ∀ text, '%' ∉ text → '+' ∉ text → decode text = text

/-- `url.searchParams`. -/
def searchParams (d : FormDecoding) (query : Text) : List Param :=
  ((split '&' query).filter (· ≠ [])).map fun piece =>
    (d.decode (cut '=' piece).1, d.decode ((cut '=' piece).2.getD []))

def Url.searchParams (d : FormDecoding) (url : Url) : List Param :=
  ShortLink.searchParams d (url.query.getD [])

/-! ## The sender -/

/-- What a campaign writes into a link. -/
structure CampaignLink where
  messageType : Text
  contactId : Text
  uuid : Text
  account : Text
  id : Text
  message : Text
  campaignType : Text
  campaign : Text
  domain : Text

/-- What an automation writes into a link. -/
structure AutomationLink where
  messageType : Text
  contactId : Text
  uuid : Text
  account : Text
  id : Text
  message : Text
  automation : Text
  automationName : Text
  automationType : Text
  domain : Text
  utmContent : Text

inductive Link where
  | campaign (link : CampaignLink)
  | automation (link : AutomationLink)

/-- `shortUtms`. -/
def Link.utms : Link → List Param
  | .campaign l =>
      [("platform".toList, "whatsapp_cloud".toList), ("message_type".toList, l.messageType),
        ("type".toList, "campaign".toList), ("contactId".toList, l.contactId),
        ("uuid".toList, l.uuid), ("account".toList, l.account), ("id".toList, l.id),
        ("message".toList, l.message), ("campaign_type".toList, l.campaignType),
        ("campaign".toList, l.campaign), ("domain".toList, l.domain)]
  | .automation l =>
      [("platform".toList, "whatsapp_cloud".toList), ("message_type".toList, l.messageType),
        ("type".toList, "automation".toList), ("contactId".toList, l.contactId),
        ("uuid".toList, l.uuid), ("account".toList, l.account), ("id".toList, l.id),
        ("message".toList, l.message), ("automation".toList, l.automation),
        ("automationName".toList, l.automationName), ("automationType".toList, l.automationType),
        ("domain".toList, l.domain), ("utm_content".toList, l.utmContent)]

def piece (p : Param) : Text := p.1 ++ '=' :: p.2

def render (params : List Param) : Text := join '&' (params.map piece)

/-- `text.includes(name)`. -/
def includes (name text : Text) : Bool := text.tails.any fun rest => name.isPrefixOf rest

/-- `if (!url.includes(name)) url += '&name=value'`. -/
def addMissing (name value url : Text) : Text :=
  if includes name url then url else url ++ '&' :: piece (name, value)

/-- The text stored under the short code. -/
def createRedirectLink (url : Text) (utmsDefault : List Param) (type utmCampaign : Text) : Text :=
  addMissing "utm_campaign".toList utmCampaign
    (addMissing "utm_medium".toList type
      (addMissing "utm_source".toList "bms".toList
        (url ++ (if '?' ∈ url then '&' else '?') :: render utmsDefault)))

/-! ## The tracker -/

def deleteKeys : List Text :=
  ["platform".toList, "message_type".toList, "type".toList, "uuid".toList, "account".toList,
    "id".toList, "message".toList, "campaign_type".toList, "campaign".toList, "domain".toList,
    "contactId".toList, "automation".toList, "automationName".toList, "automationType".toList]

/-- `Object.fromEntries(params)[name]`. -/
def lastValue (params : List Param) (name : Text) : Option Text :=
  ((params.filter (·.1 = name)).getLast?).map (·.2)

/-- Where a visitor is sent, and the categories of the click. -/
structure Visit where
  base : Text
  params : List Param
  fragment : Option Text
  categories : Text → Option Text

def processShortLink (d : FormDecoding) (longUrl : Text) : Visit :=
  let url := parse longUrl
  let params := url.searchParams d
  ⟨url.base, params.filter (!deleteKeys.contains ·.1), url.fragment, lastValue params⟩

theorem not_deleted_iff {p : Param} : (!deleteKeys.contains p.1) = true ↔ p.1 ∉ deleteKeys := by
  rw [Bool.not_eq_true', List.contains_eq_mem, decide_eq_false_iff_not]

/-- The visitor gets to the destination with all its parameters and its fragment, and the
click has the fields of the sender, and no others of their names. -/
structure RoundTrip (d : FormDecoding) (url : Text) (link : Link) (type utmCampaign : Text)
    (visit : Visit) : Prop where
  base : visit.base = (parse url).base
  fragment : visit.fragment = (parse url).fragment
  params : (parse url).searchParams d <+: visit.params
  categories : ∀ name ∈ deleteKeys, visit.categories name = lastValue link.utms name

/-! ## Parameters that are read back -/

/-- No character that means something in a URL. -/
def Plain (text : Text) : Prop := '&' ∉ text ∧ '#' ∉ text ∧ '%' ∉ text ∧ '+' ∉ text

instance (text : Text) : Decidable (Plain text) := inferInstanceAs (Decidable (_ ∧ _))

/-- A parameter that is read back as it is written. -/
structure PlainParam (p : Param) : Prop where
  name : Plain p.1
  equals : '=' ∉ p.1
  value : Plain p.2

section
variable {d : FormDecoding} {url type utmCampaign : Text} {link : Link} {params : List Param}

theorem Plain.decode {text : Text} (h : Plain text) : d.decode text = text :=
  d.plain text h.2.2.1 h.2.2.2

theorem not_mem_piece {p : Param} {c : Char} (hname : c ∉ p.1) (hequals : c ≠ '=')
    (hvalue : c ∉ p.2) : c ∉ piece p := by
  simp only [piece, List.mem_append, List.mem_cons, not_or]
  exact ⟨hname, hequals, hvalue⟩

theorem searchParams_append {query query' : Text} :
    searchParams d (query ++ '&' :: query') = searchParams d query ++ searchParams d query' := by
  simp only [searchParams, split_append, List.filter_append, List.map_append]

theorem searchParams_render (hne : params ≠ []) (h : ∀ p ∈ params, PlainParam p) :
    searchParams d (render params) = params := by
  have hsplit : split '&' (render params) = params.map piece := by
    refine split_join (fun hnil => hne (List.map_eq_nil_iff.mp hnil)) fun part hpart => ?_
    obtain ⟨p, hp, rfl⟩ := List.mem_map.mp hpart
    exact not_mem_piece (h p hp).name.1 (by decide) (h p hp).value.1
  have hkept : (params.map piece).filter (· ≠ []) = params.map piece := by
    refine List.filter_eq_self.mpr fun part hpart => decide_eq_true ?_
    obtain ⟨p, _, rfl⟩ := List.mem_map.mp hpart
    exact List.append_ne_nil_of_right_ne_nil _ (List.cons_ne_nil _ _)
  simp only [searchParams, hsplit, hkept, List.map_map]
  refine (List.map_congr_left fun p hp => ?_).trans (List.map_id _)
  have hcut : cut '=' (piece p) = (p.1, some p.2) := cut_append (h p hp).equals
  simp only [Function.comp, hcut, Option.getD_some, (h p hp).name.decode, (h p hp).value.decode,
    id_eq]

theorem hash_not_mem_render (h : ∀ p ∈ params, PlainParam p) : '#' ∉ render params := by
  intro hmem
  rcases mem_join hmem with heq | ⟨part, hpart, hx⟩
  · cases heq
  · obtain ⟨p, hp, rfl⟩ := List.mem_map.mp hpart
    exact not_mem_piece (h p hp).name.2.1 (by decide) (h p hp).value.2.1 hx

/-! ## What is stored -/

theorem render_concat {p : Param} (hne : params ≠ []) :
    render (params ++ [p]) = render params ++ '&' :: piece p := by
  have hjoin : ∀ parts : List Text, parts ≠ [] →
      join '&' (parts ++ [piece p]) = join '&' parts ++ '&' :: piece p := by
    intro parts hparts
    induction parts with
    | nil => exact absurd rfl hparts
    | cons part parts ih =>
        by_cases hnil : parts = []
        · subst hnil
          rfl
        · rw [List.cons_append, join_cons (List.append_ne_nil_of_left_ne_nil hnil _), ih hnil,
            join_cons hnil, List.append_assoc, List.cons_append]
  rw [render, List.map_append, List.map_singleton, hjoin _ (fun h => hne (List.map_eq_nil_iff.mp h))]
  rfl

/-- The sender's fields and those that were missing, behind the URL. -/
def stored (url : Text) (params : List Param) : Text :=
  url ++ (if '?' ∈ url then '&' else '?') :: render params

theorem addMissing_stored (url : Text) (hne : params ≠ []) (name value : Text) :
    ∃ extra, addMissing name value (stored url params) = stored url (params ++ extra) ∧
      ∀ p ∈ extra, p = (name, value) := by
  simp only [addMissing]
  split
  · exact ⟨[], by rw [List.append_nil], fun p hp => by cases hp⟩
  · refine ⟨[(name, value)], ?_, fun p hp => List.mem_singleton.mp hp⟩
    simp only [stored, render_concat hne, List.append_assoc, List.cons_append]

theorem utms_ne_nil : link.utms ≠ [] := by
  cases link with
  | campaign l => exact List.cons_ne_nil _ _
  | automation l => exact List.cons_ne_nil _ _

/-- The parameters that are added when the text does not have them. -/
def utmNames : List Text := ["utm_source".toList, "utm_medium".toList, "utm_campaign".toList]

theorem createRedirectLink_eq (url : Text) (link : Link) (type utmCampaign : Text) :
    ∃ extra, createRedirectLink url link.utms type utmCampaign = stored url (link.utms ++ extra) ∧
      ∀ p ∈ extra, p.1 ∈ utmNames ∧ (p.2 = "bms".toList ∨ p.2 = type ∨ p.2 = utmCampaign) := by
  have hne : ∀ extra : List Param, link.utms ++ extra ≠ [] :=
    fun _ => List.append_ne_nil_of_left_ne_nil utms_ne_nil _
  obtain ⟨source, hsource, hsource'⟩ :=
    addMissing_stored url utms_ne_nil "utm_source".toList "bms".toList
  obtain ⟨medium, hmedium, hmedium'⟩ :=
    addMissing_stored url (hne source) "utm_medium".toList type
  obtain ⟨campaign, hcampaign, hcampaign'⟩ :=
    addMissing_stored url (hne (source ++ medium)) "utm_campaign".toList utmCampaign
  refine ⟨source ++ medium ++ campaign, ?_, fun p hp => ?_⟩
  · have hstored : createRedirectLink url link.utms type utmCampaign =
        addMissing "utm_campaign".toList utmCampaign (addMissing "utm_medium".toList type
          (addMissing "utm_source".toList "bms".toList (stored url link.utms))) := rfl
    rw [hstored, hsource, hmedium, List.append_assoc, hcampaign, List.append_assoc]
  · rcases List.mem_append.mp hp with hp | hp
    · rcases List.mem_append.mp hp with hp | hp
      · cases hsource' p hp
        exact ⟨(by decide : "utm_source".toList ∈ utmNames), .inl rfl⟩
      · cases hmedium' p hp
        exact ⟨(by decide : "utm_medium".toList ∈ utmNames), .inr (.inl rfl)⟩
    · cases hcampaign' p hp
      exact ⟨(by decide : "utm_campaign".toList ∈ utmNames), .inr (.inr rfl)⟩

/-! ## What is read back -/

/-- Without a fragment, the fields are parameters after those of the destination. -/
theorem parse_stored (hfragment : '#' ∉ url) (hne : params ≠ []) (h : ∀ p ∈ params, PlainParam p) :
    (parse (stored url params)).base = (parse url).base ∧
      (parse (stored url params)).fragment = none ∧
      (parse (stored url params)).searchParams d = (parse url).searchParams d ++ params := by
  have hhash : '#' ∉ stored url params := by
    simp only [stored, List.mem_append, List.mem_cons, not_or]
    refine ⟨hfragment, ?_, hash_not_mem_render h⟩
    split <;> decide
  have hfront : cut '#' (stored url params) = (stored url params, none) := cut_of_not_mem hhash
  have hurl : cut '#' url = (url, none) := cut_of_not_mem hfragment
  by_cases hquery : '?' ∈ url
  · obtain ⟨query, hcut⟩ : ∃ query, (cut '?' url).2 = some query :=
      Option.ne_none_iff_exists'.mp fun hnone => (cut_eq_none.mp hnone) hquery
    have hstored : cut '?' (stored url params) =
        ((cut '?' url).1, some (query ++ '&' :: render params)) := by
      rw [stored, if_pos hquery]
      exact cut_append_of_some hcut
    simp only [parse, Url.searchParams, hfront, hurl, hstored, hcut, Option.getD_some]
    refine ⟨trivial, trivial, ?_⟩
    rw [searchParams_append, searchParams_render hne h]
  · have hstored : cut '?' (stored url params) = (url, some (render params)) := by
      rw [stored, if_neg hquery]
      exact cut_append hquery
    have hcut : cut '?' url = (url, none) := cut_of_not_mem hquery
    simp only [parse, Url.searchParams, hfront, hurl, hstored, hcut, Option.getD_some,
      Option.getD_none]
    refine ⟨trivial, trivial, ?_⟩
    rw [searchParams_render hne h]
    rfl

/-- With a fragment, everything is written into it. -/
theorem fragment_stored {fragment : Text} (h : (parse url).fragment = some fragment) :
    (parse (stored url params)).fragment ≠ some fragment := by
  have hcut : (cut '#' url).2 = some fragment := h
  have hstored : (parse (stored url params)).fragment =
      some (fragment ++ (if '?' ∈ url then '&' else '?') :: render params) := by
    simp only [parse, stored, cut_append_of_some hcut]
  rw [hstored]
  intro heq
  have hlength := congrArg List.length (Option.some_inj.mp heq)
  simp only [List.length_append, List.length_cons] at hlength
  omega

theorem lastValue_append {params' : List Param} {name : Text}
    (h : ∀ p ∈ params, p.1 ≠ name) :
    lastValue (params ++ params') name = lastValue params' name := by
  have hnone : params.filter (·.1 = name) = [] :=
    List.filter_eq_nil_iff.mpr fun p hp hname => h p hp (of_decide_eq_true hname)
  rw [lastValue, List.filter_append, hnone, List.nil_append]
  rfl

theorem lastValue_append_left {params' : List Param} {name : Text}
    (h : ∀ p ∈ params', p.1 ≠ name) :
    lastValue (params ++ params') name = lastValue params name := by
  have hnone : params'.filter (·.1 = name) = [] :=
    List.filter_eq_nil_iff.mpr fun p hp hname => h p hp (of_decide_eq_true hname)
  rw [lastValue, List.filter_append, hnone, List.append_nil]
  rfl

theorem utmNames_not_deleted : ∀ name ∈ utmNames, name ∉ deleteKeys := by decide

/-- The names in the links of both kinds. -/
def utmsNames : List Text :=
  ["utm_content".toList] ++ deleteKeys

theorem plain_utms (h : ∀ p ∈ link.utms, Plain p.2) : ∀ p ∈ link.utms, PlainParam p := by
  have hplain : ∀ name ∈ utmsNames, Plain name ∧ '=' ∉ name := by decide
  have hnames : link.utms.map (·.1) ⊆ utmsNames := by
    cases link with
    | campaign l =>
        show ["platform".toList, "message_type".toList, "type".toList, "contactId".toList,
          "uuid".toList, "account".toList, "id".toList, "message".toList,
          "campaign_type".toList, "campaign".toList, "domain".toList] ⊆ utmsNames
        decide
    | automation l =>
        show ["platform".toList, "message_type".toList, "type".toList, "contactId".toList,
          "uuid".toList, "account".toList, "id".toList, "message".toList, "automation".toList,
          "automationName".toList, "automationType".toList, "domain".toList,
          "utm_content".toList] ⊆ utmsNames
        decide
  intro p hp
  have hname := hplain p.1 (hnames (List.mem_map_of_mem hp))
  exact ⟨hname.1, hname.2, h p hp⟩

/-- A short link takes a visitor to its destination, with all its parameters and its
fragment, and records a click with exactly the sender's fields, if and only if the
destination has no fragment and no parameter named like a tracking field; when the
sender's own values have no character that means something in a URL. -/
theorem roundTrip_iff (d : FormDecoding) (url : Text) (link : Link) (type utmCampaign : Text)
    (hplain : ∀ p ∈ link.utms, Plain p.2) (htype : Plain type) (hcampaign : Plain utmCampaign) :
    RoundTrip d url link type utmCampaign
        (processShortLink d (createRedirectLink url link.utms type utmCampaign)) ↔
      '#' ∉ url ∧ ∀ p ∈ (parse url).searchParams d, p.1 ∉ deleteKeys := by
  obtain ⟨extra, hlink, hextra⟩ := createRedirectLink_eq url link type utmCampaign
  have hne : link.utms ++ extra ≠ [] := List.append_ne_nil_of_left_ne_nil utms_ne_nil _
  have hparams : ∀ p ∈ link.utms ++ extra, PlainParam p := by
    intro p hp
    rcases List.mem_append.mp hp with hp | hp
    · exact plain_utms hplain p hp
    · obtain ⟨hname, hvalue⟩ := hextra p hp
      have hutm : ∀ name ∈ utmNames, Plain name ∧ '=' ∉ name := by decide
      refine ⟨(hutm _ hname).1, (hutm _ hname).2, ?_⟩
      rcases hvalue with hvalue | hvalue | hvalue
      · rw [hvalue]
        decide
      · rwa [hvalue]
      · rwa [hvalue]
  rw [hlink]
  constructor
  · intro h
    have hfragment : '#' ∉ url := by
      intro hmem
      obtain ⟨fragment, hsome⟩ : ∃ fragment, (parse url).fragment = some fragment :=
        Option.ne_none_iff_exists'.mp fun hnone => (cut_eq_none.mp hnone) hmem
      exact fragment_stored hsome (h.fragment.trans hsome)
    refine ⟨hfragment, fun p hp => ?_⟩
    exact not_deleted_iff.mp (List.mem_filter.mp (h.params.subset hp)).2
  · rintro ⟨hfragment, hown⟩
    obtain ⟨hbase, hnone, hread⟩ := parse_stored (d := d) hfragment hne hparams
    have hurl : (parse url).fragment = none := by
      simp only [parse, cut_of_not_mem hfragment]
    refine ⟨hbase, hnone.trans hurl.symm, ?_, ?_⟩
    · simp only [processShortLink, hread, List.filter_append]
      rw [List.filter_eq_self.mpr fun p hp => not_deleted_iff.mpr (hown p hp)]
      exact List.prefix_append _ _
    · intro name hname
      simp only [processShortLink, hread]
      rw [lastValue_append fun p hp heq => hown p hp (heq ▸ hname)]
      refine lastValue_append_left fun p hp heq => ?_
      exact utmNames_not_deleted p.1 (hextra p hp).1 (heq ▸ hname)

end

/-- `+` is a blank; enough for texts without `%`. -/
def blanks : FormDecoding where
  decode := fun text => text.map fun c => if c = '+' then ' ' else c
  plain := by
    intro text _ hplus
    refine (List.map_congr_left fun c hc => if_neg ?_).trans (List.map_id _)
    rintro rfl
    exact hplus hc

/-- A link of a campaign, with the texts that matter below. -/
def sampleLink : Link :=
  .campaign ⟨"whatsapp".toList, "7".toList, "u7".toList, "1".toList, "hello".toList, "9".toList,
    "single".toList, "3".toList, "x.com".toList⟩

theorem roundTrip_sample : RoundTrip blanks "https://x.com/p?q=a+b".toList sampleLink "whatsapp".toList
    "sale_e1_9".toList (processShortLink blanks (createRedirectLink "https://x.com/p?q=a+b".toList
      sampleLink.utms "whatsapp".toList "sale_e1_9".toList)) :=
  (roundTrip_iff blanks "https://x.com/p?q=a+b".toList sampleLink "whatsapp".toList
    "sale_e1_9".toList (by decide) (by decide) (by decide)).mpr ⟨by decide, by decide⟩

/-- A destination with a fragment, one with a parameter `id`, and a campaign with `&` in
its name, which records a click for another account. -/
theorem link_breaks :
    ¬ RoundTrip blanks "https://x.com/p#top".toList sampleLink "whatsapp".toList "sale_e1_9".toList
        (processShortLink blanks (createRedirectLink "https://x.com/p#top".toList
          sampleLink.utms "whatsapp".toList "sale_e1_9".toList)) ∧
      ¬ RoundTrip blanks "https://x.com/p?id=5".toList sampleLink "whatsapp".toList
        "sale_e1_9".toList (processShortLink blanks (createRedirectLink
          "https://x.com/p?id=5".toList sampleLink.utms "whatsapp".toList "sale_e1_9".toList)) ∧
      (processShortLink blanks (createRedirectLink "https://x.com/p".toList sampleLink.utms
        "whatsapp".toList "a&account=2_e1_9".toList)).categories "account".toList =
          some "2_e1_9".toList := by
  refine ⟨fun h => ?_, fun h => ?_, by decide +kernel⟩
  · exact absurd h.fragment (by decide +kernel)
  · have hmem := h.params.subset (a := ("id".toList, "5".toList)) (by decide +kernel)
    exact absurd hmem (by decide +kernel)

end OpenBms.Tracker.ShortLink
