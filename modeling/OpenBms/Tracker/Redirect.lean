/-
# `OpenBms.Tracker.Redirect` — the tracking links of e-mails

`createEmailPixel` takes the URL of a link apart, puts its own parameters in front of the
others, writes the text without encoding it again, adds the contact and the account, and
puts the base64 of it into the link.  The tracker's `redirect` decodes the base64 as ASCII
and then every percent escape, parses the text, and redirects without its own parameters.

| a part of the destination | what becomes of it |
| :-- | :-- |
| a fragment | is not written |
| a parameter given twice | one parameter, with a comma |
| `&`, `#`, `+`, `%` in a value | mean something when the text is parsed |
| a character that is not ASCII | other characters |
| a character whose base64 has a `+` | lost, as the `+` is a blank in the link |
| `bmsu`, `bmsuuid`, `bmsa`, `bmst`, `utm_id` | deleted |

**Proved here.**

    where each character stands for itself, a link takes the visitor to its
    destination iff that has no fragment, each parameter once, and none that
    the tracker deletes (`redirect_roundTrip_iff`)
    no link keeps a fragment, or a parameter of the tracker's (`roundTrip_kept`)
    it fails for a fragment, an `&`, a letter with an accent (`redirect_breaks`)
-/
import OpenBms.Lib.Base64
import OpenBms.Tracker.ShortLink

namespace OpenBms.Tracker.Redirect

open Split ShortLink

/-- A URL, its query decoded. -/
structure Destination where
  origin : Text
  pathname : Text
  params : List Param
  fragment : Option Text

/-- The functions of the platform that read URLs. -/
structure Standard where
  /-- How `URLSearchParams` decodes. -/
  form : FormDecoding
  decodeURI : Text → Option Text
  /-- Throws where an escape is malformed. -/
  decodeURIComponent : Text → Option Text
  /-- `origin` and `pathname` of a URL without query and fragment. -/
  location : Text → Option (Text × Text)
  plain : ∀ text, '%' ∉ text → decodeURIComponent text = some text

/-- What `new URL` takes out of a text. -/
def stripped : List Char := ['\t', '\n', '\r']

/-- A character of ASCII that stays. -/
def ascii (c : Char) : Bool := c.toNat < 128 && !stripped.contains c

/-- A text that stands for itself in a URL. -/
def Safe (text : Text) : Prop := Plain text ∧ text.all ascii = true

instance (text : Text) : Decidable (Safe text) := inferInstanceAs (Decidable (_ ∧ _))

/-- What the platform adds: the name of the provider, the slug of a campaign, a UUID, a number. -/
structure Sender where
  provider : Text
  utmCampaign : Text
  /-- Only in links of one account to one host. -/
  campaignId : Option Text
  uuid : Text
  accountId : Text
  provider_safe : Safe provider
  utmCampaign_safe : Safe utmCampaign
  campaignId_safe : ∀ id, campaignId = some id → Safe id
  uuid_safe : Safe uuid
  accountId_safe : Safe accountId
  accountId_ne : accountId ≠ []

/-! ## The link -/

def Sender.defaultParams (sender : Sender) : List Param :=
  [("utm_source".toList, sender.provider), ("utm_medium".toList, "email".toList),
    ("utm_campaign".toList, sender.utmCampaign)] ++
      (sender.campaignId.map fun id => ("campaign_id".toList, id)).toList

/-- `params.getAll(name)`. -/
def getAll (params : List Param) (name : Text) : List Text :=
  (params.filter (·.1 = name)).map (·.2)

/-- The object of the parameters; an array is written with commas. -/
def paramsFromUrl (params : List Param) : List Param :=
  (params.map (·.1)).eraseDups.map fun name => (name, join ',' (getAll params name))

/-- `{ ...defaults, ...own }`. -/
def spread (defaults own : List Param) : List Param :=
  defaults.map (fun p => (p.1, (lastValue own p.1).getD p.2)) ++
    own.filter fun p => !(defaults.map (·.1)).contains p.1

def queryParams (sender : Sender) (d : Destination) : List Param :=
  spread sender.defaultParams (paramsFromUrl d.params)

/-- `${auxOriginalLink}&bmsu=${uuid}&bmsa=${accountId}`, of a decoded path. -/
def bmsText (sender : Sender) (d : Destination) (path : Text) : Text :=
  d.origin ++ path ++ '?' :: (render (queryParams sender d) ++
    '&' :: (piece ("bmsu".toList, sender.uuid) ++ '&' :: piece ("bmsa".toList, sender.accountId)))

def utf8 (text : Text) : List Nat :=
  text.flatMap fun c => (String.utf8EncodeChar c).map UInt8.toNat

/-- The parameter `url` of the link; a path that cannot be decoded throws. -/
def bmsUrl (std : Standard) (sender : Sender) (d : Destination) : Option Text :=
  (std.decodeURI d.pathname).map fun path => Base64.encode (utf8 (bmsText sender d path))

/-! ## The tracker -/

/-- What the parser of the query makes of base64. -/
def received (url : Text) : Text := url.map fun c => if c = '+' then ' ' else c

/-- `Buffer.from(url, 'base64').toString('ascii')`. -/
def decodedUrl (url : Text) : Text := (Base64.decode url).map fun b => Char.ofNat (b % 128)

/-- `urlParams[name]` is there, and not empty. -/
def present (params : List Param) (name : Text) : Bool :=
  match lastValue params name with
  | some value => !value.isEmpty
  | none => false

def deleteNames (params : List Param) : List Text :=
  ["utm_id".toList, "bmst".toList, "bmsa".toList].filter (present params) ++
    ["bmsu".toList, "bmsuuid".toList]

/-- Where a visitor is sent. -/
def redirect (std : Standard) (url : Text) : Option Destination :=
  (std.decodeURIComponent (decodedUrl url)).bind fun decoded =>
    let text := decoded.filter fun c => !stripped.contains c
    let parts := cut '?' (cut '#' text).1
    (std.location parts.1).map fun location =>
      let params := ShortLink.searchParams std.form (parts.2.getD [])
      ⟨location.1, location.2, params.filter fun p => !(deleteNames params).contains p.1, none⟩

/-- A visitor follows the link. -/
def follow (std : Standard) (sender : Sender) (d : Destination) : Option Destination :=
  (bmsUrl std sender d).bind fun url => redirect std (received url)

/-- The visitor gets to the destination with the contact's values in it, and all its
parameters, and those of the platform. -/
structure RoundTrip (sender : Sender) (target : Destination) (visit : Option Destination) : Prop where
  location : visit.map (fun r => (r.origin, r.pathname)) = some (target.origin, target.pathname)
  fragment : visit.bind (·.fragment) = target.fragment
  params : ∀ r, visit = some r →
    (r.params.filter fun p => p.1 ∈ target.params.map (·.1)).Perm target.params
  added : ∀ r, visit = some r → ∀ p ∈ r.params, p ∈ target.params ∨ p ∈ sender.defaultParams

/-- A destination whose characters stand for themselves in every step. -/
structure Clear (std : Standard) (substitute : Destination → Destination) (sender : Sender)
    (d : Destination) : Prop where
  /-- No value of the contact is put into it later. -/
  substituted : substitute d = d
  path : ∃ path, std.decodeURI d.pathname = some path ∧
    std.location (d.origin ++ path) = some (d.origin, d.pathname) ∧
    (d.origin ++ path).all ascii = true ∧
    '%' ∉ d.origin ++ path ∧ '?' ∉ d.origin ++ path ∧ '#' ∉ d.origin ++ path ∧
    '+' ∉ Base64.encode (utf8 (bmsText sender d path))
  params : ∀ p ∈ d.params, Safe p.1 ∧ '=' ∉ p.1 ∧ Safe p.2

/-- A destination that is written, and not deleted. -/
structure Sound (d : Destination) : Prop where
  fragment : d.fragment = none
  once : (d.params.map (·.1)).Nodup
  own : ∀ p ∈ d.params, p.1 ∉ ["bmsu".toList, "bmsuuid".toList, "bmsa".toList] ∧
    (p.1 ∈ ["utm_id".toList, "bmst".toList] → p.2 = [])

section
variable {std : Standard} {sender : Sender} {d target : Destination} {text path : Text}
  {params : List Param}

/-! ## The text through base64 -/

theorem utf8_of_ascii (h : ∀ c ∈ text, c.toNat < 128) : utf8 text = text.map Char.toNat := by
  induction text with
  | nil => rfl
  | cons c text ih =>
      have hc := h c (List.mem_cons_self ..)
      have hfirst : (String.utf8EncodeChar c).map UInt8.toNat = [c.toNat] := by
        have hle : c.val.toNat ≤ 0x7f := Nat.lt_succ_iff.mp hc
        have hencode : String.utf8EncodeChar c = [UInt8.ofNat c.val.toNat] := if_pos hle
        rw [hencode, List.map_singleton, UInt8.toNat_ofNat']
        exact congrArg (fun n => [n]) (Nat.mod_eq_of_lt (by omega))
      have hrest := ih fun d hd => h d (List.mem_cons_of_mem _ hd)
      rw [utf8] at hrest ⊢
      rw [List.flatMap_cons, hfirst, hrest, List.map_cons, List.singleton_append]

theorem decodedUrl_received (h : ∀ c ∈ text, c.toNat < 128)
    (hplus : '+' ∉ Base64.encode (utf8 text)) :
    decodedUrl (received (Base64.encode (utf8 text))) = text := by
  have hsame : received (Base64.encode (utf8 text)) = Base64.encode (utf8 text) := by
    refine (List.map_congr_left fun c hc => if_neg ?_).trans (List.map_id _)
    rintro rfl
    exact hplus hc
  have hbytes : ∀ b ∈ text.map Char.toNat, b < 256 := by
    intro b hb
    obtain ⟨c, hc, rfl⟩ := List.mem_map.mp hb
    have hlt := h c hc
    omega
  rw [hsame, decodedUrl, utf8_of_ascii h, Base64.decode_encode hbytes, List.map_map]
  refine (List.map_congr_left fun c hc => ?_).trans (List.map_id _)
  show Char.ofNat (c.toNat % 128) = id c
  rw [Nat.mod_eq_of_lt (h c hc), Char.ofNat_toNat]
  rfl

/-! ## Parameters with names of their own -/

theorem filter_name_eq {p : Param} (h : (params.map (·.1)).Nodup) (hp : p ∈ params) :
    params.filter (·.1 = p.1) = [p] := by
  induction params with
  | nil => cases hp
  | cons q params ih =>
      rw [List.map_cons, List.nodup_cons] at h
      rcases List.mem_cons.mp hp with rfl | hp
      · have hrest : params.filter (·.1 = p.1) = [] := by
          refine List.filter_eq_nil_iff.mpr fun q hq hname => h.1 ?_
          exact List.mem_map.mpr ⟨q, hq, of_decide_eq_true hname⟩
        rw [List.filter_cons, if_pos (decide_eq_true rfl), hrest]
      · have hne : ¬ decide (q.1 = p.1) = true := by
          intro hname
          exact h.1 (of_decide_eq_true hname ▸ List.mem_map_of_mem hp)
        rw [List.filter_cons, if_neg hne]
        exact ih h.2 hp

theorem lastValue_of_mem {p : Param} (h : (params.map (·.1)).Nodup) (hp : p ∈ params) :
    lastValue params p.1 = some p.2 := by
  rw [lastValue, filter_name_eq h hp]
  rfl

theorem mem_of_lastValue {name value : Text} (h : lastValue params name = some value) :
    (name, value) ∈ params := by
  obtain ⟨p, hp, rfl⟩ := Option.map_eq_some_iff.mp h
  obtain ⟨hmem, hname⟩ := List.mem_filter.mp (List.mem_of_getLast? hp)
  rw [← of_decide_eq_true hname]
  exact hmem

theorem eraseDups_of_nodup {names : List Text} (h : names.Nodup) : names.eraseDups = names := by
  induction names with
  | nil => rfl
  | cons name names ih =>
      rw [List.nodup_cons] at h
      have hrest : names.filter (fun b => !b == name) = names := by
        refine List.filter_eq_self.mpr fun b hb => ?_
        rw [Bool.not_eq_true', beq_eq_false_iff_ne]
        rintro rfl
        exact h.1 hb
      rw [List.eraseDups_cons, hrest, ih h.2]

theorem nodup_eraseDups (names : List Text) : names.eraseDups.Nodup := by
  induction hlength : names.length using Nat.strong_induction_on generalizing names with
  | _ n ih =>
      cases names with
      | nil => exact List.nodup_nil
      | cons name names =>
          rw [List.eraseDups_cons, List.nodup_cons]
          refine ⟨fun hmem => ?_, ?_⟩
          · have hfilter := (List.mem_filter.mp (List.mem_eraseDups.mp hmem)).2
            rw [Bool.not_eq_true', beq_self_eq_true] at hfilter
            cases hfilter
          · refine ih _ ?_ _ rfl
            have hle := List.length_filter_le (fun b => !b == name) names
            rw [List.length_cons] at hlength
            omega

theorem paramsFromUrl_names : (paramsFromUrl params).map (·.1) = (params.map (·.1)).eraseDups := by
  rw [paramsFromUrl, List.map_map]
  exact List.map_id _

theorem safe_join {values : List Text} (h : ∀ value ∈ values, Safe value) : Safe (join ',' values) := by
  have hcomma : Safe [','] := by decide
  have hplain : ∀ c, (∀ text, Safe text → c ∉ text) → c ∉ join ',' values := by
    intro c hnot hmem
    rcases mem_join hmem with rfl | ⟨value, hvalue, hmem⟩
    · exact hnot _ hcomma (List.mem_singleton_self _)
    · exact hnot value (h value hvalue) hmem
  refine ⟨⟨hplain _ fun _ hs => hs.1.1, hplain _ fun _ hs => hs.1.2.1,
    hplain _ fun _ hs => hs.1.2.2.1, hplain _ fun _ hs => hs.1.2.2.2⟩, ?_⟩
  refine List.all_eq_true.mpr fun c hc => ?_
  rcases mem_join hc with rfl | ⟨value, hvalue, hmem⟩
  · exact List.all_eq_true.mp hcomma.2 _ (List.mem_singleton_self _)
  · exact List.all_eq_true.mp (h value hvalue).2 c hmem

/-- Parameters that are joined stay safe. -/
theorem safe_paramsFromUrl (h : ∀ p ∈ params, Safe p.1 ∧ '=' ∉ p.1 ∧ Safe p.2) {p : Param}
    (hp : p ∈ paramsFromUrl params) : Safe p.1 ∧ '=' ∉ p.1 ∧ Safe p.2 := by
  obtain ⟨name, hname, rfl⟩ := List.mem_map.mp hp
  obtain ⟨q, hq, rfl⟩ := List.mem_map.mp (List.mem_eraseDups.mp hname)
  refine ⟨(h q hq).1, (h q hq).2.1, safe_join fun value hvalue => ?_⟩
  obtain ⟨r, hr, rfl⟩ := List.mem_map.mp hvalue
  exact (h r (List.mem_filter.mp hr).1).2.2

theorem paramsFromUrl_of_nodup (h : (params.map (·.1)).Nodup) : paramsFromUrl params = params := by
  rw [paramsFromUrl, eraseDups_of_nodup h, List.map_map]
  refine (List.map_congr_left fun p hp => ?_).trans (List.map_id _)
  show (p.1, join ',' (getAll params p.1)) = p
  rw [getAll, filter_name_eq h hp]
  rfl

/-! ## The parameters that are written -/

/-- The parameters of the text that is encoded. -/
def allParams (sender : Sender) (d : Destination) : List Param :=
  queryParams sender d ++ [("bmsu".toList, sender.uuid), ("bmsa".toList, sender.accountId)]

theorem queryParams_ne : queryParams sender d ≠ [] :=
  List.append_ne_nil_of_left_ne_nil (List.cons_ne_nil _ _) _

theorem allParams_eq : allParams sender d =
    (queryParams sender d ++ [("bmsu".toList, sender.uuid)]) ++ [("bmsa".toList, sender.accountId)] := by
  rw [List.append_assoc]
  rfl

theorem bmsText_eq :
    bmsText sender d path = d.origin ++ path ++ '?' :: render (allParams sender d) := by
  rw [bmsText, allParams_eq, render_concat (List.append_ne_nil_of_left_ne_nil queryParams_ne _),
    render_concat queryParams_ne, List.append_assoc (render _), List.cons_append]

theorem defaultParams_safe {p : Param} (h : p ∈ sender.defaultParams) :
    Safe p.1 ∧ '=' ∉ p.1 ∧ Safe p.2 := by
  rw [Sender.defaultParams, List.mem_append] at h
  rcases h with h | h
  · simp only [List.mem_cons, List.not_mem_nil, or_false] at h
    rcases h with rfl | rfl | rfl
    · exact ⟨(by decide : Safe "utm_source".toList), (by decide : '=' ∉ "utm_source".toList),
        sender.provider_safe⟩
    · exact ⟨(by decide : Safe "utm_medium".toList), (by decide : '=' ∉ "utm_medium".toList),
        (by decide : Safe "email".toList)⟩
    · exact ⟨(by decide : Safe "utm_campaign".toList), (by decide : '=' ∉ "utm_campaign".toList),
        sender.utmCampaign_safe⟩
  · obtain ⟨id, hid, rfl⟩ := Option.map_eq_some_iff.mp (Option.mem_toList.mp h)
    exact ⟨(by decide : Safe "campaign_id".toList), (by decide : '=' ∉ "campaign_id".toList),
      sender.campaignId_safe id hid⟩

theorem nodup_defaultParams : (sender.defaultParams.map (·.1)).Nodup := by
  cases hid : sender.campaignId with
  | none =>
      rw [Sender.defaultParams, hid]
      exact (by decide : ["utm_source".toList, "utm_medium".toList, "utm_campaign".toList].Nodup)
  | some id =>
      rw [Sender.defaultParams, hid]
      exact (by decide : ["utm_source".toList, "utm_medium".toList, "utm_campaign".toList,
        "campaign_id".toList].Nodup)

/-- A parameter of the query is the destination's, or the platform's and not in the destination. -/
theorem mem_spread {defaults own : List Param} {p : Param} (h : p ∈ spread defaults own) :
    p ∈ own ∨ p ∈ defaults ∧ p.1 ∉ own.map (·.1) := by
  rcases List.mem_append.mp h with h | h
  · obtain ⟨q, hq, rfl⟩ := List.mem_map.mp h
    cases hvalue : lastValue own q.1 with
    | none =>
        refine .inr ⟨hq, fun hmem => ?_⟩
        obtain ⟨r, hr, hname⟩ := List.mem_map.mp hmem
        have hempty := List.getLast?_eq_none_iff.mp (Option.map_eq_none_iff.mp hvalue)
        exact List.filter_eq_nil_iff.mp hempty r hr (decide_eq_true hname)
    | some value => exact .inl (mem_of_lastValue hvalue)
  · exact .inl (List.mem_filter.mp h).1

theorem mem_spread_of_own {defaults own : List Param} {p : Param} (hnodup : (own.map (·.1)).Nodup)
    (hp : p ∈ own) : p ∈ spread defaults own := by
  by_cases hname : p.1 ∈ defaults.map (·.1)
  · obtain ⟨q, hq, heq⟩ := List.mem_map.mp hname
    refine List.mem_append_left _ (List.mem_map.mpr ⟨q, hq, ?_⟩)
    rw [heq, lastValue_of_mem hnodup hp]
    rfl
  · refine List.mem_append_right _ (List.mem_filter.mpr ⟨hp, ?_⟩)
    rw [Bool.not_eq_true', Bool.eq_false_iff]
    exact fun hcontains => hname (List.contains_iff_mem.mp hcontains)

theorem nodup_spread {defaults own : List Param} (hdefaults : (defaults.map (·.1)).Nodup)
    (hown : (own.map (·.1)).Nodup) : ((spread defaults own).map (·.1)).Nodup := by
  have hfirst : (defaults.map fun p => (p.1, (lastValue own p.1).getD p.2)).map (·.1) =
      defaults.map (·.1) := by
    rw [List.map_map]
    rfl
  rw [spread, List.map_append, hfirst]
  refine hdefaults.append (hown.sublist (List.filter_sublist.map _)) ?_
  intro name hname hmem
  obtain ⟨p, hp, rfl⟩ := List.mem_map.mp hmem
  have hnot := (List.mem_filter.mp hp).2
  rw [Bool.not_eq_true', Bool.eq_false_iff] at hnot
  exact hnot (List.contains_iff_mem.mpr hname)

theorem mem_bmsText {c : Char} (h : c ∈ bmsText sender d path) : c ∈ d.origin ++ path ∨
    c ∈ ['?', '&', '='] ∨ ∃ p ∈ allParams sender d, c ∈ p.1 ∨ c ∈ p.2 := by
  rw [bmsText_eq] at h
  rcases List.mem_append.mp h with h | h
  · exact .inl h
  · rcases List.mem_cons.mp h with rfl | h
    · exact .inr (.inl (List.mem_cons_self ..))
    · rcases mem_join h with rfl | ⟨part, hpart, hc⟩
      · exact .inr (.inl (List.mem_cons_of_mem _ (List.mem_cons_self ..)))
      · obtain ⟨p, hp, rfl⟩ := List.mem_map.mp hpart
        rcases List.mem_append.mp hc with hc | hc
        · exact .inr (.inr ⟨p, hp, .inl hc⟩)
        · rcases List.mem_cons.mp hc with rfl | hc
          · exact .inr (.inl (List.mem_cons_of_mem _ (List.mem_cons_of_mem _ (List.mem_cons_self ..))))
          · exact .inr (.inr ⟨p, hp, .inr hc⟩)

/-! ## A destination whose characters stand for themselves -/

variable {substitute : Destination → Destination}

theorem nodup_queryParams : ((queryParams sender d).map (·.1)).Nodup := by
  refine nodup_spread nodup_defaultParams ?_
  rw [paramsFromUrl_names]
  exact nodup_eraseDups _

theorem Clear.safe (h : Clear std substitute sender d) {p : Param} (hp : p ∈ allParams sender d) :
    Safe p.1 ∧ '=' ∉ p.1 ∧ Safe p.2 := by
  rcases List.mem_append.mp hp with hp | hp
  · rcases mem_spread hp with hp | ⟨hp, -⟩
    · exact safe_paramsFromUrl h.params hp
    · exact defaultParams_safe hp
  · simp only [List.mem_cons, List.not_mem_nil, or_false] at hp
    rcases hp with rfl | rfl
    · exact ⟨(by decide : Safe "bmsu".toList), (by decide : '=' ∉ "bmsu".toList), sender.uuid_safe⟩
    · exact ⟨(by decide : Safe "bmsa".toList), (by decide : '=' ∉ "bmsa".toList),
        sender.accountId_safe⟩

theorem ascii_eq_true {c : Char} : ascii c = true ↔ c.toNat < 128 ∧ c ∉ stripped := by
  rw [ascii, Bool.and_eq_true, decide_eq_true_eq, Bool.not_eq_true', Bool.eq_false_iff]
  exact and_congr_right fun _ => not_congr List.contains_iff_mem

/-- A character that is in neither the destination's location nor a parameter, and separates
nothing, is not in the text. -/
theorem Clear.not_mem_bmsText (h : Clear std substitute sender d) {c : Char}
    (hbase : c ∉ d.origin ++ path) (hseparator : c ∉ ['?', '&', '='])
    (hplain : ∀ text, Plain text → c ∉ text) : c ∉ bmsText sender d path := by
  intro hmem
  rcases mem_bmsText hmem with hmem | hmem | ⟨p, hp, hmem | hmem⟩
  · exact hbase hmem
  · exact hseparator hmem
  · exact hplain _ (h.safe hp).1.1 hmem
  · exact hplain _ (h.safe hp).2.2.1 hmem

theorem Clear.ascii_bmsText (h : Clear std substitute sender d)
    (hbase : (d.origin ++ path).all ascii = true) {c : Char} (hmem : c ∈ bmsText sender d path) :
    ascii c = true := by
  rcases mem_bmsText hmem with hmem | hmem | ⟨p, hp, hmem | hmem⟩
  · exact List.all_eq_true.mp hbase c hmem
  · have hseparators : ['?', '&', '='].all ascii = true := by decide
    exact List.all_eq_true.mp hseparators c hmem
  · exact List.all_eq_true.mp (h.safe hp).1.2 c hmem
  · exact List.all_eq_true.mp (h.safe hp).2.2.2 c hmem

theorem bmsa_present : present (allParams sender d) "bmsa".toList = true := by
  have hvalue : lastValue (allParams sender d) "bmsa".toList = some sender.accountId := by
    rw [allParams_eq, lastValue, List.filter_append]
    have hlast : [("bmsa".toList, sender.accountId)].filter (·.1 = "bmsa".toList) =
        [("bmsa".toList, sender.accountId)] := rfl
    rw [hlast, List.getLast?_append_of_ne_nil _ (List.cons_ne_nil _ _)]
    rfl
  rw [present, hvalue]
  show (!sender.accountId.isEmpty) = true
  rw [Bool.not_eq_true', List.isEmpty_eq_false_iff]
  exact sender.accountId_ne

/-- The platform's own two parameters are deleted. -/
theorem filter_allParams : (allParams sender d).filter
    (fun p => !(deleteNames (allParams sender d)).contains p.1) =
      (queryParams sender d).filter fun p => !(deleteNames (allParams sender d)).contains p.1 := by
  have hbmsu : (deleteNames (allParams sender d)).contains "bmsu".toList = true :=
    List.contains_iff_mem.mpr (List.mem_append_right _ (List.mem_cons_self ..))
  have hbmsa : (deleteNames (allParams sender d)).contains "bmsa".toList = true :=
    List.contains_iff_mem.mpr (List.mem_append_left _ (List.mem_filter.mpr
      ⟨(by decide : "bmsa".toList ∈ ["utm_id".toList, "bmst".toList, "bmsa".toList]), bmsa_present⟩))
  have hown : [("bmsu".toList, sender.uuid), ("bmsa".toList, sender.accountId)].filter
      (fun p => !(deleteNames (allParams sender d)).contains p.1) = [] := by
    refine List.filter_eq_nil_iff.mpr fun p hp => ?_
    simp only [List.mem_cons, List.not_mem_nil, or_false] at hp
    rcases hp with rfl | rfl
    · rw [hbmsu]
      exact Bool.false_ne_true
    · rw [hbmsa]
      exact Bool.false_ne_true
  have hsplit : ∀ keep : Param → Bool, (allParams sender d).filter keep =
      (queryParams sender d).filter keep ++
        [("bmsu".toList, sender.uuid), ("bmsa".toList, sender.accountId)].filter keep :=
    fun keep => List.filter_append ..
  rw [hsplit, hown, List.append_nil]

/-- Where the visitor is sent. -/
theorem Clear.follow_eq (h : Clear std substitute sender d) : follow std sender d =
    some ⟨d.origin, d.pathname, (queryParams sender d).filter fun p =>
      !(deleteNames (allParams sender d)).contains p.1, none⟩ := by
  obtain ⟨path, hdecode, hlocation, hascii, hpercent, hquestion, hhash, hplus⟩ := h.path
  have hpercent : '%' ∉ bmsText sender d path :=
    h.not_mem_bmsText hpercent (by decide) fun _ hplain => hplain.2.2.1
  have hhash : '#' ∉ bmsText sender d path :=
    h.not_mem_bmsText hhash (by decide) fun _ hplain => hplain.2.1
  have hclean : ∀ c ∈ bmsText sender d path, c.toNat < 128 ∧ c ∉ stripped :=
    fun c hc => ascii_eq_true.mp (h.ascii_bmsText hascii hc)
  have hstripped : (bmsText sender d path).filter (fun c => !stripped.contains c) =
      bmsText sender d path := by
    refine List.filter_eq_self.mpr fun c hc => ?_
    rw [Bool.not_eq_true', Bool.eq_false_iff]
    exact fun hcontains => (hclean c hc).2 (List.contains_iff_mem.mp hcontains)
  have harrives : decodedUrl (received (Base64.encode (utf8 (bmsText sender d path)))) =
      bmsText sender d path := decodedUrl_received (fun c hc => (hclean c hc).1) hplus
  have hcut : cut '?' (bmsText sender d path) =
      (d.origin ++ path, some (render (allParams sender d))) := by
    rw [bmsText_eq]
    exact cut_append hquestion
  have hread : ShortLink.searchParams std.form (render (allParams sender d)) = allParams sender d :=
    searchParams_render (List.append_ne_nil_of_left_ne_nil queryParams_ne _)
      fun p hp => ⟨(h.safe hp).1.1, (h.safe hp).2.1, (h.safe hp).2.2.1⟩
  simp only [follow, bmsUrl, hdecode, Option.map_some, Option.bind_some, redirect, harrives,
    std.plain _ hpercent, hstripped, cut_of_not_mem hhash, hcut, hlocation, Option.getD_some, hread,
    filter_allParams]

/-! ## What is written once and not deleted -/

theorem Sound.mem_queryParams (h : Sound d) {p : Param} (hp : p ∈ queryParams sender d) :
    p ∈ d.params ∨ p ∈ sender.defaultParams ∧ p.1 ∉ d.params.map (·.1) := by
  rw [queryParams, paramsFromUrl_of_nodup h.once] at hp
  exact mem_spread hp

/-- The names that are deleted, but for those of the tracker, have an empty value. -/
theorem Sound.kept (h : Sound d) {p : Param} (hp : p ∈ d.params) :
    p.1 ∉ deleteNames (allParams sender d) := by
  intro hmem
  obtain ⟨hnot, hempty⟩ := h.own p hp
  rcases List.mem_append.mp hmem with hmem | hmem
  · obtain ⟨hname, hpresent⟩ := List.mem_filter.mp hmem
    have htwo : p.1 ∈ ["utm_id".toList, "bmst".toList] := by
      simp only [List.mem_cons, List.not_mem_nil, or_false] at hname hnot ⊢
      rcases hname with hname | hname | hname
      · exact .inl hname
      · exact .inr hname
      · exact absurd (.inr (.inr hname)) hnot
    rw [present] at hpresent
    split at hpresent
    · rename_i value hvalue
      have hin := mem_of_lastValue hvalue
      have hown : (p.1, value) ∈ d.params := by
        rcases List.mem_append.mp hin with hin | hin
        · rcases h.mem_queryParams hin with hin | ⟨-, hin⟩
          · exact hin
          · exact absurd (List.mem_map_of_mem hp) hin
        · simp only [List.mem_cons, List.not_mem_nil, or_false, Prod.mk.injEq] at hin hnot
          rcases hin with ⟨heq, -⟩ | ⟨heq, -⟩
          · exact absurd (.inl heq) hnot
          · exact absurd (.inr (.inr heq)) hnot
      have hnil : value = [] := (h.own _ hown).2 htwo
      rw [hnil] at hpresent
      cases hpresent
    · cases hpresent
  · simp only [List.mem_cons, List.not_mem_nil, or_false] at hmem hnot
    rcases hmem with hmem | hmem
    · exact hnot (.inl hmem)
    · exact hnot (.inr (.inl hmem))

/-- The parameters of the destination are there once each. -/
theorem Sound.params_perm (h : Sound d) :
    (((queryParams sender d).filter fun p => !(deleteNames (allParams sender d)).contains p.1).filter
      fun p => p.1 ∈ d.params.map (·.1)).Perm d.params := by
  have hnodup : (queryParams sender d).Nodup := nodup_queryParams.of_map
  refine (List.perm_ext_iff_of_nodup ((hnodup.filter _).filter _) h.once.of_map).mpr fun p => ?_
  rw [List.mem_filter, List.mem_filter, decide_eq_true_eq]
  constructor
  · rintro ⟨⟨hp, -⟩, hname⟩
    rcases h.mem_queryParams hp with hp | ⟨-, hnot⟩
    · exact hp
    · exact absurd hname hnot
  · intro hp
    refine ⟨⟨?_, ?_⟩, List.mem_map_of_mem hp⟩
    · rw [queryParams, paramsFromUrl_of_nodup h.once]
      exact mem_spread_of_own h.once hp
    · rw [Bool.not_eq_true', Bool.eq_false_iff]
      exact fun hcontains => h.kept hp (List.contains_iff_mem.mp hcontains)

theorem roundTrip_of_sound (hclear : Clear std substitute sender d) (h : Sound d) :
    RoundTrip sender (substitute d) (follow std sender d) := by
  rw [hclear.substituted, hclear.follow_eq]
  refine ⟨rfl, h.fragment.symm, fun r hr => ?_, fun r hr p hp => ?_⟩
  · cases hr
    exact h.params_perm
  · cases hr
    rcases h.mem_queryParams (List.mem_filter.mp hp).1 with hp | ⟨hp, -⟩
    · exact .inl hp
    · exact .inr hp

theorem redirect_eq_some {url : Text} {r : Destination} (h : redirect std url = some r) :
    r.fragment = none ∧ ∀ p ∈ r.params, p.1 ∉ ["bmsu".toList, "bmsuuid".toList] := by
  obtain ⟨decoded, -, h⟩ := Option.bind_eq_some_iff.mp h
  obtain ⟨location, -, rfl⟩ := Option.map_eq_some_iff.mp h
  refine ⟨rfl, fun p hp hname => ?_⟩
  have hkept := (List.mem_filter.mp hp).2
  rw [Bool.not_eq_true', Bool.eq_false_iff] at hkept
  exact hkept (List.contains_iff_mem.mpr (List.mem_append_right _ hname))

/-- No link of any destination keeps a fragment, or a parameter of the tracker's. -/
theorem roundTrip_kept (h : RoundTrip sender target (follow std sender d)) :
    target.fragment = none ∧ ∀ p ∈ target.params, p.1 ∉ ["bmsu".toList, "bmsuuid".toList] := by
  obtain ⟨r, hr, -⟩ := Option.map_eq_some_iff.mp h.location
  obtain ⟨url, -, hredirect⟩ := Option.bind_eq_some_iff.mp hr
  obtain ⟨hfragment, hnames⟩ := redirect_eq_some hredirect
  have hsame := h.fragment
  rw [hr, Option.bind_some, hfragment] at hsame
  refine ⟨hsame.symm, fun p hp => ?_⟩
  exact hnames p (List.mem_filter.mp ((h.params r hr).mem_iff.mpr hp)).1

theorem sound_of_roundTrip (hclear : Clear std substitute sender d)
    (h : RoundTrip sender (substitute d) (follow std sender d)) : Sound d := by
  rw [hclear.substituted] at h
  have hperm := h.params _ hclear.follow_eq
  have honce : (d.params.map (·.1)).Nodup := by
    have hquery : ((queryParams sender d).map (·.1)).Nodup := nodup_queryParams
    refine (hperm.map (·.1)).nodup_iff.mp (hquery.sublist ?_)
    exact (List.filter_sublist.trans List.filter_sublist).map _
  refine ⟨(roundTrip_kept h).1, honce, fun p hp => ?_⟩
  obtain ⟨hquery, hkept⟩ := List.mem_filter.mp (List.mem_filter.mp (hperm.mem_iff.mpr hp)).1
  rw [Bool.not_eq_true', Bool.eq_false_iff] at hkept
  have hdeleted : p.1 ∉ deleteNames (allParams sender d) :=
    fun hmem => hkept (List.contains_iff_mem.mpr hmem)
  have hbmsa : p.1 ≠ "bmsa".toList := by
    intro heq
    refine hdeleted (List.mem_append_left _ (List.mem_filter.mpr ⟨?_, ?_⟩))
    · rw [heq]
      decide
    · rw [heq]
      exact bmsa_present
  have htwo := (roundTrip_kept h).2 p hp
  refine ⟨?_, fun hname => ?_⟩
  · simp only [List.mem_cons, List.not_mem_nil, or_false, not_or] at htwo ⊢
    exact ⟨htwo.1, htwo.2, hbmsa⟩
  · have hvalue : lastValue (allParams sender d) p.1 = some p.2 := by
      have hothers : ∀ q ∈ [("bmsu".toList, sender.uuid), ("bmsa".toList, sender.accountId)],
          q.1 ≠ p.1 := by
        intro q hq
        simp only [List.mem_cons, List.not_mem_nil, or_false, not_or] at hq htwo
        rcases hq with rfl | rfl
        · exact Ne.symm htwo.1
        · exact Ne.symm hbmsa
      rw [allParams, lastValue_append_left hothers]
      exact lastValue_of_mem nodup_queryParams hquery
    have hpresent : ¬ present (allParams sender d) p.1 = true := by
      intro hpresent
      refine hdeleted (List.mem_append_left _ (List.mem_filter.mpr ⟨?_, hpresent⟩))
      simp only [List.mem_cons, List.not_mem_nil, or_false] at hname ⊢
      rcases hname with hname | hname
      · exact .inl hname
      · exact .inr (.inl hname)
    rw [present, hvalue] at hpresent
    by_contra hne
    refine hpresent ?_
    show (!p.2.isEmpty) = true
    rw [Bool.not_eq_true', List.isEmpty_eq_false_iff]
    exact hne

end

/-- The link of a destination whose characters stand for themselves takes the visitor to it,
with all its parameters and no others but the platform's, if and only if it has no fragment,
each parameter once, and none that the tracker deletes. -/
theorem redirect_roundTrip_iff (std : Standard) (substitute : Destination → Destination)
    (sender : Sender) (d : Destination) (h : Clear std substitute sender d) :
    RoundTrip sender (substitute d) (follow std sender d) ↔ Sound d :=
  ⟨sound_of_roundTrip h, roundTrip_of_sound h⟩

theorem not_roundTrip_of_params {sender : Sender} {target : Destination} {visit : Option Destination}
    {l : List Param}
    (hl : visit.map (fun r => r.params.filter fun p => p.1 ∈ target.params.map (·.1)) = some l)
    (hne : ¬ l.Perm target.params) : ¬ RoundTrip sender target visit := by
  intro h
  obtain ⟨r, hr, rfl⟩ := Option.map_eq_some_iff.mp hl
  exact hne (h.params r hr)

/-- The functions of the platform, where they have no escapes to read. -/
def plainStandard : Standard where
  form := blanks
  decodeURI := some
  decodeURIComponent := fun text => if '%' ∈ text then none else some text
  location := fun text =>
    let host := (text.drop 8).takeWhile (· ≠ '/')
    let path := (text.drop 8).dropWhile (· ≠ '/')
    if text.take 8 = "https://".toList then
      some ("https://".toList ++ host, if path = [] then ['/'] else path)
    else none
  plain := fun _ h => if_neg h

def sampleSender : Sender where
  provider := "sendgrid".toList
  utmCampaign := "sale_e1_9".toList
  campaignId := none
  uuid := "u7".toList
  accountId := "3".toList
  provider_safe := by decide
  utmCampaign_safe := by decide
  campaignId_safe := fun _ h => by cases h
  uuid_safe := by decide
  accountId_safe := by decide
  accountId_ne := by decide

def sampleDestination (value : String) (fragment : Option Text) : Destination :=
  ⟨"https://x.com".toList, "/p".toList, [("q".toList, value.toList)], fragment⟩

theorem redirect_roundTrip_sample : RoundTrip sampleSender (sampleDestination "a b" none)
    (follow plainStandard sampleSender (sampleDestination "a b" none)) :=
  (redirect_roundTrip_iff plainStandard id sampleSender (sampleDestination "a b" none)
    ⟨rfl, ⟨"/p".toList, rfl, by decide +kernel, by decide, by decide, by decide, by decide,
      by decide +kernel⟩, by decide⟩).mpr ⟨rfl, by decide, by decide⟩

/-- A fragment, an `&` in a value, and a letter with an accent. -/
theorem redirect_breaks :
    ¬ RoundTrip sampleSender (sampleDestination "1" (some "top".toList))
        (follow plainStandard sampleSender (sampleDestination "1" (some "top".toList))) ∧
      ¬ RoundTrip sampleSender (sampleDestination "a&b" none)
        (follow plainStandard sampleSender (sampleDestination "a&b" none)) ∧
      ¬ RoundTrip sampleSender (sampleDestination "é" none)
        (follow plainStandard sampleSender (sampleDestination "é" none)) := by
  refine ⟨fun h => ?_, not_roundTrip_of_params (l := [("q".toList, "a".toList)]) (by decide +kernel) ?_,
    not_roundTrip_of_params (l := [("q".toList, "C)".toList)]) (by decide +kernel) ?_⟩
  · exact absurd (roundTrip_kept h).1 (Option.some_ne_none _)
  · intro h
    exact absurd (List.singleton_perm_singleton.mp h) (by decide)
  · intro h
    exact absurd (List.singleton_perm_singleton.mp h) (by decide)

end OpenBms.Tracker.Redirect
