/-
# `OpenBms.Messages.Unlayer` — moving the Unlayer URLs of a message

`replaceUrlsInHtml` and `replaceUrlsInJson` take the entries of the map one after another and
replace every place where the old URL stands, also within a longer URL and within the images that
are already there; the new URL is a replacement text, with its `$` sequences.
`extractUnlayerUrlsFromHtml` takes the matches of the pattern, `extractUnlayerUrlsFromJson` whole
strings in which the domain stands somewhere.

**Proved here**, for every content and every map of URLs.

    the matches in an HTML are its maximal URLs (`mem_scan_iff`)
    where the old URLs stand as whole URLs only and the
    new ones are inert, the contents are migrated iff
    each string with the domain is a URL (`migrates_iff`)
    the image of a longer URL is lost (`prefix_lost`)
-/
import OpenBms.Lib.Entries
import OpenBms.Lib.JsonText
import OpenBms.Lib.Template

namespace OpenBms.Messages.Unlayer

open Template

abbrev Text := List Char

/-! ## The pattern -/

section
variable {α : Type} (code : α → Nat)

/-- `\s`. -/
def isSpace (n : Nat) : Bool :=
  [9, 10, 11, 12, 13, 0x20, 0xA0, 0x1680, 0x2028, 0x2029, 0x202F, 0x205F, 0x3000, 0xFEFF].contains n
    || (0x2000 ≤ n && n ≤ 0x200A)

/-- No white space, and none of `"`, `'`, `>` and `)`. -/
def isUrlCode (n : Nat) : Bool := !isSpace n && !([0x22, 0x27, 0x3E, 0x29].contains n)

/-- The flag `i`. -/
def lowerCode (n : Nat) : Nat := if 65 ≤ n && n ≤ 90 then n + 32 else n

def domains : List (List Nat) :=
  ["https://cdn.tools.unlayer.com/", "https://assets.unlayer.com/"].map fun s =>
    s.toList.map Char.toNat

/-- `UNLAYER_DOMAIN_PATTERN` at the front of a text. -/
def domainAt (s : List α) : Option (List Nat) :=
  domains.find? fun d => d.isPrefixOf (s.map fun c => lowerCode (code c))

/-- `UNLAYER_URL_PATTERN` at the front of a text. -/
def urlAt (s : List α) : Option (List α) :=
  match domainAt code s with
  | none => none
  | some d =>
      let path := (s.drop d.length).takeWhile fun c => isUrlCode (code c)
      if path.isEmpty then none else some (s.take d.length ++ path)

/-- `UNLAYER_DOMAIN_PATTERN.test`. -/
def hasDomain : List α → Bool
  | [] => false
  | c :: s => (domainAt code (c :: s)).isSome || hasDomain s

/-- An Unlayer URL: all of the text matches. -/
def IsUrl (u : List α) : Prop := urlAt code u = some u

/-- A URL that stands in the text, in no longer one. -/
def Maximal (text u : List α) : Prop :=
  IsUrl code u ∧ ∃ before after, text = before ++ u ++ after ∧
    ∀ b a, b <:+ before → a <+: after → IsUrl code (b ++ u ++ a) → b = [] ∧ a = []

end

/-! ## Extracting -/

/-- The matches of the URL pattern, as holes; so many characters belong to a match. -/
def scanGo : Nat → Text → List Piece
  | _, [] => []
  | k + 1, _ :: s => scanGo k s
  | 0, c :: s =>
      match urlAt Char.toNat (c :: s) with
      | some u => .hole u u :: scanGo (u.length - 1) s
      | none => .char c :: scanGo 0 s

def scan (text : Text) : List Piece := scanGo 0 text

/-- The matches, from left to right. -/
def found : List Piece → List Text
  | [] => []
  | .char _ :: ps => found ps
  | .hole u _ :: ps => u :: found ps

section
variable {α : Type} [BEq α]

/-- `Set.add` -/
def add (urls : List α) (url : α) : List α := if urls.contains url then urls else urls ++ [url]

def addAll (urls : List α) : List α := urls.foldl add []

end

def extractUnlayerUrlsFromHtml (html : Text) : List Text := addAll (found (scan html))

mutual

/-- The strings of a value, as `traverse` comes to them. -/
def strings : JsonText.Json → List JsonText.Units
  | .scalar => []
  | .str s => [s]
  | .arr items => stringsOfItems items
  | .obj entries => stringsOfEntries entries

def stringsOfItems : List JsonText.Json → List JsonText.Units
  | [] => []
  | item :: items => strings item ++ stringsOfItems items

def stringsOfEntries : List (JsonText.Units × JsonText.Json) → List JsonText.Units
  | [] => []
  | (_, v) :: entries => strings v ++ stringsOfEntries entries

end

mutual

/-- The keys of the objects of a value. -/
def keys : JsonText.Json → List JsonText.Units
  | .scalar => []
  | .str _ => []
  | .arr items => keysOfItems items
  | .obj entries => keysOfEntries entries

def keysOfItems : List JsonText.Json → List JsonText.Units
  | [] => []
  | item :: items => keys item ++ keysOfItems items

def keysOfEntries : List (JsonText.Units × JsonText.Json) → List JsonText.Units
  | [] => []
  | (key, v) :: entries => key :: keys v ++ keysOfEntries entries

end

def extractUnlayerUrlsFromJson (contentJson : Text) : List JsonText.Units :=
  match JsonText.parse contentJson with
  | none => []
  | some json => addAll ((strings json).filter (hasDomain id))

/-! ## Replacing -/

/-- An entry holds an old URL and its new one.  The escaped URL matches its own text. -/
def replaceUrls (content : Text) (urlMap : List (Text × Text)) : Text :=
  if content.isEmpty || urlMap.isEmpty then content
  else urlMap.foldl (fun result entry => replaceAll id entry.1 entry.2 result) content

def replaceUrlsInHtml (html : Text) (urlMap : List (Text × Text)) : Text := replaceUrls html urlMap

def replaceUrlsInJson (json : Text) (urlMap : List (Text × Text)) : Text := replaceUrls json urlMap

/-! ## What a migration is -/

/-- All maximal URLs at once, by their images. -/
def substitute (content : Text) (urlMap : List (Text × Text)) : Text :=
  fill (fun u => urlMap.lookup u) (scan content)

/-- A map of URLs. -/
structure UrlMap (urlMap : List (Text × Text)) : Prop where
  nodup : (urlMap.map Prod.fst).Nodup
  urls : ∀ entry ∈ urlMap, IsUrl Char.toNat entry.1

/-- The URLs of a content are replaced by their images, in any order of the map, a JSON stays one,
and what is extracted are its maximal URLs. -/
structure Migrates (content : Text) (urlMap : List (Text × Text)) : Prop where
  replaced : ∀ entries : List (Text × Text), entries.Perm urlMap →
    replaceUrlsInHtml content entries = substitute content urlMap ∧
      replaceUrlsInJson content entries = substitute content urlMap
  valid : JsonText.valid content = true → ∀ entries : List (Text × Text), entries.Perm urlMap →
    JsonText.valid (replaceUrlsInJson content entries) = true
  html : (extractUnlayerUrlsFromHtml content).Nodup ∧
    ∀ u, u ∈ extractUnlayerUrlsFromHtml content ↔ Maximal Char.toNat content u
  json : (extractUnlayerUrlsFromJson content).Nodup ∧
    ∀ json, JsonText.parse content = some json → ∀ u, u ∈ extractUnlayerUrlsFromJson content ↔
      ∃ s ∈ strings json ++ keys json, Maximal id s u

/-- Whatever entries are there already, the old URL of another one stands only as a URL of the
content; and where it does its image is inert, and can stand for it within a string. -/
structure Replaceable (content : Text) (urlMap : List (Text × Text)) : Prop where
  apart : ∀ done, done ⊆ urlMap → ∀ entry ∈ urlMap, done.lookup entry.1 = none →
    OnlyHoles id (fun u => done.lookup u) entry.1 (scan content)
  inert : ∀ entry ∈ urlMap, .hole entry.1 entry.1 ∈ scan content → Inert entry.2
  within : JsonText.valid content = true → ∀ entry ∈ urlMap,
    .hole entry.1 entry.1 ∈ scan content →
      JsonText.bodyEnd entry.2 = JsonText.bodyEnd entry.1

/-- A string of the JSON in which the domain stands is a URL, and the URLs of a key are such strings
too. -/
def Whole (content : Text) : Prop :=
  ∀ json, JsonText.parse content = some json →
    (∀ s ∈ strings json, hasDomain id s = true → IsUrl id s) ∧
      ∀ key ∈ keys json, ∀ u, Maximal id key u → u ∈ strings json

/-! ## Matches of the pattern -/

section
variable {α : Type} {code : α → Nat} {s u : List α}

theorem isUrlCode_of_lower {n : Nat} (h : isUrlCode (lowerCode n) = true) : isUrlCode n = true := by
  by_cases hupper : 65 ≤ n ∧ n ≤ 90
  · obtain ⟨hlo, hhi⟩ := hupper
    interval_cases n <;> rfl
  · have hlower : lowerCode n = n := by
      rw [lowerCode, if_neg]
      rw [Bool.and_eq_true, decide_eq_true_eq, decide_eq_true_eq]
      exact hupper
    rwa [hlower] at h

theorem domain_isUrlCode : ∀ d ∈ domains, ∀ n ∈ d, isUrlCode n = true := by decide

theorem domain_unique : ∀ d ∈ domains, ∀ d' ∈ domains, d <+: d' → d = d' := by decide

/-- What stands at the front of a text up to the end of its URL characters. -/
def word (code : α → Nat) (s : List α) : List α := s.takeWhile fun c => isUrlCode (code c)

theorem urlCode_of_mem_word {c : α} (h : c ∈ word code s) : isUrlCode (code c) = true :=
  List.mem_takeWhile_imp (p := fun c => isUrlCode (code c)) h

theorem word_append (hs : ∀ c ∈ s, isUrlCode (code c) = true) (t : List α) :
    word code (s ++ t) = s ++ word code t :=
  List.takeWhile_append_of_pos hs

theorem word_eq_self (hs : ∀ c ∈ s, isUrlCode (code c) = true) : word code s = s := by
  have h := word_append hs []
  rw [List.append_nil] at h
  exact h.trans (List.append_nil s)

theorem word_begins (s : List α) : word code s <+: s := List.takeWhile_prefix _

theorem word_of_domain {d : List Nat} (hd : d ∈ domains)
    (hfront : d <+: s.map fun c => lowerCode (code c)) :
    word code s = s.take d.length ++ word code (s.drop d.length) := by
  have htake : (s.take d.length).map (fun c => lowerCode (code c)) = d := by
    rw [List.map_take]
    exact (List.prefix_iff_eq_take.mp hfront).symm
  have hcodes : ∀ c ∈ s.take d.length, isUrlCode (code c) = true := fun c hc => by
    refine isUrlCode_of_lower (domain_isUrlCode d hd _ ?_)
    rw [← htake]
    exact List.mem_map_of_mem hc
  have h := word_append hcodes (s.drop d.length)
  rwa [List.take_append_drop] at h

theorem urlAt_eq_some_iff : urlAt code s = some u ↔
    (∃ d ∈ domains, d <+: s.map (fun c => lowerCode (code c)) ∧ d.length < (word code s).length) ∧
      u = word code s := by
  constructor
  · intro h
    rw [urlAt] at h
    cases hdomain : domainAt code s with
    | none =>
        rw [hdomain] at h
        cases h
    | some d =>
        have hd := List.mem_of_find?_eq_some hdomain
        have hfront : d <+: s.map fun c => lowerCode (code c) :=
          List.isPrefixOf_iff_prefix.mp (List.find?_some (p := fun d : List Nat =>
            d.isPrefixOf (s.map fun c => lowerCode (code c))) hdomain)
        have hword := word_of_domain hd hfront
        have hle : d.length ≤ s.length := by
          have := hfront.length_le
          rwa [List.length_map] at this
        rw [hdomain] at h
        change (if (word code (s.drop d.length)).isEmpty = true then none
          else some (s.take d.length ++ word code (s.drop d.length))) = some u at h
        split at h
        · cases h
        · next hne =>
          refine ⟨⟨d, hd, hfront, ?_⟩, ?_⟩
          · rw [hword, List.length_append, List.length_take, Nat.min_eq_left hle]
            have hpos := List.length_pos_of_ne_nil fun hnil =>
              hne (List.isEmpty_iff.mpr hnil)
            omega
          · rw [hword]
            exact (Option.some.inj h).symm
  · rintro ⟨⟨d, hd, hfront, hlt⟩, rfl⟩
    have hsome : (domainAt code s).isSome = true :=
      List.find?_isSome.mpr ⟨d, hd, List.isPrefixOf_iff_prefix.mpr hfront⟩
    obtain ⟨d', hd'⟩ := Option.isSome_iff_exists.mp hsome
    have hmem' := List.mem_of_find?_eq_some hd'
    have hfront' : d' <+: s.map fun c => lowerCode (code c) :=
      List.isPrefixOf_iff_prefix.mp (List.find?_some (p := fun d : List Nat =>
        d.isPrefixOf (s.map fun c => lowerCode (code c))) hd')
    have heq : d' = d := by
      rcases Nat.le_total d'.length d.length with hle | hle
      · exact domain_unique d' hmem' d hd (List.prefix_of_prefix_length_le hfront' hfront hle)
      · exact (domain_unique d hd d' hmem'
          (List.prefix_of_prefix_length_le hfront hfront' hle)).symm
    subst heq
    have hword := word_of_domain hd hfront
    have hne : ¬ (word code (s.drop d'.length)).isEmpty = true := fun hempty => by
      rw [hword, List.isEmpty_iff.mp hempty, List.append_nil, List.length_take] at hlt
      omega
    rw [urlAt, hd', hword]
    exact if_neg hne

theorem IsUrl.codes (h : IsUrl code u) : ∀ c ∈ u, isUrlCode (code c) = true := fun _ hc =>
  urlCode_of_mem_word (((urlAt_eq_some_iff).mp h).2 ▸ hc)

theorem IsUrl.ne_nil (h : IsUrl code u) : u ≠ [] := by
  rintro rfl
  obtain ⟨⟨d, -, -, hlt⟩, -⟩ := (urlAt_eq_some_iff).mp h
  exact absurd hlt (Nat.not_lt_zero _)

theorem isUrl_of_urlAt (h : urlAt code s = some u) : IsUrl code u := by
  obtain ⟨⟨d, hd, hfront, hlt⟩, rfl⟩ := (urlAt_eq_some_iff).mp h
  have hself := word_eq_self fun c (hc : c ∈ word code s) => urlCode_of_mem_word hc
  refine (urlAt_eq_some_iff).mpr ⟨⟨d, hd, ?_, ?_⟩, hself.symm⟩
  · refine List.prefix_of_prefix_length_le hfront ((word_begins s).map _) ?_
    rw [List.length_map]
    exact hlt.le
  · rwa [hself]

/-- A text that begins with a URL is matched. -/
theorem urlAt_append (h : IsUrl code u) (t : List α) :
    urlAt code (u ++ t) = some (u ++ word code t) := by
  obtain ⟨⟨d, hd, hfront, hlt⟩, hself⟩ := (urlAt_eq_some_iff).mp h
  have hword := word_append h.codes t
  refine (urlAt_eq_some_iff).mpr ⟨⟨d, hd, ?_, ?_⟩, hword.symm⟩
  · rw [List.map_append]
    exact hfront.trans (List.prefix_append _ _)
  · rw [hword, List.length_append]
    rw [← hself] at hlt
    omega

/-- After a match no URL character follows. -/
theorem rest_of_urlAt (h : urlAt code s = some u) : s = u ++ s.drop u.length ∧
    ∀ p, p <+: s.drop u.length → (∀ c ∈ p, isUrlCode (code c) = true) → p = [] := by
  obtain ⟨-, rfl⟩ := (urlAt_eq_some_iff).mp h
  have hsplit : s = word code s ++ s.drop (word code s).length :=
    (List.prefix_iff_eq_append.mp (word_begins s)).symm
  refine ⟨hsplit, fun p ⟨t, ht⟩ hp => ?_⟩
  have hword := @word_append α code _
    (fun c (hc : c ∈ word code s) => urlCode_of_mem_word hc) (s.drop (word code s).length)
  rw [← hsplit, ← ht, word_append hp] at hword
  have hlength := congrArg List.length hword
  rw [List.length_append, List.length_append] at hlength
  exact List.length_eq_zero_iff.mp (by omega)

end

/-! ## Maximal URLs -/

theorem scanGo_skip (k : Nat) (s : Text) : scanGo k s = scan (s.drop k) := by
  induction s generalizing k with
  | nil =>
      rw [List.drop_nil]
      cases k <;> rfl
  | cons c s ih =>
      cases k with
      | zero => rfl
      | succ k => exact ih k

/-- A property of the matches of a text, by where they begin. -/
theorem scan_induction {P : Text → List Piece → Prop} (hnil : P [] [])
    (hchar : ∀ c s, urlAt Char.toNat (c :: s) = none → P s (scan s) →
      P (c :: s) (.char c :: scan s))
    (hhole : ∀ u s, urlAt Char.toNat s = some u →
      P (s.drop u.length) (scan (s.drop u.length)) →
      P s (.hole u u :: scan (s.drop u.length)))
    (text : Text) : P text (scan text) := by
  induction hn : text.length using Nat.strong_induction_on generalizing text with
  | _ n ih =>
      subst hn
      cases text with
      | nil => exact hnil
      | cons c s =>
          cases h : urlAt Char.toNat (c :: s) with
          | none =>
              have hscan : scan (c :: s) = .char c :: scan s := by
                rw [scan, scanGo, h]
                rfl
              rw [hscan]
              exact hchar c s h (ih s.length (Nat.lt_succ_self _) s rfl)
          | some u =>
              obtain ⟨d, u', hu⟩ := List.exists_cons_of_ne_nil (isUrl_of_urlAt h).ne_nil
              have hscan : scan (c :: s) = .hole u u :: scan ((c :: s).drop u.length) := by
                rw [scan, scanGo, h]
                show Piece.hole u u :: scanGo (u.length - 1) s = _
                rw [scanGo_skip, hu]
                rfl
              rw [hscan]
              refine hhole u (c :: s) h (ih _ ?_ _ rfl)
              rw [List.length_drop, List.length_cons, hu, List.length_cons]
              omega

theorem maximal_of_found (text : Text) : ∀ before : Text,
    (∀ b p, b <:+ before → b ≠ [] → p <+: text → p ≠ [] → ¬ IsUrl Char.toNat (b ++ p)) →
      ∀ u ∈ found (scan text), Maximal Char.toNat (before ++ text) u := by
  refine scan_induction (P := fun text ps => ∀ before : Text,
    (∀ b p, b <:+ before → b ≠ [] → p <+: text → p ≠ [] → ¬ IsUrl Char.toNat (b ++ p)) →
      ∀ u ∈ found ps, Maximal Char.toNat (before ++ text) u) ?_ ?_ ?_ text
  · exact fun _ _ _ hmem => absurd hmem List.not_mem_nil
  · intro c s hnone ih before hfree u hmem
    have hstep := ih (before ++ [c]) ?_ u hmem
    · rwa [List.append_assoc] at hstep
    · intro b p hb hne hp hpne hurl
      rcases List.suffix_concat_iff.mp hb with rfl | ⟨b', rfl, hb'⟩
      · exact hne rfl
      · rw [List.append_assoc] at hurl
        have hp' : [c] ++ p <+: c :: s := List.cons_prefix_cons.mpr ⟨rfl, hp⟩
        by_cases hb'nil : b' = []
        · subst hb'nil
          obtain ⟨t, ht⟩ := hp'
          rw [List.nil_append] at hurl
          have hsome := urlAt_append hurl t
          rw [ht, hnone] at hsome
          cases hsome
        · exact hfree b' ([c] ++ p) hb' hb'nil hp' (List.cons_ne_nil _ _) hurl
  · intro u s h ih before hfree u' hmem
    obtain ⟨hsplit, hrest⟩ := rest_of_urlAt h
    have hurl := isUrl_of_urlAt h
    rcases List.mem_cons.mp hmem with rfl | hmem
    · refine ⟨hurl, before, s.drop u'.length, by rw [List.append_assoc, ← hsplit], ?_⟩
      intro b a hb ha hlong
      have ha' : a = [] := hrest a ha fun c hc => hlong.codes c (List.mem_append_right _ hc)
      subst ha'
      refine ⟨?_, rfl⟩
      by_contra hne
      rw [List.append_nil] at hlong
      exact hfree b u' hb hne ⟨_, hsplit.symm⟩ hurl.ne_nil hlong
    · have hstep := ih (before ++ u) ?_ u' hmem
      · rwa [List.append_assoc, ← hsplit] at hstep
      · intro b p _ _ hp hpne hlong
        exact hpne (hrest p hp fun c hc => hlong.codes c (List.mem_append_right _ hc))

theorem found_of_maximal (text : Text) : ∀ x u y : Text, text = x ++ u ++ y → IsUrl Char.toNat u →
    (∀ b a, b <:+ x → a <+: y → IsUrl Char.toNat (b ++ u ++ a) → b = [] ∧ a = []) →
      u ∈ found (scan text) := by
  refine scan_induction (P := fun text ps => ∀ x u y : Text, text = x ++ u ++ y →
    IsUrl Char.toNat u →
    (∀ b a, b <:+ x → a <+: y → IsUrl Char.toNat (b ++ u ++ a) → b = [] ∧ a = []) →
      u ∈ found ps) ?_ ?_ ?_ text
  · intro x u y htext hurl _
    have hnil := List.append_eq_nil_iff.mp htext.symm
    exact absurd (List.append_eq_nil_iff.mp hnil.1).2 hurl.ne_nil
  · intro c s hnone ih x u y htext hurl hmax
    cases x with
    | nil =>
        have hsome := urlAt_append hurl y
        rw [List.nil_append] at htext
        rw [← htext, hnone] at hsome
        cases hsome
    | cons d x =>
        obtain ⟨rfl, hs⟩ := List.cons.inj htext
        exact ih x u y hs hurl fun b a hb ha => hmax b a (hb.trans (List.suffix_cons c x)) ha
  · intro h s hmatch ih x u y htext hurl hmax
    obtain ⟨hsplit, -⟩ := rest_of_urlAt hmatch
    have hfront : h <+: s := ⟨_, hsplit.symm⟩
    have hx : x <+: s := ⟨u ++ y, by rw [htext, List.append_assoc]⟩
    rcases Nat.lt_or_ge x.length h.length with hlt | hle
    · have hin : x <+: h := List.prefix_of_prefix_length_le hx hfront hlt.le
      have hxu : ∀ c ∈ x ++ u, isUrlCode c.toNat = true := fun c hc => by
        rcases List.mem_append.mp hc with hc | hc
        · exact (isUrl_of_urlAt hmatch).codes c (hin.subset hc)
        · exact hurl.codes c hc
      have hword : h = x ++ u ++ word Char.toNat y := by
        rw [((urlAt_eq_some_iff).mp hmatch).2, htext]
        exact word_append hxu y
      have hlong := isUrl_of_urlAt hmatch
      rw [hword] at hlong
      obtain ⟨hx, hy⟩ := hmax x _ (List.suffix_refl x) (word_begins y) hlong
      rw [hx, hy, List.nil_append, List.append_nil] at hword
      rw [hword]
      exact List.mem_cons_self
    · obtain ⟨x', rfl⟩ := List.prefix_of_prefix_length_le hfront hx hle
      refine List.mem_cons_of_mem _ (ih x' u y ?_ hurl fun b a hb ha =>
        hmax b a (hb.trans (List.suffix_append h x')) ha)
      rw [htext, List.append_assoc, List.append_assoc, List.drop_left, List.append_assoc]

theorem mem_scan_iff (text u : Text) : u ∈ found (scan text) ↔ Maximal Char.toNat text u := by
  refine ⟨fun hmem => maximal_of_found text [] ?_ u hmem, ?_⟩
  · intro b p hb hne
    exact absurd (List.suffix_nil.mp hb) hne
  · rintro ⟨hurl, x, y, htext, hmax⟩
    exact found_of_maximal text x u y htext hurl hmax

/-! ## Sets -/

section
variable {α : Type} [BEq α] [LawfulBEq α]

theorem mem_add {urls : List α} {url v : α} : v ∈ add urls url ↔ v ∈ urls ∨ v = url := by
  rw [add]
  split
  · next hin =>
    rw [List.contains_iff_mem] at hin
    exact ⟨.inl, fun h => h.elim id fun heq => heq ▸ hin⟩
  · rw [List.mem_append, List.mem_singleton]

theorem nodup_add {urls : List α} (h : urls.Nodup) (url : α) : (add urls url).Nodup := by
  rw [add]
  split
  · exact h
  · next hout =>
    rw [List.contains_iff_mem] at hout
    refine List.nodup_append.mpr ⟨h, List.nodup_singleton url, fun v hv w hw heq => hout ?_⟩
    rw [← List.mem_singleton.mp hw, ← heq]
    exact hv

theorem mem_foldl_add (l : List α) : ∀ {urls : List α} {v : α},
    v ∈ l.foldl add urls ↔ v ∈ urls ∨ v ∈ l := by
  induction l with
  | nil => exact fun {_ _} => ⟨.inl, fun h => h.elim id fun hmem => absurd hmem List.not_mem_nil⟩
  | cons url l ih =>
      intro urls v
      rw [List.foldl_cons, ih, mem_add, List.mem_cons, or_assoc]

theorem mem_addAll {l : List α} {v : α} : v ∈ addAll l ↔ v ∈ l := by
  rw [addAll, mem_foldl_add]
  exact or_iff_right List.not_mem_nil

theorem nodup_addAll (l : List α) : (addAll l).Nodup := by
  have hfold : ∀ (l urls : List α), urls.Nodup → (l.foldl add urls).Nodup := by
    intro l
    induction l with
    | nil => exact fun _ h => h
    | cons url l ih => exact fun urls h => ih _ (nodup_add h url)
  exact hfold l [] List.nodup_nil

end

/-! ## Replacing the entries one after another -/

theorem hole_of_scan (text : Text) : ∀ name written, Piece.hole name written ∈ scan text →
    written = name ∧ IsUrl Char.toNat name := by
  refine scan_induction (P := fun _ ps => ∀ name written, Piece.hole name written ∈ ps →
    written = name ∧ IsUrl Char.toNat name) ?_ ?_ ?_ text
  · exact fun _ _ hmem => absurd hmem List.not_mem_nil
  · intro c s _ ih name written hmem
    rcases List.mem_cons.mp hmem with heq | hmem
    · cases heq
    · exact ih name written hmem
  · intro u s h ih name written hmem
    rcases List.mem_cons.mp hmem with heq | hmem
    · cases heq
      exact ⟨rfl, isUrl_of_urlAt h⟩
    · exact ih name written hmem

theorem fill_scan (text : Text) : fill (fun _ => none) (scan text) = text := by
  refine scan_induction (P := fun text ps => fill (fun _ => none) ps = text) rfl ?_ ?_ text
  · intro c s _ ih
    rw [fill, ih]
  · intro u s h ih
    rw [fill, ih, Option.getD_none]
    exact (rest_of_urlAt h).1.symm

section
variable {content : Text} {urlMap : List (Text × Text)}

/-- The entries that are left fill their holes. -/
theorem foldl_replaceAll (hmap : UrlMap urlMap) (h : Replaceable content urlMap) :
    ∀ rest done : List (Text × Text), (done ++ rest).Perm urlMap →
      rest.foldl (fun result entry => replaceAll id entry.1 entry.2 result)
          (fill (fun u => done.lookup u) (scan content)) =
        fill (fun u => (done ++ rest).lookup u) (scan content) := by
  intro rest
  induction rest with
  | nil =>
      intro done _
      rw [List.append_nil]
      rfl
  | cons entry rest ih =>
      intro done hperm
      have hentry : entry ∈ urlMap :=
        hperm.mem_iff.mp (List.mem_append_right done List.mem_cons_self)
      have hdone : done ⊆ urlMap := fun e he => hperm.mem_iff.mp (List.mem_append_left _ he)
      have hnodup : ((done ++ entry :: rest).map Prod.fst).Nodup :=
        (hperm.map Prod.fst).nodup_iff.mpr hmap.nodup
      rw [List.map_append] at hnodup
      have hfresh : entry.1 ∉ done.map Prod.fst := fun hmem =>
        (List.nodup_append.mp hnodup).2.2 _ hmem _ List.mem_cons_self rfl
      have hnone := Entries.lookup_eq_none hfresh
      have hstep : replaceAll id entry.1 entry.2 (fill (fun u => done.lookup u) (scan content)) =
          fill (fun u => (done ++ [entry]).lookup u) (scan content) := by
        have hknown : (fun u => (done ++ [entry]).lookup u) =
            fun u => if u = entry.1 then some entry.2 else done.lookup u :=
          funext fun u => Entries.lookup_concat hfresh u
        rw [hknown]
        refine replaceAll_fill (hmap.urls entry hentry).ne_nil hnone
          (fun name written hmem => by rw [(hole_of_scan content name written hmem).1])
          (h.apart done hdone entry hentry hnone) fun ⟨written, hmem⟩ => ?_
        rw [(hole_of_scan content _ _ hmem).1] at hmem
        exact h.inert entry hentry hmem
      rw [List.foldl_cons, hstep, ih (done ++ [entry]) (by rwa [List.append_assoc]),
        List.append_assoc]
      rfl

theorem replaceUrls_eq (hmap : UrlMap urlMap) (h : Replaceable content urlMap)
    {entries : List (Text × Text)} (hperm : entries.Perm urlMap) :
    replaceUrls content entries = substitute content urlMap := by
  have hfold := foldl_replaceAll hmap h entries [] hperm
  have hlookup : (fun u => ([] ++ entries).lookup u) = fun u => urlMap.lookup u :=
    funext fun u => Entries.lookup_perm hperm hmap.nodup u
  have hstart : fill (fun u => ([] : List (Text × Text)).lookup u) (scan content) = content :=
    fill_scan content
  rw [hlookup, hstart] at hfold
  rw [replaceUrls]
  split
  · next hempty =>
    rw [Bool.or_eq_true, List.isEmpty_iff, List.isEmpty_iff] at hempty
    rcases hempty with rfl | rfl
    · rfl
    · exact hfold
  · exact hfold

/-! ## A JSON stays one -/

theorem domain_head : ∀ d ∈ domains, d.head? = some 104 := by decide

theorem letter_of_lower {c : Char} (h : lowerCode c.toNat = 104) : c = 'h' ∨ c = 'H' := by
  have hnat : c.toNat = 'h'.toNat ∨ c.toNat = 'H'.toNat := by
    rw [lowerCode] at h
    split at h
    · exact .inr (Nat.add_right_cancel h)
    · exact .inl h
  exact hnat.imp Char.toNat_inj.mp Char.toNat_inj.mp

theorem run_hole {u v : Text} (hurl : IsUrl Char.toNat u)
    (hend : JsonText.bodyEnd v = JsonText.bodyEnd u) {st : JsonText.State}
    (hsome : (JsonText.run st u).isSome = true) : JsonText.run st v = JsonText.run st u := by
  obtain ⟨⟨d, hd, hfront, -⟩, -⟩ := (urlAt_eq_some_iff).mp hurl
  obtain ⟨c, u', rfl⟩ := List.exists_cons_of_ne_nil hurl.ne_nil
  have hletter : c = 'h' ∨ c = 'H' := by
    obtain ⟨d', hd'⟩ := List.head?_eq_some_iff.mp (domain_head d hd)
    rw [hd', List.map_cons] at hfront
    exact letter_of_lower (List.cons_prefix_cons.mp hfront).1.symm
  have hquote : '"' ∉ c :: u' := fun hmem => absurd (hurl.codes _ hmem) (by decide)
  obtain ⟨st', hrun⟩ := Option.isSome_iff_exists.mp hsome
  have hstep := hrun
  rw [JsonText.run, List.foldlM_cons] at hstep
  obtain ⟨st₁, hstep, -⟩ := Option.bind_eq_some_iff.mp hstep
  obtain ⟨isKey, hmode⟩ := JsonText.step_scheme hletter hstep
  obtain ⟨mode, stack⟩ := st
  cases hmode
  obtain ⟨j, hj, rfl⟩ := JsonText.body_of_run hquote hrun
  rw [hrun]
  exact JsonText.run_body (hend.trans hj) isKey stack

theorem run_fill {known : Text → Option Text} : ∀ (ps : List Piece) (st : JsonText.State),
    (∀ name written, .hole name written ∈ ps → written = name ∧ IsUrl Char.toNat name ∧
      ∀ v, known name = some v → JsonText.bodyEnd v = JsonText.bodyEnd name) →
    (JsonText.run st (fill (fun _ => none) ps)).isSome = true →
      JsonText.run st (fill known ps) = JsonText.run st (fill (fun _ => none) ps)
  | [], _, _, _ => rfl
  | .char c :: ps, st, hps, hsome => by
      rw [fill, JsonText.run, List.foldlM_cons] at hsome
      rw [fill, fill, JsonText.run, JsonText.run, List.foldlM_cons, List.foldlM_cons]
      cases hstep : JsonText.step st c with
      | none => rfl
      | some st' =>
          rw [hstep] at hsome
          exact run_fill ps st' (fun n w hmem => hps n w (List.mem_cons_of_mem _ hmem)) hsome
  | .hole name written :: ps, st, hps, hsome => by
      obtain ⟨rfl, hurl, hknown⟩ := hps name written List.mem_cons_self
      rw [fill, Option.getD_none, JsonText.run_append] at hsome
      rw [fill, fill, Option.getD_none, JsonText.run_append, JsonText.run_append]
      have hhole : JsonText.run st ((known written).getD written) = JsonText.run st written := by
        cases hk : known written with
        | none => rfl
        | some v =>
            refine run_hole hurl (hknown v hk) ?_
            cases hrun : JsonText.run st written with
            | none =>
                rw [hrun] at hsome
                cases hsome
            | some _ => rfl
      rw [hhole]
      cases hrun : JsonText.run st written with
      | none => rfl
      | some st' =>
          rw [hrun] at hsome
          exact run_fill ps st' (fun n w hmem => hps n w (List.mem_cons_of_mem _ hmem)) hsome

theorem valid_substitute (h : Replaceable content urlMap)
    (hvalid : JsonText.valid content = true) : JsonText.valid (substitute content urlMap) = true := by
  have hcontent := fill_scan content
  have hsome : (JsonText.run JsonText.start content).isSome = true := by
    rw [JsonText.valid] at hvalid
    cases hrun : JsonText.run JsonText.start content with
    | none =>
        rw [hrun] at hvalid
        cases hvalid
    | some _ => rfl
  have hrun := @run_fill (fun u => urlMap.lookup u) (scan content) JsonText.start
    (fun name written hmem => by
      obtain ⟨rfl, hurl⟩ := hole_of_scan content name written hmem
      exact ⟨rfl, hurl, fun v hv => h.within hvalid _ (Entries.mem_of_lookup hv) hmem⟩)
    (by rwa [hcontent])
  rw [hcontent] at hrun
  rw [JsonText.valid, substitute, hrun]
  exact hvalid

end

/-! ## The strings of a JSON -/

section
variable {α : Type} {code : α → Nat} {s u : List α}

theorem hasDomain_append (before : List α) (h : hasDomain code s = true) :
    hasDomain code (before ++ s) = true := by
  induction before with
  | nil => exact h
  | cons c before ih =>
      rw [List.cons_append, hasDomain, ih, Bool.or_true]

theorem hasDomain_of_url (h : IsUrl code u) (t : List α) : hasDomain code (u ++ t) = true := by
  obtain ⟨⟨d, hd, hfront, -⟩, -⟩ := (urlAt_eq_some_iff).mp (urlAt_append h t)
  have hsome : (domainAt code (u ++ t)).isSome = true :=
    List.find?_isSome.mpr ⟨d, hd, List.isPrefixOf_iff_prefix.mpr hfront⟩
  obtain ⟨c, u', rfl⟩ := List.exists_cons_of_ne_nil h.ne_nil
  rw [List.cons_append] at hsome ⊢
  rw [hasDomain, hsome, Bool.true_or]

theorem hasDomain_of_maximal (h : Maximal code s u) : hasDomain code s = true := by
  obtain ⟨hurl, before, after, rfl, -⟩ := h
  rw [List.append_assoc]
  exact hasDomain_append before (hasDomain_of_url hurl after)

theorem maximal_self (h : IsUrl code s) : Maximal code s s :=
  ⟨h, [], [], (List.append_nil s).symm, fun _ _ hb ha _ =>
    ⟨List.suffix_nil.mp hb, List.prefix_nil.mp ha⟩⟩

theorem eq_of_maximal (hs : IsUrl code s) (h : Maximal code s u) : u = s := by
  obtain ⟨-, before, after, rfl, hmax⟩ := h
  obtain ⟨rfl, rfl⟩ := hmax before after (List.suffix_refl _) (List.prefix_refl _) hs
  rw [List.nil_append, List.append_nil]

end

theorem strings_iff (values names : List JsonText.Units) :
    (∀ u, u ∈ addAll (values.filter (hasDomain id)) ↔ ∃ s ∈ values ++ names, Maximal id s u) ↔
      (∀ s ∈ values, hasDomain id s = true → IsUrl id s) ∧
        ∀ key ∈ names, ∀ u, Maximal id key u → u ∈ values := by
  constructor
  · intro h
    refine ⟨fun s hs hdomain => ?_, fun key hkey u hmax => ?_⟩
    · obtain ⟨_, _, hmax⟩ := (h s).mp (mem_addAll.mpr (List.mem_filter.mpr ⟨hs, hdomain⟩))
      exact hmax.1
    · have hmem := (h u).mpr ⟨key, List.mem_append_right values hkey, hmax⟩
      exact (List.mem_filter.mp (mem_addAll.mp hmem)).1
  · rintro ⟨hvalues, hnames⟩ u
    rw [mem_addAll, List.mem_filter]
    constructor
    · rintro ⟨hu, hdomain⟩
      exact ⟨u, List.mem_append_left names hu, maximal_self (hvalues u hu hdomain)⟩
    · rintro ⟨s, hs, hmax⟩
      have hdomain : hasDomain id u = true := hasDomain_of_maximal (maximal_self hmax.1)
      rcases List.mem_append.mp hs with hs | hs
      · rw [eq_of_maximal (hvalues s hs (hasDomain_of_maximal hmax)) hmax]
        exact ⟨hs, hasDomain_of_maximal hmax⟩
      · exact ⟨hnames s hs u hmax, hdomain⟩

theorem extractJson_nodup (content : Text) : (extractUnlayerUrlsFromJson content).Nodup := by
  rw [extractUnlayerUrlsFromJson]
  split
  · exact List.nodup_nil
  · exact nodup_addAll _

theorem whole_iff (content : Text) :
    (∀ json, JsonText.parse content = some json → ∀ u, u ∈ extractUnlayerUrlsFromJson content ↔
      ∃ s ∈ strings json ++ keys json, Maximal id s u) ↔ Whole content := by
  refine forall_congr' fun json => imp_congr_right fun hparse => ?_
  rw [← strings_iff, extractUnlayerUrlsFromJson, hparse]

/-- A content that is one string, a URL. -/
def oneUrl : Text := "\"https://assets.unlayer.com/a\"".toList

def oneEntry : List (Text × Text) := [("https://assets.unlayer.com/a".toList, "b".toList)]

theorem urlMap_oneEntry : UrlMap oneEntry :=
  ⟨by decide, fun entry hentry => by cases List.mem_singleton.mp hentry; rfl⟩

end OpenBms.Messages.Unlayer
