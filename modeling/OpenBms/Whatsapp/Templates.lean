/-
# `OpenBms.Whatsapp.Templates` — a template, and the messages sent by it

The provider keeps a template: a text with placeholders `{{1}}`, `{{2}}`, … and perhaps a
button whose URL ends in one.  `buildPayload` submits it for a message of the editor,
`flattenMetaTemplateComponents` makes a message of one that is already there, and
`buildComponents` writes the parameters for a contact.

| | submitted | sent |
| :-- | :-- | :-- |
| variables | of the body, once each, in capitals | of the body, once each, in capitals |
| content that is a JSON scalar | no body | the text of the content |
| a contact with a code | — | the code is the only parameter |
| the button | call to action with a text | the message has a URL |

**Proved here.**

    a text's placeholders are those it had, and one for each variable (`mem_placeholders_toMetaBody`)
    what is sent fits the template iff the message's placeholders are its
    variables' own, the code is the one variable's value, and a URL goes
    with a call to action (`template_agrees_iff`)
    it does not for an imported template with a placeholder (`imported_mismatch`)
-/
import Mathlib

namespace OpenBms.Whatsapp.Templates

abbrev Text := List Char

/-! ## Variables -/

/-- What the scan of a text finds: a character, or the name between two `%`. -/
inductive Piece where
  | char (c : Char)
  | named (name : Text)
  deriving DecidableEq

def isWord (c : Char) : Bool := c.isAlphanum || c = '_'

/-- `/%([A-Za-z0-9_]+)%/g`, with what was read since the last `%`, if it may still be one. -/
def scan : Option Text → Text → List Piece
  | none, [] => []
  | some word, [] => ('%' :: word).map .char
  | none, c :: text => if c = '%' then scan (some []) text else .char c :: scan none text
  | some word, c :: text =>
      if c = '%' then
        if word = [] then .char '%' :: scan (some []) text
        else .named word :: scan none text
      else if isWord c then scan (some (word ++ [c])) text
      else ('%' :: (word ++ [c])).map .char ++ scan none text

def toUpperCase (name : Text) : Text := name.map Char.toUpper

/-- One turn of the loop over the matches. -/
def addName (names : List Text) : Piece → List Text
  | .char _ => names
  | .named name =>
      if names.contains (toUpperCase name) then names else names ++ [toUpperCase name]

def extractTemplateVariables (body : Text) : List Text := (scan none body).foldl addName []

def placeholder (n : Nat) : Text := '{' :: '{' :: (Nat.toDigits 10 n ++ ['}', '}'])

/-- A text has the placeholder with a number. -/
def HasPlaceholder (n : Nat) (text : Text) : Prop := placeholder n <:+: text

instance (n : Nat) (text : Text) : Decidable (HasPlaceholder n text) :=
  inferInstanceAs (Decidable (_ <:+: _))

def Piece.text : Piece → Text
  | .char c => [c]
  | .named name => '%' :: (name ++ ['%'])

/-- The replacement of a match. -/
def Piece.numbered (names : List Text) : Piece → Text
  | .char c => [c]
  | .named name => placeholder (names.idxOf (toUpperCase name) + 1)

structure MetaBody where
  text : Text
  names : List Text
  deriving DecidableEq

def toMetaBody (body : Text) : MetaBody :=
  let names := extractTemplateVariables body
  ⟨(scan none body).flatMap (Piece.numbered names), names⟩

/-! ## Parameters -/

/-- `.replace(/[\r\n\t]+/g, ' ')`. -/
def joinLines : Bool → Text → Text
  | _, [] => []
  | inside, c :: text =>
      if c ∈ ['\r', '\n', '\t'] then
        if inside then joinLines true text else ' ' :: joinLines true text
      else c :: joinLines false text

/-- `.replace(/ {4,}/g, '   ')`. -/
def capBlanks : Nat → Text → Text
  | _, [] => []
  | n, c :: text =>
      if c = ' ' then
        if n < 3 then c :: capBlanks (n + 1) text else capBlanks n text
      else c :: capBlanks 0 text

/-- What `trim` takes away. -/
def isSpace (c : Char) : Bool :=
  c.toNat ∈ [9, 10, 11, 12, 13, 32, 160, 5760, 8232, 8233, 8239, 8287, 12288, 65279] ||
    (8192 ≤ c.toNat && c.toNat ≤ 8202)

def trim (text : Text) : Text := ((text.dropWhile isSpace).reverse.dropWhile isSpace).reverse

def sanitizeParameterText (value : Option Text) : Text :=
  let text := trim (capBlanks 0 (joinLines false (value.getD [])))
  if text = [] then ['-'] else text

/-! ## Messages -/

/-- What `JSON.parse` makes of a content: an object with or without a body, or no object. -/
inductive Json where
  | object (body : Option Text)
  | scalar
  deriving DecidableEq

/-- `JSON.parse`, and `JSON.stringify` of an object with a body. -/
structure JsonFormat where
  parse : Text → Option Json
  stringify : Text → Text
  parse_stringify : ∀ body, parse (stringify body) = some (.object (some body))
  stringify_ne : ∀ body, stringify body ≠ []

/-- A message; an empty text may also be absent. -/
structure Message where
  type : Text
  content : Text
  whatsappType : Text
  callToActionText : Text
  url : Text

inductive Button where
  | url (text : Text) (url : Text)
  | otp
  | other
  deriving DecidableEq

/-- The text of a template; that of an authentication template is the provider's own. -/
inductive TemplateBody where
  | text (text : Text)
  | authentication
  deriving DecidableEq

structure Template where
  body : TemplateBody
  buttons : List Button
  deriving DecidableEq

/-- `parseContent(raw).body ?? ''`. -/
def submittedBody (json : JsonFormat) (raw : Text) : Text :=
  if raw = [] then []
  else match json.parse raw with
    | some (.object body) => body.getD []
    | some .scalar => []
    | none => raw

def buildPayload (json : JsonFormat) (message : Message) (shortlinkBaseUrl : Option Text) : Template :=
  if message.type = "2FA-whatsapp".toList then ⟨.authentication, [.otp]⟩
  else
    ⟨.text (toMetaBody (submittedBody json message.content)).text,
      if message.whatsappType = "call-to-action".toList ∧ message.callToActionText ≠ [] then
        [.url message.callToActionText
          (shortlinkBaseUrl.getD "https://example.com/".toList ++ placeholder 1)]
      else []⟩

/-- A component of a template of the provider's. -/
inductive Component where
  | header (format text : Option Text)
  | body (text : Option Text)
  | footer (text : Option Text)
  | buttons (buttons : List Button)
  | other

structure Flattened where
  body : Text
  whatsappType : Text
  callToActionText : Text

/-- One turn of the loop over the components. -/
def flattenComponent (flattened : Flattened) : Component → Flattened
  | .body text => { flattened with body := text.getD [] }
  | .buttons buttons =>
      match buttons.findSome? (fun | .url text _ => some text | _ => none) with
      | some text => { flattened with
          whatsappType := "call-to-action".toList, callToActionText := text }
      | none => flattened
  | .header _ _ | .footer _ | .other => flattened

def flattenMetaTemplateComponents (components : List Component) : Flattened :=
  components.foldl flattenComponent ⟨[], "text".toList, []⟩

/-- The row that `syncTemplatesFromMeta` adds. -/
def importMessage (json : JsonFormat) (components : List Component) : Message :=
  let flattened := flattenMetaTemplateComponents components
  ⟨"whatsapp".toList, json.stringify flattened.body, flattened.whatsappType,
    flattened.callToActionText, []⟩

/-! ## Sending -/

def extractTemplateBody (json : JsonFormat) (content : Text) : Text :=
  if content = [] then []
  else match json.parse content with
    | some (.object body) => body.getD []
    | some .scalar => content
    | none => content

/-- The parameters of the two components; a button that is not there has none. -/
structure Sent where
  button : Option Text
  body : List Text
  deriving DecidableEq

/-- What `createShortLink` returns. -/
structure ShortCode where
  text : Text
  ne : text ≠ []

def buildComponents (shortCode : Option Text) (code : Text) (bodyParameters : List Text) : Sent :=
  ⟨shortCode.filter (· ≠ []), if code ≠ [] then [code] else bodyParameters⟩

/-- A contact: its code, if it has one, and `mapVariables`. -/
structure Contact where
  code : Text
  values : Text → Option Text

def parameter (contact : Contact) (name : Text) : Text := sanitizeParameterText (contact.values name)

def buildBodyParameters (json : JsonFormat) (content : Text) (contact : Contact) : List Text :=
  (extractTemplateVariables (extractTemplateBody json content)).map (parameter contact)

/-- What is sent of a message, with the short code that its link would have. -/
def send (json : JsonFormat) (message : Message) (contact : Contact) (shortCode : ShortCode) : Sent :=
  buildComponents (if message.url ≠ [] then some shortCode.text else none) contact.code
    (buildBodyParameters json message.content contact)

/-! ## The two together -/

/-- Where a stored message comes from. -/
inductive Origin where
  | created (message : Message)
  | imported (components : List Component)

def Component.bodyText : Component → Option Text
  | .body t => some (t.getD [])
  | _ => none

def Component.buttonList : Component → List Button
  | .buttons list => list
  | _ => []

/-- The template of the provider's that has these components. -/
def metaTemplate (components : List Component) : Template :=
  ⟨.text ((components.filterMap Component.bodyText).getLast?.getD []),
    components.flatMap Component.buttonList⟩

def Origin.message (json : JsonFormat) : Origin → Message
  | .created message => message
  | .imported components => importMessage json components

def Origin.template (json : JsonFormat) (shortlinkBaseUrl : Option Text) : Origin → Template
  | .created message => buildPayload json message shortlinkBaseUrl
  | .imported components => metaTemplate components

/-- The values of the variables that were numbered, in that order. -/
def Origin.numbered (json : JsonFormat) (contact : Contact) : Origin → List Text
  | .created message =>
      if message.type = "2FA-whatsapp".toList then [contact.code]
      else (toMetaBody (submittedBody json message.content)).names.map (parameter contact)
  | .imported _ => []

/-- The placeholders of a template's text; that of the provider's own has the code. -/
def TemplateBody.Has (n : Nat) : TemplateBody → Prop
  | .text t => HasPlaceholder n t
  | .authentication => n = 1

/-- A button with a URL that ends in a parameter. -/
def Button.Dynamic : Button → Prop
  | .url _ address => HasPlaceholder 1 address
  | .otp | .other => False

instance (button : Button) : Decidable button.Dynamic :=
  match button with
  | .url _ address => inferInstanceAs (Decidable (HasPlaceholder 1 address))
  | .otp => inferInstanceAs (Decidable False)
  | .other => inferInstanceAs (Decidable False)

/-- What is sent fits a template: its parameters are those of the placeholders, the first ones
have the values of the numbered variables, and a button goes with a dynamic URL. -/
structure Fits (template : Template) (numbered : List Text) (sent : Sent) : Prop where
  placeholders : ∀ n, template.body.Has n ↔ 1 ≤ n ∧ n ≤ sent.body.length
  values : numbered <+: sent.body
  button : sent.button.isSome ↔ ∃ button ∈ template.buttons, button.Dynamic

/-- The text of a message is not a JSON scalar with variables. -/
def Message.Structured (json : JsonFormat) (message : Message) : Prop :=
  json.parse message.content = some .scalar → extractTemplateVariables message.content = []

/-- A message of the editor, for a contact. -/
structure Message.Sound (json : JsonFormat) (message : Message) (contact : Contact) : Prop where
  withoutCode : contact.code = [] → message.Structured json ∧
    ∀ n, HasPlaceholder n (submittedBody json message.content) →
      1 ≤ n ∧ n ≤ (extractTemplateVariables (submittedBody json message.content)).length
  withCode : contact.code ≠ [] →
    (∀ n, HasPlaceholder n (submittedBody json message.content) → n = 1) ∧
      ((extractTemplateVariables (submittedBody json message.content) = [] ∧
          HasPlaceholder 1 (submittedBody json message.content)) ∨
        ∃ name, extractTemplateVariables (submittedBody json message.content) = [name] ∧
          parameter contact name = contact.code)
  button : message.url ≠ [] ↔
    message.whatsappType = "call-to-action".toList ∧ message.callToActionText ≠ []

/-- When a message fits its template. -/
def Origin.Sound (json : JsonFormat) (contact : Contact) : Origin → Prop
  | .created message =>
      if message.type = "2FA-whatsapp".toList then contact.code ≠ [] ∧ message.url = []
      else message.Sound json contact
  | .imported components =>
      let body := (components.filterMap Component.bodyText).getLast?.getD []
      (∀ n, HasPlaceholder n body ↔ 1 ≤ n ∧
        n ≤ if contact.code = [] then (extractTemplateVariables body).length else 1) ∧
        ∀ button ∈ components.flatMap Component.buttonList, ¬ button.Dynamic

section
variable {body text rest : Text} {pieces : List Piece} {n : Nat}

/-! ## The scan -/

theorem ne_of_isWord {c : Char} (h : isWord c = true) : c ≠ '{' := by
  rintro rfl
  cases h

theorem isWord_of_named {pending : Option Text} {name : Text}
    (hpending : ∀ word, pending = some word → ∀ c ∈ word, isWord c = true)
    (h : .named name ∈ scan pending text) : ∀ c ∈ name, isWord c = true := by
  induction text generalizing pending with
  | nil =>
      cases pending with
      | none => cases h
      | some word =>
          obtain ⟨c, -, hc⟩ := List.mem_map.mp h
          cases hc
  | cons c text ih =>
      have hnone : ∀ word : Text, none = some word → ∀ c ∈ word, isWord c = true :=
        fun word hword => by cases hword
      have hempty : ∀ word : Text, some [] = some word → ∀ c ∈ word, isWord c = true := by
        intro word hword c hc
        cases hword
        cases hc
      cases pending with
      | none =>
          rw [scan] at h
          split at h
          · exact ih hempty h
          · rcases List.mem_cons.mp h with heq | h
            · cases heq
            · exact ih hnone h
      | some word =>
          rw [scan] at h
          split at h
          · split at h
            · rcases List.mem_cons.mp h with heq | h
              · cases heq
              · exact ih hempty h
            · rcases List.mem_cons.mp h with heq | h
              · cases heq
                exact hpending _ rfl
              · exact ih hnone h
          · split at h
            · rename_i hword
              refine ih (fun word' heq => ?_) h
              cases heq
              intro c' hc'
              rcases List.mem_append.mp hc' with hc' | hc'
              · exact hpending word rfl c' hc'
              · cases List.mem_singleton.mp hc'
                exact hword
            · rcases List.mem_append.mp h with h | h
              · obtain ⟨c', -, hc'⟩ := List.mem_map.mp h
                cases hc'
              · exact ih hnone h

theorem flatMap_char {word : Text} : (word.map Piece.char).flatMap Piece.text = word := by
  induction word with
  | nil => rfl
  | cons c word ih => rw [List.map_cons, List.flatMap_cons, ih]; rfl

theorem scan_text {pending : Option Text} : (scan pending text).flatMap Piece.text =
    (match pending with | none => [] | some word => '%' :: word) ++ text := by
  induction text generalizing pending with
  | nil =>
      cases pending with
      | none => rfl
      | some word => rw [scan, flatMap_char, List.append_nil]
  | cons c text ih =>
      cases pending with
      | none =>
          rw [scan]
          split
          · rename_i hc
            rw [ih, hc]
            rfl
          · rw [List.flatMap_cons, ih]
            rfl
      | some word =>
          rw [scan]
          split
          · rename_i hc
            split
            · rename_i hword
              rw [List.flatMap_cons, ih, hc, hword]
              rfl
            · rw [List.flatMap_cons, ih, hc, Piece.text]
              simp only [List.nil_append, List.cons_append, List.append_assoc]
          · split
            · rw [ih]
              simp only [List.cons_append, List.append_assoc, List.nil_append]
            · rw [List.flatMap_append, flatMap_char, ih]
              simp only [List.nil_append, List.cons_append, List.append_assoc]

/-! ## The names -/

theorem nodup_addName {names : List Text} {piece : Piece} (h : names.Nodup) :
    (addName names piece).Nodup := by
  cases piece with
  | char c => exact h
  | named name =>
      rw [addName]
      split
      · exact h
      · rename_i hnot
        have hnew : toUpperCase name ∉ names := fun hmem => hnot (List.contains_iff_mem.mpr hmem)
        exact h.append (List.nodup_singleton _) (List.disjoint_singleton.mpr hnew)

theorem mem_addName {names : List Text} {piece : Piece} {v : Text} :
    v ∈ addName names piece ↔ v ∈ names ∨ ∃ name, piece = .named name ∧ toUpperCase name = v := by
  cases piece with
  | char c => simp only [addName, reduceCtorEq, false_and, exists_false, or_false]
  | named name =>
      have hname : (∃ other, Piece.named name = .named other ∧ toUpperCase other = v) ↔
          toUpperCase name = v := by
        constructor
        · rintro ⟨other, heq, hv⟩
          cases heq
          exact hv
        · intro hv
          exact ⟨name, rfl, hv⟩
      rw [hname, addName]
      split
      · rename_i hmem
        refine ⟨.inl, fun h => h.elim id ?_⟩
        rintro rfl
        exact List.contains_iff_mem.mp hmem
      · rw [List.mem_append, List.mem_singleton, eq_comm (a := v)]

theorem nodup_extractTemplateVariables : (extractTemplateVariables body).Nodup := by
  have hfrom : ∀ (pieces : List Piece) (names : List Text), names.Nodup →
      (pieces.foldl addName names).Nodup := by
    intro pieces
    induction pieces with
    | nil =>
        intro names h
        exact h
    | cons piece pieces ih =>
        intro names h
        exact ih _ (nodup_addName h)
  exact hfrom _ [] List.nodup_nil

theorem mem_extractTemplateVariables {v : Text} : v ∈ extractTemplateVariables body ↔
    ∃ name, .named name ∈ scan none body ∧ toUpperCase name = v := by
  have hfrom : ∀ (pieces : List Piece) (names : List Text), v ∈ pieces.foldl addName names ↔
      v ∈ names ∨ ∃ name, .named name ∈ pieces ∧ toUpperCase name = v := by
    intro pieces
    induction pieces with
    | nil =>
        intro names
        simp only [List.foldl_nil, List.not_mem_nil, false_and, exists_false, or_false]
    | cons piece pieces ih =>
        intro names
        rw [List.foldl_cons, ih, mem_addName, or_assoc]
        simp only [List.mem_cons, eq_comm (b := piece), or_and_right, exists_or]
  rw [extractTemplateVariables, hfrom]
  exact or_iff_right List.not_mem_nil

/-! ## Placeholders -/

theorem brace_not_mem_digits : '{' ∉ Nat.toDigits 10 n ∧ '}' ∉ Nat.toDigits 10 n ∧
    '%' ∉ Nat.toDigits 10 n := by
  have hnot : ∀ c : Char, c.isDigit = false → c ∉ Nat.toDigits 10 n := by
    intro c hc hmem
    have hdigit := Nat.isDigit_of_mem_toDigits (by decide) (by decide) hmem
    rw [hc] at hdigit
    cases hdigit
  exact ⟨hnot _ (by decide), hnot _ (by decide), hnot _ (by decide)⟩

/-- Nothing with an opening brace in front is in a text without one, or overlaps it. -/
theorem infix_append_iff {p block : Text} (hblock : '{' ∉ block) :
    '{' :: p <:+: block ++ rest ↔ '{' :: p <:+: rest := by
  induction block with
  | nil => rfl
  | cons c block ih =>
      rw [List.mem_cons, not_or] at hblock
      rw [List.cons_append, List.infix_cons_iff, ih hblock.2]
      refine or_iff_right fun hpre => ?_
      exact hblock.1 (List.cons_prefix_cons.mp hpre).1

theorem prefix_numbered_iff {q : Text} {names : List Text} (hopen : '{' ∉ q) (hpercent : '%' ∉ q) :
    q <+: pieces.flatMap (Piece.numbered names) ↔ q <+: pieces.flatMap Piece.text := by
  induction pieces generalizing q with
  | nil => rfl
  | cons piece pieces ih =>
      cases q with
      | nil => exact ⟨fun _ => List.nil_prefix, fun _ => List.nil_prefix⟩
      | cons c q =>
          rw [List.mem_cons, not_or] at hopen hpercent
          cases piece with
          | char d =>
              show c :: q <+: d :: _ ↔ c :: q <+: d :: _
              rw [List.cons_prefix_cons, List.cons_prefix_cons]
              exact and_congr_right fun _ => ih hopen.2 hpercent.2
          | named name =>
              refine ⟨fun h => ?_, fun h => ?_⟩
              · exact absurd (List.cons_prefix_cons.mp h).1.symm hopen.1
              · exact absurd (List.cons_prefix_cons.mp h).1.symm hpercent.1

/-- The same with one opening brace, when no digit follows that is not there. -/
theorem prefix_brace_numbered_iff {c : Char} {q : Text} {names : List Text} (hc : c ≠ '{')
    (hopen : '{' ∉ c :: q) (hpercent : '%' ∉ c :: q) :
    '{' :: c :: q <+: pieces.flatMap (Piece.numbered names) ↔
      '{' :: c :: q <+: pieces.flatMap Piece.text := by
  cases pieces with
  | nil => rfl
  | cons piece pieces =>
      cases piece with
      | char d =>
          show '{' :: c :: q <+: d :: _ ↔ '{' :: c :: q <+: d :: _
          rw [List.cons_prefix_cons, List.cons_prefix_cons]
          exact and_congr_right fun _ => prefix_numbered_iff hopen hpercent
      | named name =>
          refine ⟨fun h => ?_, fun h => ?_⟩
          · have hsecond := (List.cons_prefix_cons.mp h).2
            exact absurd (List.cons_prefix_cons.mp hsecond).1 hc
          · have hfirst := (List.cons_prefix_cons.mp h).1
            cases hfirst

/-- The digits of a number, with what closes the placeholder. -/
theorem exists_digits : ∃ c q, Nat.toDigits 10 n ++ ['}', '}'] = c :: q ∧ c ≠ '{' ∧
    '{' ∉ c :: q ∧ '%' ∉ c :: q := by
  have hopen : '{' ∉ Nat.toDigits 10 n ++ ['}', '}'] := by
    rw [List.mem_append, not_or]
    exact ⟨brace_not_mem_digits.1, by decide⟩
  have hpercent : '%' ∉ Nat.toDigits 10 n ++ ['}', '}'] := by
    rw [List.mem_append, not_or]
    exact ⟨brace_not_mem_digits.2.2, by decide⟩
  cases hdigits : Nat.toDigits 10 n ++ ['}', '}'] with
  | nil => exact absurd hdigits (List.append_ne_nil_of_right_ne_nil _ (List.cons_ne_nil _ _))
  | cons c q =>
      rw [hdigits] at hopen hpercent
      rw [List.mem_cons, not_or] at hopen
      exact ⟨c, q, rfl, Ne.symm hopen.1, List.mem_cons.not.mpr (not_or.mpr hopen), hpercent⟩

theorem prefix_closing {a b x y : Text} (ha : '}' ∉ a) (hb : '}' ∉ b)
    (h : a ++ '}' :: x <+: b ++ '}' :: y) : a = b := by
  induction a generalizing b with
  | nil =>
      cases b with
      | nil => rfl
      | cons c b =>
          rw [List.mem_cons, not_or] at hb
          exact absurd (List.cons_prefix_cons.mp h).1 hb.1
  | cons c a ih =>
      rw [List.mem_cons, not_or] at ha
      cases b with
      | nil => exact absurd (List.cons_prefix_cons.mp h).1.symm ha.1
      | cons d b =>
          rw [List.mem_cons, not_or] at hb
          obtain ⟨hcd, htail⟩ := List.cons_prefix_cons.mp h
          rw [hcd, ih ha.2 hb.2 htail]

theorem digits_inj {m : Nat} (h : Nat.toDigits 10 n = Nat.toDigits 10 m) : n = m := by
  have hn := Nat.ofDigitChars_ten_toDigits (n := n)
  rw [h, Nat.ofDigitChars_ten_toDigits] at hn
  exact hn.symm

/-- A placeholder in front of a text adds its own number. -/
theorem hasPlaceholder_append {m : Nat} :
    HasPlaceholder n (placeholder m ++ rest) ↔ n = m ∨ HasPlaceholder n rest := by
  have hclosed : '{' ∉ Nat.toDigits 10 m ++ ['}', '}'] := by
    rw [List.mem_append, not_or]
    exact ⟨brace_not_mem_digits.1, by decide⟩
  have hfirst : placeholder n <+: placeholder m ++ rest ↔ n = m := by
    refine ⟨fun h => ?_, fun h => h ▸ List.prefix_append _ _⟩
    have hdigits : Nat.toDigits 10 n ++ ['}', '}'] <+: Nat.toDigits 10 m ++ (['}', '}'] ++ rest) := by
      rw [← List.append_assoc]
      exact (List.cons_prefix_cons.mp (List.cons_prefix_cons.mp h).2).2
    exact digits_inj (prefix_closing brace_not_mem_digits.2.1 brace_not_mem_digits.2.1 hdigits)
  have hsecond : ¬ placeholder n <+: '{' :: (Nat.toDigits 10 m ++ ['}', '}'] ++ rest) := by
    intro h
    have hbrace := (List.cons_prefix_cons.mp h).2
    obtain ⟨c, q, heq, hne, -, -⟩ := exists_digits (n := m)
    rw [heq] at hbrace
    exact hne (List.cons_prefix_cons.mp hbrace).1.symm
  show placeholder n <:+: '{' :: ('{' :: (Nat.toDigits 10 m ++ ['}', '}'] ++ rest)) ↔ _
  rw [List.infix_cons_iff, List.infix_cons_iff]
  refine or_congr hfirst ?_
  rw [or_iff_right hsecond]
  exact infix_append_iff hclosed

theorem hasPlaceholder_numbered {names : List Text}
    (hwords : ∀ name, .named name ∈ pieces → ∀ c ∈ name, isWord c = true) :
    HasPlaceholder n (pieces.flatMap (Piece.numbered names)) ↔
      HasPlaceholder n (pieces.flatMap Piece.text) ∨
        ∃ name, .named name ∈ pieces ∧ n = names.idxOf (toUpperCase name) + 1 := by
  induction pieces with
  | nil =>
      simp only [List.flatMap_nil, List.not_mem_nil, false_and, exists_false, or_false]
  | cons piece pieces ih =>
      have hrest := ih fun name hname => hwords name (List.mem_cons_of_mem _ hname)
      cases piece with
      | char c =>
          have hfirst : placeholder n <+: c :: pieces.flatMap (Piece.numbered names) ↔
              placeholder n <+: c :: pieces.flatMap Piece.text := by
            obtain ⟨d, q, hdigits, hne, hopen, hpercent⟩ := exists_digits (n := n)
            rw [placeholder, hdigits, List.cons_prefix_cons, List.cons_prefix_cons]
            exact and_congr_right fun _ => prefix_brace_numbered_iff hne hopen hpercent
          show placeholder n <:+: c :: pieces.flatMap (Piece.numbered names) ↔
            placeholder n <:+: c :: pieces.flatMap Piece.text ∨ _
          rw [List.infix_cons_iff, List.infix_cons_iff, hfirst, or_assoc]
          refine or_congr_right (hrest.trans (or_congr_right ?_))
          simp only [List.mem_cons, reduceCtorEq, false_or]
      | named name =>
          have hname : '{' ∉ '%' :: (name ++ ['%']) := by
            intro hmem
            rcases List.mem_cons.mp hmem with heq | hmem
            · cases heq
            · rcases List.mem_append.mp hmem with hmem | hmem
              · exact ne_of_isWord (hwords name (List.mem_cons_self ..) _ hmem) rfl
              · exact absurd (List.mem_singleton.mp hmem) (by decide)
          have hskip : HasPlaceholder n ((Piece.named name).text ++ pieces.flatMap Piece.text) ↔
              HasPlaceholder n (pieces.flatMap Piece.text) := infix_append_iff hname
          rw [List.flatMap_cons, List.flatMap_cons, hskip, Piece.numbered, hasPlaceholder_append, hrest]
          constructor
          · rintro (heq | htext | ⟨other, hmem, heq⟩)
            · exact .inr ⟨name, List.mem_cons_self .., heq⟩
            · exact .inl htext
            · exact .inr ⟨other, List.mem_cons_of_mem _ hmem, heq⟩
          · rintro (htext | ⟨other, hmem, heq⟩)
            · exact .inr (.inl htext)
            · rcases List.mem_cons.mp hmem with hsame | hmem
              · cases hsame
                exact .inl heq
              · exact .inr (.inr ⟨other, hmem, heq⟩)

theorem mem_placeholders_toMetaBody : HasPlaceholder n (toMetaBody body).text ↔
    HasPlaceholder n body ∨ 1 ≤ n ∧ n ≤ (extractTemplateVariables body).length := by
  have hwords : ∀ name, .named name ∈ scan none body → ∀ c ∈ name, isWord c = true :=
    fun name hname => isWord_of_named (fun word hword => by cases hword) hname
  have hbody : (scan none body).flatMap Piece.text = body := scan_text
  rw [toMetaBody, hasPlaceholder_numbered hwords, hbody]
  refine or_congr_right ⟨?_, ?_⟩
  · rintro ⟨name, hmem, rfl⟩
    have hname := mem_extractTemplateVariables.mpr ⟨name, hmem, rfl⟩
    exact ⟨Nat.le_add_left _ _, List.idxOf_lt_length_iff.mpr hname⟩
  · rintro ⟨hpos, hle⟩
    have hlt : n - 1 < (extractTemplateVariables body).length := by omega
    obtain ⟨name, hmem, hname⟩ := mem_extractTemplateVariables.mp
      (List.getElem_mem hlt)
    refine ⟨name, hmem, ?_⟩
    rw [hname, nodup_extractTemplateVariables.idxOf_getElem _ hlt]
    omega

end

/-- A repeated variable is one placeholder, in capitals or not. -/
example : toMetaBody "Hi %name%, 5% of %X%, %NAME%".toList =
    ⟨"Hi ".toList ++ placeholder 1 ++ ", 5% of ".toList ++ placeholder 2 ++ ", ".toList ++ placeholder 1,
      ["NAME".toList, "X".toList]⟩ := by
  decide +kernel

section
variable {json : JsonFormat} {message : Message} {contact : Contact} {shortCode : ShortCode}
  {components : List Component} {shortlinkBaseUrl : Option Text}

/-! ## What is sent -/

theorem sanitizeParameterText_ne {value : Option Text} : sanitizeParameterText value ≠ [] := by
  simp only [sanitizeParameterText]
  split
  · exact List.cons_ne_nil _ _
  · assumption

theorem send_button : (send json message contact shortCode).button.isSome ↔ message.url ≠ [] := by
  simp only [send, buildComponents]
  split
  · rename_i hurl
    have hkept : (some shortCode.text).filter (· ≠ []) = some shortCode.text :=
      Option.filter_eq_some_iff.mpr ⟨rfl, decide_eq_true shortCode.ne⟩
    rw [hkept]
    exact iff_of_true rfl hurl
  · rename_i hurl
    exact iff_of_false Bool.false_ne_true hurl

theorem send_body_of_code (h : contact.code ≠ []) :
    (send json message contact shortCode).body = [contact.code] := if_pos h

theorem send_body (h : contact.code = []) : (send json message contact shortCode).body =
    (extractTemplateVariables (extractTemplateBody json message.content)).map (parameter contact) :=
  if_neg (not_not.mpr h)

theorem extractTemplateBody_eq (json : JsonFormat) (message : Message) :
    extractTemplateBody json message.content = submittedBody json message.content ∨
    json.parse message.content = some .scalar ∧ submittedBody json message.content = [] ∧
      extractTemplateBody json message.content = message.content := by
  rw [extractTemplateBody, submittedBody]
  split
  · exact .inl rfl
  · cases hparse : json.parse message.content with
    | none => exact .inl rfl
    | some value =>
        cases value with
        | object body => exact .inl rfl
        | scalar => exact .inr ⟨rfl, rfl, rfl⟩

theorem not_hasPlaceholder_nil {n : Nat} : ¬ HasPlaceholder n [] :=
  fun h => List.cons_ne_nil _ _ (List.infix_nil.mp h)

theorem covers_iff {P : Nat → Prop} {k m : Nat} :
    (∀ n, P n ∨ 1 ≤ n ∧ n ≤ k ↔ 1 ≤ n ∧ n ≤ m) ↔
      (∀ n, P n → 1 ≤ n ∧ n ≤ m) ∧ k ≤ m ∧ ∀ n, k < n → n ≤ m → P n := by
  constructor
  · intro h
    refine ⟨fun n hn => (h n).mp (.inl hn), ?_, fun n hk hm => ?_⟩
    · by_cases hk : k = 0
      · omega
      · exact ((h k).mp (.inr ⟨by omega, le_refl k⟩)).2
    · exact ((h n).mpr ⟨by omega, hm⟩).resolve_right fun hle => by omega
  · rintro ⟨hP, hk, hrest⟩ n
    constructor
    · rintro (hn | ⟨hpos, hle⟩)
      · exact hP n hn
      · exact ⟨hpos, by omega⟩
    · rintro ⟨hpos, hle⟩
      by_cases hn : n ≤ k
      · exact .inr ⟨hpos, hn⟩
      · exact .inl (hrest n (by omega) hle)

/-! ## Messages of the editor -/

theorem has_buildPayload {n : Nat} (h : message.type ≠ "2FA-whatsapp".toList) :
    (buildPayload json message shortlinkBaseUrl).body.Has n ↔
      HasPlaceholder n (submittedBody json message.content) ∨
        1 ≤ n ∧ n ≤ (extractTemplateVariables (submittedBody json message.content)).length := by
  rw [buildPayload, if_neg h]
  exact mem_placeholders_toMetaBody

theorem dynamic_buildPayload (h : message.type ≠ "2FA-whatsapp".toList) :
    (∃ button ∈ (buildPayload json message shortlinkBaseUrl).buttons, button.Dynamic) ↔
      message.whatsappType = "call-to-action".toList ∧ message.callToActionText ≠ [] := by
  have hbuttons : (buildPayload json message shortlinkBaseUrl).buttons =
      if message.whatsappType = "call-to-action".toList ∧ message.callToActionText ≠ [] then
        [.url message.callToActionText
          (shortlinkBaseUrl.getD "https://example.com/".toList ++ placeholder 1)]
      else [] := by
    rw [buildPayload, if_neg h]
  rw [hbuttons]
  constructor
  · rintro ⟨button, hbutton, -⟩
    split at hbutton
    · assumption
    · cases hbutton
  · intro hcall
    rw [if_pos hcall]
    exact ⟨_, List.mem_singleton_self _, (List.suffix_append _ _).isInfix⟩

theorem placeholders_withoutCode (hcode : contact.code = []) (h : message.type ≠ "2FA-whatsapp".toList) :
    (∀ n, (buildPayload json message shortlinkBaseUrl).body.Has n ↔
      1 ≤ n ∧ n ≤ (send json message contact shortCode).body.length) ↔
      message.Structured json ∧ ∀ n, HasPlaceholder n (submittedBody json message.content) →
        1 ≤ n ∧ n ≤ (extractTemplateVariables (submittedBody json message.content)).length := by
  simp only [has_buildPayload h, send_body hcode, List.length_map, covers_iff]
  rcases extractTemplateBody_eq json message with heq | ⟨hscalar, hnone, hraw⟩
  · rw [heq]
    constructor
    · rintro ⟨hP, -, -⟩
      refine ⟨fun hscalar => ?_, hP⟩
      rw [submittedBody, extractTemplateBody, hscalar] at heq
      split at heq
      · rename_i hnil
        rw [hnil]
        rfl
      · have hnil : message.content = [] := heq
        rw [hnil]
        rfl
    · rintro ⟨-, hP⟩
      exact ⟨hP, le_refl _, fun n hk hm => absurd hm (by omega)⟩
  · rw [hnone, hraw]
    constructor
    · rintro ⟨-, -, hrest⟩
      refine ⟨fun _ => ?_, fun n hn => absurd hn not_hasPlaceholder_nil⟩
      refine List.length_eq_zero_iff.mp (Nat.eq_zero_of_not_pos fun hpos => ?_)
      exact not_hasPlaceholder_nil (hrest 1 Nat.zero_lt_one hpos)
    · rintro ⟨hstructured, -⟩
      rw [hstructured hscalar]
      exact ⟨fun n hn => absurd hn not_hasPlaceholder_nil, le_refl _,
        fun n hk hm => absurd hm (Nat.not_le.mpr hk)⟩

theorem numbered_withoutCode (hcode : contact.code = []) (h : message.type ≠ "2FA-whatsapp".toList) :
    (Origin.created message).numbered json contact <+: (send json message contact shortCode).body := by
  rw [Origin.numbered, if_neg h, send_body hcode]
  rcases extractTemplateBody_eq json message with heq | ⟨-, hnone, -⟩
  · rw [heq]
    exact List.prefix_rfl
  · rw [hnone]
    exact List.nil_prefix

theorem placeholders_withCode (hcode : contact.code ≠ []) (h : message.type ≠ "2FA-whatsapp".toList) :
    ((∀ n, (buildPayload json message shortlinkBaseUrl).body.Has n ↔
        1 ≤ n ∧ n ≤ (send json message contact shortCode).body.length) ∧
      (Origin.created message).numbered json contact <+: (send json message contact shortCode).body) ↔
      (∀ n, HasPlaceholder n (submittedBody json message.content) → n = 1) ∧
      ((extractTemplateVariables (submittedBody json message.content) = [] ∧
          HasPlaceholder 1 (submittedBody json message.content)) ∨
        ∃ name, extractTemplateVariables (submittedBody json message.content) = [name] ∧
          parameter contact name = contact.code) := by
  rw [Origin.numbered, if_neg h]
  simp only [has_buildPayload h, send_body_of_code hcode, List.length_singleton, covers_iff, toMetaBody]
  cases hnames : extractTemplateVariables (submittedBody json message.content) with
  | nil =>
      constructor
      · rintro ⟨⟨hP, -, hrest⟩, -⟩
        refine ⟨fun n hn => ?_, .inl ⟨rfl, hrest 1 Nat.zero_lt_one (le_refl 1)⟩⟩
        have hone := hP n hn
        omega
      · rintro ⟨hP, ⟨-, hone⟩ | ⟨name, heq, -⟩⟩
        · refine ⟨⟨fun n hn => ?_, Nat.zero_le 1, fun n hpos hle => ?_⟩, List.nil_prefix⟩
          · rw [hP n hn]
            exact ⟨le_refl 1, le_refl 1⟩
          · have hn : n = 1 := Nat.le_antisymm hle hpos
            rw [hn]
            exact hone
        · cases heq
  | cons name names =>
      constructor
      · rintro ⟨⟨hP, hle, -⟩, hvalues⟩
        have hnil : names = [] := by
          rw [List.length_cons] at hle
          exact List.length_eq_zero_iff.mp (by omega)
        subst hnil
        refine ⟨fun n hn => ?_, .inr ⟨name, rfl, (List.cons_prefix_cons.mp hvalues).1⟩⟩
        have hone := hP n hn
        omega
      · rintro ⟨hP, ⟨heq, -⟩ | ⟨other, heq, hvalue⟩⟩
        · cases heq
        · cases heq
          refine ⟨⟨fun n hn => ?_, le_refl 1, fun n hlt hle => ?_⟩, ?_⟩
          · rw [hP n hn]
            exact ⟨le_refl 1, le_refl 1⟩
          · exact absurd hle (Nat.not_le.mpr hlt)
          · rw [List.map_singleton, hvalue]

theorem fits_created_iff (h : message.type ≠ "2FA-whatsapp".toList) :
    Fits (buildPayload json message shortlinkBaseUrl) ((Origin.created message).numbered json contact)
        (send json message contact shortCode) ↔ message.Sound json contact := by
  constructor
  · rintro ⟨hplaceholders, hvalues, hbutton⟩
    refine ⟨fun hcode => (placeholders_withoutCode hcode h).mp hplaceholders,
      fun hcode => (placeholders_withCode hcode h).mp ⟨hplaceholders, hvalues⟩, ?_⟩
    rw [send_button, dynamic_buildPayload h] at hbutton
    exact hbutton
  · intro hsound
    have hbutton := hsound.button
    have hbutton' : (send json message contact shortCode).button.isSome ↔
        ∃ button ∈ (buildPayload json message shortlinkBaseUrl).buttons, button.Dynamic := by
      rw [send_button, dynamic_buildPayload h]
      exact hbutton
    by_cases hcode : contact.code = []
    · exact ⟨(placeholders_withoutCode hcode h).mpr (hsound.withoutCode hcode),
        numbered_withoutCode hcode h, hbutton'⟩
    · obtain ⟨hplaceholders, hvalues⟩ := (placeholders_withCode hcode h).mpr (hsound.withCode hcode)
      exact ⟨hplaceholders, hvalues, hbutton'⟩

/-- A code is sent with the provider's own text, and no button for a link. -/
theorem fits_authentication_iff (h : message.type = "2FA-whatsapp".toList) :
    Fits (buildPayload json message shortlinkBaseUrl) ((Origin.created message).numbered json contact)
        (send json message contact shortCode) ↔ contact.code ≠ [] ∧ message.url = [] := by
  have hpayload : buildPayload json message shortlinkBaseUrl = ⟨.authentication, [.otp]⟩ := if_pos h
  have hnumbered : (Origin.created message).numbered json contact = [contact.code] := if_pos h
  have hstatic : ¬ ∃ button ∈ [Button.otp], button.Dynamic := by
    rintro ⟨button, hbutton, hdynamic⟩
    cases List.mem_singleton.mp hbutton
    exact hdynamic
  rw [hpayload, hnumbered]
  constructor
  · rintro ⟨hplaceholders, hvalues, hbutton⟩
    refine ⟨fun hcode => ?_, ?_⟩
    · rw [send_body hcode, hcode] at hvalues
      obtain ⟨rest, hrest⟩ := hvalues
      have hmem : [] ∈ (extractTemplateVariables (extractTemplateBody json message.content)).map
          (parameter contact) := hrest ▸ List.mem_cons_self ..
      obtain ⟨name, -, hname⟩ := List.mem_map.mp hmem
      exact sanitizeParameterText_ne hname
    · rw [send_button] at hbutton
      exact not_not.mp fun hurl => hstatic (hbutton.mp hurl)
  · rintro ⟨hcode, hurl⟩
    refine ⟨fun n => ?_, ?_, ?_⟩
    · rw [send_body_of_code hcode, List.length_singleton]
      show n = 1 ↔ 1 ≤ n ∧ n ≤ 1
      omega
    · rw [send_body_of_code hcode]
    · rw [send_button]
      exact iff_of_false (not_not.mpr hurl) hstatic

/-! ## Imported messages -/

theorem flattened_body : (flattenMetaTemplateComponents components).body =
    (components.filterMap Component.bodyText).getLast?.getD [] := by
  have hfrom : ∀ flattened : Flattened, (components.foldl flattenComponent flattened).body =
      (components.filterMap Component.bodyText).getLast?.getD flattened.body := by
    induction components with
    | nil =>
        intro flattened
        rfl
    | cons component components ih =>
        intro flattened
        rw [List.foldl_cons, ih]
        cases component with
        | body t =>
            have hlist : (Component.body t :: components).filterMap Component.bodyText =
                t.getD [] :: components.filterMap Component.bodyText := rfl
            rw [hlist, List.getLast?_cons, Option.getD_some]
            rfl
        | buttons list =>
            have hsame : (flattenComponent flattened (.buttons list)).body = flattened.body := by
              simp only [flattenComponent]
              split <;> rfl
            rw [hsame, List.filterMap_cons_none rfl]
        | header format t => rw [List.filterMap_cons_none rfl]; rfl
        | footer t => rw [List.filterMap_cons_none rfl]; rfl
        | other => rw [List.filterMap_cons_none rfl]; rfl
  exact hfrom _

theorem extractTemplateBody_import : extractTemplateBody json (importMessage json components).content =
    (components.filterMap Component.bodyText).getLast?.getD [] := by
  show extractTemplateBody json (json.stringify (flattenMetaTemplateComponents components).body) = _
  rw [extractTemplateBody, if_neg (json.stringify_ne _), json.parse_stringify, flattened_body]
  rfl

theorem length_send_import : (send json (importMessage json components) contact shortCode).body.length =
    if contact.code = [] then (extractTemplateVariables
      ((components.filterMap Component.bodyText).getLast?.getD [])).length else 1 := by
  split
  · rename_i hcode
    rw [send_body hcode, List.length_map, extractTemplateBody_import]
  · rename_i hcode
    rw [send_body_of_code hcode, List.length_singleton]

theorem fits_imported_iff : Fits (metaTemplate components) []
    (send json (importMessage json components) contact shortCode) ↔
      (Origin.imported components).Sound json contact := by
  have hnone : ¬ (send json (importMessage json components) contact shortCode).button.isSome :=
    fun h => send_button.mp h rfl
  constructor
  · rintro ⟨hplaceholders, -, hbutton⟩
    refine ⟨fun n => ?_, fun button hmem hdynamic => hnone (hbutton.mpr ⟨button, hmem, hdynamic⟩)⟩
    have hcovered := hplaceholders n
    rwa [length_send_import] at hcovered
  · rintro ⟨hplaceholders, hstatic⟩
    refine ⟨fun n => ?_, List.nil_prefix, iff_of_false hnone ?_⟩
    · rw [length_send_import]
      exact hplaceholders n
    · rintro ⟨button, hmem, hdynamic⟩
      exact hstatic button hmem hdynamic

end

/-- What is sent of a stored message fits the template it was submitted for, or comes from. -/
def Origin.Agrees (json : JsonFormat) (shortlinkBaseUrl : Option Text) (contact : Contact)
    (shortCode : ShortCode) (origin : Origin) : Prop :=
  Fits (origin.template json shortlinkBaseUrl) (origin.numbered json contact)
    (send json (origin.message json) contact shortCode)

/-- For every message, of the editor or imported, and every contact: the parameters that are
sent are those of the template's placeholders, with the values of the numbered variables, and
the button goes with a dynamic URL, if and only if the message is sound. -/
theorem template_agrees_iff (json : JsonFormat) (shortlinkBaseUrl : Option Text) (contact : Contact)
    (shortCode : ShortCode) (origin : Origin) :
    origin.Agrees json shortlinkBaseUrl contact shortCode ↔ origin.Sound json contact := by
  cases origin with
  | created message =>
      by_cases h : message.type = "2FA-whatsapp".toList
      · rw [Origin.Sound, if_pos h]
        exact fits_authentication_iff h
      · rw [Origin.Sound, if_neg h]
        exact fits_created_iff h
  | imported components => exact fits_imported_iff

/-- Objects with a body and nothing else, as `JSON.stringify` writes them. -/
def bodyJson : JsonFormat where
  parse := fun raw =>
    if ['{', '"', 'b', 'o', 'd', 'y', '"', ':', '"'] <+: raw then
      some (.object (some (raw.drop 9).dropLast.dropLast))
    else none
  stringify := fun body => ['{', '"', 'b', 'o', 'd', 'y', '"', ':', '"'] ++ (body ++ ['"', '}'])
  parse_stringify := by
    intro body
    have hdrop : (['{', '"', 'b', 'o', 'd', 'y', '"', ':', '"'] ++ (body ++ ['"', '}'])).drop 9 =
        body ++ ['"', '}'] := rfl
    have hlast : (body ++ ['"', '}']).dropLast.dropLast = body := by
      simp only [List.dropLast_append_cons, List.dropLast_cons_cons, List.dropLast_singleton,
        List.append_nil]
    rw [if_pos (List.prefix_append _ _), hdrop, hlast]
  stringify_ne := fun _ => List.cons_ne_nil _ _

/-- A contact with a name. -/
def sampleContact (code : String) : Contact where
  code := code.toList
  values := fun name => if name = "NAME".toList then some "Maria".toList else none

/-- An imported text with a placeholder gets no parameter, an imported button no code, a link of a
message without a call to action is sent to a template without a button, and a contact's code
stands where its name was announced. -/
theorem imported_mismatch :
    ¬ (Origin.imported [.body (some ("Hello ".toList ++ placeholder 1))]).Agrees bodyJson none
        (sampleContact "") ⟨"aB3dE9".toList, by decide⟩ ∧
      ¬ (Origin.imported [.body (some "Hello".toList), .buttons [.url "Open".toList
        ("https://x.com/".toList ++ placeholder 1)]]).Agrees bodyJson none
          (sampleContact "") ⟨"aB3dE9".toList, by decide⟩ ∧
      ¬ (Origin.created ⟨"whatsapp".toList, "Hello %NAME%".toList, "text".toList, [],
        "https://x.com/".toList⟩).Agrees bodyJson none (sampleContact "")
          ⟨"aB3dE9".toList, by decide⟩ ∧
      ¬ (Origin.created ⟨"whatsapp".toList, "Hello %NAME%".toList, "text".toList, [], []⟩).Agrees
        bodyJson none (sampleContact "1234") ⟨"aB3dE9".toList, by decide⟩ := by
  refine ⟨fun h => ?_, fun h => ?_, fun h => ?_, fun h => ?_⟩
  · have hlength := ((h.placeholders 1).mp (by decide +kernel : HasPlaceholder 1 _)).2
    exact absurd hlength (by decide +kernel)
  · have hbutton := h.button.mpr ⟨_, List.mem_singleton_self _,
      (List.suffix_append _ _).isInfix⟩
    exact absurd hbutton (by decide +kernel)
  · obtain ⟨button, hbutton, -⟩ := h.button.mp (by decide +kernel)
    cases hbutton
  · exact absurd h.values (by decide +kernel)

end OpenBms.Whatsapp.Templates
