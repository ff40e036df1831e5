/-
# `OpenBms.Automation.Rename` — a new name in the stored automations

Automations keep the names of the tags and messages they use.  When a tag or a message gets a
new name, one statement replaces a part of the text of the columns of all automations that have
the part, of whatever account; where an object with the same id and the same name is something
else, it gets the new name as well.

| | part of the text | columns |
| :-- | :-- | :-- |
| tag | `"id": …, "name": …` with the id of the request | steps, triggers |
| message | `"id": …, "name": …, "title": …, "subject": …` | steps |

**Proved here.**

    what the statement leaves in the columns (`update_eq`)
    the document it leaves is the one with the new name exactly
    when the objects it finds are the references (`Doc.replaced_iff`)
    so for a rename the references get the new name and nothing
    else changes exactly under that condition (`propagates_iff`)
-/
import OpenBms.Automation.References

namespace OpenBms.References

open Jsonb

/-! ## Automations -/

def keysOf : Members → List (List Char)
  | .nil => []
  | .cons key _ rest => key :: keysOf rest

mutual

/-- The keys of each object differ. -/
def Doc.Keyed : Doc → Prop
  | .arr items => Items.Keyed items
  | .obj members => (keysOf members).Nodup ∧ Members.Keyed members
  | _ => True

def Items.Keyed : Items → Prop
  | .nil => True
  | .cons item rest => Doc.Keyed item ∧ Items.Keyed rest

def Members.Keyed : Members → Prop
  | .nil => True
  | .cons _ value rest => Doc.Keyed value ∧ Members.Keyed rest

end

structure Columns where
  steps : Doc
  triggers : Doc

structure Automation where
  accountId : Nat
  columns : Columns
  keyed : Doc.Keyed columns.steps ∧ Doc.Keyed columns.triggers

/-! ## The statements -/

/-- `REPLACE(column::text, old, new)::jsonb`. -/
def replace (old new : List Char) (doc : Doc) : Option Doc := read (Replace.all old new doc.text)

/-- The statement with the literals `old` and `new`; it fails as a whole. -/
def update (triggers : Bool) (old new : List Char) (rows : List Columns) : Option (List Columns) := do
  let old ← Replace.literal old
  let new ← Replace.literal new
  let found (doc : Doc) : Bool := Replace.like ('%' :: (old ++ ['%'])) doc.text
  rows.mapM fun row =>
    if found row.steps || triggers && found row.triggers then do
      return ⟨← replace old new row.steps,
        ← if triggers then replace old new row.triggers else some row.triggers⟩
    else some row

def nameKey : List Char := ['n', 'a', 'm', 'e']

def titleKey : List Char := ['t', 'i', 't', 'l', 'e']

def subjectKey : List Char := ['s', 'u', 'b', 'j', 'e', 'c', 't']

/-- A tag gets another name; a request may leave the id out. -/
structure TagRename where
  accountId : Nat
  id : Nat
  dtoId : Option Nat
  oldName : List Char
  newName : List Char
  differs : oldName ≠ newName

/-- The subject of a message, in the row or in the request. -/
inductive Subject where
  | null
  | undefined
  | text (s : List Char)
  deriving DecidableEq

/-- The text that a template literal puts for it. -/
def Subject.written : Subject → List Char
  | .null => ['n', 'u', 'l', 'l']
  | .undefined => ['u', 'n', 'd', 'e', 'f', 'i', 'n', 'e', 'd']
  | .text s => s

/-- A message gets another title or subject; the names are what `replaceSpecialChars` makes of
the titles. -/
structure MessageRename where
  accountId : Nat
  id : Nat
  type : String
  oldName : List Char
  oldTitle : List Char
  oldSubject : Subject
  newName : List Char
  newTitle : List Char
  newSubject : Subject
  differs : oldTitle ≠ newTitle ∨ oldSubject ≠ newSubject

inductive Rename where
  | tag (r : TagRename)
  | message (r : MessageRename)

/-- The literals of `updateAutomationAndCampaign`. -/
def TagRename.literals (r : TagRename) : List Char × List Char :=
  (fragment (idText r.dtoId) [(nameKey, r.oldName)], fragment (idText r.dtoId) [(nameKey, r.newName)])

def MessageRename.hasSubject (r : MessageRename) : Bool :=
  ! (r.type == "sms" || r.type == "whatsapp" || r.type == "2FA-whatsapp")

/-- `subject.includes` throws where there is no text. -/
def Subject.double : Subject → Option (List Char)
  | .text s => some (Replace.double s)
  | _ => none

/-- The literals of `updateAutomationStep`. -/
def MessageRename.literals (r : MessageRename) : Option (List Char × List Char) := do
  let newSubject ← if r.hasSubject then r.newSubject.double else some r.newSubject.written
  let oldSubject ← if r.hasSubject then r.oldSubject.double else some r.oldSubject.written
  let part (name title subject : List Char) : List Char :=
    fragment (idText (some r.id)) [(nameKey, name), (titleKey, Replace.double title), (subjectKey, subject)]
  return (part r.oldName r.oldTitle oldSubject, part r.newName r.newTitle newSubject)

/-- What a rename leaves in the columns of all automations, if it does not fail. -/
def Rename.run (r : Rename) (rows : List Columns) : Option (List Columns) :=
  match r with
  | .tag r => update true r.literals.1 r.literals.2 rows
  | .message r => do
      let literals ← r.literals
      update false literals.1 literals.2 rows

/-! ## References -/

inductive Kind where
  | tag
  | message
  deriving DecidableEq

/-- What an object is, by where it stands. -/
inductive Role where
  | other
  | reference (kind : Kind)
  | messages
  | trigger
  deriving DecidableEq

/-- What the settings of a step are. -/
def settingsRole (type : List Char) : Role :=
  if type ∈ ["addTag".toList, "removeTag".toList] then .reference .tag
  else if type ∈ ["email".toList, "webPush".toList, "mobilePush".toList, "sms".toList,
      "whatsapp".toList] then .reference .message
  else if type ∈ ["testAB".toList, "randomMessage".toList, "randomWebPush".toList,
      "randomMobilePush".toList] then .messages
  else if type = "trigger".toList then .trigger
  else .other

/-- What a value is in an object of a type. -/
def childRole (role : Role) (type key : List Char) : Role :=
  if role = .messages then if key = "messages".toList then .reference .message else .other
  else if key = "settings".toList then settingsRole type
  else if key = "tag_info".toList then .reference .tag
  else .other

def lookup (key : List Char) : Members → Option Doc
  | .nil => none
  | .cons k value rest => if k = key then some value else lookup key rest

def typeOf (members : Members) : List Char :=
  match lookup ['t', 'y', 'p', 'e'] members with
  | some (.str s) => s
  | _ => []

/-- An object that is a reference to something of the kind. -/
def isReference (kind : Kind) (role : Role) (members : Members) : Bool :=
  match role with
  | .reference k => k == kind
  | .trigger => typeOf members == (if kind = .tag then "tag".toList else "events".toList)
  | _ => false

/-- A reference to the one with the id; with no kind there are none. -/
def refers (kind : Option Kind) (id : Nat) (role : Role) (members : Members) : Bool :=
  kind.any (isReference · role members) &&
    (lookup ['i', 'd'] members).any (isNumber (idText (some id)))

section
variable (kind : Option Kind) (id : Nat) (fields : List Field)

mutual

/-- The document in which the references have the new texts. -/
def Doc.renamed (role : Role) : Doc → Doc
  | .null => .null
  | .bool b => .bool b
  | .num n => .num n
  | .str s => .str s
  | .arr items => .arr (Items.renamed role items)
  | .obj members =>
      .obj (Members.renamed (if refers kind id role members then fields else []) role
        (typeOf members) members)

def Items.renamed (role : Role) : Items → Items
  | .nil => .nil
  | .cons item rest => .cons (Doc.renamed role item) (Items.renamed role rest)

def Members.renamed (changes : List Field) (role : Role) (type : List Char) : Members → Members
  | .nil => .nil
  | .cons key value rest =>
      .cons key
        (match changes.lookup key with
        | some s => .str s
        | none => Doc.renamed (childRole role type key) value)
        (Members.renamed changes role type rest)

end

end

/-- The texts of a rename. -/
def Rename.change : Rename → Change
  | .tag r => ⟨idText r.dtoId, [(nameKey, r.oldName, r.newName)]⟩
  | .message r => ⟨idText (some r.id), [(nameKey, r.oldName, r.newName), (titleKey, r.oldTitle, r.newTitle),
      (subjectKey, r.oldSubject.written, r.newSubject.written)]⟩

def Rename.kind : Rename → Kind
  | .tag _ => .tag
  | .message _ => .message

def Rename.id : Rename → Nat
  | .tag r => r.id
  | .message r => r.id

def Rename.accountId : Rename → Nat
  | .tag r => r.accountId
  | .message r => r.accountId

/-- The kind of reference that changes in an automation: none in one of another account. -/
def Rename.kindIn (r : Rename) (a : Automation) : Option Kind :=
  if a.accountId = r.accountId then some r.kind else none

/-- The columns with the new name in the references, in the automations of the account. -/
def Rename.expected (r : Rename) (a : Automation) : Columns where
  steps := Doc.renamed (r.kindIn a) r.id r.change.new .other a.columns.steps
  triggers := Doc.renamed (r.kindIn a) r.id r.change.new .other a.columns.triggers

/-- The references of the account have the new name, and nothing else has changed. -/
def Propagates (r : Rename) (automations : List Automation) : Prop :=
  r.run (automations.map (·.columns)) = some (automations.map r.expected)

/-! ## The condition -/

/-- An object in which a rename finds its part. -/
def hasPart (c : Change) : Members → Bool
  | .nil => false
  | .cons key value rest =>
      idKey key && isNumber c.id value && starts rest c.old || hasPart c rest

/-- The members that a rename would change are as it would leave them. -/
def upToDate (changes : List Field) : Members → Prop
  | .nil => True
  | .cons key value rest => (∀ s, changes.lookup key = some s → value = .str s) ∧ upToDate changes rest

section
variable (c : Change) (kind : Option Kind) (id : Nat)

mutual

/-- What a rename finds is a reference, and it finds the references that have not the new name. -/
def Doc.Clean (role : Role) : Doc → Prop
  | .arr items => Items.Clean role items
  | .obj members =>
      (if hasPart c members then refers kind id role members = true
        else refers kind id role members = true → upToDate c.new members) ∧
      Members.Clean (if refers kind id role members then c.new else []) role (typeOf members) members
  | _ => True

def Items.Clean (role : Role) : Items → Prop
  | .nil => True
  | .cons item rest => Doc.Clean role item ∧ Items.Clean role rest

def Members.Clean (changes : List Field) (role : Role) (type : List Char) : Members → Prop
  | .nil => True
  | .cons key value rest =>
      (changes.lookup key = none → Doc.Clean (childRole role type key) value) ∧
        Members.Clean changes role type rest

end

end

/-- What a rename looks for in the triggers. -/
def Rename.triggersChange (r : Rename) : Change :=
  match r with
  | .tag _ => r.change
  | .message _ => { r.change with id := [] }

/-- The objects that a rename finds in an automation are the references of the account. -/
def Rename.Clean (r : Rename) (a : Automation) : Prop :=
  Doc.Clean r.change (r.kindIn a) r.id .other a.columns.steps ∧
    Doc.Clean r.triggersChange (r.kindIn a) r.id .other a.columns.triggers

/-- A text that is the same in JSON and in a literal. -/
def Verbatim (s : List Char) : Prop := Written s ∧ '\'' ∉ s

/-- The names need no escape; in titles and in the subjects of a mail or a push, which are
doubled, a single quote is allowed. -/
def Rename.Plain : Rename → Prop
  | .tag r => Verbatim r.oldName ∧ Verbatim r.newName
  | .message r => Verbatim r.oldName ∧ Verbatim r.newName ∧ Written r.oldTitle ∧
      Written r.newTitle ∧ ∃ old new, r.oldSubject = .text old ∧ r.newSubject = .text new ∧
        Written old ∧ Written new ∧ (r.hasSubject = false → '\'' ∉ old ∧ '\'' ∉ new)

/-! ## The document that the statement leaves -/

/-- The members with new texts for some keys; what is inside them is replaced. -/
def edited (c : Change) (changes : List Field) : Members → Members
  | .nil => .nil
  | .cons key value rest =>
      .cons key
        (match changes.lookup key with
        | some s => .str s
        | none => Doc.replaced c value)
        (edited c changes rest)

section
variable {c : Change}

theorem edited_cons (changes : List Field) (key : List Char) (value : Doc) (rest : Members) :
    edited c changes (.cons key value rest) =
      .cons key
        (match changes.lookup key with
        | some s => .str s
        | none => Doc.replaced c value)
        (edited c changes rest) :=
  rfl

theorem lookup_of_not_mem {changes : List Field} {key : List Char} (h : key ∉ changes.map (·.1)) :
    changes.lookup key = none := by
  rw [List.lookup_eq_none_iff]
  intro f hf
  rw [bne_iff_ne]
  rintro rfl
  exact h (List.mem_map_of_mem hf)

theorem keys_new (c : Change) : c.new.map (·.1) = c.keys := by
  unfold Change.new Change.keys
  rw [List.map_map]
  rfl

theorem keys_old (c : Change) : c.old.map (·.1) = c.keys := by
  unfold Change.old Change.keys
  rw [List.map_map]
  rfl

theorem lookup_new (hkeys : c.keys.Nodup) {f : List Char × List Char × List Char} (hf : f ∈ c.fields) :
    c.new.lookup f.1 = some f.2.2 := by
  obtain ⟨id, fields⟩ := c
  change (fields.map (·.1)).Nodup at hkeys
  change f ∈ fields at hf
  show (fields.map fun f => (f.1, f.2.2)).lookup f.1 = _
  induction fields with
  | nil => cases hf
  | cons g fields ih =>
      obtain ⟨hg, hfields⟩ := List.nodup_cons.mp hkeys
      rw [List.map_cons, List.lookup_cons]
      rcases List.mem_cons.mp hf with rfl | hf
      · rw [beq_self_eq_true]
      · have hne : (f.1 == g.1) = false := by
          rw [beq_eq_false_iff_ne]
          intro heq
          refine hg ?_
          show g.1 ∈ fields.map (·.1)
          rw [← heq]
          exact List.mem_map_of_mem hf
        rw [hne]
        exact ih hfields hf

theorem keys_of_starts {members : Members} {fields : List Field} (h : starts members fields = true) :
    ∀ key ∈ fields.map (·.1), key ∈ keysOf members := by
  induction fields generalizing members with
  | nil =>
      intro key hkey
      cases hkey
  | cons f fields ih =>
      cases members with
      | nil => cases h
      | cons key value rest =>
          change (key == f.1 && isText f.2 value && starts rest fields) = true at h
          rw [Bool.and_eq_true, Bool.and_eq_true, beq_iff_eq] at h
          obtain ⟨⟨rfl, -⟩, hrest⟩ := h
          intro key' hkey'
          rcases List.mem_cons.mp hkey' with rfl | hkey'
          · exact List.mem_cons_self
          · exact List.mem_cons_of_mem _ (ih hrest key' hkey')

theorem keys_of_hasPart {members : Members} (h : hasPart c members = true) :
    ∀ key ∈ c.keys, key ∈ keysOf members := by
  induction members using Members.induction with
  | nil => cases h
  | cons key value rest ih =>
      intro key' hkey'
      rcases (Bool.or_eq_true _ _).mp h with hhead | hrest
      · rw [Bool.and_eq_true] at hhead
        exact List.mem_cons_of_mem _ (keys_of_starts hhead.2 key' (keys_old c ▸ hkey'))
      · exact List.mem_cons_of_mem _ (ih hrest key' hkey')

theorem edited_of_disjoint {changes : List Field} {members : Members}
    (h : ∀ key ∈ keysOf members, changes.lookup key = none) :
    edited c changes members = edited c [] members := by
  induction members using Members.induction with
  | nil => rfl
  | cons key value rest ih =>
      rw [edited_cons, h key List.mem_cons_self, ih fun k hk => h k (List.mem_cons_of_mem key hk)]
      rfl

theorem replaced_of_no_part {members : Members} (h : hasPart c members = false) :
    Members.replaced c [] members = edited c [] members := by
  induction members using Members.induction with
  | nil => rfl
  | cons key value rest ih =>
      obtain ⟨hhead, hrest⟩ := (Bool.or_eq_false_iff).mp h
      show Members.cons key (Doc.replaced c value) (Members.replaced c (if _ then _ else _) rest) = _
      rw [hhead, if_neg Bool.false_ne_true, ih hrest]
      rfl

theorem replaced_pending (hkeys : c.keys.Nodup) (hne : c.fields ≠ [])
    {fields : List (List Char × List Char × List Char)} (hsub : ∀ f ∈ fields, f ∈ c.fields)
    {members : Members} (hstarts : starts members (fields.map fun f => (f.1, f.2.1)) = true)
    (hnodup : (keysOf members).Nodup)
    (hrest : ∀ key ∈ keysOf members, key ∈ c.keys → key ∈ fields.map (·.1)) :
    Members.replaced c (fields.map (·.2.2)) members = edited c c.new members := by
  induction fields generalizing members with
  | nil =>
      -- none of the keys of the part is left
      have hlookup : ∀ key ∈ keysOf members, c.new.lookup key = none := by
        intro key hkey
        refine lookup_of_not_mem fun hmem => ?_
        cases hrest key hkey (keys_new c ▸ hmem)
      have hpart : hasPart c members = false := by
        rw [Bool.eq_false_iff]
        intro hpart
        obtain ⟨f, fields, hfields⟩ := List.exists_cons_of_ne_nil hne
        have hmem : f.1 ∈ c.keys := by
          unfold Change.keys
          rw [hfields]
          exact List.mem_cons_self
        cases hrest f.1 (keys_of_hasPart hpart f.1 hmem) hmem
      rw [edited_of_disjoint hlookup]
      exact replaced_of_no_part hpart
  | cons f fields ih =>
      cases members with
      | nil => cases hstarts
      | cons key value rest =>
          change (key == f.1 && isText f.2.1 value && starts rest _) = true at hstarts
          rw [Bool.and_eq_true, Bool.and_eq_true, beq_iff_eq] at hstarts
          obtain ⟨⟨rfl, -⟩, hstarts⟩ := hstarts
          obtain ⟨hkey, hnodup⟩ := List.nodup_cons.mp hnodup
          show Members.cons f.1 (.str f.2.2) _ = _
          rw [ih (fun g hg => hsub g (List.mem_cons_of_mem f hg)) hstarts hnodup]
          · rw [edited_cons, lookup_new hkeys (hsub f List.mem_cons_self)]
          · intro k hk hmem
            rcases List.mem_cons.mp (hrest k (List.mem_cons_of_mem _ hk) hmem) with rfl | h
            · exact absurd hk hkey
            · exact h

theorem replaced_eq_edited (hkeys : c.keys.Nodup) (hne : c.fields ≠ []) {members : Members}
    (hnodup : (keysOf members).Nodup) :
    Members.replaced c [] members = edited c (if hasPart c members then c.new else []) members := by
  induction members using Members.induction with
  | nil => split <;> rfl
  | cons key value rest ih =>
      obtain ⟨hkey, hnodup⟩ := List.nodup_cons.mp hnodup
      -- the key of the part that comes later is not this one
      have hfirst (h : ∀ k ∈ c.keys, k ∈ keysOf rest) : c.new.lookup key = none := by
        refine lookup_of_not_mem fun hmem => ?_
        exact hkey (h key (keys_new c ▸ hmem))
      show Members.cons key (Doc.replaced c value)
        (Members.replaced c (if idKey key && isNumber c.id value && starts rest c.old then c.values
          else []) rest) = edited c (if idKey key && isNumber c.id value && starts rest c.old ||
            hasPart c rest then c.new else []) _
      cases hhead : idKey key && isNumber c.id value && starts rest c.old with
      | true =>
          rw [Bool.and_eq_true] at hhead
          have hmem : ∀ k ∈ c.keys, k ∈ keysOf rest := fun k hk =>
            keys_of_starts hhead.2 k (keys_old c ▸ hk)
          have hpending := replaced_pending hkeys hne (fun f hf => hf) hhead.2 hnodup
            (fun k _ hk => hk)
          rw [if_pos rfl, Bool.true_or, if_pos rfl, edited_cons, hfirst hmem]
          exact congrArg _ hpending
      | false =>
          rw [if_neg Bool.false_ne_true, Bool.false_or, ih hnodup]
          cases hpart : hasPart c rest with
          | true =>
              rw [if_pos rfl, edited_cons, hfirst (keys_of_hasPart hpart)]
          | false => rfl

/-! ## The document with the new name -/

variable {kind : Option Kind} {id : Nat}

theorem Members.renamed_cons (changes fields : List Field) (role : Role) (type key : List Char)
    (value : Doc) (rest : Members) :
    Members.renamed kind id fields changes role type (.cons key value rest) =
      .cons key
        (match changes.lookup key with
        | some s => .str s
        | none => Doc.renamed kind id fields (childRole role type key) value)
        (Members.renamed kind id fields changes role type rest) :=
  rfl

/-- What is replaced keeps its kind: only a text is a text. -/
theorem Doc.replaced_eq_str {value : Doc} {s : List Char} :
    Doc.replaced c value = .str s ↔ value = .str s := by
  cases value with
  | str t => exact Iff.rfl
  | null => exact iff_of_false (fun h => by cases h) (fun h => by cases h)
  | bool b => exact iff_of_false (fun h => by cases h) (fun h => by cases h)
  | num n => exact iff_of_false (fun h => by cases h) (fun h => by cases h)
  | arr items => exact iff_of_false (fun h => by cases h) (fun h => by cases h)
  | obj members => exact iff_of_false (fun h => by cases h) (fun h => by cases h)

theorem upToDate_nil (members : Members) : upToDate [] members := by
  induction members using Members.induction with
  | nil => exact trivial
  | cons key value rest ih => exact ⟨fun s hs => (by cases hs), ih⟩

/-- A part that is found and is no reference changes where nothing should. -/
theorem edited_ne_renamed (hkeys : c.keys.Nodup) (hdiffers : ∃ f ∈ c.fields, f.2.1 ≠ f.2.2)
    {members : Members} (hpart : hasPart c members = true) (role : Role) (type : List Char) :
    edited c c.new members ≠ Members.renamed kind id c.new [] role type members := by
  -- a field of the part stands in the members with its old text
  have hfield : ∃ f ∈ c.fields, f.2.1 ≠ f.2.2 := hdiffers
  obtain ⟨f, hf, hne⟩ := hfield
  have hstarts {fields : List (List Char × List Char × List Char)} (hmem : f ∈ fields)
      {members : Members} (h : starts members (fields.map fun f => (f.1, f.2.1)) = true) :
      edited c c.new members ≠ Members.renamed kind id c.new [] role type members := by
    induction fields generalizing members with
    | nil => cases hmem
    | cons g fields ih =>
        cases members with
        | nil => cases h
        | cons key value rest =>
            change (key == g.1 && isText g.2.1 value && starts rest _) = true at h
            rw [Bool.and_eq_true, Bool.and_eq_true, beq_iff_eq] at h
            obtain ⟨⟨rfl, htext⟩, hrest⟩ := h
            intro heq
            rw [edited_cons, Members.renamed_cons] at heq
            obtain ⟨-, hvalue, htail⟩ := Members.cons.inj heq
            rcases List.mem_cons.mp hmem with rfl | hmem
            · rw [lookup_new hkeys hf] at hvalue
              cases value with
              | str t =>
                  obtain rfl : t = f.2.1 := eq_of_beq (show (t == f.2.1) = true from htext)
                  exact hne (Doc.str.inj hvalue).symm
              | _ => cases htext
            · exact ih hmem hrest htail
  induction members using Members.induction with
  | nil => cases hpart
  | cons key value rest ih =>
      rcases (Bool.or_eq_true _ _).mp hpart with hhead | hrest
      · rw [Bool.and_eq_true] at hhead
        intro heq
        rw [edited_cons, Members.renamed_cons] at heq
        exact hstarts hf hhead.2 (Members.cons.inj heq).2.2
      · intro heq
        rw [edited_cons, Members.renamed_cons] at heq
        exact ih hrest (Members.cons.inj heq).2.2

mutual

/-- The statement leaves the document with the new name exactly when what it finds is a
reference, and the others have the new name. -/
theorem Doc.replaced_iff (hkeys : c.keys.Nodup) (hdiffers : ∃ f ∈ c.fields, f.2.1 ≠ f.2.2) (d : Doc)
    (hkeyed : Doc.Keyed d) (role : Role) :
    Doc.replaced c d = Doc.renamed kind id c.new role d ↔ Doc.Clean c kind id role d := by
  cases d with
  | null => exact iff_of_true rfl trivial
  | bool b => exact iff_of_true rfl trivial
  | num n => exact iff_of_true rfl trivial
  | str s => exact iff_of_true rfl trivial
  | arr items =>
      have hitems := Items.replaced_iff hkeys hdiffers items hkeyed role
      show Doc.arr _ = Doc.arr _ ↔ _
      rw [Doc.arr.injEq]
      exact hitems
  | obj members =>
      obtain ⟨hnodup, hvalues⟩ := hkeyed
      have hne : c.fields ≠ [] := by
        obtain ⟨f, hf, -⟩ := hdiffers
        exact List.ne_nil_of_mem hf
      have hmembers (old new : List Field) (hold : old = new ∨ old = []) :=
        Members.edited_iff hkeys hdiffers members hvalues role (typeOf members) old new hold
      show Doc.obj _ = Doc.obj _ ↔ (if hasPart c members = true then _ else _) ∧ _
      rw [Doc.obj.injEq, replaced_eq_edited hkeys hne hnodup]
      cases hpart : hasPart c members with
      | true =>
          cases hrefers : refers kind id role members with
          | true =>
              have hnew : c.new ≠ [] := fun h => hne (List.map_eq_nil_iff.mp h)
              rw [if_pos rfl, if_pos rfl, hmembers c.new c.new (.inl rfl)]
              simp [hnew]
          | false =>
              rw [if_pos rfl, if_neg Bool.false_ne_true]
              refine iff_of_false (edited_ne_renamed hkeys hdiffers hpart role _) fun h => ?_
              exact Bool.false_ne_true h.1
      | false =>
          cases hrefers : refers kind id role members with
          | true =>
              rw [if_neg Bool.false_ne_true, if_pos rfl, hmembers [] c.new (.inr rfl)]
              simp
          | false =>
              rw [if_neg Bool.false_ne_true, if_neg Bool.false_ne_true, hmembers [] [] (.inl rfl)]
              simp [upToDate_nil]

theorem Items.replaced_iff (hkeys : c.keys.Nodup) (hdiffers : ∃ f ∈ c.fields, f.2.1 ≠ f.2.2)
    (items : Items) (hkeyed : Items.Keyed items) (role : Role) :
    Items.replaced c items = Items.renamed kind id c.new role items ↔ Items.Clean c kind id role items := by
  cases items with
  | nil => exact iff_of_true rfl trivial
  | cons item rest =>
      have hitem := Doc.replaced_iff hkeys hdiffers item hkeyed.1 role
      have hrest := Items.replaced_iff hkeys hdiffers rest hkeyed.2 role
      show Items.cons _ _ = Items.cons _ _ ↔ _
      rw [Items.cons.injEq]
      exact and_congr hitem hrest

theorem Members.edited_iff (hkeys : c.keys.Nodup) (hdiffers : ∃ f ∈ c.fields, f.2.1 ≠ f.2.2)
    (members : Members) (hkeyed : Members.Keyed members) (role : Role) (type : List Char)
    (old new : List Field) (hold : old = new ∨ old = []) :
    edited c old members = Members.renamed kind id c.new new role type members ↔
      (old = [] → upToDate new members) ∧ Members.Clean c kind id new role type members := by
  cases members with
  | nil => exact iff_of_true rfl ⟨fun _ => trivial, trivial⟩
  | cons key value rest =>
      have hvalue := Doc.replaced_iff hkeys hdiffers value hkeyed.1 (childRole role type key)
      have hrest := Members.edited_iff hkeys hdiffers rest hkeyed.2 role type old new hold
      rw [edited_cons, Members.renamed_cons, Members.cons.injEq, hrest]
      show _ ↔ (old = [] → (∀ s, new.lookup key = some s → value = .str s) ∧ upToDate new rest) ∧
        (new.lookup key = none → Doc.Clean c kind id (childRole role type key) value) ∧
          Members.Clean c kind id new role type rest
      cases hnew : new.lookup key with
      | some s =>
          rcases hold with rfl | rfl
          · have hne : old ≠ [] := by
              rintro rfl
              cases hnew
            simp [hnew, hne]
          · simp only [List.lookup_nil, Doc.replaced_eq_str]
            simp
            tauto
      | none =>
          have hlookup : old.lookup key = none := by
            rcases hold with rfl | rfl
            · exact hnew
            · rfl
          rw [hlookup]
          simp only [hvalue]
          simp
          tauto

end

mutual

/-- No number has no digits. -/
theorem Doc.replaced_of_no_id (h : c.id = []) (d : Doc) : Doc.replaced c d = d := by
  cases d with
  | arr items => exact congrArg Doc.arr (Items.replaced_of_no_id h items)
  | obj members => exact congrArg Doc.obj (Members.replaced_of_no_id h members)
  | _ => rfl

theorem Items.replaced_of_no_id (h : c.id = []) (items : Items) : Items.replaced c items = items := by
  cases items with
  | nil => rfl
  | cons item rest =>
      have hitem := Doc.replaced_of_no_id h item
      have hrest := Items.replaced_of_no_id h rest
      show Items.cons (Doc.replaced c item) (Items.replaced c rest) = _
      rw [hitem, hrest]

theorem Members.replaced_of_no_id (h : c.id = []) (members : Members) :
    Members.replaced c [] members = members := by
  cases members with
  | nil => rfl
  | cons key value rest =>
      have hvalue := Doc.replaced_of_no_id h value
      have hrest := Members.replaced_of_no_id h rest
      have hnumber : isNumber c.id value = false := by
        rw [h]
        cases value with
        | num n => exact beq_eq_false_iff_ne.mpr n.2.1
        | _ => rfl
      show Members.cons key (Doc.replaced c value) (Members.replaced c (if _ then _ else _) rest) = _
      rw [hnumber, Bool.and_false, Bool.false_and, if_neg Bool.false_ne_true, hvalue, hrest]

end

/-! ## The statement -/

/-- The text that is replaced has no backslash, so the pattern finds it as it is. -/
theorem backslash_not_mem (h : c.Clear) : '\\' ∉ fragment c.id c.old := by
  have hwritten {s : List Char} (hs : Written s) : '\\' ∉ s :=
    fun hmem => (ne_of_written (hs _ hmem)).2 rfl
  have hid : '\\' ∉ c.id := by
    obtain ⟨id, hid⟩ := h.id
    rw [hid]
    cases id with
    | none => decide
    | some n =>
        intro hmem
        cases isNumeric_of_mem_toString hmem
  have hfields : '\\' ∉ c.old.flatMap fieldText := by
    intro hmem
    obtain ⟨f, hf, hmem⟩ := List.mem_flatMap.mp hmem
    obtain ⟨hkey, hold⟩ := h.oldWritten f hf
    unfold fieldText at hmem
    simp [hwritten hkey, hwritten hold] at hmem
  unfold fragment tail
  simp [hid, hfields]

theorem replace_eq (h : c.Clear) (d : Doc) :
    replace (fragment c.id c.old) (fragment c.id c.new) d = some (Doc.replaced c d) := by
  show read (c.text d.text) = _
  rw [all_text h, read_text]

/-- A document in which the part is not found stays. -/
theorem replaced_of_not_like (h : c.Clear) {d : Doc}
    (hlike : Replace.like ('%' :: (fragment c.id c.old ++ ['%'])) d.text = false) :
    Doc.replaced c d = d := by
  refine text_inj ?_
  rw [← all_text h]
  refine Replace.all_of_not_infix fun hinfix => ?_
  rw [Replace.like_of_infix (backslash_not_mem h) hinfix] at hlike
  cases hlike

theorem update_eq (h : c.Clear) {old new : List Char}
    (hold : Replace.literal old = some (fragment c.id c.old))
    (hnew : Replace.literal new = some (fragment c.id c.new)) (triggers : Bool) (rows : List Columns) :
    update triggers old new rows = some (rows.map fun row =>
      ⟨Doc.replaced c row.steps, if triggers then Doc.replaced c row.triggers else row.triggers⟩) := by
  unfold update
  rw [hold, hnew]
  refine Eq.trans (congrArg (fun f => rows.mapM f) (funext fun row => ?_)) (List.mapM_pure (m := Option))
  show (if _ then _ else _) = some _
  split
  · rw [replace_eq h, replace_eq h]
    cases triggers <;> rfl
  · next hfound =>
      rw [Bool.not_eq_true, Bool.or_eq_false_iff] at hfound
      rw [replaced_of_not_like h hfound.1]
      cases triggers with
      | false => rfl
      | true => rw [if_pos rfl, replaced_of_not_like h hfound.2]

end

theorem literal_of_not_mem {s : List Char} (h : '\'' ∉ s) : Replace.literal s = some s := by
  have hliteral := Replace.literal_append_of_not_mem h []
  rw [List.append_nil] at hliteral
  rw [hliteral]
  show some (s ++ []) = some s
  rw [List.append_nil]

theorem quote_not_mem_idText (id : Option Nat) : '\'' ∉ idText id := by
  cases id with
  | none => decide
  | some n =>
      intro hmem
      cases isNumeric_of_mem_toString hmem

theorem literal_name {id : Option Nat} {name : List Char} (h : '\'' ∉ name) :
    Replace.literal (fragment (idText id) [(nameKey, name)]) =
      some (fragment (idText id) [(nameKey, name)]) := by
  refine literal_of_not_mem ?_
  unfold fragment tail
  simp [fieldText, nameKey, h, quote_not_mem_idText id]

theorem literal_message {id : Option Nat} {name title subject written : List Char} (hname : '\'' ∉ name)
    (hsubject : ∀ r, Replace.literal (written ++ r) = (Replace.literal r).map (subject ++ ·)) :
    Replace.literal (fragment (idText id)
      [(nameKey, name), (titleKey, Replace.double title), (subjectKey, written)]) =
      some (fragment (idText id) [(nameKey, name), (titleKey, title), (subjectKey, subject)]) := by
  -- what stands before the title, between it and the subject, and after that
  have hparts (t s : List Char) :
      fragment (idText id) [(nameKey, name), (titleKey, t), (subjectKey, s)] =
        (fragment (idText id) [(nameKey, name)] ++ [',', ' ', '"', 't', 'i', 't', 'l', 'e', '"', ':', ' ', '"']) ++
          (t ++ (['"', ',', ' ', '"', 's', 'u', 'b', 'j', 'e', 'c', 't', '"', ':', ' ', '"'] ++
            (s ++ ['"']))) := by
    unfold fragment tail
    simp [fieldText, titleKey, subjectKey]
  have hbefore : '\'' ∉ fragment (idText id) [(nameKey, name)] ++
      [',', ' ', '"', 't', 'i', 't', 'l', 'e', '"', ':', ' ', '"'] := by
    unfold fragment tail
    simp [fieldText, nameKey, hname, quote_not_mem_idText id]
  rw [hparts, hparts, Replace.literal_append_of_not_mem hbefore, Replace.literal_double_append,
    Replace.literal_append_of_not_mem (by decide), hsubject]
  rfl

/-! ## Renames -/

theorem written_keys : Written nameKey ∧ Written titleKey ∧ Written subjectKey := by decide

theorem Rename.Plain.clear {r : Rename} (h : r.Plain) : r.change.Clear := by
  obtain ⟨hname, htitle, hsubject⟩ := written_keys
  cases r with
  | tag r =>
      obtain ⟨⟨hold, -⟩, ⟨hnew, -⟩⟩ := h
      refine ⟨⟨r.dtoId, rfl⟩, List.cons_ne_nil _ _, ?_, ?_, ?_⟩
      all_goals
        intro f hf
        obtain rfl := List.mem_singleton.mp hf
        assumption
  | message r =>
      obtain ⟨⟨holdName, -⟩, ⟨hnewName, -⟩, holdTitle, hnewTitle, old, new, hold, hnew, holdSubject,
        hnewSubject, -⟩ := h
      have holdWritten : Written r.oldSubject.written := by rw [hold]; exact holdSubject
      have hnewWritten : Written r.newSubject.written := by rw [hnew]; exact hnewSubject
      refine ⟨⟨some r.id, rfl⟩, List.cons_ne_nil _ _, ?_, ?_, ?_⟩
      all_goals
        intro f hf
        simp only [Rename.change, List.mem_cons, List.not_mem_nil, or_false] at hf
        rcases hf with rfl | rfl | rfl
        all_goals assumption

theorem keys_nodup (r : Rename) : r.change.keys.Nodup := by
  cases r with
  | tag r => exact List.nodup_singleton _
  | message r => exact (by decide : [nameKey, titleKey, subjectKey].Nodup)

theorem Rename.Plain.differs {r : Rename} (h : r.Plain) : ∃ f ∈ r.change.fields, f.2.1 ≠ f.2.2 := by
  cases r with
  | tag r => exact ⟨_, List.mem_singleton_self _, r.differs⟩
  | message r =>
      obtain ⟨-, -, -, -, old, new, hold, hnew, -⟩ := h
      rcases r.differs with htitle | hsubject
      · exact ⟨_, List.mem_cons_of_mem _ List.mem_cons_self, htitle⟩
      · refine ⟨_, List.mem_cons_of_mem _ (List.mem_cons_of_mem _ List.mem_cons_self), ?_⟩
        show r.oldSubject.written ≠ r.newSubject.written
        rw [hold, hnew] at hsubject ⊢
        exact fun heq => hsubject (congrArg _ heq)

theorem Rename.Plain.run {r : Rename} (h : r.Plain) (rows : List Columns) :
    r.run rows = some (rows.map fun row =>
      ⟨Doc.replaced r.change row.steps, Doc.replaced r.triggersChange row.triggers⟩) := by
  have hclear := h.clear
  cases r with
  | tag r =>
      obtain ⟨⟨-, hold⟩, ⟨-, hnew⟩⟩ := h
      exact update_eq hclear (literal_name hold) (literal_name hnew) true rows
  | message r =>
      obtain ⟨⟨-, holdName⟩, ⟨-, hnewName⟩, -, -, old, new, hold, hnew, -, -, hquotes⟩ := h
      have htriggers (d : Doc) : Doc.replaced (Rename.message r).triggersChange d = d :=
        Doc.replaced_of_no_id rfl d
      have holdPart : (Rename.message r).change.old =
          [(nameKey, r.oldName), (titleKey, r.oldTitle), (subjectKey, old)] := by
        show [_, _, (subjectKey, r.oldSubject.written)] = _
        rw [hold]
        rfl
      have hnewPart : (Rename.message r).change.new =
          [(nameKey, r.newName), (titleKey, r.newTitle), (subjectKey, new)] := by
        show [_, _, (subjectKey, r.newSubject.written)] = _
        rw [hnew]
        rfl
      have hliteral : ∃ literals, r.literals = some literals ∧
          Replace.literal literals.1 = some (fragment (idText (some r.id)) (Rename.message r).change.old) ∧
          Replace.literal literals.2 = some (fragment (idText (some r.id)) (Rename.message r).change.new) := by
        rw [holdPart, hnewPart]
        cases hsubject : r.hasSubject with
        | true =>
            refine ⟨(_, _), by unfold MessageRename.literals; rw [hsubject, hold, hnew]; rfl, ?_, ?_⟩
            · exact literal_message holdName fun s => Replace.literal_double_append old s
            · exact literal_message hnewName fun s => Replace.literal_double_append new s
        | false =>
            obtain ⟨holdQuotes, hnewQuotes⟩ := hquotes hsubject
            refine ⟨(_, _), by unfold MessageRename.literals; rw [hsubject, hold, hnew]; rfl, ?_, ?_⟩
            · exact literal_message holdName (Replace.literal_append_of_not_mem holdQuotes)
            · exact literal_message hnewName (Replace.literal_append_of_not_mem hnewQuotes)
      obtain ⟨literals, hliterals, holdLiteral, hnewLiteral⟩ := hliteral
      show (do
        let literals ← r.literals
        update false literals.1 literals.2 rows) = _
      rw [hliterals]
      refine (update_eq hclear holdLiteral hnewLiteral false rows).trans ?_
      simp only [htriggers]
      rfl

/-- A rename changes the references of the account and nothing else exactly when what it finds
are these references. -/
theorem propagates_iff (r : Rename) (h : r.Plain) (automations : List Automation) :
    Propagates r automations ↔ ∀ a ∈ automations, r.Clean a := by
  have htriggers : r.triggersChange.new = r.change.new ∧ r.triggersChange.keys = r.change.keys ∧
      r.triggersChange.fields = r.change.fields := by
    cases r with
    | tag r => exact ⟨rfl, rfl, rfl⟩
    | message r => exact ⟨rfl, rfl, rfl⟩
  unfold Propagates
  rw [h.run, Option.some.injEq, List.map_map, List.map_inj_left]
  refine forall_congr' fun a => imp_congr_right fun _ => ?_
  show Columns.mk _ _ = Columns.mk _ _ ↔ _
  rw [Columns.mk.injEq, Doc.replaced_iff (keys_nodup r) h.differs _ a.keyed.1, ← htriggers.1,
    Doc.replaced_iff (htriggers.2.1 ▸ keys_nodup r) (htriggers.2.2 ▸ h.differs) _ a.keyed.2]
  rfl

theorem numeric_singleton {c : Char} (h : isNumeric c = true) :
    [c] ≠ [] ∧ ∀ d ∈ [c], isNumeric d = true := by
  refine ⟨List.cons_ne_nil c [], fun d hd => ?_⟩
  rw [List.mem_singleton.mp hd]
  exact h

def one : Number := ⟨['1'], numeric_singleton rfl⟩

def five : Number := ⟨['5'], numeric_singleton rfl⟩

/-- A step with the settings `{"id": 5, "name": "vip", "title": "Vip"}`. -/
def step (type : String) : Doc :=
  .arr (.cons (.obj (.cons ['i', 'd'] (.num one) (.cons ['t', 'y', 'p', 'e'] (.str type.toList)
    (.cons "settings".toList
      (.obj (.cons ['i', 'd'] (.num five) (.cons nameKey (.str ['v', 'i', 'p'])
        (.cons titleKey (.str ['V', 'i', 'p']) .nil)))) .nil)))) .nil)

theorem step_keyed (type : String) : Doc.Keyed (step type) := by
  refine ⟨⟨?_, trivial, trivial, ⟨?_, trivial, trivial, trivial, trivial⟩, trivial⟩, trivial⟩
  · show [['i', 'd'], ['t', 'y', 'p', 'e'], "settings".toList].Nodup
    decide
  · show [['i', 'd'], nameKey, titleKey].Nodup
    decide

/-- An automation of account 1 with one step. -/
def automation (type : String) : Automation :=
  ⟨1, ⟨step type, .arr .nil⟩, step_keyed type, trivial⟩

/-- Tag 5 of account 1 gets the name `gold`. -/
def gold : Rename := .tag ⟨1, 5, some 5, ['v', 'i', 'p'], ['g', 'o', 'l', 'd'], by decide⟩

theorem gold_plain : gold.Plain := ⟨⟨by decide, by decide⟩, ⟨by decide, by decide⟩⟩

theorem propagates_addTag : Propagates gold [automation "addTag"] := by
  refine (propagates_iff gold gold_plain _).mpr fun a ha => ?_
  obtain rfl := List.mem_singleton.mp ha
  refine ⟨⟨⟨fun h => (by cases h), ?_⟩, trivial⟩, trivial⟩
  refine ⟨fun _ => trivial, fun _ => trivial, fun _ => ⟨rfl, ?_⟩, trivial⟩
  exact ⟨fun _ => trivial, fun h => (by cases h), fun _ => trivial, trivial⟩

/-- A message with the same id and the same name gets the new name too. -/
theorem not_propagates : ¬ ∀ (r : Rename) (automations : List Automation), Propagates r automations := by
  intro h
  have hmail : gold.run [(automation "email").columns] = some [gold.expected (automation "email")] :=
    h gold [automation "email"]
  rw [gold_plain.run] at hmail
  cases hmail

end OpenBms.References
