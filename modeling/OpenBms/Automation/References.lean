/-
# `OpenBms.Automation.References` — a replacement in the text of the steps, and in the steps

An automation names the tags and messages it uses by objects like `{"id": 5, "name": "vip"}`.
A rename replaces a part of the text of the whole column,

    "id": 5, "name": "vip"        by        "id": 5, "name": "gold"

and this module says what that does to the document.

**Proved here**, for texts that need no escape.

    a string is found in a string only as the whole of it (`prefix_escaped`)
    the part begins at a key `id`, or one that ends in `"id` (`all_quoted`, `all_quoted_key`)
    the part is found where the members are (`tail_prefix`)
    the new text is that of a document (`all_text`)
-/
import OpenBms.Lib.Jsonb
import OpenBms.Lib.Replace

namespace OpenBms.References

open Jsonb

/-! ## The part of the text -/

/-- A key and its text. -/
abbrev Field := List Char × List Char

def fieldText (f : Field) : List Char :=
  ',' :: ' ' :: '"' :: (f.1 ++ '"' :: ':' :: ' ' :: '"' :: (f.2 ++ ['"']))

/-- What the part has after its first key. -/
def tail (id : List Char) (fields : List Field) : List Char :=
  ':' :: ' ' :: (id ++ fields.flatMap fieldText)

def fragment (id : List Char) (fields : List Field) : List Char :=
  '"' :: 'i' :: 'd' :: '"' :: tail id fields

/-- A rename: the text of the id, and each key with the old and the new text. -/
structure Change where
  id : List Char
  fields : List (List Char × List Char × List Char)
  deriving DecidableEq

namespace Change

variable (c : Change)

def old : List Field := c.fields.map fun f => (f.1, f.2.1)

def new : List Field := c.fields.map fun f => (f.1, f.2.2)

def keys : List (List Char) := c.fields.map (·.1)

def values : List (List Char) := c.fields.map (·.2.2)

end Change

/-- A text between quotes is written as it is. -/
def Written (s : List Char) : Prop := ∀ c ∈ s, escapeChar c = [c]

instance (s : List Char) : Decidable (Written s) := List.decidableBAll _ s

/-- What the id of a request is written as; one that is left out is the text `undefined`. -/
def idText : Option Nat → List Char
  | some id => (toString id).toList
  | none => ['u', 'n', 'd', 'e', 'f', 'i', 'n', 'e', 'd']

/-- The texts of a rename are written as they are. -/
structure Change.Clear (c : Change) : Prop where
  id : ∃ id, c.id = idText id
  fields : c.fields ≠ []
  keys : ∀ f ∈ c.fields, Written f.1
  old : ∀ f ∈ c.fields, Written f.2.1
  new : ∀ f ∈ c.fields, Written f.2.2

/-! ## The documents -/

/-- A key that ends like the first one of the part. -/
def idKey (key : List Char) : Bool := key == ['i', 'd'] || ['"', 'i', 'd'].isSuffixOf key

def isNumber (digits : List Char) : Doc → Bool
  | .num n => n.val == digits
  | _ => false

def isText (s : List Char) : Doc → Bool
  | .str t => t == s
  | _ => false

/-- The first members are these. -/
def starts : Members → List Field → Bool
  | _, [] => true
  | .nil, _ :: _ => false
  | .cons key value rest, f :: fields => key == f.1 && isText f.2 value && starts rest fields

def dropMembers : Nat → Members → Members
  | 0, members => members
  | _ + 1, .nil => .nil
  | n + 1, .cons _ _ rest => dropMembers n rest

section
variable (c : Change)

mutual

/-- The document with the new text. -/
def Doc.replaced : Doc → Doc
  | .null => .null
  | .bool b => .bool b
  | .num n => .num n
  | .str s => .str s
  | .arr items => .arr (Items.replaced items)
  | .obj members => .obj (Members.replaced [] members)

def Items.replaced : Items → Items
  | .nil => .nil
  | .cons item rest => .cons (Doc.replaced item) (Items.replaced rest)

/-- The texts that the next members get, and what the members after these are. -/
def Members.replaced : List (List Char) → Members → Members
  | _, .nil => .nil
  | s :: pending, .cons key _ rest => .cons key (.str s) (Members.replaced pending rest)
  | [], .cons key value rest =>
      .cons key (Doc.replaced value)
        (Members.replaced (if idKey key && isNumber c.id value && starts rest c.old then c.values
          else []) rest)

end

end

/-! ## Strings -/

theorem escapeChar_cases (a : Char) : escapeChar a = [a] ∨ ∃ t, escapeChar a = '\\' :: t := by
  unfold escapeChar
  split_ifs
  all_goals first | exact .inr ⟨_, rfl⟩ | exact .inl rfl

theorem quote_not_mem_hexDigit : ∀ n, n < 16 → hexDigit n ≠ '"' := by decide

theorem quote_not_mem_escapeChar {a : Char} (h : a ≠ '"') : '"' ∉ escapeChar a := by
  unfold escapeChar
  rw [if_neg h]
  split_ifs
  all_goals try decide
  · next hcontrol =>
      have hhigh := quote_not_mem_hexDigit (a.toNat / 16) (by omega)
      have hlow := quote_not_mem_hexDigit (a.toNat % 16) (by omega)
      simp [hhigh.symm, hlow.symm]
  · simpa using h.symm

theorem ne_of_written {a : Char} (h : escapeChar a = [a]) : a ≠ '"' ∧ a ≠ '\\' := by
  constructor
  · rintro rfl
    exact absurd h (by decide)
  · rintro rfl
    exact absurd h (by decide)

theorem escape_of_written {s : List Char} (h : Written s) : escape s = s := by
  induction s with
  | nil => rfl
  | cons a s ih =>
      show escapeChar a ++ escape s = _
      rw [h a List.mem_cons_self, ih fun b hb => h b (List.mem_cons_of_mem a hb)]
      rfl

/-- A text with the closing quote is found at the front of a string only as the whole of it. -/
theorem prefix_escaped {s : List Char} (hs : Written s) (v x r : List Char) :
    s ++ '"' :: x <+: escape v ++ '"' :: r ↔ v = s ∧ x <+: r := by
  induction s generalizing v with
  | nil =>
      cases v with
      | nil =>
          show '"' :: x <+: '"' :: r ↔ _
          rw [List.cons_prefix_cons]
          simp
      | cons b v =>
          refine ⟨fun h => ?_, fun h => (by cases h.1)⟩
          change '"' :: x <+: escapeChar b ++ escape v ++ _ at h
          rcases escapeChar_cases b with hb | ⟨t, hb⟩
          · rw [hb] at h
            exact absurd (List.cons_prefix_cons.mp h).1 (ne_of_written hb).1.symm
          · rw [hb] at h
            exact absurd (List.cons_prefix_cons.mp h).1 (by decide)
  | cons a s ih =>
      have ha := hs a List.mem_cons_self
      have ih := ih fun d hd => hs d (List.mem_cons_of_mem a hd)
      cases v with
      | nil =>
          refine ⟨fun h => ?_, fun h => (by cases h.1)⟩
          exact absurd (List.cons_prefix_cons.mp h).1 (ne_of_written ha).1
      | cons b v =>
          show a :: (s ++ '"' :: x) <+: escapeChar b ++ escape v ++ _ ↔ _
          rcases escapeChar_cases b with hb | ⟨t, hb⟩
          · rw [hb]
            show a :: (s ++ '"' :: x) <+: b :: (escape v ++ '"' :: r) ↔ _
            rw [List.cons_prefix_cons, ih, List.cons_eq_cons]
            constructor
            · rintro ⟨rfl, rfl, hx⟩
              exact ⟨⟨rfl, rfl⟩, hx⟩
            · rintro ⟨⟨rfl, rfl⟩, hx⟩
              exact ⟨rfl, rfl, hx⟩
          · rw [hb]
            constructor
            · intro h
              exact absurd (List.cons_prefix_cons.mp h).1 (ne_of_written ha).2
            · rintro ⟨h, -⟩
              cases h
              rw [ha] at hb
              exact absurd (List.cons.inj hb).1 (ne_of_written ha).2

theorem written_id : Written ['i', 'd'] := by decide

section
variable {id : List Char} {fields fields' : List Field}

/-- The part at an opening quote. -/
theorem fragment_eq (v r : List Char) :
    fragment id fields <+: '"' :: (escape v ++ '"' :: r) ↔ v = ['i', 'd'] ∧ tail id fields <+: r := by
  show '"' :: (['i', 'd'] ++ '"' :: tail id fields) <+: _ ↔ _
  rw [List.cons_prefix_cons, prefix_escaped written_id]
  simp

/-- The part begins with a quote. -/
theorem all_other {a : Char} (ha : a ≠ '"') (s : List Char) :
    Replace.all (fragment id fields) (fragment id fields') (a :: s) =
      a :: Replace.all (fragment id fields) (fragment id fields') s :=
  Replace.all_cons (Replace.not_prefix_of_ne ha.symm)

/-- The rest of a string in which the part does not begin. -/
theorem all_escaped {v r : List Char} (hr : ∀ s, r ≠ 'i' :: s)
    (h : ['"', 'i', 'd'] <:+ v → ¬ tail id fields <+: r) :
    Replace.all (fragment id fields) (fragment id fields') (escape v ++ '"' :: r) =
      escape v ++ '"' :: Replace.all (fragment id fields) (fragment id fields') r := by
  induction v with
  | nil =>
      show Replace.all _ _ ('"' :: r) = '"' :: _
      refine Replace.all_cons fun hprefix => ?_
      obtain ⟨t, ht⟩ := (List.cons_prefix_cons.mp hprefix).2
      exact hr _ ht.symm
  | cons a v ih =>
      have ih := ih fun hv => h (hv.trans (List.suffix_cons a v))
      show Replace.all _ _ (escapeChar a ++ escape v ++ '"' :: r) = escapeChar a ++ escape v ++ _
      rw [List.append_assoc, List.append_assoc]
      rcases eq_or_ne a '"' with rfl | ha
      · show Replace.all _ _ ('\\' :: '"' :: (escape v ++ '"' :: r)) = '\\' :: '"' :: _
        rw [all_other (by decide), Replace.all_cons, ih]
        · rfl
        rw [fragment_eq]
        rintro ⟨rfl, htail⟩
        exact h List.suffix_rfl htail
      · show Replace.all (fragment id fields) _ (_ ++ (escape v ++ '"' :: r)) = _
        rw [← ih]
        exact Replace.all_block (quote_not_mem_escapeChar ha) _

/-- The rest of a string that ends like the first key of the part, which follows. -/
theorem all_escaped_key {v r : List Char} (hv : ['"', 'i', 'd'] <:+ v) :
    Replace.all (fragment id fields) (fragment id fields') (escape v ++ '"' :: (tail id fields ++ r)) =
      escape v ++ '"' :: (tail id fields' ++
        Replace.all (fragment id fields) (fragment id fields') r) := by
  induction v with
  | nil => exact absurd (List.suffix_nil.mp hv) (by decide)
  | cons a v ih =>
      show Replace.all _ _ (escapeChar a ++ escape v ++ _) = escapeChar a ++ escape v ++ _
      rw [List.append_assoc, List.append_assoc]
      rcases List.suffix_cons_iff.mp hv with heq | hsuffix
      · obtain ⟨rfl, rfl⟩ := List.cons.inj heq
        show Replace.all _ _ ('\\' :: (fragment id fields ++ r)) = '\\' :: (fragment id fields' ++ _)
        have hfragment : fragment id fields ≠ [] := List.cons_ne_nil _ _
        rw [all_other (by decide), Replace.all_append hfragment]
      · rcases eq_or_ne a '"' with rfl | ha
        · show Replace.all _ _ ('\\' :: '"' :: (escape v ++ '"' :: (tail id fields ++ r))) = '\\' :: '"' :: _
          rw [all_other (by decide), Replace.all_cons, ih hsuffix]
          · rfl
          rw [fragment_eq]
          rintro ⟨rfl, -⟩
          exact absurd hsuffix (by decide)
        · rw [← ih hsuffix]
          exact Replace.all_block (quote_not_mem_escapeChar ha) _

theorem idKey_iff {key : List Char} :
    idKey key = true ↔ key = ['i', 'd'] ∨ ['"', 'i', 'd'] <:+ key := by
  unfold idKey
  rw [Bool.or_eq_true, beq_iff_eq, List.isSuffixOf_iff_suffix]

/-- A string at which the part does not begin. -/
theorem all_quoted {v r : List Char} (hr : ∀ s, r ≠ 'i' :: s)
    (h : idKey v = true → ¬ tail id fields <+: r) :
    Replace.all (fragment id fields) (fragment id fields') (quoted v ++ r) =
      quoted v ++ Replace.all (fragment id fields) (fragment id fields') r := by
  rw [quoted_append, quoted_append, Replace.all_cons, all_escaped hr]
  · exact fun hv => h (idKey_iff.mpr (.inr hv))
  · rw [fragment_eq]
    rintro ⟨hv, htail⟩
    exact h (idKey_iff.mpr (.inl hv)) htail

/-- A string at which the part begins. -/
theorem all_quoted_key {v r : List Char} (hv : idKey v = true) :
    Replace.all (fragment id fields) (fragment id fields') (quoted v ++ (tail id fields ++ r)) =
      quoted v ++ (tail id fields' ++ Replace.all (fragment id fields) (fragment id fields') r) := by
  rw [quoted_append, quoted_append]
  rcases eq_or_ne v ['i', 'd'] with rfl | hne
  · exact Replace.all_append (List.cons_ne_nil _ _) r
  · have hsuffix := (idKey_iff.mp hv).resolve_left hne
    rw [Replace.all_cons, all_escaped_key hsuffix]
    rw [fragment_eq]
    exact fun h => hne h.1

end

/-! ## Members -/

theorem isNumeric_of_mem_toString {n : Nat} {a : Char} (h : a ∈ (toString n).toList) :
    isNumeric a = true := by
  have hdigit : a.isDigit = true :=
    Nat.isDigit_of_mem_toDigits (by decide) (by decide) (Nat.toList_repr ▸ h)
  unfold isNumeric
  rw [hdigit]
  rfl

/-- Digits up to a mark are the same digits up to a mark. -/
theorem prefix_number {a b x r : List Char} (ha : ∀ d ∈ a, isNumeric d = true)
    (hb : ∀ d ∈ b, isNumeric d = true) (hx : ∃ m s, x = m :: s ∧ isNumeric m = false) (hr : Ends r) :
    a ++ x <+: b ++ r ↔ b = a ∧ x <+: r := by
  obtain ⟨m, s, rfl, hm⟩ := hx
  induction a generalizing b with
  | nil =>
      cases b with
      | nil => simp
      | cons d b =>
          refine ⟨fun h => ?_, fun h => (by cases h.1)⟩
          have hd := hb d List.mem_cons_self
          rw [← (List.cons_prefix_cons.mp h).1, hm] at hd
          cases hd
  | cons d a ih =>
      have hd := ha d List.mem_cons_self
      have ih {b : List Char} (hb : ∀ e ∈ b, isNumeric e = true) :=
        ih (fun e he => ha e (List.mem_cons_of_mem d he)) (b := b) hb
      cases b with
      | nil =>
          refine ⟨fun h => ?_, fun h => (by cases h.1)⟩
          obtain ⟨t, ht⟩ := h
          rw [hr d _ ht.symm] at hd
          cases hd
      | cons e b =>
          show d :: (a ++ m :: s) <+: e :: (b ++ r) ↔ _
          rw [List.cons_prefix_cons, ih fun f hf => hb f (List.mem_cons_of_mem e hf), List.cons_eq_cons]
          constructor
          · rintro ⟨rfl, rfl, h⟩
            exact ⟨⟨rfl, rfl⟩, h⟩
          · rintro ⟨⟨rfl, rfl⟩, h⟩
            exact ⟨rfl, rfl, h⟩

/-- What stands after a document inside another one. -/
def After (r : List Char) : Prop := ∀ d s, r = d :: s → d = ',' ∨ d = ']' ∨ d = '}'

theorem After.cons {d : Char} {s : List Char} (h : d = ',' ∨ d = ']' ∨ d = '}') : After (d :: s) := by
  intro d' s' heq
  cases heq
  exact h

theorem After.ends {r : List Char} (h : After r) : Ends r := by
  intro d s heq
  rcases h d s heq with rfl | rfl | rfl <;> rfl

theorem After.members {rest : Members} {r : List Char} : After (rest.text false ++ '}' :: r) := by
  cases rest with
  | nil => exact .cons (.inr (.inr rfl))
  | cons key value rest => exact .cons (.inl rfl)

theorem After.items {rest : Items} {r : List Char} : After (rest.text false ++ ']' :: r) := by
  cases rest with
  | nil => exact .cons (.inr (.inl rfl))
  | cons item rest => exact .cons (.inl rfl)

/-- Only a string begins with a quote. -/
theorem quote_prefix {s : List Char} (hs : Written s) {x : List Char} (value : Doc) (r : List Char) :
    '"' :: (s ++ '"' :: x) <+: value.text ++ r ↔ isText s value = true ∧ x <+: r := by
  have hother {d : Char} {t : List Char} (htext : value.text = d :: t) (hd : d ≠ '"')
      (hkind : isText s value = false) :
      '"' :: (s ++ '"' :: x) <+: value.text ++ r ↔ isText s value = true ∧ x <+: r := by
    rw [htext, hkind]
    refine ⟨fun h => absurd (List.cons_prefix_cons.mp h).1.symm hd, fun h => (by cases h.1)⟩
  cases value with
  | null => exact hother rfl (by decide) rfl
  | bool b =>
      cases b with
      | true => exact hother rfl (by decide) rfl
      | false => exact hother rfl (by decide) rfl
  | num n =>
      obtain ⟨digits, hne, hdigits⟩ := n
      obtain ⟨d, digits, rfl⟩ := List.exists_cons_of_ne_nil hne
      refine hother (d := d) (t := digits) rfl ?_ rfl
      rintro rfl
      cases hdigits _ List.mem_cons_self
  | str t =>
      show _ <+: quoted t ++ r ↔ (t == s) = true ∧ _
      rw [quoted_append, List.cons_prefix_cons, prefix_escaped hs, beq_iff_eq]
      simp
  | arr items => exact hother rfl (by decide) rfl
  | obj members => exact hother rfl (by decide) rfl

theorem number_prefix {id : Option Nat} {x r : List Char} (hx : ∃ s, x = ',' :: s) (value : Doc)
    (hr : After r) :
    idText id ++ x <+: value.text ++ r ↔ isNumber (idText id) value = true ∧ x <+: r := by
  obtain ⟨s, rfl⟩ := hx
  -- the other documents begin with none of the characters of an id
  have hother {d : Char} {t : List Char} (htext : value.text = d :: t)
      (hd : ∀ e u, idText id ++ ',' :: s = e :: u → e ≠ d) (hkind : isNumber (idText id) value = false) :
      idText id ++ ',' :: s <+: value.text ++ r ↔
        isNumber (idText id) value = true ∧ ',' :: s <+: r := by
    rw [htext, hkind]
    refine ⟨fun h => ?_, fun h => (by cases h.1)⟩
    obtain ⟨u, hu⟩ := h
    cases hid : idText id ++ ',' :: s with
    | nil => exact absurd hid (by simp)
    | cons e v =>
        rw [hid] at hu
        exact absurd (List.cons.inj hu).1 (hd e v hid)
  have hfirst : ∀ e u, idText id ++ ',' :: s = e :: u →
      isNumeric e = true ∨ e = 'u' ∨ e = ',' := by
    intro e u heq
    cases id with
    | none => exact .inr (.inl (List.cons.inj heq).1.symm)
    | some n =>
        cases hn : idText (some n) with
        | nil =>
            rw [hn] at heq
            exact .inr (.inr (List.cons.inj heq).1.symm)
        | cons f v =>
            rw [hn] at heq
            have hmem : e ∈ (toString n).toList := by
              rw [show (toString n).toList = f :: v from hn, ← (List.cons.inj heq).1]
              exact List.mem_cons_self
            exact .inl (isNumeric_of_mem_toString hmem)
  have hmark {d : Char} (hnumeric : isNumeric d = false) (hu : d ≠ 'u') (hcomma : d ≠ ',') :
      ∀ e u, idText id ++ ',' :: s = e :: u → e ≠ d := by
    rintro e u heq rfl
    rcases hfirst e u heq with h | h | h
    · rw [h] at hnumeric
      cases hnumeric
    · exact hu h
    · exact hcomma h
  cases value with
  | null => exact hother rfl (hmark rfl (by decide) (by decide)) rfl
  | bool b =>
      cases b with
      | true => exact hother rfl (hmark rfl (by decide) (by decide)) rfl
      | false => exact hother rfl (hmark rfl (by decide) (by decide)) rfl
  | str t => exact hother rfl (hmark rfl (by decide) (by decide)) rfl
  | arr items => exact hother rfl (hmark rfl (by decide) (by decide)) rfl
  | obj members => exact hother rfl (hmark rfl (by decide) (by decide)) rfl
  | num n =>
      obtain ⟨digits, hne, hdigits⟩ := n
      cases id with
      | some id =>
          have hid : ∀ d ∈ idText (some id), isNumeric d = true := fun d => isNumeric_of_mem_toString
          show idText (some id) ++ _ <+: digits ++ r ↔ (digits == idText (some id)) = true ∧ _
          rw [prefix_number hid hdigits ⟨',', s, rfl, rfl⟩ hr.ends, beq_iff_eq]
      | none =>
          obtain ⟨d, digits, rfl⟩ := List.exists_cons_of_ne_nil hne
          have hd := hdigits d List.mem_cons_self
          refine hother (d := d) (t := digits) rfl ?_ ?_
          · rintro e u heq rfl
            rw [← (List.cons.inj heq).1] at hd
            cases hd
          · show (d :: digits == idText none) = false
            rw [beq_eq_false_iff_ne]
            intro heq
            rw [(List.cons.inj heq).1] at hd
            cases hd

theorem fieldText_append (f : Field) (x : List Char) :
    fieldText f ++ x = ',' :: ' ' :: '"' :: (f.1 ++ '"' :: ':' :: ' ' :: '"' :: (f.2 ++ '"' :: x)) := by
  unfold fieldText
  simp

theorem fields_prefix {fields : List Field} (hfields : ∀ f ∈ fields, Written f.1 ∧ Written f.2)
    (members : Members) (r : List Char) :
    fields.flatMap fieldText <+: members.text false ++ '}' :: r ↔ starts members fields = true := by
  induction fields generalizing members with
  | nil =>
      cases members <;> exact iff_of_true List.nil_prefix rfl
  | cons f fields ih =>
      obtain ⟨hkey, hold⟩ := hfields f List.mem_cons_self
      have ih := ih fun g hg => hfields g (List.mem_cons_of_mem f hg)
      show fieldText f ++ fields.flatMap fieldText <+: _ ↔ _
      rw [fieldText_append]
      cases members with
      | nil =>
          refine ⟨fun h => ?_, fun h => (by cases h)⟩
          exact absurd (List.cons_prefix_cons.mp h).1 (by decide)
      | cons key value rest =>
          have htext : (Members.cons key value rest).text false ++ '}' :: r =
              ',' :: ' ' :: '"' :: (escape key ++ '"' ::
                (':' :: ' ' :: (value.text ++ (rest.text false ++ '}' :: r)))) := by
            show ',' :: ' ' :: (quoted key ++ (':' :: ' ' :: (value.text ++ rest.text false)) ++ '}' :: r) = _
            rw [List.append_assoc, quoted_append]
            simp
          rw [htext, List.cons_prefix_cons, List.cons_prefix_cons, List.cons_prefix_cons,
            prefix_escaped hkey, List.cons_prefix_cons, List.cons_prefix_cons, quote_prefix hold,
            ih rest]
          show _ ↔ (key == f.1 && isText f.2 value && starts rest fields) = true
          rw [Bool.and_eq_true, Bool.and_eq_true, beq_iff_eq]
          constructor
          · rintro ⟨-, -, -, hkey, -, -, htext, hrest⟩
            exact ⟨⟨hkey, htext⟩, hrest⟩
          · rintro ⟨⟨hkey, htext⟩, hrest⟩
            exact ⟨rfl, rfl, rfl, hkey, rfl, rfl, htext, hrest⟩

theorem text_of_starts {fields : List Field} (hfields : ∀ f ∈ fields, Written f.1 ∧ Written f.2)
    {members : Members} (h : starts members fields = true) :
    members.text false = fields.flatMap fieldText ++ (dropMembers fields.length members).text false := by
  induction fields generalizing members with
  | nil => rfl
  | cons f fields ih =>
      obtain ⟨hkey, hold⟩ := hfields f List.mem_cons_self
      cases members with
      | nil => cases h
      | cons key value rest =>
          change (key == f.1 && isText f.2 value && starts rest fields) = true at h
          rw [Bool.and_eq_true, Bool.and_eq_true, beq_iff_eq] at h
          obtain ⟨⟨rfl, htext⟩, hrest⟩ := h
          have hvalue : value = .str f.2 := by
            cases value with
            | str t => rw [eq_of_beq (show (t == f.2) = true from htext)]
            | _ => cases htext
          have hquoted {s : List Char} (hs : Written s) : quoted s = '"' :: (s ++ ['"']) := by
            unfold quoted
            rw [escape_of_written hs]
          rw [hvalue]
          show ',' :: ' ' :: (quoted f.1 ++ (':' :: ' ' :: (quoted f.2 ++ rest.text false))) = _
          rw [ih (fun g hg => hfields g (List.mem_cons_of_mem f hg)) hrest, hquoted hkey, hquoted hold]
          show _ = fieldText f ++ fields.flatMap fieldText ++ (dropMembers fields.length rest).text false
          rw [List.append_assoc, fieldText_append]
          simp

section
variable {c : Change}

theorem Change.Clear.oldWritten (h : c.Clear) : ∀ f ∈ c.old, Written f.1 ∧ Written f.2 := by
  intro f hf
  obtain ⟨g, hg, rfl⟩ := List.mem_map.mp hf
  exact ⟨h.keys g hg, h.old g hg⟩

theorem Change.Clear.newWritten (h : c.Clear) : ∀ f ∈ c.new, Written f.1 ∧ Written f.2 := by
  intro f hf
  obtain ⟨g, hg, rfl⟩ := List.mem_map.mp hf
  exact ⟨h.keys g hg, h.new g hg⟩

theorem tail_prefix (h : c.Clear) (value : Doc) (rest : Members) (r : List Char) :
    tail c.id c.old <+: ':' :: ' ' :: (value.text ++ (rest.text false ++ '}' :: r)) ↔
      (isNumber c.id value && starts rest c.old) = true := by
  obtain ⟨id, hid⟩ := h.id
  have hcomma : ∃ s, c.old.flatMap fieldText = ',' :: s := by
    obtain ⟨f, fields, hfields⟩ := List.exists_cons_of_ne_nil h.fields
    unfold Change.old
    rw [hfields]
    exact ⟨_, rfl⟩
  unfold tail
  rw [List.cons_prefix_cons, List.cons_prefix_cons, hid, number_prefix hcomma value After.members,
    fields_prefix h.oldWritten, Bool.and_eq_true]
  simp

theorem starts_nil (members : Members) : starts members [] = true := by
  cases members <;> rfl

theorem starts_replaced (fields : List (List Char × List Char × List Char)) {members : Members}
    (h : starts members (fields.map fun f => (f.1, f.2.1)) = true) :
    starts (Members.replaced c (fields.map (·.2.2)) members) (fields.map fun f => (f.1, f.2.2)) =
      true := by
  induction fields generalizing members with
  | nil => exact starts_nil _
  | cons f fields ih =>
      cases members with
      | nil => cases h
      | cons key value rest =>
          change (key == f.1 && isText f.2.1 value && starts rest _) = true at h
          rw [Bool.and_eq_true, Bool.and_eq_true] at h
          show (key == f.1 && isText f.2.2 (.str f.2.2) && starts _ _) = true
          rw [h.1.1, ih h.2]
          show (true && (f.2.2 == f.2.2) && true) = true
          rw [beq_self_eq_true]
          rfl

/-! ## Documents -/

theorem not_i_colon {s : List Char} : ∀ t, ':' :: s ≠ 'i' :: t := by
  intro t h
  cases h

theorem After.not_i {r : List Char} (h : After r) : ∀ t, r ≠ 'i' :: t := by
  intro t heq
  rcases h 'i' t heq with h | h | h <;> cases h

/-- What the replacement makes of a text. -/
abbrev Change.text (c : Change) : List Char → List Char :=
  Replace.all (fragment c.id c.old) (fragment c.id c.new)

theorem text_quoted {v r : List Char} (hr : After r) : c.text (quoted v ++ r) = quoted v ++ c.text r := by
  refine all_quoted hr.not_i fun _ htail => ?_
  cases r with
  | nil => exact absurd (List.prefix_nil.mp htail) (List.cons_ne_nil _ _)
  | cons d r =>
      rcases hr d r rfl with rfl | rfl | rfl
      all_goals exact absurd (List.cons_prefix_cons.mp htail).1 (by decide)

theorem text_block {block : List Char} (h : '"' ∉ block) (r : List Char) :
    c.text (block ++ r) = block ++ c.text r :=
  Replace.all_block h r

theorem text_cons {d : Char} (h : d ≠ '"') (r : List Char) : c.text (d :: r) = d :: c.text r :=
  all_other h r

theorem text_separator (first : Bool) (r : List Char) :
    c.text ((if first then [] else [',', ' ']) ++ r) =
      (if first then [] else [',', ' ']) ++ c.text r := by
  cases first with
  | true => rfl
  | false => exact text_block (by decide) r

mutual

theorem Doc.all_text (h : c.Clear) (d : Doc) (r : List Char) (hr : After r) :
    c.text (d.text ++ r) = (Doc.replaced c d).text ++ c.text r := by
  cases d with
  | null => exact text_block (by decide) r
  | bool b =>
      cases b with
      | true => exact text_block (by decide) r
      | false => exact text_block (by decide) r
  | num n =>
      refine text_block (fun hmem => ?_) r
      cases n.2.2 _ hmem
  | str s => exact text_quoted hr
  | arr items =>
      have hitems := Items.all_text h items true r
      show c.text ('[' :: (items.text true ++ [']'] ++ r)) =
        '[' :: ((Items.replaced c items).text true ++ [']'] ++ c.text r)
      rw [text_cons (by decide), List.append_assoc, List.append_assoc]
      exact congrArg _ hitems
  | obj members =>
      have hmembers := Members.all_text h members [] true r (starts_nil members)
      show c.text ('{' :: (members.text true ++ ['}'] ++ r)) =
        '{' :: ((Members.replaced c [] members).text true ++ ['}'] ++ c.text r)
      rw [text_cons (by decide), List.append_assoc, List.append_assoc]
      exact congrArg _ hmembers

theorem Items.all_text (h : c.Clear) (items : Items) (first : Bool) (r : List Char) :
    c.text (items.text first ++ ']' :: r) = (Items.replaced c items).text first ++ ']' :: c.text r := by
  cases items with
  | nil => exact text_cons (by decide) r
  | cons item rest =>
      have hrest := Items.all_text h rest false r
      have hitem := Doc.all_text h item (rest.text false ++ ']' :: r) .items
      show c.text ((if first then [] else [',', ' ']) ++ (item.text ++ rest.text false) ++ ']' :: r) =
        (if first then [] else [',', ' ']) ++
          ((Doc.replaced c item).text ++ (Items.replaced c rest).text false) ++ ']' :: c.text r
      rw [List.append_assoc, List.append_assoc, text_separator, hitem, hrest]
      simp only [List.append_assoc]

theorem Members.all_text (h : c.Clear) (members : Members)
    (pending : List (List Char × List Char × List Char)) (first : Bool) (r : List Char)
    (hpending : starts members (pending.map fun f => (f.1, f.2.1)) = true) :
    c.text ((dropMembers pending.length members).text first ++ '}' :: r) =
      (dropMembers pending.length (Members.replaced c (pending.map (·.2.2)) members)).text first ++
        '}' :: c.text r := by
  cases members with
  | nil =>
      cases pending with
      | nil => exact text_cons (by decide) r
      | cons f pending => cases hpending
  | cons key value rest =>
      cases pending with
      | cons f pending =>
          change (key == f.1 && isText f.2.1 value && starts rest _) = true at hpending
          rw [Bool.and_eq_true] at hpending
          exact Members.all_text h rest pending first r hpending.2
      | nil =>
          have hvalue := Doc.all_text h value (rest.text false ++ '}' :: r) .members
          have htail := tail_prefix h value rest r
          have hrun := Members.all_text h rest c.fields false r
          have hrest := Members.all_text h rest [] false r (starts_nil rest)
          show c.text ((if first then [] else [',', ' ']) ++
              (quoted key ++ (':' :: ' ' :: (value.text ++ rest.text false))) ++ '}' :: r) =
            (if first then [] else [',', ' ']) ++
              (quoted key ++ (':' :: ' ' :: ((Doc.replaced c value).text ++
                (Members.replaced c (if idKey key && isNumber c.id value && starts rest c.old then
                  c.values else []) rest).text false))) ++ '}' :: c.text r
          rw [List.append_assoc, List.append_assoc, text_separator]
          conv_rhs => rw [List.append_assoc, List.append_assoc]
          refine congrArg _ ?_
          show c.text (quoted key ++ (':' :: ' ' :: (value.text ++ rest.text false ++ '}' :: r))) = _
          rw [List.append_assoc]
          cases hall : idKey key && isNumber c.id value && starts rest c.old with
          | true =>
              -- the part begins at this key: it is replaced as a whole
              rw [Bool.and_assoc, Bool.and_eq_true, Bool.and_eq_true] at hall
              obtain ⟨hkey, hnumber, hstarts⟩ := hall
              have hvalue : value.text = c.id ∧ (Doc.replaced c value).text = c.id := by
                cases value with
                | num n =>
                    have hdigits : n.val = c.id := eq_of_beq hnumber
                    exact ⟨hdigits, hdigits⟩
                | _ => cases hnumber
              have hnew : (Members.replaced c c.values rest).text false =
                  c.new.flatMap fieldText ++
                    (dropMembers c.fields.length (Members.replaced c c.values rest)).text false := by
                have hreplaced : starts (Members.replaced c c.values rest) c.new = true :=
                  starts_replaced c.fields hstarts
                have hlength : c.new.length = c.fields.length := List.length_map ..
                have htext := text_of_starts h.newWritten hreplaced
                rwa [hlength] at htext
              have hold : rest.text false =
                  c.old.flatMap fieldText ++ (dropMembers c.fields.length rest).text false := by
                have hlength : c.old.length = c.fields.length := List.length_map ..
                have htext := text_of_starts h.oldWritten hstarts
                rwa [hlength] at htext
              rw [if_pos rfl, hvalue.1, hvalue.2, hold, hnew]
              have hpart : ∀ s, c.text (quoted key ++ (tail c.id c.old ++ s)) =
                  quoted key ++ (tail c.id c.new ++ c.text s) := fun s => all_quoted_key hkey
              have hpart := hpart ((dropMembers c.fields.length rest).text false ++ '}' :: r)
              rw [hrun hstarts] at hpart
              simp only [tail, List.cons_append, List.append_assoc] at hpart ⊢
              exact hpart
          | false =>
              rw [if_neg Bool.false_ne_true]
              have hkey : c.text (quoted key ++
                  (':' :: ' ' :: (value.text ++ (rest.text false ++ '}' :: r)))) =
                  quoted key ++ c.text (':' :: ' ' :: (value.text ++ (rest.text false ++ '}' :: r))) := by
                refine all_quoted not_i_colon fun hkey htext => ?_
                rw [Bool.and_assoc, hkey, Bool.true_and, htail.mp htext] at hall
                cases hall
              refine hkey.trans (congrArg _ ?_)
              show c.text (':' :: ' ' :: _) = _
              rw [text_cons (by decide), text_cons (by decide), hvalue]
              have hrest : c.text (rest.text false ++ '}' :: r) =
                (Members.replaced c [] rest).text false ++ '}' :: c.text r := hrest
              rw [hrest]
              simp only [List.cons_append, List.append_assoc]

end

theorem all_text (h : c.Clear) (d : Doc) : c.text d.text = (Doc.replaced c d).text := by
  have htext := Doc.all_text h d [] (fun _ _ heq => by cases heq)
  rw [List.append_nil] at htext
  exact htext.trans (List.append_nil _)

end

end OpenBms.References
