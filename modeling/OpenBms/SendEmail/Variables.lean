/-
# `OpenBms.SendEmail.Variables` — the variables of a message

`parseVariables` replaces the variables of a content one after the other.  Each is the source of
a regular expression, and its value the replacement of `String.prototype.replace`:

    content   value of %NAME%   what is sent
    %NAME%    $$5               $5
    %NAME%    %EMAIL%           the address, which is replaced next

**Proved here.**

    what each step leaves, as long as its variable matches
    where the content has it and nowhere else (`replaceVariables_eq`)
    then every variable is replaced by its value as it is,
    in any order (`parseVariables_verbatim`)
-/
import OpenBms.Lib.Entries
import OpenBms.Lib.Template

namespace OpenBms.SendEmail

open Template

/-- The variables of `mapVariables` with their values, in the order of `Object.keys`; a variable
is a name between percent signs. -/
structure MapVariables where
  entries : List (List Char × List Char)
  nodup : (entries.map Prod.fst).Nodup
  percent : ∀ key ∈ entries.map Prod.fst, key.head? = some '%'

/-- The characters that are not themselves in the source of a regular expression. -/
def isSyntax (c : Char) : Bool := "^$\\.*+?()[]\x7b\x7d|".toList.contains c

section
variable (canon : Char → Char) (regExp : List Char → List Char → List Char → Option (List Char))

/-- `text.replace(new RegExp(key, 'gim'), value)`; what an empty source or one with special
characters does is left to `regExp`, which may throw. -/
def replaceVariable (text : List Char) (key value : List Char) : Option (List Char) :=
  if key = [] ∨ key.any isSyntax then regExp key value text
  else some (replaceAll canon key value text)

def replaceVariables : List (List Char × List Char) → List Char → Option (List Char)
  | [], text => some text
  | (key, value) :: entries, text =>
      (replaceVariable canon regExp text key value).bind (replaceVariables entries)

/-- `key.replace('%', new)`, which is about the first one only. -/
def replacePercent (new : List Char) : List Char → List Char
  | [] => []
  | c :: s => if c = '%' then new ++ s else c :: replacePercent new s

/-- The variables of a message without a contact: the keys of `getVariables`, each for itself. -/
def keepVariables (keys : List (List Char)) : List (List Char × List Char) :=
  keys.map fun key => (key, replacePercent "\x7d\x7d".toList (replacePercent "\x7b\x7b".toList key))

/-- `mapVariables` where there is a contact, `keys` where there is none. -/
def parseVariables (mapVariables : Option MapVariables) (keys : List (List Char))
    (content : List Char) : Option (List Char) :=
  if content.contains '%' then
    match mapVariables with
    | some mapVariables => replaceVariables canon regExp mapVariables.entries content
    | none => replaceVariables canon regExp (keepVariables keys) content
  else some content

/-! ## What should be sent -/

/-- The content with the variables replaced by their values as they are, all at once. -/
def substitute (mapVariables : MapVariables) (content : List Char) : List Char :=
  fill (fun key => mapVariables.entries.lookup key)
    (parse canon (mapVariables.entries.map Prod.fst) content)

/-- The variables have no special characters, and no two match at one place of the content; the
values of those in the content have no dollar sequences; and each variable, when it is replaced,
matches where the content has it and nowhere else. -/
structure Clean (mapVariables : MapVariables) (content : List Char) : Prop where
  plain : ∀ key ∈ mapVariables.entries.map Prod.fst, key.any isSyntax = false
  separate : Separate canon (mapVariables.entries.map Prod.fst) content
  inert : ∀ key value, (key, value) ∈ mapVariables.entries →
    (∃ written, .hole key written ∈
      parse canon (mapVariables.entries.map Prod.fst) content) → Inert value
  holes : ∀ before key value after,
    mapVariables.entries = before ++ (key, value) :: after →
      OnlyHoles canon (fun v => before.lookup v) key
        (parse canon (mapVariables.entries.map Prod.fst) content)

end

/-! ## One key after the other -/

section
variable {canon : Char → Char} {regExp : List Char → List Char → List Char → Option (List Char)}

theorem MapVariables.ne_nil (mapVariables : MapVariables) :
    ∀ key ∈ mapVariables.entries.map Prod.fst, key ≠ [] := by
  rintro key hmem rfl
  exact nomatch mapVariables.percent [] hmem

/-- What each step leaves: the variables so far are replaced, the others are as they were. -/
theorem replaceVariables_eq {mapVariables : MapVariables} {content : List Char}
    (h : Clean canon mapVariables content) (after : List (List Char × List Char)) :
    ∀ before, mapVariables.entries = before ++ after →
      replaceVariables canon regExp after
          (fill (fun key => before.lookup key)
            (parse canon (mapVariables.entries.map Prod.fst) content)) =
        some (substitute canon mapVariables content) := by
  induction after with
  | nil =>
      intro before hentries
      rw [List.append_nil] at hentries
      rw [replaceVariables, substitute, hentries]
  | cons entry after ih =>
      intro before hentries
      obtain ⟨key, value⟩ := entry
      have hmem : (key, value) ∈ mapVariables.entries := by
        rw [hentries]
        exact List.mem_append_right _ List.mem_cons_self
      have hkey : key ∈ mapVariables.entries.map Prod.fst := List.mem_map_of_mem hmem
      have hfresh : key ∉ before.map Prod.fst := by
        have hnodup := mapVariables.nodup
        rw [hentries, List.map_append, List.map_cons] at hnodup
        exact fun hbefore => (List.nodup_append.mp hnodup).2.2 key hbefore key List.mem_cons_self rfl
      have hliteral : ¬ (key = [] ∨ key.any isSyntax = true) := by
        rintro (hnil | hsyntax)
        · exact mapVariables.ne_nil key hkey hnil
        · exact Bool.eq_false_iff.mp (h.plain key hkey) hsyntax
      have hknown : (fun n => if n = key then some value else before.lookup n) =
          fun n => (before ++ [(key, value)]).lookup n :=
        funext fun n => (Entries.lookup_concat hfresh n).symm
      rw [replaceVariables, replaceVariable, if_neg hliteral,
        replaceAll_fill (mapVariables.ne_nil key hkey) (Entries.lookup_eq_none hfresh)
          (written_parse mapVariables.ne_nil content) (h.holes before key value after hentries)
          (h.inert key value hmem), Option.bind_some, hknown]
      refine ih (before ++ [(key, value)]) ?_
      rw [hentries, List.append_assoc]
      rfl

theorem substitute_of_not_mem {mapVariables : MapVariables} {content : List Char}
    (hcanon : ∀ c, canon c = canon '%' → c = '%') (hpercent : '%' ∉ content) :
    substitute canon mapVariables content = content := by
  refine parse_induction mapVariables.ne_nil
    (P := fun text ps => '%' ∉ text →
      fill (fun key => mapVariables.entries.lookup key) ps = text)
    (fun _ => rfl) ?_ ?_ content hpercent
  · intro c s _ ih hnot
    rw [fill, ih fun hmem => hnot (List.mem_cons_of_mem c hmem)]
  · intro name text hmem hfront _ _ hnot
    have hhead := mapVariables.percent name hmem
    obtain ⟨rest, rfl⟩ : ∃ rest, name = '%' :: rest := List.head?_eq_some_iff.mp hhead
    cases text with
    | nil => exact absurd hfront Bool.false_ne_true
    | cons c s =>
        have hfirst := (List.cons_prefix_cons.mp (List.isPrefixOf_iff_prefix.mp hfront)).1
        rw [hcanon c hfirst.symm] at hnot
        exact absurd List.mem_cons_self hnot

theorem parseVariables_eq (hcanon : ∀ c, canon c = canon '%' → c = '%')
    {mapVariables : MapVariables} (keys : List (List Char)) {content : List Char}
    (h : Clean canon mapVariables content) :
    parseVariables canon regExp (some mapVariables) keys content =
      some (substitute canon mapVariables content) := by
  rw [parseVariables]
  split
  case isTrue =>
    have hrun : replaceVariables canon regExp mapVariables.entries
        (fill (fun _ => none) (parse canon (mapVariables.entries.map Prod.fst) content)) =
          some (substitute canon mapVariables content) :=
      replaceVariables_eq h mapVariables.entries [] rfl
    rwa [fill_parse mapVariables.ne_nil] at hrun
  case isFalse hpercent =>
    rw [substitute_of_not_mem hcanon fun hmem => hpercent (List.contains_iff_mem.mpr hmem)]

/-- For a clean content: every variable is replaced by its value exactly as it is and all other
text is left, whatever the order of the variables. -/
theorem parseVariables_verbatim (canon : Char → Char)
    (regExp : List Char → List Char → List Char → Option (List Char))
    (hcanon : ∀ c, canon c = canon '%' → c = '%') (mapVariables : MapVariables)
    (keys : List (List Char)) (content : List Char) (h : Clean canon mapVariables content) :
    parseVariables canon regExp (some mapVariables) keys content =
        some (substitute canon mapVariables content) ∧
      ∀ mapVariables' : MapVariables, mapVariables'.entries.Perm mapVariables.entries →
        Clean canon mapVariables' content →
          parseVariables canon regExp (some mapVariables') keys content =
            parseVariables canon regExp (some mapVariables) keys content := by
  refine ⟨parseVariables_eq hcanon keys h, fun mapVariables' hperm h' => ?_⟩
  rw [parseVariables_eq hcanon keys h, parseVariables_eq hcanon keys h', substitute, substitute,
    parse_perm (hperm.map Prod.fst) mapVariables.ne_nil content h.separate,
    funext (Entries.lookup_perm hperm mapVariables.nodup)]

end

/-- A greeting with one variable. -/
theorem greeting_verbatim :
    parseVariables id (fun _ _ _ => none)
        (some ⟨[("%NAME%".toList, "Ann".toList)], by decide, by decide⟩) []
        "Hi %NAME%!".toList = some "Hi Ann!".toList :=
  (parseVariables_verbatim id (fun _ _ _ => none) (fun _ h => h)
    ⟨[("%NAME%".toList, "Ann".toList)], by decide, by decide⟩ [] "Hi %NAME%!".toList
    { plain := by decide
      separate := by
        intro rest _ name hmem name' hmem' _ _
        rw [List.mem_singleton.mp hmem, List.mem_singleton.mp hmem']
      inert := by
        intro key value hmem _
        cases List.mem_singleton.mp hmem
        exact trivial
      holes := by
        intro before key value after hentries
        cases before with
        | nil =>
            cases hentries
            exact ⟨rfl, rfl, rfl, fun hne => absurd rfl hne, rfl, trivial⟩
        | cons entry before =>
            obtain ⟨-, htail⟩ := List.cons.inj hentries
            exact absurd htail.symm (List.append_ne_nil_of_right_ne_nil before
              (List.cons_ne_nil (key, value) after)) }).1

/-- A value with two dollar signs is sent with one. -/
theorem dollar_lost :
    parseVariables id (fun _ _ _ => none)
        (some ⟨[("%NAME%".toList, "$$5".toList)], by decide, by decide⟩) [] "%NAME%".toList ≠
      some (substitute id ⟨[("%NAME%".toList, "$$5".toList)], by decide, by decide⟩
        "%NAME%".toList) := by
  decide

end OpenBms.SendEmail
