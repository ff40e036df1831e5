/-
# `OpenBms.Lib.Template` — `String.prototype.replace` on a text with holes

A global and case-insensitive expression without special characters matches its own text, up to
`canon`.  Its matches are replaced from left to right by the expansion of the replacement:

    $$  a dollar sign            $&  the match
    $`  the text before it       $'  the text after it

A text with holes is one in which the occurrences of some names are marked.

**Proved here.**

    a replacement without these sequences expands to itself (`expand_inert`)
    a text is its own holes, filled with what was written (`fill_parse`)
    replacing a name fills its holes, if it matches nowhere
    else and the replacement is inert (`replaceAll_fill`)
    the holes do not depend on the order of the names, where
    no two match at one place (`parse_perm`)
-/
import Mathlib.Data.List.Infix
import Mathlib.Data.List.Perm.Basic

namespace Template

variable (canon : Char → Char)

/-- The source matches at the front of the text. -/
def front (source rest : List Char) : Bool := (source.map canon).isPrefixOf (rest.map canon)

/-- The expansion of a replacement; without groups, `$1` and `$<` stand for themselves. -/
def expand (before matched after : List Char) : List Char → List Char
  | [] => []
  | '$' :: c :: value =>
      if c = '$' then '$' :: expand before matched after value
      else if c = '&' then matched ++ expand before matched after value
      else if c = Char.ofNat 96 then before ++ expand before matched after value
      else if c = '\'' then after ++ expand before matched after value
      else '$' :: expand before matched after (c :: value)
  | c :: value => c :: expand before matched after value

/-- The replacement in what is left; so many characters belong to a match. -/
def go (source value : List Char) : List Char → Nat → List Char → List Char
  | _, _, [] => []
  | before, k + 1, c :: s => go source value (before ++ [c]) k s
  | before, 0, c :: s =>
      if front canon source (c :: s) then
        expand before ((c :: s).take source.length) ((c :: s).drop source.length) value ++
          go source value (before ++ [c]) (source.length - 1) s
      else c :: go source value (before ++ [c]) 0 s

/-- `text.replace(new RegExp(source, 'gim'), value)` for a source without special characters. -/
def replaceAll (source value text : List Char) : List Char := go canon source value [] 0 text

/-- No sequence of the replacement is expanded. -/
def Inert : List Char → Prop
  | [] => True
  | '$' :: c :: value => c ∉ ['$', '&', Char.ofNat 96, '\''] ∧ Inert (c :: value)
  | _ :: value => Inert value

/-- A character of the text, or an occurrence of a name as it is written there. -/
inductive Piece where
  | char (c : Char)
  | hole (name written : List Char)

/-- The text in which the holes of known names are filled. -/
def fill (known : List Char → Option (List Char)) : List Piece → List Char
  | [] => []
  | .char c :: ps => c :: fill known ps
  | .hole name written :: ps => (known name).getD written ++ fill known ps

/-- The holes of a text, from left to right. -/
def parseGo (names : List (List Char)) : Nat → List Char → List Piece
  | _, [] => []
  | k + 1, _ :: s => parseGo names k s
  | 0, c :: s =>
      match names.find? fun name => front canon name (c :: s) with
      | some name => .hole name ((c :: s).take name.length) :: parseGo names (name.length - 1) s
      | none => .char c :: parseGo names 0 s

def parse (names : List (List Char)) (text : List Char) : List Piece := parseGo canon names 0 text

/-- In the filled text the name matches nowhere but where it has a hole. -/
def OnlyHoles (known : List Char → Option (List Char)) (name : List Char) : List Piece → Prop
  | [] => True
  | .char c :: ps => front canon name (c :: fill known ps) = false ∧ OnlyHoles known name ps
  | .hole n written :: ps =>
      (n ≠ name → ∀ t, t ≠ [] → t <:+ (known n).getD written →
        front canon name (t ++ fill known ps) = false) ∧ OnlyHoles known name ps

/-- The holes are written like their names. -/
def Written (ps : List Piece) : Prop :=
  ∀ name written, .hole name written ∈ ps → written.map canon = name.map canon

/-- At no place of the text do two of the names match. -/
def Separate (names : List (List Char)) (text : List Char) : Prop :=
  ∀ rest, rest <:+ text → ∀ name ∈ names, ∀ name' ∈ names,
    front canon name rest = true → front canon name' rest = true → name = name'

variable {canon}

/-! ## Expanding -/

/-- A replacement without such sequences expands to itself. -/
theorem expand_inert {value : List Char} (h : Inert value) (before matched after : List Char) :
    expand before matched after value = value := by
  induction value using Inert.induct with
  | case1 => rfl
  | case2 c value ih =>
      obtain ⟨hc, hrest⟩ := h
      simp only [List.mem_cons, List.not_mem_nil, or_false, not_or] at hc
      rw [expand, if_neg hc.1, if_neg hc.2.1, if_neg hc.2.2.1, if_neg hc.2.2.2, ih hrest]
  | case3 c value hne ih =>
      rw [Inert] at h
      · rw [expand, ih h]
        exact hne
      · exact hne

/-! ## Replacing -/

theorem front_append {source written : List Char} (h : written.map canon = source.map canon)
    (rest : List Char) : front canon source (written ++ rest) = true := by
  rw [front, List.map_append, h, List.isPrefixOf_iff_prefix]
  exact List.prefix_append _ _

/-- The rest of a match is skipped. -/
theorem go_skip (source value rest : List Char) : ∀ (before written : List Char),
    go canon source value before written.length (written ++ rest) =
      go canon source value (before ++ written) 0 rest
  | before, [] => by rw [List.append_nil]; rfl
  | before, c :: written => by
      show go canon source value (before ++ [c]) written.length (written ++ rest) = _
      rw [go_skip source value rest (before ++ [c]) written, List.append_assoc]
      rfl

/-- A part of the text in which no match begins stays. -/
theorem go_block (source value rest : List Char) : ∀ (before block : List Char),
    (∀ t, t ≠ [] → t <:+ block → front canon source (t ++ rest) = false) →
      go canon source value before 0 (block ++ rest) =
        block ++ go canon source value (before ++ block) 0 rest
  | before, [], _ => by rw [List.append_nil]; rfl
  | before, c :: block, h => by
      have hfront : ¬ front canon source (c :: (block ++ rest)) = true :=
        Bool.eq_false_iff.mp (h (c :: block) (List.cons_ne_nil c block) (List.suffix_refl _))
      show go canon source value before 0 (c :: (block ++ rest)) = _
      rw [go, if_neg hfront, go_block source value rest (before ++ [c]) block
        fun t ht hsuffix => h t ht (hsuffix.trans (List.suffix_cons c block)), List.append_assoc]
      rfl

theorem go_fill {known : List Char → Option (List Char)} {name value : List Char}
    (hname : name ≠ []) (hknown : known name = none) : ∀ (before : List Char) (ps : List Piece),
    Written canon ps → OnlyHoles canon known name ps →
      ((∃ written, .hole name written ∈ ps) → Inert value) →
      go canon name value before 0 (fill known ps) =
        fill (fun n => if n = name then some value else known n) ps
  | _, [], _, _, _ => rfl
  | before, .char c :: ps, hwritten, hholes, hinert => by
      rw [fill, fill, go, if_neg (Bool.eq_false_iff.mp hholes.1),
        go_fill hname hknown (before ++ [c]) ps
          (fun n w hmem => hwritten n w (List.mem_cons_of_mem _ hmem)) hholes.2
          fun ⟨w, hmem⟩ => hinert ⟨w, List.mem_cons_of_mem _ hmem⟩]
  | before, .hole n written :: ps, hwritten, hholes, hinert => by
      have hrest := fun before => go_fill hname hknown before ps
        (fun n w hmem => hwritten n w (List.mem_cons_of_mem _ hmem)) hholes.2
        fun ⟨w, hmem⟩ => hinert ⟨w, List.mem_cons_of_mem _ hmem⟩
      rw [fill, fill]
      by_cases hn : n = name
      · subst hn
        have hcanon := hwritten n written List.mem_cons_self
        have hlength : written.length = n.length := by
          rw [← List.length_map canon, hcanon, List.length_map]
        obtain ⟨c, w, rfl⟩ : ∃ c w, written = c :: w := by
          refine List.exists_cons_of_ne_nil fun hnil => hname ?_
          rw [hnil] at hlength
          exact List.length_eq_zero_iff.mp hlength.symm
        have hfront : front canon n (c :: (w ++ fill known ps)) = true :=
          front_append hcanon (fill known ps)
        rw [hknown, Option.getD_none, if_pos rfl, Option.getD_some]
        show go canon n value before 0 (c :: (w ++ fill known ps)) = _
        rw [go, if_pos hfront, expand_inert (hinert ⟨_, List.mem_cons_self⟩), ← hlength,
          List.length_cons, Nat.add_sub_cancel, go_skip, hrest]
      · rw [go_block name value (fill known ps) before _ (hholes.1 hn), hrest, if_neg hn]

theorem replaceAll_fill {known : List Char → Option (List Char)} {name value : List Char}
    {ps : List Piece} (hname : name ≠ []) (hknown : known name = none) (hwritten : Written canon ps)
    (hholes : OnlyHoles canon known name ps)
    (hinert : (∃ written, .hole name written ∈ ps) → Inert value) :
    replaceAll canon name value (fill known ps) =
      fill (fun n => if n = name then some value else known n) ps :=
  go_fill hname hknown [] ps hwritten hholes hinert

/-! ## The holes of a text -/

section
variable {names : List (List Char)}

theorem length_le_of_front {source rest : List Char} (h : front canon source rest = true) :
    source.length ≤ rest.length := by
  have hle := (List.isPrefixOf_iff_prefix.mp h).length_le
  rwa [List.length_map, List.length_map] at hle

theorem map_take_of_front {source rest : List Char} (h : front canon source rest = true) :
    (rest.take source.length).map canon = source.map canon := by
  have hprefix := List.isPrefixOf_iff_prefix.mp h
  have hlength : (source.map canon).length = source.length := List.length_map canon
  rw [List.map_take, ← hlength]
  exact (List.prefix_iff_eq_take.mp hprefix).symm

theorem parseGo_skip (k : Nat) (s : List Char) :
    parseGo canon names k s = parseGo canon names 0 (s.drop k) := by
  induction s generalizing k with
  | nil =>
      rw [List.drop_nil]
      cases k <;> rfl
  | cons c s ih =>
      cases k with
      | zero => rfl
      | succ k => exact ih k

theorem parse_cons_none {c : Char} {s : List Char}
    (h : (names.find? fun name => front canon name (c :: s)) = none) :
    parse canon names (c :: s) = .char c :: parse canon names s := by
  rw [parse, parseGo, h]
  rfl

theorem parse_cons_some {name : List Char} {c : Char} {s : List Char} (hname : name ≠ [])
    (h : (names.find? fun name => front canon name (c :: s)) = some name) :
    parse canon names (c :: s) =
      .hole name ((c :: s).take name.length) :: parse canon names ((c :: s).drop name.length) := by
  obtain ⟨d, rest, rfl⟩ := List.exists_cons_of_ne_nil hname
  rw [parse, parseGo, h]
  show Piece.hole _ _ :: parseGo canon names (rest.length) s = _
  rw [parseGo_skip]
  rfl

/-- A property of the holes of a text, by where they begin. -/
theorem parse_induction (hnames : ∀ name ∈ names, name ≠ []) {P : List Char → List Piece → Prop}
    (hnil : P [] [])
    (hchar : ∀ c s, (∀ name ∈ names, front canon name (c :: s) = false) →
      P s (parse canon names s) → P (c :: s) (.char c :: parse canon names s))
    (hhole : ∀ name text, name ∈ names → front canon name text = true →
      (names.find? fun name => front canon name text) = some name →
      P (text.drop name.length) (parse canon names (text.drop name.length)) →
      P text (.hole name (text.take name.length) :: parse canon names (text.drop name.length)))
    (text : List Char) : P text (parse canon names text) := by
  induction hn : text.length using Nat.strong_induction_on generalizing text with
  | _ n ih =>
      subst hn
      cases text with
      | nil => exact hnil
      | cons c s =>
          cases h : names.find? fun name => front canon name (c :: s) with
          | none =>
              rw [parse_cons_none h]
              refine hchar c s (fun name hmem => ?_) (ih s.length (Nat.lt_succ_self _) s rfl)
              exact Bool.eq_false_iff.mpr (List.find?_eq_none.mp h name hmem)
          | some name =>
              have hmem := List.mem_of_find?_eq_some h
              have hfront : front canon name (c :: s) = true :=
                List.find?_some (p := fun name => front canon name (c :: s)) h
              have hpos := List.length_pos_of_ne_nil (hnames name hmem)
              rw [parse_cons_some (hnames name hmem) h]
              refine hhole name (c :: s) hmem hfront h (ih _ ?_ _ rfl)
              rw [List.length_drop, List.length_cons]
              omega

theorem fill_parse (hnames : ∀ name ∈ names, name ≠ []) (text : List Char) :
    fill (fun _ => none) (parse canon names text) = text := by
  refine parse_induction hnames (P := fun text ps => fill (fun _ => none) ps = text) rfl ?_ ?_ text
  · intro c s _ ih
    rw [fill, ih]
  · intro name text _ _ _ ih
    rw [fill, ih, Option.getD_none, List.take_append_drop]

theorem written_parse (hnames : ∀ name ∈ names, name ≠ []) (text : List Char) :
    Written canon (parse canon names text) := by
  refine parse_induction hnames (P := fun _ ps => Written canon ps) ?_ ?_ ?_ text
  · exact fun _ _ hmem => nomatch hmem
  · intro c s _ ih name written hmem
    rcases List.mem_cons.mp hmem with heq | hmem
    · exact nomatch heq
    · exact ih name written hmem
  · intro name text _ hfront _ ih name' written hmem
    rcases List.mem_cons.mp hmem with heq | hmem
    · cases heq
      exact map_take_of_front hfront
    · exact ih name' written hmem

theorem Separate.suffix {text rest : List Char} (h : Separate canon names text)
    (hrest : rest <:+ text) : Separate canon names rest :=
  fun rest' hrest' => h rest' (hrest'.trans hrest)

/-- The holes do not depend on the order of the names, where no two match at one place. -/
theorem parse_perm {names' : List (List Char)} (hperm : names'.Perm names)
    (hnames : ∀ name ∈ names, name ≠ []) (text : List Char) (hseparate : Separate canon names text) :
    parse canon names' text = parse canon names text := by
  refine parse_induction hnames (P := fun text ps => Separate canon names text →
    parse canon names' text = ps) (fun _ => rfl) ?_ ?_ text hseparate
  · intro c s hnone ih hseparate
    have hfind : (names'.find? fun name => front canon name (c :: s)) = none :=
      List.find?_eq_none.mpr fun name hmem =>
        Bool.eq_false_iff.mp (hnone name (hperm.mem_iff.mp hmem))
    rw [parse_cons_none hfind, ih (hseparate.suffix (List.suffix_cons c s))]
  · intro name text hmem hfront _ ih hseparate
    cases text with
    | nil =>
        have hle := length_le_of_front hfront
        exact absurd (List.length_eq_zero_iff.mp (Nat.le_zero.mp hle)) (hnames name hmem)
    | cons c s =>
        have hsome : (names'.find? fun name => front canon name (c :: s)).isSome = true :=
          List.find?_isSome.mpr ⟨name, hperm.mem_iff.mpr hmem, hfront⟩
        obtain ⟨name', hname'⟩ := Option.isSome_iff_exists.mp hsome
        have heq : name' = name := hseparate (c :: s) (List.suffix_refl _) name'
          (hperm.mem_iff.mp (List.mem_of_find?_eq_some hname')) name hmem
          (List.find?_some (p := fun name => front canon name (c :: s)) hname') hfront
        subst heq
        rw [parse_cons_some (hnames name' hmem) hname', ih (hseparate.suffix (List.drop_suffix _ _))]

end

end Template
