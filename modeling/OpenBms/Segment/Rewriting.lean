/-
# `OpenBms.Segment.Rewriting` — replacing the conditions of a segment query

A map of the atomic conditions acts on a text, on what is read from it, and on
a whole generator through its `switch`.  Nothing else of a query depends on the
conditions, so the map commutes with every stage, and a map to equivalent
conditions selects the same contacts.

**Proved here.**

    reading a text commutes with a map of its conditions (`parse_map`)
    equivalent conditions select the same contacts (`selects_map`)
    switches that differ by a map generate texts that do (`generateWith_map`)
-/
import OpenBms.Segment.Externals

namespace OpenBms.Segment

open Js

/-! ## Replacing conditions in a text -/

def Tok.mapPred (f : Pred → Pred) : Tok → Tok
  | .pred p => .pred (f p)
  | t => t

def ContactsSelect.mapPred (f : Pred → Pred) (s : ContactsSelect) : ContactsSelect :=
  { s with whereToks := s.whereToks.map (Infix.Tok.map f) }

def Source.mapPred (f : Pred → Pred) : Source → Source
  | .contacts s => .contacts (s.mapPred f)
  | .tags t a ids => .tags t a ids

def Lex.mapPred (f : Pred → Pred) (l : Lex) : Lex :=
  { l with
    toks := l.toks.map (Infix.Tok.map (Source.mapPred f))
    cur := l.cur.map fun c => (c.1.mapPred f, c.2) }

def Query.mapPred (f : Pred → Pred) (q : Query) : Query :=
  { q with expr := q.expr.map (Source.mapPred f) }

section
variable (f : Pred → Pred)

theorem push_map (s : ContactsSelect) (t : CondTok) :
    (s.mapPred f).push (t.map f) = (s.push t).mapPred f := by
  simp [ContactsSelect.push, ContactsSelect.mapPred]

theorem selectStep_map (s : ContactsSelect) (d : Nat) (t : Tok) :
    selectStep (s.mapPred f) d (t.mapPred f)
      = (selectStep s d t).map fun c => (c.1.mapPred f, c.2) := by
  have hpush := push_map f s
  cases t with
  | pred p => exact congrArg (fun s => some (s, d)) (hpush (.leaf p))
  | AND => exact congrArg (fun s => some (s, d)) (hpush (.hi ()))
  | OR => exact congrArg (fun s => some (s, d)) (hpush (.lo ()))
  | conn c =>
      cases c with
      | and => exact congrArg (fun s => some (s, d)) (hpush (.hi ()))
      | or => exact congrArg (fun s => some (s, d)) (hpush (.lo ()))
  | lpar => exact congrArg (fun s => some (s, d + 1)) (hpush .lpar)
  | rpar =>
      cases d with
      | zero => rfl
      | succ d => exact congrArg (fun s => some (s, d)) (hpush .rpar)
  | _ => rfl

theorem baseStep_map (l : Lex) (t : Tok) :
    baseStep (l.mapPred f) (t.mapPred f) = (baseStep l t).map (Lex.mapPred f) := by
  cases t with
  | dropTable t =>
      have hfin : (l.mapPred f).finished = l.finished := rfl
      simp only [Tok.mapPred, baseStep, hfin]
      cases l.finished <;> rfl
  | lpar | rpar | union | except | intersect | selectTags =>
      simp [baseStep, Lex.mapPred, Tok.mapPred, Infix.Tok.map, Source.mapPred]
  | _ => rfl

theorem lexStep_map (l : Lex) (t : Tok) :
    lexStep (l.mapPred f) (t.mapPred f) = (lexStep l t).map (Lex.mapPred f) := by
  obtain ⟨toks, cur, limit, finished, drops⟩ := l
  cases cur with
  | none => exact baseStep_map f ⟨toks, none, limit, finished, drops⟩ t
  | some c =>
      obtain ⟨s, d⟩ := c
      simp only [lexStep, Lex.mapPred, Option.map_some, selectStep_map]
      cases selectStep s d t with
      | some c => rfl
      | none =>
          cases d with
          | succ d => rfl
          | zero =>
              have h := baseStep_map f ⟨toks ++ [.leaf (.contacts s)], none, limit, finished, drops⟩ t
              simp only [Option.map_none]
              rw [← h]
              simp [Lex.mapPred, Infix.Tok.map, Source.mapPred]

theorem lex_map (l : Lex) (ts : List Tok) :
    lex (l.mapPred f) (ts.map (Tok.mapPred f)) = (lex l ts).map (Lex.mapPred f) := by
  induction ts generalizing l with
  | nil => rfl
  | cons t ts ih =>
      simp only [List.map_cons, lex, lexStep_map]
      cases lexStep l t with
      | none => rfl
      | some l' => exact ih l'

theorem isSqlTok_map (t : SetTok) : isSqlTok (t.map (Source.mapPred f)) = isSqlTok t := by
  cases t with
  | leaf s =>
      cases s with
      | contacts s =>
          simp only [Infix.Tok.map, isSqlTok, Source.mapPred, Source.isSql, ContactsSelect.mapPred,
            Infix.read_map, Option.isSome_map]
      | tags => rfl
  | _ => rfl

/-- Reading a text commutes with a map of its conditions. -/
theorem parse_map (ts : List Tok) :
    parse (ts.map (Tok.mapPred f)) = (parse ts).map (Query.mapPred f) := by
  have hlex : lex {} (ts.map (Tok.mapPred f)) = (lex {} ts).map (Lex.mapPred f) := lex_map f {} ts
  unfold parse
  rw [hlex]
  cases lex {} ts with
  | none => rfl
  | some l =>
      have hall : (l.mapPred f).toks.all isSqlTok = l.toks.all isSqlTok := by
        simp only [Lex.mapPred, List.all_map, Function.comp_def, isSqlTok_map]
      have hread : Infix.read (l.mapPred f).toks
          = (Infix.read l.toks).map (Infix.Expr.map (Source.mapPred f)) :=
        Infix.read_map _ l.toks
      simp only [Option.map_some, hall, hread]
      cases l.toks.all isSqlTok with
      | false => rfl
      | true =>
          simp only [if_true]
          cases Infix.read l.toks <;> rfl

/-! ## Equivalent conditions -/

section
variable {f} {db : Db}

theorem holds_map (hf : ∀ ct ctd p, db.pred ct ctd (f p) = db.pred ct ctd p) {ct : Contact}
    {ctd : Option Device} {φ : Cond} : db.Holds ct ctd (φ.map f) ↔ db.Holds ct ctd φ := by
  unfold Db.Holds Db.cond
  rw [Infix.eval_map_leaf]
  simp only [hf]

theorem selectContacts_map (hf : ∀ ct ctd p, db.pred ct ctd (f p) = db.pred ct ctd p)
    (s : ContactsSelect) : db.selectContacts (s.mapPred f) = db.selectContacts s := by
  unfold Db.selectContacts
  have hread : Infix.read (s.mapPred f).whereToks
      = (Infix.read s.whereToks).map (Infix.Expr.map f) := Infix.read_map f s.whereToks
  have hjoin : (s.mapPred f).join = s.join := rfl
  rw [hread, hjoin]
  cases Infix.read s.whereToks with
  | none => rfl
  | some φ => simp only [Option.map_some, holds_map hf]

theorem rows_map (hf : ∀ ct ctd p, db.pred ct ctd (f p) = db.pred ct ctd p) (e : SetExpr) :
    db.rows (e.map (Source.mapPred f)) = db.rows e := by
  unfold Db.rows
  rw [Infix.eval_map_leaf]
  congr 1
  funext s
  cases s with
  | contacts s => exact congrArg (List.map (·.id)) (selectContacts_map hf s)
  | tags => rfl

/-- The rows a text can select in a database. -/
def Db.Runs (db : Db) (ts : List Tok) (rows : List Int) : Prop :=
  ∃ q, parse ts = some q ∧ db.Selects q rows

/-- Equivalent conditions select the same contacts. -/
theorem selects_map (hf : ∀ ct ctd p, db.pred ct ctd (f p) = db.pred ct ctd p) (ts : List Tok)
    (rows : List Int) : db.Runs (ts.map (Tok.mapPred f)) rows ↔ db.Runs ts rows := by
  have hquery : ∀ q : Query, db.Selects (q.mapPred f) rows ↔ db.Selects q rows := by
    intro q
    have hrows : db.rows (q.mapPred f).expr = db.rows q.expr := rows_map hf q.expr
    have hlimit : (q.mapPred f).limit = q.limit := rfl
    unfold Db.Selects
    rw [hrows, hlimit]
  unfold Db.Runs
  rw [parse_map]
  cases parse ts with
  | none => simp
  | some q => simp [hquery]

end

end

/-! ## Two generators whose switches differ by a map of conditions -/

def StepOut.mapPred (f : Pred → Pred) (o : StepOut) : StepOut :=
  { o with toks := o.toks.map (Tok.mapPred f) }

def Item.mapPred (f : Pred → Pred) (i : Item) : Item := { i with out := i.out.mapPred f }

def CardOut.mapPred (f : Pred → Pred) (c : CardOut) : CardOut :=
  { c with items := c.items.map (Item.mapPred f) }

def GenerateResult.mapPred (f : Pred → Pred) (r : GenerateResult) : GenerateResult :=
  { r with query := r.query.map (Tok.mapPred f) }

section
variable {f : Pred → Pred} {sw sw' : Switch} {tag : TagLike}

theorem items_map {ss : List Step}
    (h : ∀ s ∈ ss, tagOf s = none → ∀ n, sw' n s.body = (sw n s.body).map (StepOut.mapPred f)) :
    ∀ n, items sw' n ss = (items sw n ss).map (List.map (Item.mapPred f)) := by
  induction ss with
  | nil => exact fun _ => rfl
  | cons s ss ih =>
      have ih := ih fun t ht => h t (List.mem_cons_of_mem _ ht)
      intro n
      cases hs : tagOf s with
      | some t => rw [items_tag hs, items_tag hs, ih]
      | none =>
          rw [items_item hs, items_item hs, h s List.mem_cons_self hs n]
          cases sw n s.body with
          | error e => rfl
          | ok o =>
              have hbump : (s.item (o.mapPred f)).bump = (s.item o).bump := rfl
              simp only [Except.map, Except.bind, hbump, ih]
              cases items sw (n + (s.item o).bump) ss with
              | error e => rfl
              | ok is => rfl

theorem bumps_map (is : List Item) : bumps (is.map (Item.mapPred f)) = bumps is := by
  rw [bumps, List.map_map]
  rfl

theorem cardOuts_map {cards : List (List Step)}
    (h : ∀ steps ∈ cards, ∀ s ∈ steps, tagOf s = none →
      ∀ n, sw' n s.body = (sw n s.body).map (StepOut.mapPred f)) :
    ∀ n, cardOuts sw' n cards = (cardOuts sw n cards).map (List.map (CardOut.mapPred f)) := by
  induction cards with
  | nil => exact fun _ => rfl
  | cons steps cards ih =>
      have ih := ih fun ss hss => h ss (List.mem_cons_of_mem _ hss)
      intro n
      simp only [cardOuts, items_map (h steps List.mem_cons_self)]
      cases items sw n steps with
      | error e => rfl
      | ok is =>
          simp only [Except.map, bumps_map, ih]
          cases cardOuts sw (n + bumps is) cards with
          | error e => rfl
          | ok cs => rfl

theorem groupToks_map (is : List Item) : ∀ st,
    groupToks st (is.map (Item.mapPred f)) = (groupToks st is).map (Tok.mapPred f) := by
  induction is with
  | nil => exact fun _ => rfl
  | cons i is ih =>
      intro st
      have hlead : (i.lead st).map (Tok.mapPred f) = i.lead st := by
        unfold Item.lead leadToks connToks
        cases i.conditional <;> split <;> rfl
      have hstatus : finalStatus st [i.mapPred f] = finalStatus st [i] := rfl
      have hlead' : (i.mapPred f).lead st = i.lead st := rfl
      rw [List.map_cons, groupToks_cons, groupToks_cons, hstatus, hlead', ih, List.map_append,
        List.map_append, hlead]
      rfl

theorem finalStatus_map (st : Nat) (is : List Item) :
    finalStatus st (is.map (Item.mapPred f)) = finalStatus st is := by
  unfold finalStatus
  rw [List.any_map]
  rfl

/-- The map leaves the conditions the loop itself writes alone. -/
structure KeepsGuard (f : Pred → Pred) : Prop where
  account : ∀ n, f (.account n) = .account n
  active : f .active = .active

theorem card_toks_map (hf : KeepsGuard f) (c : CardOut) :
    (c.mapPred f).toks tag = (c.toks tag).map (Tok.mapPred f) := by
  have hjoin : (c.mapPred f).join = c.join := by
    simp only [CardOut.join, CardOut.mapPred, List.any_map]
    rfl
  have hword : c.word.map (Tok.mapPred f) = c.word := by
    unfold CardOut.word cardWord
    split
    · split <;> rfl
    · rfl
  have hjoinToks : (joinToks c.join).map (Tok.mapPred f) = joinToks c.join := by
    unfold joinToks
    split <;> rfl
  have hhead : (c.mapPred f).head tag = (c.head tag).map (Tok.mapPred f) := by
    have hword' : (c.mapPred f).word = c.word := rfl
    simp only [CardOut.head, hjoin, hword', List.map_append, hword, hjoinToks, List.map_cons,
      List.map_nil, Tok.mapPred, hf.account, hf.active]
  have hgroup : (c.mapPred f).group = c.group.map (Tok.mapPred f) := by
    have hitems : (c.mapPred f).items = c.items.map (Item.mapPred f) := rfl
    have hclose : (if finalStatus 1 c.items = 2 then [Tok.rpar] else []).map (Tok.mapPred f)
        = if finalStatus 1 c.items = 2 then [Tok.rpar] else [] := by
      split <;> rfl
    rw [CardOut.group, CardOut.group, hitems, groupToks_map, finalStatus_map, List.map_append,
      hclose]
  have htags : (c.tags.flatMap (tagToks tag)).map (Tok.mapPred f) = c.tags.flatMap (tagToks tag) := by
    rw [List.map_flatMap]
    refine List.flatMap_congr fun t _ => ?_
    unfold tagToks
    split <;> rfl
  have hsteps : (c.mapPred f).steps = c.steps := rfl
  have htags' : (c.mapPred f).tags = c.tags := rfl
  rw [CardOut.toks, CardOut.toks, hsteps, hhead, hgroup, htags']
  by_cases hs : c.steps = []
  · rw [if_pos hs, if_pos hs]
    rfl
  · rw [if_neg hs, if_neg hs, List.map_append, List.map_append, List.map_append, htags]
    rfl

theorem assemble_map (hf : KeepsGuard f) (dto : SegmentDtoLike) (cs : List CardOut) :
    assemble tag dto (cs.map (CardOut.mapPred f)) = (assemble tag dto cs).mapPred f := by
  have hcards : (cs.map (CardOut.mapPred f)).flatMap (CardOut.toks tag)
      = (cs.flatMap (CardOut.toks tag)).map (Tok.mapPred f) := by
    rw [List.flatMap_map, List.map_flatMap]
    exact List.flatMap_congr fun c _ => card_toks_map hf c
  have hlimit : (limitToks dto.contactsLimit).map (Tok.mapPred f) = limitToks dto.contactsLimit := by
    unfold limitToks
    split <;> rfl
  have hdrops : (cs.map (CardOut.mapPred f)).flatMap CardOut.drops = cs.flatMap CardOut.drops := by
    rw [List.flatMap_map]
    refine List.flatMap_congr fun c _ => ?_
    simp only [CardOut.drops, CardOut.mapPred, List.flatMap_map]
    rfl
  have hdropToks : ∀ ts : List String,
      (ts.map Tok.dropTable).map (Tok.mapPred f) = ts.map .dropTable := by
    intro ts
    rw [List.map_map]
    rfl
  have hexternals : (cs.map (CardOut.mapPred f)).flatMap CardOut.externals
      = cs.flatMap CardOut.externals := by
    rw [List.flatMap_map]
    refine List.flatMap_congr fun c _ => ?_
    simp only [CardOut.externals, CardOut.mapPred, List.flatMap_map]
    rfl
  simp only [assemble, GenerateResult.mapPred, hcards, hdrops, hexternals, List.map_append, hlimit,
    hdropToks, List.map_cons, List.map_nil, Tok.mapPred]

/-- The second generator's text is the first's with the conditions replaced. -/
theorem generateWith_map (hsw : NoPlaceholder sw) (hsw' : NoPlaceholder sw') (hf : KeepsGuard f)
    {dto : SegmentDtoLike} (h : ∀ steps ∈ dto.steps, ∀ s ∈ steps, tagOf s = none →
      ∀ n, sw' n s.body = (sw n s.body).map (StepOut.mapPred f)) :
    generateWith sw' tag dto = (generateWith sw tag dto).map (GenerateResult.mapPred f) := by
  rw [generateWith_eq hsw, generateWith_eq hsw', cardOuts_map h]
  cases cardOuts sw 0 dto.steps with
  | error e => rfl
  | ok cs => exact congrArg Except.ok (assemble_map hf dto cs)

end

end OpenBms.Segment
