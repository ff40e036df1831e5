/-
# `OpenBms.Packer.Recipients` — who a campaign's query selects

`createContactsSend` reads the column `contact_id` of the campaign's query and keeps
the active contacts of the account.  The audience means its cards from left to right,
a row the contacts that have one of its tags, or none of them.

| in a row | the text asks for | the row means |
| :-- | :-- | :-- |
| `in` | a tag of the list | a tag of the list |
| `not in` | a tag outside the list | no tag of the list |

A contact with no tag and a contact with a tag inside and a tag outside tell the two
columns apart; whether an arrangement of cards does depends on which of its rows.

**Proved here.**

    whom the query of an arrangement selects (`mem_rows_cards`)
    two readings of the rows agree on every set of tags
      when they do on the named tags and one more (`agrees_iff`)
    the query is accepted and selects the audience on every database
      exactly when each list has a tag and the arrangement
      does not tell the readings apart; for a send to all,
      on the push channels only (`audience_iff`)
-/
import OpenBms.Packer.Audience

namespace OpenBms.Audience

open Segment (SetLo Db setLoRows)

/-! ## What a query selects -/

/-- The name of the column a `SELECT` returns. -/
def Select.column : Select → String
  | .contactsTags _ _ _ | .contactsDevices _ _ => "contact_id"
  | .contacts _ _ => "id"
  | .undefined => "undefined"

/-- PostgreSQL takes an `IN` with a list only. -/
def Select.isSql : Select → Bool
  | .contactsTags _ word ids => word.isSome && ids.any (· ≠ [])
  | .contactsDevices _ _ | .contacts _ _ => true
  | .undefined => false

def TagWord.test (w : TagWord) (ids : List Int) (t : Int) : Bool :=
  match w with
  | .in_ => decide (t ∈ ids)
  | .notIn => !decide (t ∈ ids)

def Select.rows (db : Db) : Select → List Int
  | .contactsTags accountId word ids =>
      (db.contactsTags.filter fun r => r.accountId == accountId && r.isActive &&
        (word.getD .in_).test (ids.getD []) r.tagId).map (·.contactId)
  | .contactsDevices accountId type =>
      (db.contactsDevices.filter fun d => d.column "type" == .text type &&
        db.contacts.any fun c => c.id == d.contactId && c.accountId == d.accountId &&
          c.accountId == accountId).map (·.contactId)
  | .contacts accountId flag =>
      (db.contacts.filter fun c => c.accountId == accountId && c.column flag == .bool true).map (·.id)
  | .undefined => []

def isSqlTok : Tok → Bool
  | .leaf s => s.isSql
  | _ => true

/-- The statement a text is; `none` where PostgreSQL reports an error. -/
def parse (ts : List Tok) : Option Expr :=
  if ts.all isSqlTok then Infix.read ts else none

/-- A set operation names its columns after its left operand. -/
def column : Expr → String
  | .leaf s => s.column
  | .lo _ l _ => column l
  | .hi o _ _ => o.elim

def rows (db : Db) (e : Expr) : List Int :=
  e.eval (Select.rows db) setLoRows (fun o => o.elim)

/-- The contacts recorded for a campaign; `none` where the `INSERT` fails, as it does when the
query has no column `contact_id`. -/
def createContactsSend (db : Db) (accountId : Int) (query : List Tok) : Option (List Int) :=
  (parse query).bind fun e =>
    if column e = "contact_id" then
      some ((rows db e).filter fun i => db.contacts.any fun c =>
        c.id == i && c.accountId == accountId && c.isActive)
    else none

/-! ## What an audience means -/

/-- The tags of a contact. -/
def tagsOf (db : Db) (accountId i : Int) : List Int :=
  (db.contactsTags.filter fun r =>
    r.accountId == accountId && r.isActive && r.contactId == i).map (·.tagId)

def SetLo.holds (o : SetLo) (a b : Bool) : Bool :=
  match o with
  | .union => a || b
  | .except => a && !b

/-- Operands taken from left to right. -/
def chain {α : Type} (p : α → Bool) (first : α) (rest : List (SetLo × α)) : Bool :=
  rest.foldl (fun acc x => SetLo.holds x.1 acc (p x.2)) (p first)

def Card.holds (p : Row → Bool) (c : Card) : Bool := chain p c.first c.rest

def Cards.holds (p : Row → Bool) (a : Cards) : Bool := chain (Card.holds p) a.head a.tail

/-- What a row means for a contact with these tags. -/
def Row.means (tags : List Int) (r : Row) : Bool :=
  match r.word with
  | .in_ => tags.any fun t => decide (t ∈ r.tags)
  | .notIn => !tags.any fun t => decide (t ∈ r.tags)

/-- What its text asks for. -/
def Row.asks (tags : List Int) (r : Row) : Bool := tags.any fun t => r.word.test r.tags t

/-- What the form stores. -/
inductive Choice where
  | cards (messageType : Channel) (a : Cards)
  /-- `sendToAll`; a campaign by email has no such switch. -/
  | all (messageType : Channel) (offered : messageType ≠ .email)

def Choice.campaign : Choice → CampaignDto
  | .cards messageType a => ⟨false, messageType, a.steps⟩
  | .all messageType _ => ⟨true, messageType, []⟩

def Choice.query (accountId : Int) (a : Choice) : List Tok :=
  generateCampaignQuery accountId a.campaign

/-- The query is accepted, and selects of the account's contacts those the cards mean. -/
structure Meets (db : Db) (accountId : Int) (a : Choice) : Prop where
  accepted : (createContactsSend db accountId (a.query accountId)).isSome = true
  selects : ∀ messageType cards, a = .cards messageType cards →
    ∃ e, parse (a.query accountId) = some e ∧
      ∀ c ∈ db.contacts, c.accountId = accountId →
        (c.id ∈ rows db e ↔ cards.holds (Row.means (tagsOf db accountId c.id)) = true)

/-! ## When it is met -/

def Card.allRows (c : Card) : List Row := c.first :: c.rest.map Prod.snd

def Cards.allRows (a : Cards) : List Row :=
  a.head.allRows ++ a.tail.flatMap fun p => p.2.allRows

/-- The tags an arrangement names. -/
def Cards.named (a : Cards) : List Int := a.allRows.flatMap (·.tags)

/-- What a row's text asks for of a contact with the named tags `tags`, and another tag or not. -/
def Row.asksAlso (other : Bool) (tags : List Int) (r : Row) : Bool :=
  match r.word with
  | .in_ => r.asks tags
  | .notIn => other || r.asks tags

/-- Asking for a tag outside the list in each `not in` row comes to the same as asking for none
of the list, for all tags an arrangement names and one it does not. -/
def Cards.Agrees (a : Cards) : Prop :=
  ∀ tags ∈ a.named.sublists, ∀ other,
    a.holds (Row.asksAlso other tags) = a.holds (Row.means tags)

instance (a : Cards) : Decidable a.Agrees := by
  unfold Cards.Agrees
  infer_instance

def Choice.Sound : Choice → Prop
  | .cards _ a => (∀ r ∈ a.allRows, r.tags ≠ []) ∧ a.Agrees
  | .all messageType _ => messageType = .webPush ∨ messageType = .mobilePush

/-! ## Folds -/

section Folds

variable {α : Type} {p q : α → Bool}

theorem chain_congr {first : α} {rest : List (SetLo × α)} (hfirst : p first = q first)
    (hrest : ∀ x ∈ rest, p x.2 = q x.2) : chain p first rest = chain q first rest := by
  unfold chain
  rw [hfirst]
  generalize q first = acc
  induction rest generalizing acc with
  | nil => rfl
  | cons x rest ih =>
      rw [List.foldl_cons, List.foldl_cons, hrest x List.mem_cons_self]
      exact ih (fun y hy => hrest y (List.mem_cons_of_mem _ hy)) _

theorem Card.holds_congr {p q : Row → Bool} {c : Card} (h : ∀ r ∈ c.allRows, p r = q r) :
    c.holds p = c.holds q :=
  chain_congr (h c.first List.mem_cons_self) fun x hx =>
    h x.2 (List.mem_cons_of_mem _ (List.mem_map_of_mem hx))

theorem Cards.holds_congr {p q : Row → Bool} {a : Cards} (h : ∀ r ∈ a.allRows, p r = q r) :
    a.holds p = a.holds q := by
  refine chain_congr (Card.holds_congr fun r hr => h r (List.mem_append_left _ hr)) fun x hx => ?_
  refine Card.holds_congr fun r hr => h r (List.mem_append_right _ ?_)
  exact List.mem_flatMap.mpr ⟨x, hx, hr⟩

theorem foldChain_loose {β lo hi : Type} (flo : lo → β → β → β) (fhi : hi → β → β → β) (g : α → β)
    (v : β) (rest : List (lo × α)) :
    Infix.foldChain flo fhi none v (rest.map fun x => (.inl x.1, g x.2)) =
      rest.foldl (fun acc x => flo x.1 acc (g x.2)) v := by
  have hloose : ∀ o ∈ (rest.map fun x => ((.inl x.1, g x.2) : (lo ⊕ hi) × β)).map Prod.fst,
      o.isLeft = true := by
    intro o ho
    simp only [List.map_map, List.mem_map] at ho
    obtain ⟨x, -, rfl⟩ := ho
    rfl
  have htight : Infix.TightFirst
      ((rest.map fun x => ((.inl x.1, g x.2) : (lo ⊕ hi) × β)).map Prod.fst) := by
    cases rest with
    | nil => trivial
    | cons x rest => exact fun o ho => hloose o (List.mem_cons_of_mem _ ho)
  rw [Infix.foldChain_eq_leftToRight flo fhi _ v htight]
  clear hloose htight
  induction rest generalizing v with
  | nil => rfl
  | cons x rest ih => exact ih _

end Folds

/-! ## Whom the query selects -/

section Selected

variable {db : Db} {accountId i : Int}

theorem mem_setLoRows (o : SetLo) (a b : List Int) :
    decide (i ∈ setLoRows o a b) = SetLo.holds o (decide (i ∈ a)) (decide (i ∈ b)) := by
  cases o <;> simp [setLoRows, SetLo.holds]

theorem mem_rows (e : Expr) : decide (i ∈ rows db e) =
    e.eval (fun s => decide (i ∈ s.rows db)) SetLo.holds (fun o => o.elim) :=
  Infix.eval_map (fun l => decide (i ∈ l)) mem_setLoRows (fun o => o.elim) e

theorem mem_rows_row (r : Row) : decide (i ∈ (r.select accountId).rows db) =
    r.asks (tagsOf db accountId i) := by
  rw [Bool.eq_iff_iff, decide_eq_true_eq]
  simp only [Row.select, Select.rows, Row.asks, tagsOf, List.mem_map, List.mem_filter,
    Bool.and_eq_true, beq_iff_eq, Option.getD_some, List.any_eq_true]
  constructor
  · rintro ⟨x, ⟨hx, ⟨hacc, hact⟩, htest⟩, hi⟩
    exact ⟨x.tagId, ⟨x, ⟨hx, ⟨hacc, hact⟩, hi⟩, rfl⟩, htest⟩
  · rintro ⟨t, ⟨x, ⟨hx, ⟨hacc, hact⟩, hi⟩, rfl⟩, htest⟩
    exact ⟨x, ⟨hx, ⟨hacc, hact⟩, htest⟩, hi⟩

theorem mem_rows_card (c : Card) :
    (c.expr accountId).eval (fun s => decide (i ∈ s.rows db)) SetLo.holds (fun o => o.elim) =
      c.holds (Row.asks (tagsOf db accountId i)) := by
  rw [Card.expr, Infix.eval_foldChain, List.map_map, Option.map_none]
  have hfold := foldChain_loose SetLo.holds (fun o : Empty => o.elim)
    (fun r : Row => Row.asks (tagsOf db accountId i) r) (Row.asks (tagsOf db accountId i) c.first)
    c.rest
  rw [Card.holds, chain, ← hfold]
  simp only [Infix.Expr.eval, mem_rows_row, Function.comp_def]

/-- The query of an arrangement selects the contacts for whose tags its rows combine to true,
each read as its text asks. -/
theorem mem_rows_cards (a : Cards) :
    i ∈ rows db (a.expr accountId) ↔ a.holds (Row.asks (tagsOf db accountId i)) = true := by
  have hfold := foldChain_loose SetLo.holds (fun o : Empty => o.elim)
    (Card.holds (Row.asks (tagsOf db accountId i)))
    (Card.holds (Row.asks (tagsOf db accountId i)) a.head) a.tail
  have hmem : decide (i ∈ rows db (a.expr accountId)) =
      a.holds (Row.asks (tagsOf db accountId i)) := by
    rw [mem_rows, Cards.expr, Infix.eval_foldChain, List.map_map, Option.map_none, Cards.holds,
      chain, ← hfold]
    simp only [mem_rows_card, Function.comp_def]
  rw [← hmem, decide_eq_true_eq]

end Selected

/-! ## When the query is accepted -/

section Accepted

variable {accountId : Int}

theorem all_row (accountId : Int) (r : Row) : (r.toks accountId).all isSqlTok = decide (r.tags ≠ []) := by
  simp [Row.toks, isSqlTok, Row.select, Select.isSql]

theorem all_card (accountId : Int) (c : Card) :
    (c.toks accountId).all isSqlTok = c.allRows.all fun r => decide (r.tags ≠ []) := by
  have hlinks : ∀ ps : List (SetLo × Row), (Infix.linkToks (ps.map (rowLink accountId))).all isSqlTok =
      (ps.map Prod.snd).all fun r => decide (r.tags ≠ []) := by
    intro ps
    induction ps with
    | nil => rfl
    | cons p ps ih =>
        rw [Infix.linkToks] at ih ⊢
        rw [List.map_cons, List.flatMap_cons, List.all_append, ih, List.map_cons, List.all_cons]
        exact congrArg (fun b => b && _) (all_row accountId p.2)
  simp only [Card.toks, Card.allRows, List.all_cons, List.all_append, hlinks, all_row]
  simp [isSqlTok]

theorem all_cards (a : Cards) : (cardsText accountId a.steps).all isSqlTok =
    a.allRows.all fun r => decide (r.tags ≠ []) := by
  have hlinks : ∀ ps : List (SetLo × Card),
      (Infix.linkToks (ps.map (cardLink accountId))).all isSqlTok =
        (ps.flatMap fun p => p.2.allRows).all fun r => decide (r.tags ≠ []) := by
    intro ps
    induction ps with
    | nil => rfl
    | cons p ps ih =>
        rw [Infix.linkToks] at ih ⊢
        rw [List.map_cons, List.flatMap_cons, List.all_append, ih, List.flatMap_cons,
          List.all_append, ← all_card accountId]
        rfl
  rw [cardsText_steps]
  simp only [Cards.allRows, List.all_cons, List.all_append, hlinks, all_card]
  simp [isSqlTok]

theorem parse_cards (a : Cards) : parse (cardsText accountId a.steps) =
    if ∀ r ∈ a.allRows, r.tags ≠ [] then some (a.expr accountId) else none := by
  rw [parse, all_cards, read_cards]
  simp only [List.all_eq_true, decide_eq_true_eq]

theorem column_foldChain {α : Type} (g : α → Expr) (e : Expr) (rest : List (SetLo × α)) :
    column (Infix.foldChain .lo .hi none e (rest.map fun x => (.inl x.1, g x.2))) = column e := by
  rw [foldChain_loose]
  induction rest generalizing e with
  | nil => rfl
  | cons x rest ih => exact ih _

theorem column_cards (a : Cards) : column (a.expr accountId) = "contact_id" := by
  have hcard : column (a.head.expr accountId) = "contact_id" :=
    column_foldChain (fun r : Row => .leaf (r.select accountId)) _ _
  exact (column_foldChain (fun c : Card => c.expr accountId) _ _).trans hcard

end Accepted

/-! ## Telling the readings apart -/

theorem subset_named {a : Cards} {r : Row} (hr : r ∈ a.allRows) {t : Int} (ht : t ∈ r.tags) :
    t ∈ a.named := List.mem_flatMap.mpr ⟨r, hr, ht⟩

theorem agrees_iff (a : Cards) :
    a.Agrees ↔ ∀ tags, a.holds (Row.asks tags) = a.holds (Row.means tags) := by
  constructor
  · intro h tags
    -- the named ones among the tags, and whether there are others
    have hkey := h (a.named.filter fun t => decide (t ∈ tags))
      (List.mem_sublists.mpr List.filter_sublist) (tags.any fun t => decide (t ∉ a.named))
    have hasks : a.holds (Row.asks tags) = a.holds (Row.asksAlso
        (tags.any fun t => decide (t ∉ a.named)) (a.named.filter fun t => decide (t ∈ tags))) := by
      refine Cards.holds_congr fun r hr => ?_
      cases hw : r.word with
      | in_ =>
          simp only [Row.asks, Row.asksAlso, hw, TagWord.test]
          rw [Bool.eq_iff_iff]
          simp only [List.any_eq_true, decide_eq_true_eq, List.mem_filter]
          constructor
          · rintro ⟨t, ht, hr'⟩
            exact ⟨t, ⟨subset_named hr hr', ht⟩, hr'⟩
          · rintro ⟨t, ⟨-, ht⟩, hr'⟩
            exact ⟨t, ht, hr'⟩
      | notIn =>
          simp only [Row.asks, Row.asksAlso, hw, TagWord.test]
          rw [Bool.eq_iff_iff]
          simp only [List.any_eq_true, decide_eq_true_eq, List.mem_filter, Bool.or_eq_true,
            Bool.not_eq_true', decide_eq_false_iff_not]
          constructor
          · rintro ⟨t, ht, hr'⟩
            by_cases hn : t ∈ a.named
            · exact .inr ⟨t, ⟨hn, ht⟩, hr'⟩
            · exact .inl ⟨t, ht, hn⟩
          · rintro (⟨t, ht, hn⟩ | ⟨t, ⟨-, ht⟩, hr'⟩)
            · exact ⟨t, ht, fun hr' => hn (subset_named hr hr')⟩
            · exact ⟨t, ht, hr'⟩
    have hmeans : a.holds (Row.means tags) =
        a.holds (Row.means (a.named.filter fun t => decide (t ∈ tags))) := by
      refine Cards.holds_congr fun r hr => ?_
      have hany : (tags.any fun t => decide (t ∈ r.tags)) =
          (a.named.filter fun t => decide (t ∈ tags)).any fun t => decide (t ∈ r.tags) := by
        rw [Bool.eq_iff_iff]
        simp only [List.any_eq_true, decide_eq_true_eq, List.mem_filter]
        constructor
        · rintro ⟨t, ht, hr'⟩
          exact ⟨t, ⟨subset_named hr hr', ht⟩, hr'⟩
        · rintro ⟨t, ⟨-, ht⟩, hr'⟩
          exact ⟨t, ht, hr'⟩
      simp only [Row.means, hany]
    rw [hasks, hkey, hmeans]
  · intro h tags htags other
    obtain ⟨fresh, hfresh⟩ := Infinite.exists_notMem_finset a.named.toFinset
    rw [List.mem_toFinset] at hfresh
    have hnone : ∀ r ∈ a.allRows, fresh ∉ r.tags := fun r hr hmem => hfresh (subset_named hr hmem)
    have hkey := h (tags ++ if other then [fresh] else [])
    have hasks : a.holds (Row.asks (tags ++ if other then [fresh] else [])) =
        a.holds (Row.asksAlso other tags) := by
      refine Cards.holds_congr fun r hr => ?_
      cases hw : r.word <;> cases other <;>
        simp [Row.asks, Row.asksAlso, hw, TagWord.test, hnone r hr]
    have hmeans : a.holds (Row.means (tags ++ if other then [fresh] else [])) =
        a.holds (Row.means tags) := by
      refine Cards.holds_congr fun r hr => ?_
      cases other <;> simp [Row.means, hnone r hr]
    rw [← hasks, hkey, hmeans]

/-! ## The audience a campaign reaches -/

theorem pkey_single (accountId : Int) :
    [(⟨1, accountId, true, fun _ => .null⟩ : Segment.Contact)].Pairwise
      fun a b => ¬ (a.accountId = b.accountId ∧ a.id = b.id) :=
  List.pairwise_singleton _ _

/-- One active contact with the given tags. -/
def oneContact (accountId : Int) (tags : List Int) : Db where
  contacts := [⟨1, accountId, true, fun _ => .null⟩]
  contactsPkey := pkey_single accountId
  contactsTags := tags.map fun t => ⟨1, t, accountId, true⟩

theorem tagsOf_oneContact (accountId : Int) (tags : List Int) :
    tagsOf (oneContact accountId tags) accountId 1 = tags := by
  have hall : ∀ r ∈ (oneContact accountId tags).contactsTags,
      (r.accountId == accountId && r.isActive && r.contactId == 1) = true := by
    intro r hr
    obtain ⟨t, -, rfl⟩ := List.mem_map.mp hr
    simp
  rw [tagsOf, List.filter_eq_self.mpr hall, oneContact, List.map_map]
  exact List.map_id tags

theorem createContactsSend_cards (db : Db) (accountId : Int) (a : Cards) :
    (createContactsSend db accountId (cardsText accountId a.steps)).isSome = true ↔
      ∀ r ∈ a.allRows, r.tags ≠ [] := by
  rw [createContactsSend, parse_cards]
  split
  · next h => exact iff_of_true (by rw [Option.bind_some, if_pos (column_cards a)]; rfl) h
  · next h => exact iff_of_false (fun hnone => by cases hnone) h

/-- Every database takes the query and selects the audience, exactly when each row has a tag and
no contact tells the text from the meaning; for a send to all, when the channel is a push one. -/
theorem audience_iff (accountId : Int) (a : Choice) :
    (∀ db, Meets db accountId a) ↔ a.Sound := by
  cases a with
  | all messageType offered =>
      constructor
      · intro h
        have haccepted := (h {}).accepted
        cases messageType with
        | email => exact absurd rfl offered
        | webPush => exact .inl rfl
        | mobilePush => exact .inr rfl
        | sms => cases haccepted
        | whatsapp => cases haccepted
      · intro h db
        refine ⟨?_, fun messageType cards hcards => by cases hcards⟩
        rcases h with rfl | rfl <;> rfl
  | cards messageType a =>
      have hquery : (Choice.cards messageType a).query accountId = cardsText accountId a.steps := rfl
      constructor
      · intro h
        have hlists : ∀ r ∈ a.allRows, r.tags ≠ [] := by
          have haccepted := (h {}).accepted
          rwa [hquery, createContactsSend_cards] at haccepted
        refine ⟨hlists, (agrees_iff a).mpr fun tags => ?_⟩
        obtain ⟨e, he, hselects⟩ := (h (oneContact accountId tags)).selects messageType a rfl
        rw [hquery, parse_cards, if_pos hlists] at he
        cases he
        have hone := hselects ⟨1, accountId, true, fun _ => .null⟩ List.mem_cons_self rfl
        rw [mem_rows_cards, tagsOf_oneContact] at hone
        rw [Bool.eq_iff_iff]
        exact hone
      · rintro ⟨hlists, hagrees⟩ db
        refine ⟨?_, fun messageType' cards hcards => ?_⟩
        · rw [hquery, createContactsSend_cards]
          exact hlists
        · cases hcards
          refine ⟨a.expr accountId, ?_, fun c _ _ => ?_⟩
          · rw [hquery, parse_cards, if_pos hlists]
          · rw [mem_rows_cards, (agrees_iff a).mp hagrees]

/-- A contact with the excluded tag and another one is selected, and a send to all by text
message has no column to read. -/
theorem audience_differs :
    ¬ Meets (oneContact 1 [1, 2]) 1 (.cards .email ⟨⟨⟨.notIn, [1]⟩, []⟩, []⟩) ∧
      ¬ Meets {} 1 (.all .sms (by decide)) := by
  constructor
  · intro h
    obtain ⟨e, he, hselects⟩ := h.selects _ _ rfl
    cases he
    exact absurd (hselects ⟨1, 1, true, fun _ => .null⟩ List.mem_cons_self rfl) (by decide)
  · intro h
    exact absurd h.accepted (by decide)

end OpenBms.Audience
