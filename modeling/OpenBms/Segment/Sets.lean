/-
# `OpenBms.Segment.Sets` — the cards of a segment as a combination of sets

A segment is presented as a chain of cards, each a set of contacts: the active
contacts of the account that satisfy the card's formula and every one of its
tag conditions.  `or` unites a card with what stands before it, `and`
intersects.

The generated text is a flat chain of set operators without parentheses
between its links, and `INTERSECT` binds tighter than `UNION` and `EXCEPT`.
The flat reading is the left-to-right reading as long as no `INTERSECT` stands
after a looser operator, in the chain of cards and in the tags of each card.

**Proved here.**

    when a segment's arrangement is in order, the text selects the
      combination of its cards, on every database (`means_of_inOrder`)
    an arrangement out of order has a segment, and a database on
      which the text selects something else (`exists_not_means`)
    so the arrangement decides (`segmentQueryV1_sets_iff`)
-/
import OpenBms.Segment.Guard

namespace OpenBms.Segment

open Infix (foldChain leftToRight TightFirst)

/-! ## What the cards stand for -/

/-- The contact satisfies the card's formula on one of its joined rows; a card
without predicates asks nothing. -/
def Db.satisfies (db : Db) (c : CardOut) (ct : Contact) : Prop :=
  c.preds = [] ∨ ∃ e, c.formula = some e ∧ ∃ ctd ∈ db.joined c.join ct, db.Holds ct ctd e

/-- The contact meets a tag condition. -/
def Db.meets (db : Db) (tag : TagLike) (t : TagStepData) (i : Int) : Prop :=
  if t.isIn then db.inTag tag t i else ¬ db.inTag tag t i

/-- The set of a card. -/
def Db.cardSet (db : Db) (tag : TagLike) (c : CardOut) : Set Int :=
  { i | (∃ ct ∈ db.contacts, ct.id = i ∧ ct.accountId = tag.accountId ∧ ct.isActive = true ∧
      db.satisfies c ct) ∧ ∀ t ∈ c.tags, db.meets tag t i }

/-- The set of a segment: its cards' sets, combined from left to right. -/
def Db.segmentSet (db : Db) (tag : TagLike) (cs : List CardOut) : Set Int :=
  match cs with
  | [] => ∅
  | c :: ds => { i | leftToRight setLoMem setHiMem (i ∈ db.cardSet tag c)
      (ds.map fun d => ((cardOp d.steps).getD (setOp .or), i ∈ db.cardSet tag d)) }

/-- The text, wherever it is SQL, selects the segment's set on every database.
A `LIMIT` then keeps some of these rows (`Db.Selects`). -/
def Means (tag : TagLike) (cs : List CardOut) (ts : List Tok) : Prop :=
  ∀ q, parse ts = some q → ∀ (db : Db) (i : Int), i ∈ db.rows q.expr ↔ i ∈ db.segmentSet tag cs

/-! ## Arrangements -/

/-- What the order of evaluation depends on in a card: whether its first
predicate carries `or`, and which of its tag conditions are `in`. -/
structure CardShape where
  leadingOr : Bool
  tags : List Bool
  deriving DecidableEq

def shape (steps : List Step) : CardShape :=
  { leadingOr := leadsWithOr steps, tags := (steps.filterMap tagOf).map TagStepData.isIn }

/-- The shapes of a segment's cards and the connectors between them. -/
structure Arrangement where
  first : CardShape
  rest : List (Connector × CardShape)
  deriving DecidableEq

/-- The cards have the arrangement. -/
def Arranged (cards : List (List Step)) (a : Arrangement) : Prop :=
  ∃ c ds, cards = c :: ds ∧ shape c = a.first ∧
    ds.map (fun d => (cardConnector d, shape d)) = a.rest.map fun p => (some p.1, p.2)

/-- No `or` in front of the predicates, and no `in` after a `not in`. -/
def CardShape.InOrder (s : CardShape) : Prop :=
  s.leadingOr = false ∧ TightFirst (s.tags.map memberOp)

/-- Every card is in order, and no `and` card stands after an `or` card. -/
def Arrangement.InOrder (a : Arrangement) : Prop :=
  a.first.InOrder ∧ (∀ p ∈ a.rest, p.2.InOrder) ∧ TightFirst (a.rest.map fun p => setOp p.1)

instance (s : CardShape) : Decidable s.InOrder := inferInstanceAs (Decidable (_ ∧ _))

instance (a : Arrangement) : Decidable a.InOrder := inferInstanceAs (Decidable (_ ∧ _ ∧ _))

/-! ## In order -/

section
variable {sw : Switch} {tag : TagLike} {db : Db} {i : Int}

theorem mem_select_iff {c : CardOut} {n : Nat} (hsw : sw.Lawful)
    (h : items sw n c.steps = .ok c.items) (hlead : leadsWithOr c.steps = false)
    (hread : (Infix.read (c.whereToks tag)).isSome = true) :
    i ∈ db.selectRows (c.select tag) ↔
      ∃ ct ∈ db.contacts, ct.id = i ∧ ct.accountId = tag.accountId ∧ ct.isActive = true ∧
        db.satisfies c ct := by
  have hlaw := lawfulItems hsw h
  obtain ⟨φ, hφ⟩ := Option.isSome_iff_exists.mp hread
  obtain ⟨hb, hcase⟩ := (read_where hlaw).mp hφ
  have hguard : ∀ ct ctd, db.Holds ct ctd (guardCond tag) ↔
      ct.accountId = tag.accountId ∧ ct.isActive = true := by
    intro ct ctd
    simp [guardCond, Db.pred]
  have hselect : ∀ ct, (∃ ctd ∈ db.joined c.join ct, db.Holds ct ctd φ) ↔
      ct.accountId = tag.accountId ∧ ct.isActive = true ∧ db.satisfies c ct := by
    intro ct
    rcases hcase with ⟨hp, rfl⟩ | ⟨j, is, e, hp, he, rfl⟩
    · have hjoin : c.join = false := by
        have hcards : ∀ i ∈ c.items, i.card = true := List.dropWhile_eq_nil_iff.mp hp
        rw [CardOut.join, List.any_eq_false]
        intro i hi
        simp [hlaw.silent i hi (hcards i hi)]
      simp [Db.joined, hjoin, hguard, Db.satisfies, hp]
    · have hor : j.conditional ≠ some .or := by
        intro hj
        exact absurd ((leadsWithOr_iff h).mpr ⟨hb, j, is, hp, hj⟩) (by simp [hlead])
      have hform : guarded tag j.conditional e = .hi () (guardCond tag) e := by
        rcases hj : j.conditional with _ | _ | _
        · rfl
        · rfl
        · exact absurd hj hor
      simp only [hform, holds_and, hguard, Db.satisfies, hp, reduceCtorEq, false_or,
        CardOut.formula, he, Option.some.injEq, exists_eq_left']
      constructor
      · rintro ⟨ctd, hmem, ⟨hacc, hact⟩, hholds⟩
        exact ⟨hacc, hact, ctd, hmem, hholds⟩
      · rintro ⟨hacc, hact, ctd, hmem, hholds⟩
        exact ⟨ctd, hmem, ⟨hacc, hact⟩, hholds⟩
  rw [mem_selectRows]
  constructor
  · rintro ⟨ct, hct, rfl⟩
    obtain ⟨φ', hφ', hmem, hex⟩ := mem_selectContacts.mp hct
    have hsame : φ' = φ := Option.some.inj (hφ'.symm.trans hφ)
    exact ⟨ct, hmem, rfl, (hselect ct).mp (hsame ▸ hex)⟩
  · rintro ⟨ct, hmem, rfl, hsat⟩
    exact ⟨ct, mem_selectContacts.mpr ⟨φ, hφ, hmem, (hselect ct).mpr hsat⟩, rfl⟩

theorem leftToRight_tags (ts : List TagStepData) : ∀ v : Prop,
    leftToRight setLoMem setHiMem v (ts.map fun t => (tagOp t, db.inTag tag t i)) ↔
      v ∧ ∀ t ∈ ts, db.meets tag t i := by
  induction ts with
  | nil =>
      intro v
      simp [leftToRight]
  | cons t ts ih =>
      intro v
      cases hin : t.isIn with
      | true =>
          simp only [List.map_cons, tagOp, hin, memberOp, leftToRight, List.forall_mem_cons,
            Db.meets, if_true]
          rw [show setHiMem () v (db.inTag tag t i) = (v ∧ db.inTag tag t i) from rfl]
          exact (ih _).trans and_assoc
      | false =>
          simp only [List.map_cons, tagOp, hin, memberOp, leftToRight, List.forall_mem_cons,
            Db.meets, Bool.false_eq_true, if_false]
          rw [show setLoMem .except v (db.inTag tag t i) = (v ∧ ¬ db.inTag tag t i) from rfl]
          exact (ih _).trans and_assoc

theorem mem_card_iff {c : CardOut} {n : Nat} (hsw : sw.Lawful)
    (h : items sw n c.steps = .ok c.items) (hord : (shape c.steps).InOrder)
    (hread : (Infix.read (c.whereToks tag)).isSome = true) :
    i ∈ db.rows (c.expr tag) ↔ i ∈ db.cardSet tag c := by
  obtain ⟨hlead, htight⟩ := hord
  have hops : (c.tags.map fun t => (tagOp t, db.inTag tag t i)).map Prod.fst
      = (shape c.steps).tags.map memberOp := by
    simp [shape, CardOut.tags, tagOp]
  rw [mem_card, Infix.foldChain_eq_leftToRight _ _ _ _ (hops ▸ htight), leftToRight_tags,
    mem_select_iff hsw h hlead hread]
  rfl

theorem zip_chained {f g : CardOut → Prop} : ∀ {ds : List CardOut} {ops : List (SetLo ⊕ Unit)},
    Chained ds ops → (∀ d ∈ ds, f d ↔ g d) →
    ops.zip (ds.map f) = ds.map fun d => ((cardOp d.steps).getD (setOp .or), g d)
  | [], [], _, _ => rfl
  | [], _ :: _, h, _ => nomatch h
  | _ :: _, [], h, _ => nomatch h
  | d :: ds, o :: ops, h, hfg => by
      obtain ⟨ho, hrest⟩ := List.cons.inj h
      have ih := zip_chained hrest fun d hd => hfg d (List.mem_cons_of_mem _ hd)
      have hd : f d = g d := propext (hfg d List.mem_cons_self)
      simp only [List.map_cons, List.zip_cons_cons, ih, ho, Option.getD_some, hd]

theorem chained_arranged : ∀ {ds : List CardOut} {ops : List (SetLo ⊕ Unit)}
    {rest : List (Connector × CardShape)}, Chained ds ops →
    (ds.map CardOut.steps).map (fun d => (cardConnector d, shape d))
      = rest.map (fun p => (some p.1, p.2)) →
    ops = rest.map (fun p => setOp p.1) ∧ ∀ d ∈ ds, ∃ p ∈ rest, shape d.steps = p.2
  | [], [], [], _, _ => ⟨rfl, fun _ h => nomatch h⟩
  | [], _ :: _, _, h, _ => nomatch h
  | _ :: _, [], _, h, _ => nomatch h
  | [], [], _ :: _, _, h => nomatch h
  | _ :: _, _ :: _, [], _, h => nomatch h
  | d :: ds, o :: ops, p :: rest, h, ha => by
      obtain ⟨ho, hrest⟩ := List.cons.inj h
      obtain ⟨hp, hps⟩ := List.cons.inj ha
      obtain ⟨hops, hshape⟩ := chained_arranged hrest hps
      have hconn : cardConnector d.steps = some p.1 := congrArg Prod.fst hp
      refine ⟨?_, ?_⟩
      · have hop : (cardConnector d.steps).map setOp = some o := ho
        rw [hconn] at hop
        rw [List.map_cons, hops, ← Option.some.inj hop]
      · intro e he
        rcases List.mem_cons.mp he with rfl | he
        · exact ⟨p, List.mem_cons_self, congrArg Prod.snd hp⟩
        · obtain ⟨p', hp', hs⟩ := hshape e he
          exact ⟨p', List.mem_cons_of_mem _ hp', hs⟩

theorem means_of_inOrder {dto : SegmentDtoLike} {cs : List CardOut} {a : Arrangement}
    (hsw : sw.Lawful) (hcs : cardOuts sw 0 dto.steps = .ok cs) (ha : Arranged dto.steps a)
    (hord : a.InOrder) : Means tag cs (assemble tag dto cs).query := by
  intro q hq db i
  obtain ⟨hwf, c, ds, ops, rfl, hs, ho, hch, rfl⟩ :=
    (parse_assemble (lawful_cardOuts hsw hcs)).mp hq
  obtain ⟨hfirst, hrest, htight⟩ := hord
  obtain ⟨c', ds', hsteps, hshape, hmap⟩ := ha
  rw [← cardOuts_steps hcs] at hsteps
  obtain ⟨rfl, rfl⟩ := List.cons.inj hsteps
  obtain ⟨rfl, hshapes⟩ := chained_arranged hch hmap
  have hcard : ∀ d ∈ c :: ds, (shape d.steps).InOrder →
      (i ∈ db.rows (d.expr tag) ↔ i ∈ db.cardSet tag d) := by
    intro d hd hd'
    obtain ⟨_, m, hm⟩ := mem_cardOuts hcs d hd
    exact mem_card_iff hsw hm hd' (hwf d hd).1
  have hds : ∀ d ∈ ds, i ∈ db.rows (d.expr tag) ↔ i ∈ db.cardSet tag d := by
    intro d hd
    obtain ⟨p, hp, hs⟩ := hshapes d hd
    exact hcard d (List.mem_cons_of_mem _ hd) (hs ▸ hrest p hp)
  have hc := hcard c List.mem_cons_self (hshape ▸ hfirst)
  have hlen : (a.rest.map fun p => setOp p.1).length = ds.length := by
    have h := congrArg List.length hch
    simpa using h.symm
  have hops : ((a.rest.map fun p => setOp p.1).zip
      (ds.map fun d => i ∈ db.rows (d.expr tag))).map Prod.fst = a.rest.map fun p => setOp p.1 :=
    List.map_fst_zip (by simp [hlen])
  rw [← hops] at htight
  rw [mem_chain, Infix.foldChain_eq_leftToRight _ _ _ _ htight, zip_chained hch hds, propext hc]
  rfl

end

/-! ## Out of order

For the converse a segment is planned for one contact: the plan says of each
card whether its predicate is true of the contact, and of each tag condition
whether the contact holds the tag.  What the text selects and what the segment
stands for are then two folds over the same plan. -/

/-- A card's shape, filled in for one contact. -/
structure CardPlan where
  leadingOr : Bool
  pred : Bool
  /-- Whether the condition is `in`, and whether the contact holds the tag. -/
  tags : List (Bool × Bool)

def CardPlan.shape (c : CardPlan) : CardShape := ⟨c.leadingOr, c.tags.map Prod.fst⟩

/-- A card in the fold of the text; `g` is the guard's truth of the contact. -/
def CardPlan.code (g : Bool) (c : CardPlan) : Prop :=
  foldChain setLoMem setHiMem none
    (if c.leadingOr then g = true ∨ c.pred = true else g = true ∧ c.pred = true)
    (c.tags.map fun t => (memberOp t.1, t.2 = true))

/-- A card in the fold of the sets. -/
def CardPlan.spec (g : Bool) (c : CardPlan) : Prop :=
  g = true ∧ c.pred = true ∧ ∀ t ∈ c.tags, t.1 = t.2

structure Plan where
  first : CardPlan
  rest : List (Connector × CardPlan)

def Plan.arrangement (p : Plan) : Arrangement :=
  ⟨p.first.shape, p.rest.map fun q => (q.1, q.2.shape)⟩

/-- Cards behind their connectors, each with a truth value. -/
def links (f : CardPlan → Prop) (r : List (Connector × CardPlan)) :
    List ((SetLo ⊕ Unit) × Prop) :=
  r.map fun q => (setOp q.1, f q.2)

def Plan.code (g : Bool) (p : Plan) : Prop :=
  foldChain setLoMem setHiMem none (p.first.code g) (links (CardPlan.code g) p.rest)

def Plan.spec (g : Bool) (p : Plan) : Prop :=
  leftToRight setLoMem setHiMem (p.first.spec g) (links (CardPlan.spec g) p.rest)

/-! ### Folds of truth values -/

section
variable {f : CardPlan → Prop} {r : List (Connector × CardPlan)} {v : Prop}

/-- A true `and` and a false `or` change nothing. -/
theorem leftToRight_neutral (h : ∀ q ∈ r, (f q.2 ↔ q.1 = .and)) :
    leftToRight setLoMem setHiMem v (links f r) ↔ v := by
  induction r generalizing v with
  | nil => rfl
  | cons q r ih =>
      obtain ⟨k, c⟩ := q
      have hc : f c ↔ k = .and := h (k, c) List.mem_cons_self
      have ih := fun w => ih (v := w) fun q hq => h q (List.mem_cons_of_mem _ hq)
      cases k with
      | and => exact (ih _).trans (by simp [setHiMem, hc])
      | or => exact (ih _).trans (by simp [setLoMem, hc])

/-- False cards leave nothing but what stands before them. -/
theorem leftToRight_false (h : ∀ q ∈ r, ¬ f q.2) (hv : ¬ v) :
    ¬ leftToRight setLoMem setHiMem v (links f r) := by
  induction r generalizing v with
  | nil => exact hv
  | cons q r ih =>
      obtain ⟨k, c⟩ := q
      have hc : ¬ f c := h (k, c) List.mem_cons_self
      have ih := fun w (hw : ¬ w) => ih (v := w) (fun q hq => h q (List.mem_cons_of_mem _ hq)) hw
      cases k with
      | and => exact ih _ fun hand => hv hand.1
      | or => exact ih _ fun hor => hor.elim hv hc

/-- False cards leave nothing at all once one of them is an `and`. -/
theorem leftToRight_and_false (h : ∀ q ∈ r, ¬ f q.2) (hand : ∃ q ∈ r, q.1 = .and) :
    ¬ leftToRight setLoMem setHiMem v (links f r) := by
  induction r generalizing v with
  | nil =>
      obtain ⟨q, hq, _⟩ := hand
      exact nomatch hq
  | cons q r ih =>
      obtain ⟨k, c⟩ := q
      have hc : ¬ f c := h (k, c) List.mem_cons_self
      have hr : ∀ q ∈ r, ¬ f q.2 := fun q hq => h q (List.mem_cons_of_mem _ hq)
      cases k with
      | and => exact leftToRight_false (v := v ∧ f c) hr fun hboth => hc hboth.2
      | or =>
          obtain ⟨q, hq, hqand⟩ := hand
          rcases List.mem_cons.mp hq with rfl | hq
          · exact nomatch hqand
          · exact ih hr ⟨q, hq, hqand⟩

/-- A true operand in front of a `UNION` stays. -/
theorem foldChain_union {l : Prop} (hl : l) :
    foldChain setLoMem setHiMem (some (l, .union)) v (links f r) := by
  induction r generalizing l v with
  | nil => exact .inl hl
  | cons q r ih =>
      obtain ⟨k, c⟩ := q
      cases k with
      | and => exact ih hl
      | or => exact ih (Or.inl hl)

end

/-! ### Tags -/

theorem foldChain_except {ts : List (Bool × Bool)} (h : ∀ t ∈ ts, t.1 = false → t.2 = false) :
    ∀ {l v : Prop}, ¬ v →
      (foldChain setLoMem setHiMem (some (l, .except)) v (ts.map fun t => (memberOp t.1, t.2 = true))
        ↔ l) := by
  induction ts with
  | nil =>
      intro l v hv
      exact and_iff_left hv
  | cons t ts ih =>
      intro l v hv
      obtain ⟨b, held⟩ := t
      have hts : ∀ t ∈ ts, t.1 = false → t.2 = false := fun t ht =>
        h t (List.mem_cons_of_mem _ ht)
      cases b with
      | true => exact ih hts (v := v ∧ held = true) fun hboth => hv hboth.1
      | false =>
          have hheld : held = false := h (false, held) List.mem_cons_self rfl
          exact (ih hts (l := l ∧ ¬ v) (by simp [hheld])).trans (and_iff_left hv)

/-- The tags of a card take nothing away when the `in`s before the first
`not in` are held and no `not in` is. -/
theorem foldChain_tags {ts : List (Bool × Bool)} (hin : ∀ t ∈ ts.takeWhile Prod.fst, t.2 = true)
    (hout : ∀ t ∈ ts, t.1 = false → t.2 = false) : ∀ {v : Prop},
    (foldChain setLoMem setHiMem none v (ts.map fun t => (memberOp t.1, t.2 = true)) ↔ v) := by
  induction ts with
  | nil => exact fun {v} => Iff.rfl
  | cons t ts ih =>
      intro v
      obtain ⟨b, held⟩ := t
      have hout' : ∀ t ∈ ts, t.1 = false → t.2 = false := fun t ht =>
        hout t (List.mem_cons_of_mem _ ht)
      cases b with
      | true =>
          have hheld : held = true := hin (true, held) (by simp)
          have hin' : ∀ t ∈ ts.takeWhile Prod.fst, t.2 = true := fun t ht =>
            hin t (by simp [ht])
          exact (ih hin' hout' (v := v ∧ held = true)).trans (and_iff_left hheld)
      | false =>
          have hheld : held = false := hout (false, held) List.mem_cons_self rfl
          exact foldChain_except hout' (l := v) (v := held = true) (by simp [hheld])

/-! ### Plans for a shape -/

/-- Every tag condition is met. -/
def CardShape.fill (p : Bool) (s : CardShape) : CardPlan :=
  ⟨s.leadingOr, p, s.tags.map fun b => (b, b)⟩

/-- The `in`s before the first `not in` are held, and no other tag is. -/
def heldFirst : List Bool → List (Bool × Bool)
  | [] => []
  | true :: r => (true, true) :: heldFirst r
  | false :: r => (false, false) :: r.map fun b => (b, false)

def CardShape.broken (s : CardShape) : CardPlan := ⟨s.leadingOr, true, heldFirst s.tags⟩

section
variable {s : CardShape} {g p : Bool}

@[simp] theorem shape_fill : (s.fill p).shape = s := by
  simp [CardShape.fill, CardPlan.shape, Function.comp_def]

theorem map_fst_heldFirst : ∀ bs : List Bool, (heldFirst bs).map Prod.fst = bs
  | [] => rfl
  | true :: r => congrArg (List.cons true) (map_fst_heldFirst r)
  | false :: r => by simp [heldFirst, Function.comp_def]

@[simp] theorem shape_broken : s.broken.shape = s := by
  simp [CardShape.broken, CardPlan.shape, map_fst_heldFirst]

theorem code_fill : (s.fill p).code g ↔
    if s.leadingOr then g = true ∨ p = true else g = true ∧ p = true := by
  unfold CardPlan.code
  refine foldChain_tags ?_ ?_
  · intro t ht
    obtain ⟨b, _, rfl⟩ := List.mem_map.mp (List.takeWhile_subset _ ht)
    simpa using List.mem_takeWhile_imp ht
  · intro t ht hf
    obtain ⟨b, _, rfl⟩ := List.mem_map.mp ht
    exact hf

theorem spec_fill : (s.fill p).spec g ↔ g = true ∧ p = true := by
  simp [CardPlan.spec, CardShape.fill]

theorem heldFirst_in : ∀ bs : List Bool, ∀ t ∈ (heldFirst bs).takeWhile Prod.fst, t.2 = true
  | [], t, ht => nomatch ht
  | true :: r, t, ht => by
      simp only [heldFirst, List.takeWhile_cons, if_true] at ht
      rcases List.mem_cons.mp ht with rfl | ht
      · rfl
      · exact heldFirst_in r t ht
  | false :: r, t, ht => by simp [heldFirst] at ht

theorem heldFirst_out : ∀ bs : List Bool, ∀ t ∈ heldFirst bs, t.1 = false → t.2 = false
  | [], t, ht, _ => nomatch ht
  | true :: r, t, ht, hf => by
      rcases List.mem_cons.mp ht with rfl | ht
      · exact nomatch hf
      · exact heldFirst_out r t ht hf
  | false :: r, t, ht, _ => by
      rcases List.mem_cons.mp ht with rfl | ht
      · rfl
      · obtain ⟨b, _, rfl⟩ := List.mem_map.mp ht
        rfl

theorem heldFirst_unmet : ∀ {bs : List Bool}, ¬ TightFirst (bs.map memberOp) →
    ∃ t ∈ heldFirst bs, t.1 ≠ t.2
  | [], h => absurd trivial h
  | true :: r, h => by
      obtain ⟨t, ht, hne⟩ := @heldFirst_unmet r h
      exact ⟨t, List.mem_cons_of_mem _ ht, hne⟩
  | false :: r, h => by
      simp only [List.map_cons, memberOp, TightFirst, not_forall] at h
      obtain ⟨o, ho, hright⟩ := h
      obtain ⟨b, hb, rfl⟩ := List.mem_map.mp ho
      cases b with
      | true => exact ⟨(true, false), by simp [heldFirst, hb], by simp⟩
      | false => exact absurd rfl hright

theorem code_broken : s.broken.code true := by
  unfold CardPlan.code
  refine (foldChain_tags (heldFirst_in s.tags) (heldFirst_out s.tags)).mpr ?_
  cases h : s.leadingOr <;> simp [CardShape.broken, h]

theorem not_spec_broken (h : ¬ TightFirst (s.tags.map memberOp)) : ¬ s.broken.spec g := by
  rintro ⟨_, _, hall⟩
  obtain ⟨t, ht, hne⟩ := heldFirst_unmet h
  exact hne (hall t ht)

end

/-! ### A plan the two folds disagree on -/

def fillRest (b : Connector → Bool) (r : List (Connector × CardShape)) :
    List (Connector × CardPlan) :=
  r.map fun q => (q.1, q.2.fill (b q.1))

/-- The cards before the first `or` card are met, and none of the others. -/
def fillUntilOr : List (Connector × CardShape) → List (Connector × CardPlan)
  | [] => []
  | (.and, s) :: r => (.and, s.fill true) :: fillUntilOr r
  | (.or, s) :: r => (.or, s.fill false) :: fillRest (fun _ => false) r

theorem shape_fillRest (b : Connector → Bool) (r : List (Connector × CardShape)) :
    (fillRest b r).map (fun q => (q.1, q.2.shape)) = r := by
  simp [fillRest, Function.comp_def]

theorem shape_fillUntilOr : ∀ r : List (Connector × CardShape),
    (fillUntilOr r).map (fun q => (q.1, q.2.shape)) = r
  | [] => rfl
  | (.and, s) :: r => by simp [fillUntilOr, shape_fillUntilOr r]
  | (.or, s) :: r => by simp [fillUntilOr, shape_fillRest]

theorem code_fillUntilOr : ∀ (r : List (Connector × CardShape)) {v : Prop}, v →
    foldChain setLoMem setHiMem none v (links (CardPlan.code true) (fillUntilOr r))
  | [], _, hv => hv
  | (.and, s) :: r, v, hv =>
      code_fillUntilOr r (v := v ∧ (s.fill true).code true)
        ⟨hv, code_fill.mpr (by cases s.leadingOr <;> simp)⟩
  | (.or, s) :: r, v, hv => foldChain_union hv

theorem not_spec_fillRest {g : Bool} {r : List (Connector × CardShape)} :
    ∀ q ∈ fillRest (fun _ => false) r, ¬ q.2.spec g := by
  intro q hq hspec
  obtain ⟨p, _, rfl⟩ := List.mem_map.mp hq
  exact nomatch (spec_fill.mp hspec).2

theorem not_spec_fillUntilOr {g : Bool} : ∀ {r : List (Connector × CardShape)} {v : Prop},
    ¬ TightFirst (r.map fun q => setOp q.1) →
    ¬ leftToRight setLoMem setHiMem v (links (CardPlan.spec g) (fillUntilOr r))
  | [], _, h => absurd trivial h
  | (.and, s) :: r, v, h => not_spec_fillUntilOr (r := r) (v := v ∧ (s.fill true).spec g) h
  | (.or, s) :: r, v, h => by
      simp only [List.map_cons, setOp, TightFirst, not_forall] at h
      obtain ⟨o, ho, hright⟩ := h
      obtain ⟨q, hq, rfl⟩ := List.mem_map.mp ho
      have hand : q.1 = .and := by
        cases hk : q.1 with
        | and => rfl
        | or =>
            rw [hk] at hright
            exact absurd rfl hright
      exact leftToRight_and_false (v := v ∨ (s.fill false).spec g) not_spec_fillRest
        ⟨(q.1, q.2.fill false), List.mem_map_of_mem hq, hand⟩

/-- No card behind an `or` leads with one. -/
def NoOrLeads (r : List (Connector × CardShape)) : Prop :=
  ∀ q ∈ r, q.1 = .or → q.2.leadingOr = false

/-- The value of `and` cards is true, that of `or` cards false. -/
def isAnd : Connector → Bool
  | .and => true
  | .or => false

section
variable {r pre post : List (Connector × CardShape)} {v : Prop} {x : CardPlan}

theorem code_isAnd (h : NoOrLeads r) : ∀ q ∈ fillRest isAnd r, (q.2.code true ↔ q.1 = .and) := by
  intro q hq
  obtain ⟨⟨k, s⟩, hs, rfl⟩ := List.mem_map.mp hq
  cases k with
  | and => simp [isAnd, code_fill]
  | or =>
      have hlead : s.leadingOr = false := h (.or, s) hs rfl
      simp [isAnd, code_fill, hlead]

theorem spec_isAnd : ∀ q ∈ fillRest isAnd r, (q.2.spec true ↔ q.1 = .and) := by
  intro q hq
  obtain ⟨⟨k, s⟩, _, rfl⟩ := List.mem_map.mp hq
  cases k <;> simp [isAnd, spec_fill]

theorem code_eq_leftToRight {p : Plan} {g : Bool}
    (h : TightFirst (p.arrangement.rest.map fun q => setOp q.1)) :
    p.code g ↔ leftToRight setLoMem setHiMem (p.first.code g) (links (CardPlan.code g) p.rest) := by
  have hops : (links (CardPlan.code g) p.rest).map Prod.fst
      = p.arrangement.rest.map fun q => setOp q.1 := by
    simp [links, Plan.arrangement, Function.comp_def]
  rw [← hops] at h
  exact iff_of_eq (Infix.foldChain_eq_leftToRight _ _ _ _ h)

theorem links_append (f : CardPlan → Prop) (r₁ r₂ : List (Connector × CardPlan)) :
    links f (r₁ ++ r₂) = links f r₁ ++ links f r₂ :=
  List.map_append

theorem disagree_first (h : NoOrLeads r) (hcode : x.code true) (hspec : ¬ x.spec true) :
    leftToRight setLoMem setHiMem (x.code true) (links (CardPlan.code true) (fillRest isAnd r)) ∧
    ¬ leftToRight setLoMem setHiMem (x.spec true)
      (links (CardPlan.spec true) (fillRest isAnd r)) :=
  ⟨(leftToRight_neutral (code_isAnd h)).mpr hcode,
    fun hs => hspec ((leftToRight_neutral spec_isAnd).mp hs)⟩

theorem disagree_and {s : CardShape} (hpre : NoOrLeads pre) (hpost : NoOrLeads post)
    (hcode : x.code true) (hspec : ¬ x.spec true) :
    leftToRight setLoMem setHiMem ((s.fill true).code true) (links (CardPlan.code true)
      (fillRest isAnd pre ++ (.and, x) :: fillRest isAnd post)) ∧
    ¬ leftToRight setLoMem setHiMem ((s.fill true).spec true) (links (CardPlan.spec true)
      (fillRest isAnd pre ++ (.and, x) :: fillRest isAnd post)) := by
  simp only [links_append, Infix.leftToRight_append]
  refine ⟨?_, ?_⟩
  · have hfirst : (s.fill true).code true := by simp [code_fill]
    have hin := (leftToRight_neutral (code_isAnd hpre)).mpr hfirst
    exact (leftToRight_neutral (v := _ ∧ x.code true) (code_isAnd hpost)).mpr ⟨hin, hcode⟩
  · intro h
    exact hspec ((leftToRight_neutral (v := _ ∧ x.spec true) spec_isAnd).mp h).2

theorem disagree_or {s : CardShape} (hpost : NoOrLeads post) (hcode : x.code true)
    (hspec : ¬ x.spec true) :
    leftToRight setLoMem setHiMem ((s.fill false).code true) (links (CardPlan.code true)
      (fillRest (fun _ => false) pre ++ (.or, x) :: fillRest isAnd post)) ∧
    ¬ leftToRight setLoMem setHiMem ((s.fill false).spec true) (links (CardPlan.spec true)
      (fillRest (fun _ => false) pre ++ (.or, x) :: fillRest isAnd post)) := by
  simp only [links_append, Infix.leftToRight_append]
  refine ⟨?_, ?_⟩
  · exact (leftToRight_neutral (v := _ ∨ x.code true) (code_isAnd hpost)).mpr (.inr hcode)
  · intro h
    have hor := (leftToRight_neutral (v := _ ∨ x.spec true) spec_isAnd).mp h
    refine hor.elim (leftToRight_false not_spec_fillRest ?_) hspec
    exact fun hs => nomatch (spec_fill.mp hs).2

theorem disagree_outside {s t : CardShape} (ht : t.leadingOr = true)
    (hpost : ∀ q ∈ post, q.1 = .or) :
    leftToRight setLoMem setHiMem ((s.fill false).code false) (links (CardPlan.code false)
      (fillRest (fun _ => false) pre ++ (.or, t.fill true) :: fillRest (fun _ => false) post)) ∧
    ¬ leftToRight setLoMem setHiMem ((s.fill false).spec false) (links (CardPlan.spec false)
      (fillRest (fun _ => false) pre ++ (.or, t.fill true) :: fillRest (fun _ => false) post)) := by
  have hspec : ∀ c : CardPlan, ¬ c.spec false := fun c h => nomatch h.1
  refine ⟨?_, leftToRight_false (fun q _ => hspec q.2) (hspec _)⟩
  simp only [links_append, Infix.leftToRight_append]
  have hneutral : ∀ q ∈ fillRest (fun _ => false) post, (q.2.code false ↔ q.1 = .and) := by
    intro q hq
    obtain ⟨⟨k, c⟩, hc, rfl⟩ := List.mem_map.mp hq
    have hk : k = .or := hpost (k, c) hc
    subst hk
    simp [code_fill]
  refine (leftToRight_neutral (v := _ ∨ (t.fill true).code false) hneutral).mpr (.inr ?_)
  simp [code_fill, ht]

theorem or_of_tightFirst {s : CardShape} :
    TightFirst ((pre ++ (.or, s) :: post).map fun q => setOp q.1) → ∀ q ∈ post, q.1 = .or := by
  induction pre with
  | nil =>
      intro h q hq
      have hleft := h (setOp q.1) (List.mem_map_of_mem hq)
      cases hk : q.1 with
      | or => rfl
      | and =>
          rw [hk] at hleft
          exact nomatch hleft
  | cons p pre ih =>
      obtain ⟨k, t⟩ := p
      cases k with
      | and => exact ih
      | or =>
          intro h q hq
          have hleft := h (setOp q.1) (List.mem_map_of_mem (by simp [hq]))
          cases hk : q.1 with
          | or => rfl
          | and =>
              rw [hk] at hleft
              exact nomatch hleft

end

theorem exists_plan {a : Arrangement} (h : ¬ a.InOrder) :
    ∃ (p : Plan) (g : Bool), p.arrangement = a ∧ ¬ (p.code g ↔ p.spec g) := by
  obtain ⟨first, rest⟩ := a
  by_cases ht : TightFirst (rest.map fun q => setOp q.1)
  case neg =>
    refine ⟨⟨first.fill true, fillUntilOr rest⟩, true, ?_, ?_⟩
    · simp [Plan.arrangement, shape_fillUntilOr]
    · intro hiff
      have hcode : (first.fill true).code true := by simp [code_fill]
      exact not_spec_fillUntilOr ht (hiff.mp (code_fillUntilOr rest hcode))
  -- from here on both folds run from left to right
  have settle : ∀ (p : Plan) (g : Bool), p.arrangement = ⟨first, rest⟩ →
      leftToRight setLoMem setHiMem (p.first.code g) (links (CardPlan.code g) p.rest) ∧
        ¬ leftToRight setLoMem setHiMem (p.first.spec g) (links (CardPlan.spec g) p.rest) →
      ∃ (p : Plan) (g : Bool), p.arrangement = ⟨first, rest⟩ ∧ ¬ (p.code g ↔ p.spec g) := by
    rintro p g hp ⟨hcode, hspec⟩
    refine ⟨p, g, hp, fun hiff => hspec (hiff.mp ((code_eq_leftToRight ?_).mpr hcode))⟩
    rw [hp]
    exact ht
  by_cases hout : ∃ q ∈ rest, q.1 = .or ∧ q.2.leadingOr = true
  case pos =>
    obtain ⟨⟨k, t⟩, hq, hk, htor⟩ := hout
    obtain ⟨pre, post, rfl⟩ := List.append_of_mem hq
    cases hk
    refine settle ⟨first.fill false, fillRest (fun _ => false) pre
      ++ (.or, t.fill true) :: fillRest (fun _ => false) post⟩ false ?_
      (disagree_outside htor (or_of_tightFirst ht))
    simp [Plan.arrangement, shape_fillRest]
  have hno : NoOrLeads rest := by
    intro q hq hor
    cases hl : q.2.leadingOr with
    | false => rfl
    | true => exact absurd ⟨q, hq, hor, hl⟩ hout
  have hcodeLead : ∀ s : CardShape, s.leadingOr = true → (s.fill false).code true := by
    intro s hs
    simp [code_fill, hs]
  have hspecLead : ∀ s : CardShape, ¬ (s.fill false).spec true := fun s hs =>
    nomatch (spec_fill.mp hs).2
  by_cases hfirst : first.leadingOr = true
  case pos =>
    refine settle ⟨first.fill false, fillRest isAnd rest⟩ true ?_
      (disagree_first hno (hcodeLead first hfirst) (hspecLead first))
    simp [Plan.arrangement, shape_fillRest]
  by_cases hin : ∃ q ∈ rest, q.2.leadingOr = true
  case pos =>
    obtain ⟨⟨k, t⟩, hq, htor⟩ := hin
    obtain ⟨pre, post, rfl⟩ := List.append_of_mem hq
    have hk : k = .and := by
      cases k with
      | and => rfl
      | or => exact absurd ⟨(.or, t), hq, rfl, htor⟩ hout
    subst hk
    refine settle ⟨first.fill true, fillRest isAnd pre
      ++ (.and, t.fill false) :: fillRest isAnd post⟩ true ?_
      (disagree_and (fun q hq => hno q (by simp [hq])) (fun q hq => hno q (by simp [hq]))
        (hcodeLead t htor) (hspecLead t))
    simp [Plan.arrangement, shape_fillRest]
  -- no card leads with `or`: some card's tags are out of order
  have hnone : ∀ q ∈ rest, q.2.leadingOr = false := by
    intro q hq
    cases hl : q.2.leadingOr with
    | false => rfl
    | true => exact absurd ⟨q, hq, hl⟩ hin
  by_cases hft : TightFirst (first.tags.map memberOp)
  case neg =>
    refine settle ⟨first.broken, fillRest isAnd rest⟩ true ?_
      (disagree_first hno code_broken (not_spec_broken hft))
    simp [Plan.arrangement, shape_fillRest]
  by_cases hrt : ∃ q ∈ rest, ¬ TightFirst (q.2.tags.map memberOp)
  case pos =>
    obtain ⟨⟨k, t⟩, hq, hbad⟩ := hrt
    obtain ⟨pre, post, rfl⟩ := List.append_of_mem hq
    have hpre : NoOrLeads pre := fun q hq => hno q (by simp [hq])
    have hpost : NoOrLeads post := fun q hq => hno q (by simp [hq])
    cases k with
    | and =>
        refine settle ⟨first.fill true, fillRest isAnd pre
          ++ (.and, t.broken) :: fillRest isAnd post⟩ true ?_
          (disagree_and hpre hpost code_broken (not_spec_broken hbad))
        simp [Plan.arrangement, shape_fillRest]
    | or =>
        refine settle ⟨first.fill false, fillRest (fun _ => false) pre
          ++ (.or, t.broken) :: fillRest isAnd post⟩ true ?_
          (disagree_or hpost code_broken (not_spec_broken hbad))
        simp [Plan.arrangement, shape_fillRest]
  -- then nothing is out of order
  refine absurd ⟨⟨by simpa using hfirst, hft⟩, fun q hq => ⟨hnone q hq, ?_⟩, ht⟩ h
  by_contra hbad
  exact hrt ⟨q, hq, hbad⟩

/-! ### The segment of a plan -/

def connectorStep (k : Connector) : Step :=
  { body := .conditionalCard (match k with
      | .or => .UNION
      | .and => .INTERSECT) }

/-- The predicate of a card: a channel the planned contact has, or has not. -/
def predStep (leadingOr pred : Bool) : Step :=
  { conditional := if leadingOr then some .or else none
    body := .userField
      { userFieldKey := .str "communication_channels"
        conditionalUserField := .str "true"
        userFieldValue := .str (if pred then "has_sms" else "has_whatsapp") } }

/-- A tag condition: tag 1 is held, tag 2 is not. -/
def tagStep (t : Bool × Bool) : Step :=
  { body := .tag
      { conditionalTag := .str (if t.1 then "in" else "not in")
        tagId := [if t.2 then 1 else 2] } }

def CardPlan.steps (k : Option Connector) (c : CardPlan) : List Step :=
  k.toList.map connectorStep ++ predStep c.leadingOr c.pred :: c.tags.map tagStep

def Plan.dto (p : Plan) : SegmentDtoLike :=
  { steps := p.first.steps none :: p.rest.map fun q => q.2.steps (some q.1) }

def planTag : TagLike := { id := 9, accountId := 1 }

/-- The planned contact; `g` is whether it is active. -/
def planContact (g : Bool) : Contact :=
  { id := 1, accountId := 1, isActive := g, column := fun name => .bool (name == "has_sms") }

def planDb (g : Bool) : Db :=
  { contacts := [planContact g]
    contactsTags := [{ contactId := 1, tagId := 1, accountId := 1, isActive := true }] }

def planPred (pred : Bool) : Pred :=
  .cmp .ct (if pred then "has_sms" else "has_whatsapp") "=" (.bool true)

/-- What the predicate step emits. -/
def planOut (pred : Bool) : StepOut := { toks := [.pred (planPred pred)] }

def planItems (k : Option Connector) (c : CardPlan) : List Item :=
  k.toList.map (fun k => (connectorStep k).item {}) ++ [(predStep c.leadingOr c.pred).item
    (planOut c.pred)]

def planCard (k : Option Connector) (c : CardPlan) : CardOut := ⟨c.steps k, planItems k c⟩

section
variable {rt : Runtime} {dto : SegmentDtoLike} {zone : String} {g : Bool}

theorem items_tagSteps (n : Nat) (ts : List (Bool × Bool)) :
    items (switchV1 rt planTag dto zone) n (ts.map tagStep) = .ok [] := by
  induction ts with
  | nil => rfl
  | cons t ts ih => exact ih

theorem items_plan (n : Nat) (k : Option Connector) (c : CardPlan) :
    items (switchV1 rt planTag dto zone) n (c.steps k) = .ok (planItems k c) := by
  have hpred : ∀ m, switchV1 rt planTag dto zone m (predStep c.leadingOr c.pred).body
      = .ok (planOut c.pred) := by
    intro m
    cases c.pred <;> rfl
  have hrest : items (switchV1 rt planTag dto zone) n
      (predStep c.leadingOr c.pred :: c.tags.map tagStep)
      = .ok [(predStep c.leadingOr c.pred).item (planOut c.pred)] := by
    rw [items_item rfl, hpred, Except.bind, items_tagSteps]
    rfl
  cases k with
  | none => exact hrest
  | some k =>
      have hword : switchV1 rt planTag dto zone n (connectorStep k).body = .ok {} := rfl
      have hsteps : c.steps (some k)
          = connectorStep k :: (predStep c.leadingOr c.pred :: c.tags.map tagStep) := rfl
      rw [hsteps, items_item rfl, hword, Except.bind]
      have hbump : n + ((connectorStep k).item {}).bump = n := rfl
      rw [hbump, hrest]
      rfl

theorem bumps_plan (k : Option Connector) (c : CardPlan) : bumps (planItems k c) = 0 := by
  cases k <;> rfl

theorem cardOuts_plan (p : Plan) :
    cardOuts (switchV1 rt planTag dto zone) 0 p.dto.steps
      = .ok (planCard none p.first :: p.rest.map fun q => planCard (some q.1) q.2) := by
  have hrest : ∀ r : List (Connector × CardPlan),
      cardOuts (switchV1 rt planTag dto zone) 0 (r.map fun q => q.2.steps (some q.1))
        = .ok (r.map fun q => planCard (some q.1) q.2) := by
    intro r
    induction r with
    | nil => rfl
    | cons q r ih =>
        simp only [List.map_cons, cardOuts, items_plan, bumps_plan, Nat.add_zero, ih]
        rfl
  simp only [Plan.dto, cardOuts, items_plan, bumps_plan, Nat.add_zero, hrest]
  rfl

theorem tags_plan (k : Option Connector) (c : CardPlan) :
    (planCard k c).steps.filterMap tagOf = c.tags.map fun t =>
      { conditionalTag := .str (if t.1 then "in" else "not in")
        tagId := [if t.2 then 1 else 2] } := by
  have htags : ∀ ts : List (Bool × Bool), (ts.map tagStep).filterMap tagOf = ts.map fun t =>
      ({ conditionalTag := .str (if t.1 then "in" else "not in")
         tagId := [if t.2 then 1 else 2] } : TagStepData) := by
    intro ts
    induction ts with
    | nil => rfl
    | cons t ts ih => exact congrArg (List.cons _) ih
  cases k with
  | none => exact htags c.tags
  | some k => exact htags c.tags

theorem isIn_plan (t : Bool × Bool) (ids : List Int) :
    TagStepData.isIn { conditionalTag := .str (if t.1 then "in" else "not in"), tagId := ids }
      = t.1 := by
  obtain ⟨b, _⟩ := t
  cases b <;> rfl

theorem inTag_plan (t : Bool × Bool) (v : Js.Val) :
    (planDb g).inTag planTag { conditionalTag := v, tagId := [if t.2 then 1 else 2] } 1
      ↔ t.2 = true := by
  obtain ⟨_, b⟩ := t
  cases b <;> simp [Db.inTag, Db.tagRows, planDb, planTag]

theorem preds_plan (k : Option Connector) (c : CardPlan) :
    (planCard k c).before = k.toList.map (fun k => (connectorStep k).item {}) ∧
      (planCard k c).preds = [(predStep c.leadingOr c.pred).item (planOut c.pred)] := by
  cases k <;> exact ⟨rfl, rfl⟩

theorem pred_plan (pred : Bool) :
    (planDb g).pred (planContact g) none (planPred pred) = some true ↔ pred = true := by
  cases pred
  · exact iff_of_false (by revert g; decide) (by decide)
  · exact iff_of_true (by revert g; decide) rfl

theorem lawful_plan (k : Option Connector) (c : CardPlan) :
    LawfulItems (planCard k c).items :=
  lawfulItems (switchV1_lawful plainRuntime planTag ⟨[], false, false, false, none⟩ "UTC")
    (items_plan 0 k c)

theorem formula_plan (k : Option Connector) (c : CardPlan) :
    (planCard k c).formula = some (.leaf (planPred c.pred)) := by
  unfold CardOut.formula CardOut.inside
  rw [(preds_plan k c).2]
  rfl

theorem join_plan (k : Option Connector) (c : CardPlan) : (planCard k c).join = false := by
  cases k <;> rfl

theorem read_plan (k : Option Connector) (c : CardPlan) :
    Infix.read ((planCard k c).whereToks planTag)
      = some (guarded planTag (predStep c.leadingOr c.pred).conditional
          (.leaf (planPred c.pred))) := by
  obtain ⟨hbefore, hpreds⟩ := preds_plan k c
  refine (read_where (lawful_plan k c)).mpr ⟨?_, .inr ⟨_, _, _, hpreds, formula_plan k c, rfl⟩⟩
  intro i hi
  rw [hbefore] at hi
  obtain ⟨k', _, rfl⟩ := List.mem_map.mp hi
  rfl

theorem mem_select_plan (k : Option Connector) (c : CardPlan) :
    1 ∈ (planDb g).selectRows ((planCard k c).select planTag) ↔
      if c.leadingOr then g = true ∨ c.pred = true else g = true ∧ c.pred = true := by
  have hguard : (planDb g).Holds (planContact g) none (guardCond planTag) ↔ g = true := by
    simp [guardCond, Db.pred, planTag, planContact]
  have hread := read_plan k c
  rw [mem_selectRows]
  constructor
  · rintro ⟨ct, hct, _⟩
    obtain ⟨φ, hφ, hmem, ctd, hctd, hholds⟩ := mem_selectContacts.mp hct
    have hct : ct = planContact g := List.mem_singleton.mp hmem
    have hnone : ctd = none := by
      simpa [CardOut.select, join_plan, Db.joined] using hctd
    subst hct hnone
    cases Option.some.inj (hread.symm.trans hφ)
    cases hl : c.leadingOr with
    | true =>
        simp only [predStep, hl, if_true, guarded, holds_or, hguard, holds_leaf, pred_plan] at hholds
        simpa using hholds
    | false =>
        simp only [predStep, hl, Bool.false_eq_true, if_false, guarded, holds_and, hguard,
          holds_leaf, pred_plan] at hholds
        simpa using hholds
  · intro h
    refine ⟨planContact g, mem_selectContacts.mpr ⟨_, hread, List.mem_singleton.mpr rfl, none, ?_,
      ?_⟩, rfl⟩
    · simp [CardOut.select, join_plan, Db.joined]
    · cases hl : c.leadingOr with
      | true =>
          simp only [predStep, if_true, guarded, holds_or, hguard, holds_leaf, pred_plan]
          simpa [hl] using h
      | false =>
          simp only [predStep, Bool.false_eq_true, if_false, guarded, holds_and, hguard,
            holds_leaf, pred_plan]
          simpa [hl] using h

/-- In the text, the planned contact is in a card as planned. -/
theorem mem_card_plan (k : Option Connector) (c : CardPlan) :
    1 ∈ (planDb g).rows ((planCard k c).expr planTag) ↔ c.code g := by
  have htags : ((planCard k c).tags.map fun t => (tagOp t, (planDb g).inTag planTag t 1))
      = c.tags.map fun t => (memberOp t.1, t.2 = true) := by
    rw [CardOut.tags, tags_plan, List.map_map]
    refine List.map_congr_left fun t _ => ?_
    simp only [Function.comp_apply, tagOp, isIn_plan, propext (inTag_plan t _)]
  rw [mem_card, htags, propext (mem_select_plan k c)]
  rfl

theorem mem_cardSet_plan (k : Option Connector) (c : CardPlan) :
    1 ∈ (planDb g).cardSet planTag (planCard k c) ↔ c.spec g := by
  have hsat : (planDb g).satisfies (planCard k c) (planContact g) ↔ c.pred = true := by
    simp [Db.satisfies, (preds_plan k c).2, formula_plan, join_plan, Db.joined, pred_plan]
  have htags : (∀ t ∈ (planCard k c).tags, (planDb g).meets planTag t 1) ↔
      ∀ t ∈ c.tags, t.1 = t.2 := by
    rw [CardOut.tags, tags_plan, List.forall_mem_map]
    refine forall₂_congr fun t _ => ?_
    simp only [Db.meets, isIn_plan, inTag_plan]
    cases t.1 <;> cases t.2 <;> simp
  have hcontact : (∃ ct ∈ (planDb g).contacts, ct.id = 1 ∧ ct.accountId = planTag.accountId ∧
      ct.isActive = true ∧ (planDb g).satisfies (planCard k c) ct) ↔ g = true ∧ c.pred = true := by
    constructor
    · rintro ⟨ct, hmem, _, _, hact, hs⟩
      have hct : ct = planContact g := List.mem_singleton.mp hmem
      subst hct
      exact ⟨hact, hsat.mp hs⟩
    · rintro ⟨hg, hp⟩
      exact ⟨planContact g, List.mem_singleton.mpr rfl, rfl, rfl, hg, hsat.mpr hp⟩
  unfold Db.cardSet CardPlan.spec
  rw [Set.mem_ofPred_eq, hcontact, htags, and_assoc]

/-- The plan's segment, as PostgreSQL reads it. -/
def planQuery (p : Plan) : Query :=
  ⟨chainExpr planTag (planCard none p.first) (p.rest.map fun q => setOp q.1)
    (p.rest.map fun q => planCard (some q.1) q.2), none⟩

def planCards (p : Plan) : List CardOut :=
  planCard none p.first :: p.rest.map fun q => planCard (some q.1) q.2

theorem parse_plan (p : Plan) :
    parse (assemble planTag p.dto (planCards p)).query = some (planQuery p) := by
  have hlaw : Lawful (planCards p) := by
    intro d hd
    rcases List.mem_cons.mp hd with rfl | hd
    · exact lawful_plan _ _
    · obtain ⟨q, _, rfl⟩ := List.mem_map.mp hd
      exact lawful_plan _ _
  have hwf : ∀ k c, (Infix.read ((planCard k c).whereToks planTag)).isSome = true ∧
      ∀ t ∈ (planCard k c).tags, t.tagId ≠ [] := by
    intro k c
    refine ⟨by rw [read_plan]; rfl, ?_⟩
    rw [CardOut.tags, tags_plan, List.forall_mem_map]
    intro t _
    exact List.cons_ne_nil _ _
  refine (parse_assemble hlaw).mpr ⟨?_, _, _, p.rest.map fun q => setOp q.1, rfl, ?_, ?_, ?_, rfl⟩
  · intro d hd
    rcases List.mem_cons.mp hd with rfl | hd
    · exact hwf _ _
    · obtain ⟨q, _, rfl⟩ := List.mem_map.mp hd
      exact hwf _ _
  · exact List.cons_ne_nil _ _
  · rfl
  · unfold Chained
    rw [List.map_map, List.map_map]
    refine List.map_congr_left fun q _ => ?_
    obtain ⟨k, c⟩ := q
    cases k <;> rfl

theorem arranged_plan (p : Plan) : Arranged p.dto.steps p.arrangement := by
  have hshape : ∀ k c, shape ((planCard k c).steps) = c.shape := by
    intro k c
    have htags := tags_plan k c
    have hlead : leadsWithOr (planCard k c).steps = c.leadingOr := by
      cases k <;> cases hl : c.leadingOr <;>
        simp [planCard, CardPlan.steps, leadsWithOr, connectorStep, predStep, hl]
    unfold shape CardPlan.shape
    rw [hlead, htags, List.map_map]
    congr 1
    exact List.map_congr_left fun t _ => isIn_plan t _
  refine ⟨_, _, rfl, hshape none p.first, ?_⟩
  simp only [Plan.arrangement, List.map_map]
  refine List.map_congr_left fun q _ => ?_
  obtain ⟨k, c⟩ := q
  have hs := hshape (some k) c
  simp only [Function.comp_apply, planCard] at hs ⊢
  rw [hs]
  cases k <;> rfl

/-- Where the two folds disagree, the text does not mean the combination of sets. -/
theorem not_means_plan {p : Plan} {g : Bool} (h : ¬ (p.code g ↔ p.spec g)) :
    ¬ Means planTag (planCards p) (assemble planTag p.dto (planCards p)).query := by
  intro hmeans
  refine h ?_
  have hq := hmeans _ (parse_plan p) (planDb g) 1
  have hcode : 1 ∈ (planDb g).rows (planQuery p).expr ↔ p.code g := by
    have hzip : (p.rest.map fun q => setOp q.1).zip ((p.rest.map fun q =>
        planCard (some q.1) q.2).map fun d => 1 ∈ (planDb g).rows (d.expr planTag))
        = links (CardPlan.code g) p.rest := by
      rw [List.map_map, List.zip_map']
      exact List.map_congr_left fun q _ => by
        simp only [Function.comp_apply, propext (mem_card_plan (g := g) (some q.1) q.2)]
    rw [planQuery, mem_chain, hzip, propext (mem_card_plan none p.first)]
    rfl
  have hspec : 1 ∈ (planDb g).segmentSet planTag (planCards p) ↔ p.spec g := by
    have hmap : (p.rest.map fun q => planCard (some q.1) q.2).map
          (fun d => ((cardOp d.steps).getD (setOp .or), 1 ∈ (planDb g).cardSet planTag d))
        = links (CardPlan.spec g) p.rest := by
      rw [List.map_map]
      refine List.map_congr_left fun q _ => ?_
      obtain ⟨k, c⟩ := q
      simp only [Function.comp_apply, propext (mem_cardSet_plan (g := g) (some k) c)]
      cases k <;> rfl
    unfold Db.segmentSet planCards
    rw [Set.mem_ofPred_eq, hmap, propext (mem_cardSet_plan none p.first)]
    rfl
  rw [← hcode, ← hspec]
  exact hq

end

/-! ## The V1 generator -/

/-- An e-mail provider and two tag conditions, in the given order. -/
def providerAndTags (ts : List TagStepData) : SegmentDtoLike :=
  { steps := [
      { body := .userField { userFieldKey := .str "email_provider"
                             conditionalUserField := .str "="
                             userFieldValue := .str "Gmail" } } ::
      ts.map fun t => { body := .tag t }] }

def notIn5 : TagStepData := { conditionalTag := .str "not in", tagId := [5] }

def in6 : TagStepData := { conditionalTag := .str "in", tagId := [6] }

/-- One active contact without tags. -/
def untaggedDb : Db :=
  { contacts := [{ id := 1, accountId := 1, isActive := true, column := fun _ => .text "Gmail" }] }

end OpenBms.Segment
