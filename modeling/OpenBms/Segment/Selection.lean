/-
# `OpenBms.Segment.Selection` — which contacts a generated query selects

`Db.rows` evaluates a set expression to a list of ids.  Membership in that list
is a matter of propositions: a `SELECT` is an existential, `UNION` a
disjunction, `INTERSECT` a conjunction and `EXCEPT` a conjunction with a
negation.

    mem_selectRows     an id is in a contacts SELECT
    mem_card           .. in a card: its SELECT and its tags, folded flat
    mem_chain          .. in the whole query: the cards, folded flat
-/
import OpenBms.Segment.Reading

namespace OpenBms.Segment

/-- `UNION` and `EXCEPT` on memberships. -/
def setLoMem : SetLo → Prop → Prop → Prop
  | .union, a, b => a ∨ b
  | .except, a, b => a ∧ ¬ b

/-- `INTERSECT` on memberships. -/
def setHiMem : Unit → Prop → Prop → Prop := fun _ a b => a ∧ b

theorem mem_setLoRows {o : SetLo} {a b : List Int} {i : Int} :
    i ∈ setLoRows o a b ↔ setLoMem o (i ∈ a) (i ∈ b) := by
  cases o <;> simp [setLoRows, setLoMem]

theorem mem_intersectRows {a b : List Int} {i : Int} :
    i ∈ intersectRows a b ↔ i ∈ a ∧ i ∈ b := by
  simp [intersectRows]

section
variable {db : Db} {tag : TagLike} {i : Int}

theorem mem_rows {e : SetExpr} :
    i ∈ db.rows e ↔ e.eval (fun s => i ∈ db.sourceRows s) setLoMem setHiMem := by
  have h := Infix.eval_map (f := db.sourceRows) (fun l : List Int => i ∈ l)
    (fun o a b => propext (mem_setLoRows (o := o) (a := a) (b := b)))
    (fun (_ : Unit) a b => propext (mem_intersectRows (a := a) (b := b))) e
  exact iff_of_eq h

theorem mem_selectContacts {s : ContactsSelect} {ct : Contact} :
    ct ∈ db.selectContacts s ↔ ∃ φ, Infix.read s.whereToks = some φ ∧ ct ∈ db.contacts ∧
      ∃ ctd ∈ db.joined s.join ct, db.Holds ct ctd φ := by
  unfold Db.selectContacts
  cases hr : Infix.read s.whereToks with
  | none => simp
  | some φ =>
      simp only [List.mem_flatMap, List.mem_map, List.mem_filter, decide_eq_true_eq,
        Option.some.injEq, exists_eq_left']
      constructor
      · rintro ⟨ct', hct, ctd, ⟨hmem, hholds⟩, rfl⟩
        exact ⟨hct, ctd, hmem, hholds⟩
      · rintro ⟨hct, ctd, hmem, hholds⟩
        exact ⟨ct, hct, ctd, ⟨hmem, hholds⟩, rfl⟩

theorem mem_selectRows {s : ContactsSelect} :
    i ∈ db.selectRows s ↔ ∃ ct ∈ db.selectContacts s, ct.id = i := by
  simp [Db.selectRows]

/-- The tag table's side of a tag step. -/
def Db.inTag (db : Db) (tag : TagLike) (t : TagStepData) (i : Int) : Prop :=
  i ∈ db.tagRows tag.accountId t.tagId

theorem mem_card {c : CardOut} :
    i ∈ db.rows (c.expr tag) ↔
      Infix.foldChain setLoMem setHiMem none (i ∈ db.selectRows (c.select tag))
        (c.tags.map fun t => (tagOp t, db.inTag tag t i)) := by
  rw [mem_rows, CardOut.expr, Infix.eval_foldChain]
  simp only [Option.map_none, List.map_map]
  rfl

theorem mem_chain {c : CardOut} {ops : List (SetLo ⊕ Unit)} {ds : List CardOut} :
    i ∈ db.rows (chainExpr tag c ops ds) ↔
      Infix.foldChain setLoMem setHiMem none (i ∈ db.rows (c.expr tag))
        (ops.zip (ds.map fun d => i ∈ db.rows (d.expr tag))) := by
  rw [mem_rows, chainExpr, Infix.eval_foldChain]
  have hzip : (ops.zip (ds.map (CardOut.expr tag))).map
        (fun p => (p.1, p.2.eval (fun s => i ∈ db.sourceRows s) setLoMem setHiMem))
      = ops.zip (ds.map fun d => i ∈ db.rows (d.expr tag)) := by
    have hmap : (ds.map fun d => i ∈ db.rows (d.expr tag))
        = (ds.map (CardOut.expr tag)).map
          (fun e => e.eval (fun s => i ∈ db.sourceRows s) setLoMem setHiMem) := by
      rw [List.map_map]
      exact List.map_congr_left fun d _ => propext mem_rows
    rw [hmap]
    exact (List.zip_map_right (f := fun e : SetExpr =>
      e.eval (fun s => i ∈ db.sourceRows s) setLoMem setHiMem)).symm
  rw [hzip, ← mem_rows]
  rfl

theorem mem_select_of_mem_card {c : CardOut} (h : i ∈ db.rows (c.expr tag)) :
    i ∈ db.selectRows (c.select tag) := by
  have hleft := Infix.foldChain_left (f := setLoMem) (g := setHiMem)
    (Q := fun p => p → i ∈ db.selectRows (c.select tag)) (R := fun _ => True)
    (fun _ a b ha _ hab => ha hab.1) (fun _ _ _ _ _ => trivial)
    (c.tags.map fun t => (tagOp t, db.inTag tag t i)) (fun _ _ => trivial)
    (by
      intro o x hmem a b ha _ hab
      obtain ⟨t, _, ht⟩ := List.mem_map.mp hmem
      have ho : tagOp t = .inl o := congrArg Prod.fst ht
      unfold tagOp at ho
      cases hin : t.isIn with
      | true =>
          rw [hin] at ho
          exact nomatch ho
      | false =>
          rw [hin] at ho
          cases ho
          exact ha hab.1)
  exact hleft.1 _ id (mem_card.mp h)

/-- The query selects no more than its cards together. -/
theorem mem_card_of_mem_chain {c : CardOut} {ops : List (SetLo ⊕ Unit)} {ds : List CardOut}
    (h : i ∈ db.rows (chainExpr tag c ops ds)) :
    ∃ d ∈ c :: ds, i ∈ db.rows (d.expr tag) := by
  let Q : Prop → Prop := fun p => p → ∃ d ∈ c :: ds, i ∈ db.rows (d.expr tag)
  have hlo : ∀ (o : SetLo) (a b : Prop), Q a → Q b → Q (setLoMem o a b) := by
    intro o a b ha hb hab
    cases o with
    | union => exact hab.elim ha hb
    | except => exact ha hab.1
  have hleft := Infix.foldChain_left (f := setLoMem) (g := setHiMem) (Q := Q) (R := Q)
    (fun _ a b ha _ hab => ha hab.1) (fun _ a b ha _ hab => ha hab.1)
    (ops.zip (ds.map fun d => i ∈ db.rows (d.expr tag)))
    (by
      intro p hp hmem
      obtain ⟨d, hd, hdp⟩ := List.mem_map.mp (List.of_mem_zip hp).2
      exact ⟨d, List.mem_cons_of_mem _ hd, hdp.symm ▸ hmem⟩)
    (fun o _ _ a b => hlo o a b)
  exact hleft.1 _ (fun hc => ⟨c, List.mem_cons_self, hc⟩) (mem_chain.mp h)

/-- With or without a `LIMIT`, only rows of the set expression are selected. -/
theorem mem_of_selects {q : Query} {rows : List Int} (h : db.Selects q rows) (hi : i ∈ rows) :
    i ∈ db.rows q.expr := by
  unfold Db.Selects at h
  split at h
  · exact h.mem_iff.mp hi
  · exact List.Subperm.subset h.1 hi

end

end OpenBms.Segment
