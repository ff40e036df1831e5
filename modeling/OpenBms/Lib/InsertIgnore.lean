/-
# `OpenBms.Lib.InsertIgnore` — an insert that skips what clashes

    INSERT INTO t VALUES … ON CONFLICT DO NOTHING

The rows come one after another; one that clashes with a row the table holds by
then is skipped.  `clash` stands for the table's unique constraints, whatever
they are.

**Proved here.**

    the table is a prefix of what comes out (`prefix_insertIgnore`)
    what is added is taken from the rows, in their order (`exists_added`)
    two statements are one (`insertIgnore_append`)
    nothing is added exactly when every row clashes
    with the table (`insertIgnore_eq_self_iff`)
    everything is added exactly when no row clashes
    with the table or with one before it (`insertIgnore_eq_append_iff`)
-/
import Mathlib

namespace InsertIgnore

variable {α : Type} (clash : α → α → Bool)

def insertOne (t : List α) (r : α) : List α :=
  if t.any (clash · r) then t else t ++ [r]

def insertIgnore (t rs : List α) : List α :=
  rs.foldl (insertOne clash) t

variable {clash}

theorem insertIgnore_cons (t : List α) (r : α) (rs : List α) :
    insertIgnore clash t (r :: rs) = insertIgnore clash (insertOne clash t r) rs := rfl

theorem insertIgnore_append (t rs rs' : List α) :
    insertIgnore clash t (rs ++ rs') = insertIgnore clash (insertIgnore clash t rs) rs' :=
  List.foldl_append

theorem insertOne_of_clash {t : List α} {r x : α} (hx : x ∈ t) (h : clash x r = true) :
    insertOne clash t r = t :=
  if_pos (List.any_eq_true.mpr ⟨x, hx, h⟩)

theorem insertOne_of_free {t : List α} {r : α} (h : ∀ x ∈ t, clash x r = false) :
    insertOne clash t r = t ++ [r] := by
  refine if_neg fun hany => ?_
  obtain ⟨x, hx, hxr⟩ := List.any_eq_true.mp hany
  rw [h x hx] at hxr
  exact Bool.false_ne_true hxr

variable (clash) in
/-- Either the row clashes and the table stays, or it is free and comes last. -/
theorem insertOne_cases (t : List α) (r : α) :
    ((∃ x ∈ t, clash x r = true) ∧ insertOne clash t r = t) ∨
      ((∀ x ∈ t, clash x r = false) ∧ insertOne clash t r = t ++ [r]) := by
  cases hany : t.any (clash · r) with
  | true =>
      obtain ⟨x, hx, hxr⟩ := List.any_eq_true.mp hany
      exact .inl ⟨⟨x, hx, hxr⟩, insertOne_of_clash hx hxr⟩
  | false =>
      have hfree : ∀ x ∈ t, clash x r = false := by
        intro x hx
        simpa using List.any_eq_false.mp hany x hx
      exact .inr ⟨hfree, insertOne_of_free hfree⟩

variable (clash) in
theorem exists_added (t rs : List α) :
    ∃ added, insertIgnore clash t rs = t ++ added ∧ added.Sublist rs := by
  induction rs generalizing t with
  | nil => exact ⟨[], (List.append_nil t).symm, List.Sublist.refl []⟩
  | cons r rs ih =>
      rw [insertIgnore_cons]
      obtain ⟨added, heq, hsub⟩ := ih (insertOne clash t r)
      rcases insertOne_cases clash t r with ⟨_, hone⟩ | ⟨_, hone⟩
      · rw [hone] at heq ⊢
        exact ⟨added, heq, hsub.cons r⟩
      · rw [hone] at heq ⊢
        exact ⟨r :: added, by rw [heq, List.append_assoc]; rfl, hsub.cons_cons r⟩

variable (clash) in
theorem prefix_insertIgnore (t rs : List α) : t <+: insertIgnore clash t rs := by
  obtain ⟨added, heq, _⟩ := exists_added clash t rs
  exact ⟨added, heq.symm⟩

theorem mem_insertIgnore {t rs : List α} {r : α} (h : r ∈ insertIgnore clash t rs) :
    r ∈ t ∨ r ∈ rs := by
  obtain ⟨added, heq, hsub⟩ := exists_added clash t rs
  rw [heq, List.mem_append] at h
  exact h.imp_right fun hr => hsub.subset hr

theorem insertIgnore_eq_self_iff {t rs : List α} :
    insertIgnore clash t rs = t ↔ ∀ r ∈ rs, ∃ x ∈ t, clash x r = true := by
  induction rs with
  | nil => exact ⟨nofun, fun _ => rfl⟩
  | cons r rs ih =>
      rw [insertIgnore_cons, List.forall_mem_cons]
      rcases insertOne_cases clash t r with ⟨hclash, hone⟩ | ⟨hfree, hone⟩
      · rw [hone, ih]
        exact ⟨fun h => ⟨hclash, h⟩, fun h => h.2⟩
      · rw [hone]
        refine ⟨fun h => ?_, fun ⟨⟨x, hx, hxr⟩, _⟩ => ?_⟩
        · -- the table would be longer than itself
          have hlen := (prefix_insertIgnore clash (t ++ [r]) rs).length_le
          rw [h, List.length_append, List.length_singleton] at hlen
          omega
        · rw [hfree x hx] at hxr
          exact absurd hxr Bool.false_ne_true

theorem insertIgnore_eq_append_iff {t rs : List α} :
    insertIgnore clash t rs = t ++ rs ↔
      (∀ r ∈ rs, ∀ x ∈ t, clash x r = false) ∧ rs.Pairwise fun x r => clash x r = false := by
  induction rs generalizing t with
  | nil => exact ⟨fun _ => ⟨nofun, .nil⟩, fun _ => (List.append_nil t).symm⟩
  | cons r rs ih =>
      rw [insertIgnore_cons, List.forall_mem_cons, List.pairwise_cons]
      rcases insertOne_cases clash t r with ⟨⟨x, hx, hxr⟩, hone⟩ | ⟨hfree, hone⟩
      · rw [hone]
        refine ⟨fun h => ?_, fun h => ?_⟩
        · -- one row fewer has been offered than has been added
          obtain ⟨added, heq, hsub⟩ := exists_added clash t rs
          have hlen := hsub.length_le
          rw [List.append_cancel_left (heq.symm.trans h), List.length_cons] at hlen
          omega
        · exact absurd (hxr.symm.trans (h.1.1 x hx)) (fun h => Bool.false_ne_true h.symm)
      · have hcons : t ++ r :: rs = t ++ [r] ++ rs := by rw [List.append_assoc]; rfl
        rw [hone, hcons, ih]
        constructor
        · rintro ⟨hrs, hpair⟩
          refine ⟨⟨hfree, fun b hb x hx => hrs b hb x (List.mem_append_left _ hx)⟩, ?_, hpair⟩
          intro b hb
          exact hrs b hb r (List.mem_append_right _ (List.mem_singleton_self r))
        · rintro ⟨⟨_, hrs⟩, hr, hpair⟩
          refine ⟨fun b hb x hx => ?_, hpair⟩
          rcases List.mem_append.mp hx with hx | hx
          · exact hrs b hb x hx
          · obtain rfl := List.mem_singleton.mp hx
            exact hr b hb

end InsertIgnore
