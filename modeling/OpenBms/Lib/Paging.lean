/-
# `OpenBms.Lib.Paging` — reading a source page by page

    let page = 1;
    while (true) {
      const rows = fetch(page);
      if (rows.length === 0) break;
      body(rows);
      if (rows.length < n) break;
      page++;
    }

The loop stops at the first page that is not full.  A source that answers every
page with the same full list never lets it stop.

**Proved here.**

    a loop that stops has read the pages up to the first
    that is not full (`loop_eq_some`)
    and it stops there, given turns enough (`loop_stops`)
    over the pages of one list the body sees the
    list's slices, each once (`loop_page_iff`)
-/
import OpenBms.Lib.Chunk

namespace Paging

variable {α σ : Type}

/-- `LIMIT n OFFSET (p - 1) * n`. -/
def page (n : Nat) (l : List α) (p : Nat) : List α := (l.drop ((p - 1) * n)).take n

/-- At most `k` turns of the loop, the next one for page `p`. -/
def loop (n : Nat) (fetch : Nat → List α) (body : σ → List α → σ) : Nat → Nat → σ → Option σ
  | 0, _, _ => none
  | k + 1, p, s =>
      match fetch p with
      | [] => some s
      | a :: rows =>
          if (a :: rows).length < n then some (body s (a :: rows))
          else loop n fetch body k (p + 1) (body s (a :: rows))

/-- The pages the loop reads when page `p + m` is the first that is not full. -/
def reads (fetch : Nat → List α) (p m : Nat) : List (List α) :=
  ((List.range (m + 1)).map fun i => fetch (p + i)).filter (!·.isEmpty)

/-- The first page that is not full, counted from `p`. -/
def Short (n : Nat) (fetch : Nat → List α) (p m : Nat) : Prop :=
  (∀ i < m, n ≤ (fetch (p + i)).length) ∧ (fetch (p + m)).length < n

theorem reads_zero (fetch : Nat → List α) (p : Nat) :
    reads fetch p 0 = [fetch p].filter (!·.isEmpty) := rfl

theorem filter_read {rows : List α} (h : rows ≠ []) (l : List (List α)) :
    (rows :: l).filter (!·.isEmpty) = rows :: l.filter (!·.isEmpty) := by
  cases rows with
  | nil => exact absurd rfl h
  | cons a rows => rfl

theorem reads_succ {n : Nat} (hn : 0 < n) {fetch : Nat → List α} {p m : Nat}
    (h : n ≤ (fetch p).length) : reads fetch p (m + 1) = fetch p :: reads fetch (p + 1) m := by
  have hne : fetch p ≠ [] := by
    intro hf
    rw [hf, List.length_nil] at h
    omega
  have hmap : (List.range (m + 1)).map (fun i => fetch (p + (i + 1)))
      = (List.range (m + 1)).map fun i => fetch (p + 1 + i) :=
    List.map_congr_left fun i _ => by rw [Nat.add_assoc, Nat.add_comm 1 i]
  rw [reads, List.range_succ_eq_map, List.map_cons, List.map_map, Nat.add_zero,
    filter_read hne]
  exact congrArg (fun l => fetch p :: List.filter (!·.isEmpty) l) hmap

theorem short_succ {n : Nat} {fetch : Nat → List α} {p m : Nat} (h : n ≤ (fetch p).length) :
    Short n fetch p (m + 1) ↔ Short n fetch (p + 1) m := by
  have hshift : ∀ i, p + (i + 1) = p + 1 + i := fun i => by omega
  constructor
  · rintro ⟨hfull, hshort⟩
    refine ⟨fun i hi => ?_, hshift m ▸ hshort⟩
    exact hshift i ▸ hfull (i + 1) (by omega)
  · rintro ⟨hfull, hshort⟩
    refine ⟨fun i hi => ?_, (hshift m).symm ▸ hshort⟩
    cases i with
    | zero => exact h
    | succ i => exact (hshift i).symm ▸ hfull i (by omega)

/-- There is one first short page at most. -/
theorem Short.unique {n : Nat} {fetch : Nat → List α} {p m m' : Nat} (h : Short n fetch p m)
    (h' : Short n fetch p m') : m = m' := by
  rcases Nat.lt_trichotomy m m' with hlt | heq | hlt
  · exact absurd (h'.1 m hlt) (by have := h.2; omega)
  · exact heq
  · exact absurd (h.1 m' hlt) (by have := h'.2; omega)

theorem loop_eq_some {n : Nat} (hn : 0 < n) {fetch : Nat → List α} {body : σ → List α → σ}
    {k p : Nat} {s t : σ} (h : loop n fetch body k p s = some t) :
    ∃ m, Short n fetch p m ∧ t = (reads fetch p m).foldl body s := by
  induction k generalizing p s with
  | zero => cases h
  | succ k ih =>
      rw [loop] at h
      cases hf : fetch p with
      | nil =>
          rw [hf] at h
          obtain rfl := Option.some.inj h
          refine ⟨0, ⟨fun i hi => absurd hi (Nat.not_lt_zero i), ?_⟩, ?_⟩
          · rw [Nat.add_zero, hf]
            exact hn
          · rw [reads_zero, hf]
            rfl
      | cons a rows =>
          rw [hf] at h
          dsimp only at h
          split at h
          · next hshort =>
            obtain rfl := Option.some.inj h
            refine ⟨0, ⟨fun i hi => absurd hi (Nat.not_lt_zero i), ?_⟩, ?_⟩
            · rw [Nat.add_zero, hf]
              exact hshort
            · rw [reads_zero, hf]
              rfl
          · next hfull =>
            obtain ⟨m, hm, ht⟩ := ih h
            have hlen : n ≤ (fetch p).length := by
              rw [hf]
              omega
            refine ⟨m + 1, (short_succ hlen).mpr hm, ?_⟩
            rw [reads_succ hn hlen, List.foldl_cons, hf]
            exact ht

theorem loop_stops {n : Nat} (hn : 0 < n) {fetch : Nat → List α} {body : σ → List α → σ}
    {k p m : Nat} (s : σ) (hm : Short n fetch p m) (hk : m < k) :
    loop n fetch body k p s = some ((reads fetch p m).foldl body s) := by
  induction k generalizing p m s with
  | zero => exact absurd hk (Nat.not_lt_zero m)
  | succ k ih =>
      cases hf : fetch p with
      | nil =>
          have hzero : m = 0 := by
            refine Nat.eq_zero_of_not_pos fun hpos => ?_
            have hfull := hm.1 0 hpos
            rw [Nat.add_zero, hf, List.length_nil] at hfull
            omega
          subst hzero
          rw [loop, reads_zero, hf]
          rfl
      | cons a rows =>
          cases m with
          | zero =>
              have hshort := hm.2
              rw [Nat.add_zero, hf] at hshort
              rw [loop, reads_zero, hf]
              dsimp only
              rw [if_pos hshort]
              rfl
          | succ m =>
              have hlen : n ≤ (fetch p).length := hm.1 0 (Nat.succ_pos m)
              have hfull : ¬(a :: rows).length < n := by
                rw [← hf]
                omega
              rw [loop, hf]
              dsimp only
              rw [if_neg hfull, ih _ ((short_succ hlen).mp hm) (by omega), reads_succ hn hlen, hf]
              rfl

/-! ## The pages of one list -/

theorem page_succ (n : Nat) (l : List α) (p : Nat) :
    page n l (p + 1) = (l.drop (p * n)).take n := by
  rw [page, Nat.add_sub_cancel]

theorem page_drop (n : Nat) (l : List α) (p i : Nat) :
    page n l (p + 1 + i) = page n (l.drop (p * n)) (1 + i) := by
  have hsum : p + 1 + i = p + i + 1 := by omega
  rw [hsum, Nat.add_comm 1 i, page_succ, page_succ, List.drop_drop, Nat.add_mul]

theorem exists_short_page {n : Nat} (hn : 0 < n) (l : List α) :
    ∃ m, m ≤ l.length ∧ Short n (page n l) 1 m ∧ reads (page n l) 1 m = Chunk.chunk n l := by
  induction l using Chunk.chunk_induction hn with
  | nil =>
      refine ⟨0, Nat.le_refl _, ⟨fun i hi => absurd hi (Nat.not_lt_zero i), ?_⟩, ?_⟩
      · rw [page, List.drop_nil, List.take_nil]
        exact hn
      · rw [reads_zero, page, List.drop_nil, List.take_nil]
        rfl
  | cons l hl ih =>
      obtain ⟨m, hle, hm, hreads⟩ := ih
      have hfirst : page n l 1 = l.take n := by
        rw [page_succ, Nat.zero_mul, List.drop_zero]
      have hshift : ∀ i, page n l (1 + 1 + i) = page n (l.drop n) (1 + i) := fun i => by
        rw [page_drop, Nat.one_mul]
      rw [Chunk.chunk_cons hn hl]
      rcases Nat.lt_or_ge l.length n with hlt | hge
      · -- the whole list is one page, and that page is short
        have htake : l.take n = l := List.take_of_length_le hlt.le
        have hdrop : l.drop n = [] := List.drop_of_length_le hlt.le
        refine ⟨0, Nat.zero_le _, ⟨fun i hi => absurd hi (Nat.not_lt_zero i), ?_⟩, ?_⟩
        · rw [Nat.add_zero, hfirst, htake]
          exact hlt
        · rw [reads_zero, hfirst, htake, hdrop, Chunk.chunk_nil, filter_read hl]
          rfl
      · have hfull : n ≤ (page n l 1).length := by
          rw [hfirst, List.length_take]
          omega
        have hm' : Short n (page n l) (1 + 1) m := by
          refine ⟨fun i hi => ?_, ?_⟩
          · rw [hshift]
            exact hm.1 i hi
          · rw [hshift]
            exact hm.2
        refine ⟨m + 1, ?_, (short_succ hfull).mpr hm', ?_⟩
        · rw [List.length_drop] at hle
          omega
        · rw [reads_succ hn hfull, hfirst, ← hreads]
          refine congrArg (l.take n :: ·) ?_
          exact congrArg (List.filter _) (List.map_congr_left fun i _ => hshift i)

theorem loop_page_iff {n : Nat} (hn : 0 < n) {l : List α} {body : σ → List α → σ} {k : Nat}
    (hk : l.length < k) (s t : σ) :
    loop n (page n l) body k 1 s = some t ↔ t = (Chunk.chunk n l).foldl body s := by
  obtain ⟨m, hle, hm, hreads⟩ := exists_short_page hn l
  rw [loop_stops hn s hm (by omega), hreads, Option.some.injEq]
  exact eq_comm

/-- Whatever the turns, a loop that stops has seen the list's slices. -/
theorem loop_page_eq_some {n : Nat} (hn : 0 < n) {l : List α} {body : σ → List α → σ} {k : Nat}
    {s t : σ} (h : loop n (page n l) body k 1 s = some t) :
    t = (Chunk.chunk n l).foldl body s := by
  obtain ⟨m, hm, ht⟩ := loop_eq_some hn h
  obtain ⟨m', _, hm', hreads⟩ := exists_short_page hn l
  obtain rfl := hm.unique hm'
  rw [ht, hreads]

end Paging
