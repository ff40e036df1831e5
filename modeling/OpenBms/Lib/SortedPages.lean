/-
# `OpenBms.Lib.SortedPages` — pages of an ORDER BY that has ties

    SELECT … ORDER BY key LIMIT n OFFSET (p - 1) * n

Rows with one key may come in any order, and in another order for every page:
each query is answered by some sorted permutation of the rows.  A row of a tie
that reaches over the end of a page can then be on the page before it in one
answer and on the page after it in the next, and be seen on neither.

**Proved here**, for rows that are all different and `0 < n`.

    a row's place lies between the number of rows before
    its tie and the number of rows up to its end (`countP_lt_le_index`, `index_lt_countP_le`)
    every row is on a page, whatever the answers, exactly
    when every tie lies on one page (`forall_listed_iff`)
    then it is on that page only, and who reads up to the
    first page that is not full has each row once (`mem_page_of_unsplit`, `loop_perm`)
-/
import OpenBms.Lib.Paging

namespace SortedPages

variable {α κ : Type} [LinearOrder κ] (key : α → κ)

/-- An answer to each page's query. -/
def Answers (l : List α) (answer : Nat → List α) : Prop :=
  ∀ p, (answer p).Perm l ∧ (answer p).Pairwise fun a b => key a ≤ key b

/-- The rows on the pages, read from the first on. -/
def Listed (n : Nat) (answer : Nat → List α) (a : α) : Prop :=
  ∃ p, a ∈ Paging.page n (answer (p + 1)) (p + 1)

/-- Number of rows that sort before the tie of `a`. -/
def before (l : List α) (a : α) : Nat := l.countP fun b => decide (key b < key a)

/-- Number of rows that sort up to the end of the tie of `a`. -/
def upTo (l : List α) (a : α) : Nat := l.countP fun b => decide (key b ≤ key a)

/-- Every tie lies on one page. -/
def Unsplit (n : Nat) (l : List α) : Prop :=
  ∀ a ∈ l, before key l a / n = (upTo key l a - 1) / n

variable {key}

theorem countP_lt_le_index {s : List α} (hs : s.Pairwise fun a b => key a ≤ key b) {i : Nat} {a : α}
    (ha : s[i]? = some a) : before key s a ≤ i := by
  obtain ⟨hi, hget⟩ := List.getElem?_eq_some_iff.mp ha
  have hdrop : (s.drop i).countP (fun b => decide (key b < key a)) = 0 := by
    refine List.countP_eq_zero.mpr fun b hb => ?_
    rw [List.drop_eq_getElem_cons hi, hget] at hb
    rcases List.mem_cons.mp hb with rfl | hb
    · exact fun h => lt_irrefl _ (of_decide_eq_true h)
    · have hle : key a ≤ key b := by
        have hpair := hs.sublist (List.drop_sublist i s)
        rw [List.drop_eq_getElem_cons hi, hget] at hpair
        exact (List.pairwise_cons.mp hpair).1 b hb
      exact fun h => absurd (of_decide_eq_true h) (not_lt.mpr hle)
  have hsplit : (s.take i ++ s.drop i).countP (fun b => decide (key b < key a))
      = (s.take i).countP (fun b => decide (key b < key a))
        + (s.drop i).countP (fun b => decide (key b < key a)) := List.countP_append
  rw [List.take_append_drop, hdrop, Nat.add_zero] at hsplit
  rw [before, hsplit]
  exact List.countP_le_length.trans (List.length_take_le i s)

theorem index_lt_countP_le {s : List α} (hs : s.Pairwise fun a b => key a ≤ key b) {i : Nat} {a : α}
    (ha : s[i]? = some a) : i < upTo key s a := by
  obtain ⟨hi, hget⟩ := List.getElem?_eq_some_iff.mp ha
  have htake : (s.take (i + 1)).countP (fun b => decide (key b ≤ key a)) = i + 1 := by
    have hlen : (s.take (i + 1)).length = i + 1 := by
      rw [List.length_take]
      omega
    refine (List.countP_eq_length.mpr fun b hb => ?_).trans hlen
    rw [← List.take_append_getElem hi, hget] at hb
    rcases List.mem_append.mp hb with hb | hb
    · have hpair := hs.sublist (List.take_sublist (i + 1) s)
      rw [← List.take_append_getElem hi, hget] at hpair
      exact decide_eq_true ((List.pairwise_append.mp hpair).2.2 b hb a (List.mem_singleton_self a))
    · exact decide_eq_true (List.mem_singleton.mp hb ▸ le_refl _)
  have hsplit : (s.take (i + 1) ++ s.drop (i + 1)).countP (fun b => decide (key b ≤ key a))
      = (s.take (i + 1)).countP (fun b => decide (key b ≤ key a))
        + (s.drop (i + 1)).countP (fun b => decide (key b ≤ key a)) := List.countP_append
  rw [List.take_append_drop, htake] at hsplit
  rw [upTo, hsplit]
  omega

theorem before_perm {s l : List α} (h : s.Perm l) (a : α) : before key s a = before key l a :=
  h.countP_eq _

theorem upTo_perm {s l : List α} (h : s.Perm l) (a : α) : upTo key s a = upTo key l a :=
  h.countP_eq _

/-- A row is on the page its place is on. -/
theorem mem_page_iff {n : Nat} (hn : 0 < n) {s : List α} {p : Nat} {a : α} :
    a ∈ Paging.page n s (p + 1) ↔ ∃ i, s[i]? = some a ∧ i / n = p := by
  rw [Paging.page_succ, List.mem_iff_getElem?]
  constructor
  · rintro ⟨j, hj⟩
    rw [List.getElem?_take] at hj
    split at hj
    · next hjn =>
      rw [List.getElem?_drop] at hj
      exact ⟨p * n + j, hj, Nat.div_eq_of_lt_le (by omega) (by rw [Nat.succ_mul]; omega)⟩
    · cases hj
  · rintro ⟨i, hi, hp⟩
    have hmod : i = p * n + i % n := by
      rw [← hp, Nat.mul_comm]
      exact (Nat.div_add_mod i n).symm
    refine ⟨i % n, ?_⟩
    rw [List.getElem?_take, if_pos (Nat.mod_lt i hn), List.getElem?_drop, ← hmod]
    exact hi

/-- A tie on one page is on that page in every answer. -/
theorem listed_of_unsplit {n : Nat} (hn : 0 < n) {l : List α} {answer : Nat → List α}
    (hanswer : Answers key l answer) (hunsplit : Unsplit key n l) {a : α} (ha : a ∈ l) :
    Listed n answer a := by
  obtain ⟨hperm, hsort⟩ := hanswer (before key l a / n + 1)
  obtain ⟨i, hi⟩ := List.mem_iff_getElem?.mp (hperm.mem_iff.mpr ha)
  have hlow := countP_lt_le_index hsort hi
  have hhigh := index_lt_countP_le hsort hi
  rw [before_perm hperm] at hlow
  rw [upTo_perm hperm] at hhigh
  refine ⟨before key l a / n, (mem_page_iff hn).mpr ⟨i, hi, ?_⟩⟩
  refine le_antisymm ?_ (Nat.div_le_div_right hlow)
  rw [hunsplit a ha]
  exact Nat.div_le_div_right (by omega)

/-- With no tie split, a row is on one page, whatever the answers. -/
theorem mem_page_of_unsplit {n : Nat} (hn : 0 < n) {l : List α} {answer : Nat → List α}
    (hanswer : Answers key l answer) (hunsplit : Unsplit key n l) {p : Nat} {a : α} :
    a ∈ Paging.page n (answer (p + 1)) (p + 1) ↔ a ∈ l ∧ before key l a / n = p := by
  obtain ⟨hperm, hsort⟩ := hanswer (p + 1)
  have hplace : ∀ i, (answer (p + 1))[i]? = some a → a ∈ l ∧ i / n = before key l a / n := by
    intro i hi
    have ha : a ∈ l := hperm.mem_iff.mp (List.mem_of_getElem? hi)
    have hlow := countP_lt_le_index hsort hi
    have hhigh := index_lt_countP_le hsort hi
    rw [before_perm hperm] at hlow
    rw [upTo_perm hperm] at hhigh
    refine ⟨ha, le_antisymm ?_ (Nat.div_le_div_right hlow)⟩
    rw [hunsplit a ha]
    exact Nat.div_le_div_right (by omega)
  rw [mem_page_iff hn]
  constructor
  · rintro ⟨i, hi, hpage⟩
    obtain ⟨ha, hdiv⟩ := hplace i hi
    exact ⟨ha, hdiv.symm.trans hpage⟩
  · rintro ⟨ha, hpage⟩
    obtain ⟨i, hi⟩ := List.mem_iff_getElem?.mp (hperm.mem_iff.mpr ha)
    exact ⟨i, hi, (hplace i hi).2.trans hpage⟩

theorem length_page {n : Nat} {l : List α} {answer : Nat → List α} (hanswer : Answers key l answer)
    (p : Nat) : (Paging.page n (answer (p + 1)) (p + 1)).length = min n (l.length - p * n) := by
  rw [Paging.page_succ, List.length_take, List.length_drop, (hanswer (p + 1)).1.length_eq]

theorem short_page {n : Nat} (hn : 0 < n) {l : List α} {answer : Nat → List α}
    (hanswer : Answers key l answer) :
    Paging.Short n (fun p => Paging.page n (answer p) p) 1 (l.length / n) := by
  constructor
  · intro i hi
    have hfull : (i + 1) * n ≤ l.length := (Nat.le_div_iff_mul_le hn).mp hi
    rw [Nat.succ_mul] at hfull
    rw [Nat.add_comm 1 i, length_page hanswer]
    omega
  · have hrest : l.length - l.length / n * n < n := by
      have hdiv := Nat.div_add_mod' l.length n
      have hmod := Nat.mod_lt l.length hn
      omega
    rw [Nat.add_comm 1, length_page hanswer]
    omega

/-- Who reads the pages up to the first that is not full has every row once. -/
theorem loop_perm {n : Nat} (hn : 0 < n) {l : List α} (hl : l.Nodup) {answer : Nat → List α}
    (hanswer : Answers key l answer) (hunsplit : Unsplit key n l) {k : Nat} (hk : l.length < k) :
    ∃ read, Paging.loop n (fun p => Paging.page n (answer p) p) (· ++ ·) k 1 [] = some read ∧
      read.Perm l := by
  have hm : l.length / n < k := Nat.lt_of_le_of_lt (Nat.div_le_self _ _) hk
  refine ⟨_, Paging.loop_stops hn [] (short_page hn hanswer) hm, ?_⟩
  have hmem : ∀ {i a}, a ∈ Paging.page n (answer (1 + i)) (1 + i) ↔
      a ∈ l ∧ before key l a / n = i := by
    intro i a
    rw [Nat.add_comm 1 i]
    exact mem_page_of_unsplit hn hanswer hunsplit
  have hpages : ∀ page ∈ (List.range (l.length / n + 1)).map fun i =>
      Paging.page n (answer (1 + i)) (1 + i), page.Nodup := by
    intro page hpage
    obtain ⟨i, -, rfl⟩ := List.mem_map.mp hpage
    refine List.Nodup.sublist ?_ ((hanswer (1 + i)).1.nodup_iff.mpr hl)
    exact (List.take_sublist _ _).trans (List.drop_sublist _ _)
  have hdisjoint : ((List.range (l.length / n + 1)).map fun i =>
      Paging.page n (answer (1 + i)) (1 + i)).Pairwise List.Disjoint := by
    refine List.pairwise_map.mpr (List.Pairwise.imp (fun hlt a ha ha' => ?_) List.pairwise_lt_range)
    exact absurd ((hmem.mp ha).2.symm.trans (hmem.mp ha').2) (Nat.ne_of_lt hlt)
  have hfold : ∀ (pages : List (List α)) (read : List α),
      pages.foldl (· ++ ·) read = read ++ pages.flatten := by
    intro pages
    induction pages with
    | nil => exact fun read => (List.append_nil read).symm
    | cons page pages ih =>
        intro read
        rw [List.foldl_cons, ih, List.append_assoc]
        rfl
  rw [hfold, List.nil_append]
  refine (List.perm_ext_iff_of_nodup (List.nodup_flatten.mpr ⟨fun page hpage =>
    hpages page (List.mem_filter.mp hpage).1, hdisjoint.filter _⟩) hl).mpr fun a => ?_
  constructor
  · intro ha
    obtain ⟨page, hpage, ha⟩ := List.mem_flatten.mp ha
    obtain ⟨i, -, rfl⟩ := List.mem_map.mp (List.mem_filter.mp hpage).1
    exact (hmem.mp ha).1
  · intro ha
    have hplace : before key l a / n < l.length / n + 1 :=
      Nat.lt_succ_of_le (Nat.div_le_div_right List.countP_le_length)
    have hon := hmem.mpr ⟨ha, rfl⟩
    refine List.mem_flatten.mpr ⟨_, List.mem_filter.mpr ⟨List.mem_map.mpr
      ⟨_, List.mem_range.mpr hplace, rfl⟩, ?_⟩, hon⟩
    cases hpage : Paging.page n (answer (1 + before key l a / n)) (1 + before key l a / n) with
    | nil =>
        rw [hpage] at hon
        cases hon
    | cons b page => rfl

/-! ## An answer for each order of a tie -/

section Ties

variable (key)

/-- The rows sorted, the tie of `a` in the order given. -/
noncomputable def around (l : List α) (a : α) (tie : List α) : List α :=
  (l.filter fun b => decide (key b < key a)).mergeSort (fun b c => decide (key b ≤ key c)) ++
    (tie ++ (l.filter fun b => decide (key a < key b)).mergeSort fun b c => decide (key b ≤ key c))

variable {key}

theorem sorted_mergeSort (l : List α) :
    (l.mergeSort fun b c => decide (key b ≤ key c)).Pairwise fun b c => key b ≤ key c := by
  have htrans : ∀ a b c : α, decide (key a ≤ key b) = true → decide (key b ≤ key c) = true →
      decide (key a ≤ key c) = true := fun a b c hab hbc =>
    decide_eq_true ((of_decide_eq_true hab).trans (of_decide_eq_true hbc))
  have htotal : ∀ a b : α, (decide (key a ≤ key b) || decide (key b ≤ key a)) = true := fun a b => by
    simpa using le_total (key a) (key b)
  exact (List.pairwise_mergeSort htrans htotal l).imp fun h => of_decide_eq_true h

theorem around_sorted {l tie : List α} {a : α} (htie : ∀ b ∈ tie, key b = key a) :
    (around key l a tie).Pairwise fun b c => key b ≤ key c := by
  have hlow : ∀ b ∈ (l.filter fun b => decide (key b < key a)).mergeSort
      (fun b c => decide (key b ≤ key c)), key b < key a := fun b hb =>
    of_decide_eq_true (List.mem_filter.mp ((List.mergeSort_perm _ _).mem_iff.mp hb)).2
  have hhigh : ∀ b ∈ (l.filter fun b => decide (key a < key b)).mergeSort
      (fun b c => decide (key b ≤ key c)), key a < key b := fun b hb =>
    of_decide_eq_true (List.mem_filter.mp ((List.mergeSort_perm _ _).mem_iff.mp hb)).2
  refine List.pairwise_append.mpr ⟨sorted_mergeSort _, ?_, fun b hb c hc => ?_⟩
  · refine List.pairwise_append.mpr ⟨?_, sorted_mergeSort _, fun b hb c hc => ?_⟩
    · exact List.Pairwise.imp_of_mem (fun hb hc _ => ((htie _ hb).trans (htie _ hc).symm).le)
        (List.pairwise_of_forall fun _ _ => trivial)
    · exact (htie b hb).le.trans (hhigh c hc).le
  · rcases List.mem_append.mp hc with hc | hc
    · exact (hlow b hb).le.trans (htie c hc).ge
    · exact ((hlow b hb).trans (hhigh c hc)).le

theorem around_perm {l tie : List α} {a : α}
    (htie : tie.Perm (l.filter fun b => decide (key b = key a))) : (around key l a tie).Perm l := by
  have hsplit : ∀ l : List α, ((l.filter fun b => decide (key b < key a)) ++
      ((l.filter fun b => decide (key b = key a)) ++ l.filter fun b => decide (key a < key b))).Perm l := by
    intro l
    induction l with
    | nil => exact .refl []
    | cons b l ih =>
        rcases lt_trichotomy (key b) (key a) with h | h | h
        · simp only [List.filter_cons, decide_eq_true h, decide_eq_false h.ne,
            decide_eq_false (not_lt.mpr h.le), if_true]
          exact ih.cons b
        · simp only [List.filter_cons, h, decide_eq_false (lt_irrefl (key a))]
          exact List.perm_middle.trans (ih.cons b)
        · simp only [List.filter_cons, decide_eq_true h, decide_eq_false h.ne',
            decide_eq_false (not_lt.mpr h.le), if_true]
          exact (List.perm_middle.append_left _).trans (List.perm_middle.trans (ih.cons b))
  refine List.Perm.trans ?_ (hsplit l)
  exact (List.mergeSort_perm _ _).append (htie.append (List.mergeSort_perm _ _))

theorem length_low (l : List α) (a : α) :
    ((l.filter fun b => decide (key b < key a)).mergeSort fun b c => decide (key b ≤ key c)).length
      = before key l a := by
  rw [(List.mergeSort_perm _ _).length_eq, before, List.countP_eq_length_filter]

theorem upTo_eq (l : List α) (a : α) :
    upTo key l a = before key l a + (l.filter fun b => decide (key b = key a)).length := by
  rw [upTo, before, ← List.countP_eq_length_filter]
  induction l with
  | nil => rfl
  | cons b l ih =>
      rw [List.countP_cons, List.countP_cons, List.countP_cons, ih]
      rcases lt_trichotomy (key b) (key a) with h | h | h
      · rw [decide_eq_true h.le, decide_eq_true h, decide_eq_false h.ne]
        simp only [if_true, Bool.false_eq_true, if_false]
        omega
      · rw [h, decide_eq_true (le_refl (key a)), decide_eq_false (lt_irrefl (key a)),
          decide_eq_true rfl]
        simp only [if_true, Bool.false_eq_true, if_false]
        omega
      · rw [decide_eq_false (not_le.mpr h), decide_eq_false (not_lt.mpr h.le), decide_eq_false h.ne']
        simp only [Bool.false_eq_true, if_false]
        omega

variable (key) in
/-- One answer has the row at the head of its tie, another at its end. -/
theorem exists_head_and_end {l : List α} {a : α} (ha : a ∈ l) :
    ∃ first last : List α,
      (first.Perm l ∧ (first.Pairwise fun b c => key b ≤ key c) ∧
        first[before key l a]? = some a) ∧
      (last.Perm l ∧ (last.Pairwise fun b c => key b ≤ key c) ∧
        last[upTo key l a - 1]? = some a) := by
  have htie : a ∈ l.filter fun b => decide (key b = key a) :=
    List.mem_filter.mpr ⟨ha, decide_eq_true rfl⟩
  obtain ⟨xs, ys, hsplit⟩ := List.append_of_mem htie
  have hkeys : ∀ b ∈ xs ++ ys, key b = key a := by
    intro b hb
    have hmem : b ∈ l.filter fun b => decide (key b = key a) := by
      rw [hsplit]
      exact (List.mem_append.mp hb).elim (List.mem_append_left _)
        fun h => List.mem_append_right _ (List.mem_cons_of_mem _ h)
    exact of_decide_eq_true (List.mem_filter.mp hmem).2
  have hhead : (a :: (xs ++ ys)).Perm (l.filter fun b => decide (key b = key a)) := by
    rw [hsplit]
    exact List.perm_middle.symm
  have hend : (xs ++ ys ++ [a]).Perm (l.filter fun b => decide (key b = key a)) :=
    (List.perm_append_singleton a (xs ++ ys)).trans hhead
  refine ⟨around key l a (a :: (xs ++ ys)), around key l a (xs ++ ys ++ [a]),
    ⟨around_perm hhead, around_sorted ?_, ?_⟩, ⟨around_perm hend, around_sorted ?_, ?_⟩⟩
  · exact List.forall_mem_cons.mpr ⟨rfl, hkeys⟩
  · rw [around, ← length_low l a, List.getElem?_append_right (le_refl _), Nat.sub_self]
    rfl
  · intro b hb
    rcases List.mem_append.mp hb with hb | hb
    · exact hkeys b hb
    · exact List.mem_singleton.mp hb ▸ rfl
  · have hlen : (l.filter fun b => decide (key b = key a)).length = (xs ++ ys).length + 1 :=
      hhead.length_eq.symm
    rw [upTo_eq, hlen, around, ← length_low l a, ← Nat.add_assoc, Nat.add_sub_cancel,
      List.getElem?_append_right (Nat.le_add_right _ _), Nat.add_sub_cancel_left, List.append_assoc,
      List.getElem?_append_right (le_refl _), Nat.sub_self]
    rfl

end Ties

/-- Every row is on a page whatever the answers, exactly when no tie is split. -/
theorem forall_listed_iff {n : Nat} (hn : 0 < n) {l : List α} (hl : l.Nodup) :
    (∀ answer, Answers key l answer → ∀ a ∈ l, Listed n answer a) ↔ Unsplit key n l := by
  refine ⟨fun h a ha => ?_, fun h answer hanswer a ha => listed_of_unsplit hn hanswer h ha⟩
  by_contra hsplit
  obtain ⟨first, last, ⟨hfirst, hfirstSort, hhead⟩, ⟨hlast, hlastSort, hend⟩⟩ :=
    exists_head_and_end key ha
  -- the page of the tie's head is answered with the row at the end, the others with it at the head
  have hanswer : Answers key l fun p => if p = before key l a / n + 1 then last else first := by
    intro p
    dsimp only
    split
    · exact ⟨hlast, hlastSort⟩
    · exact ⟨hfirst, hfirstSort⟩
  obtain ⟨p, hp⟩ := h _ hanswer a ha
  obtain ⟨i, hi, hpage⟩ := (mem_page_iff hn).mp hp
  have unique : ∀ {s : List α} {i j : Nat}, s.Nodup → s[i]? = some a → s[j]? = some a → i = j :=
    fun hnodup hi hj => (List.getElem?_inj (List.getElem?_eq_some_iff.mp hi).1 hnodup).mp (hi.trans hj.symm)
  dsimp only at hi
  split at hi
  · next heq =>
    obtain rfl := unique (hlast.nodup_iff.mpr hl) hi hend
    exact hsplit (by omega)
  · next hne =>
    obtain rfl := unique (hfirst.nodup_iff.mpr hl) hi hhead
    exact hne (by rw [hpage])

/-- One answer for all pages leaves no row out. -/
theorem exists_answers_listed {n : Nat} (hn : 0 < n) (l : List α) :
    ∃ answer, Answers key l answer ∧ ∀ a ∈ l, Listed n answer a := by
  refine ⟨fun _ => l.mergeSort fun b c => decide (key b ≤ key c),
    fun _ => ⟨List.mergeSort_perm _ _, sorted_mergeSort l⟩, fun a ha => ?_⟩
  obtain ⟨i, hi⟩ := List.mem_iff_getElem?.mp ((List.mergeSort_perm l _).mem_iff.mpr ha)
  exact ⟨i / n, (mem_page_iff hn).mpr ⟨i, hi, rfl⟩⟩

end SortedPages
