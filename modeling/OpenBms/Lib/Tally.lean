/-
# `OpenBms.Lib.Tally` — counters by name

A tally holds a counter for each name that was counted.  `bump` is what an increment does:
the first one makes the counter.

**Proved here.**

    after a list of increments a name has a counter iff it is in the
    list, and the counter is how often (`mem_entries_tally`)
    a last entry is what all entries of its key say (`lastValue_eq_some`)
    increments by lists are counted by the lists that have the name (`count_flatMap_eq_countP`)
-/
import Mathlib

namespace Tally

section
variable {α β : Type*} [DecidableEq α] [BEq α] [LawfulBEq α]

/-- `HINCRBY key a 1`. -/
def bump (t : AList fun _ : α => Nat) (a : α) : AList fun _ : α => Nat :=
  t.insert a ((t.lookup a).getD 0 + 1)

/-- What a list of increments leaves of nothing. -/
def tally (l : List α) : AList fun _ : α => Nat := l.foldl bump ∅

theorem lookup_foldl_bump {l : List α} {t : AList fun _ : α => Nat} {a : α} :
    (l.foldl bump t).lookup a = if a ∈ l then some ((t.lookup a).getD 0 + l.count a) else t.lookup a := by
  induction l generalizing t with
  | nil => rw [if_neg List.not_mem_nil, List.foldl_nil]
  | cons b l ih =>
      rw [List.foldl_cons, ih]
      by_cases hab : a = b
      · subst hab
        rw [bump, AList.lookup_insert, if_pos (List.mem_cons_self ..), List.count_cons_self,
          Option.getD_some]
        split
        · congr 1
          omega
        · rename_i hmem
          rw [List.count_eq_zero_of_not_mem hmem, Nat.zero_add]
      · rw [bump, AList.lookup_insert_ne hab, List.count_cons_of_ne (Ne.symm hab)]
        simp only [List.mem_cons, hab, false_or]

theorem lookup_tally {l : List α} {a : α} :
    (tally l).lookup a = if a ∈ l then some (l.count a) else none := by
  rw [tally, lookup_foldl_bump, AList.lookup_empty, Option.getD_none, Nat.zero_add]

theorem mem_entries_tally {l : List α} {a : α} {n : Nat} :
    (⟨a, n⟩ : (_ : α) × Nat) ∈ (tally l).entries ↔ a ∈ l ∧ n = l.count a := by
  rw [← AList.mem_lookup_iff, lookup_tally, Option.mem_def]
  split
  · rename_i hmem
    rw [Option.some_inj, eq_comm]
    exact (and_iff_right hmem).symm
  · rename_i hmem
    simp only [reduceCtorEq, hmem, false_and]

end

section
variable {α β : Type*}

/-! ## Lists put together from lists that can be told apart -/

/-- A selection that takes all of one list, and nothing of the others. -/
theorem filter_flatMap {l : List β} {g : β → List α} {b : β} (sel : β → α → Bool)
    (hpair : l.Pairwise fun b b' => (∀ a ∈ g b', sel b a = false) ∧ ∀ a ∈ g b, sel b' a = false)
    (hself : ∀ b ∈ l, ∀ a ∈ g b, sel b a = true) (hb : b ∈ l) :
    (l.flatMap g).filter (sel b) = g b := by
  induction l with
  | nil => cases hb
  | cons d l ih =>
      rw [List.flatMap_cons, List.filter_append]
      have hhead := (List.pairwise_cons.mp hpair).1
      rcases List.mem_cons.mp hb with rfl | hmem
      · have hrest : (l.flatMap g).filter (sel b) = [] := by
          refine List.filter_eq_nil_iff.mpr fun a ha => ?_
          obtain ⟨e, he, hae⟩ := List.mem_flatMap.mp ha
          rw [(hhead e he).1 a hae]
          exact Bool.false_ne_true
        rw [hrest, List.append_nil]
        exact List.filter_eq_self.mpr (hself b hb)
      · have hfirst : (g d).filter (sel b) = [] := by
          refine List.filter_eq_nil_iff.mpr fun a ha => ?_
          rw [(hhead b hmem).2 a ha]
          exact Bool.false_ne_true
        rw [hfirst, List.nil_append]
        exact ih (List.pairwise_cons.mp hpair).2 (fun e he => hself e (List.mem_cons_of_mem _ he)) hmem

theorem count_flatMap_eq_countP [BEq α] [LawfulBEq α] {l : List β} {f : β → List α} {a : α} {p : β → Bool}
    (h : ∀ b ∈ l, (f b).count a = if p b then 1 else 0) : (l.flatMap f).count a = l.countP p := by
  induction l with
  | nil => rfl
  | cons b l ih =>
      rw [List.flatMap_cons, List.count_append, h b (List.mem_cons_self ..), List.countP_cons,
        ih fun b' hb' => h b' (List.mem_cons_of_mem _ hb'), Nat.add_comm]

end

section
variable {β κ : Type*} [DecidableEq κ]

/-! ## The last value of a key -/

/-- What is left of `object[k]` after assignments in order. -/
def lastValue (entries : List (κ × β)) (k : κ) : Option β :=
  ((entries.filter (·.1 = k)).getLast?).map (·.2)

theorem lastValue_eq_some {entries : List (κ × β)} {k : κ} {b : β}
    (hall : ∀ e ∈ entries, e.1 = k → e.2 = b) (hsome : ∃ e ∈ entries, e.1 = k) :
    lastValue entries k = some b := by
  obtain ⟨e, he, hek⟩ := hsome
  have hmem : e ∈ entries.filter (·.1 = k) := List.mem_filter.mpr ⟨he, decide_eq_true hek⟩
  obtain ⟨last, hlast⟩ : ∃ last, (entries.filter (·.1 = k)).getLast? = some last :=
    Option.ne_none_iff_exists'.mp fun hnone =>
      List.ne_nil_of_mem hmem (List.getLast?_eq_none_iff.mp hnone)
  have hin := List.mem_filter.mp (List.mem_of_getLast? hlast)
  rw [lastValue, hlast, Option.map_some, hall last hin.1 (of_decide_eq_true hin.2)]

theorem exists_of_lastValue_eq_some {entries : List (κ × β)} {k : κ} {b : β}
    (h : lastValue entries k = some b) : ∃ e ∈ entries, e.1 = k := by
  obtain ⟨e, he, _⟩ := Option.map_eq_some_iff.mp h
  have hin := List.mem_filter.mp (List.mem_of_getLast? he)
  exact ⟨e, hin.1, of_decide_eq_true hin.2⟩

end

end Tally
