/-
# `OpenBms.Lib.Cache` — a read-through cache under keys

A lookup `i` has a key and an answer.  It returns what the cache holds under its
key, if that counts as a hit; otherwise it asks for the answer, and stores it when
`keep` says so.  An answer of `none` is one that could not be given: it is
returned, and never stored.

**Proved here.**

    one lookup answers right iff the entry under its key does (`lookup_eq_answer_iff`)
    a sequence of lookups from the empty cache answers right
    iff lookups of one key agree, each with the earlier ones (`run_eq_answers_iff`)
-/
import Mathlib

namespace Cache

variable {ι κ δ : Type} [DecidableEq κ]

/-- Reading `k` through the cache, with `a` to ask for: what is returned, and the
cache after it. -/
def readThrough (k : κ) (a : Option δ) (hit keep : δ → Bool) (cache : κ → Option δ) :
    Option δ × (κ → Option δ) :=
  match (cache k).filter hit with
  | some d => (some d, cache)
  | none =>
      match a with
      | none => (none, cache)
      | some d => (some d, if keep d then Function.update cache k (some d) else cache)

variable (key : ι → κ) (answer : ι → Option δ) (hit : δ → Bool) (keep : ι → δ → Bool)

def lookup (cache : κ → Option δ) (i : ι) : Option δ × (κ → Option δ) :=
  readThrough (key i) (answer i) hit (keep i) cache

/-- What a sequence of lookups returns. -/
def run : (κ → Option δ) → List ι → List (Option δ)
  | _, [] => []
  | cache, i :: is =>
      (lookup key answer hit keep cache i).1 :: run (lookup key answer hit keep cache i).2 is

/-- What the cache has for `i` is `i`'s answer. -/
def Fits (cache : κ → Option δ) (i : ι) : Prop :=
  ∀ d, (cache (key i)).filter hit = some d → answer i = some d

/-- `j` may follow `i`: what `i` leaves under a common key is `j`'s answer too. -/
def Agree (i j : ι) : Prop :=
  key i = key j → ∀ d, answer i = some d → hit d = true → keep i d = true → answer j = some d

variable {key answer hit keep} {cache : κ → Option δ} {i j : ι}

theorem lookup_of_hit {d : δ} (h : (cache (key i)).filter hit = some d) :
    lookup key answer hit keep cache i = (some d, cache) := by
  simp only [lookup, readThrough, h]

theorem lookup_of_miss (h : (cache (key i)).filter hit = none) :
    lookup key answer hit keep cache i =
      match answer i with
      | none => (none, cache)
      | some d => (some d, if keep i d then Function.update cache (key i) (some d) else cache) := by
  simp only [lookup, readThrough, h]

theorem lookup_eq_answer_iff :
    (lookup key answer hit keep cache i).1 = answer i ↔ Fits key answer hit cache i := by
  cases h : (cache (key i)).filter hit with
  | some d =>
      rw [lookup_of_hit h]
      constructor
      · intro hd e he
        rw [h] at he
        rw [← hd, ← he]
      · intro hfits
        exact (hfits d h).symm
  | none =>
      have hfits : Fits key answer hit cache i := by
        intro d hd
        rw [h] at hd
        cases hd
      rw [lookup_of_miss h]
      cases answer i with
      | none => exact iff_of_true rfl hfits
      | some d => exact iff_of_true rfl hfits

theorem fits_update_iff {d : δ} (hmiss : (cache (key i)).filter hit = none)
    (hd : answer i = some d) (hkeep : keep i d = true) :
    Fits key answer hit (Function.update cache (key i) (some d)) j ↔
      Fits key answer hit cache j ∧ Agree key answer hit keep i j := by
  by_cases hkey : key i = key j
  · have hj : Fits key answer hit cache j := by
      intro e he
      rw [← hkey, hmiss] at he
      cases he
    have hnew : Function.update cache (key i) (some d) (key j) = some d := by
      rw [hkey, Function.update_self]
    constructor
    · intro hfits
      refine ⟨hj, fun _ e he hhit _ => ?_⟩
      rw [hd] at he
      cases he
      exact hfits d (by rw [hnew, Option.filter_some, if_pos hhit])
    · rintro ⟨-, hagree⟩ e he
      rw [hnew] at he
      obtain ⟨hde, hhit⟩ := Option.filter_eq_some_iff.mp he
      cases hde
      exact hagree hkey d hd hhit hkeep
  · have hold : Function.update cache (key i) (some d) (key j) = cache (key j) :=
      Function.update_of_ne (Ne.symm hkey) _ _
    constructor
    · intro hfits
      exact ⟨fun e he => hfits e (by rw [hold]; exact he), fun h => absurd h hkey⟩
    · rintro ⟨hj, -⟩ e he
      rw [hold] at he
      exact hj e he

theorem fits_lookup_iff (hi : Fits key answer hit cache i) :
    Fits key answer hit (lookup key answer hit keep cache i).2 j ↔
      Fits key answer hit cache j ∧ Agree key answer hit keep i j := by
  cases h : (cache (key i)).filter hit with
  | some d =>
      rw [lookup_of_hit h]
      refine ⟨fun hj => ⟨hj, ?_⟩, fun hj => hj.1⟩
      intro hkey e he _ _
      rw [← he, hi d h]
      exact hj d (hkey ▸ h)
  | none =>
      rw [lookup_of_miss h]
      cases ha : answer i with
      | none =>
          refine ⟨fun hj => ⟨hj, ?_⟩, fun hj => hj.1⟩
          intro _ e he _ _
          rw [ha] at he
          cases he
      | some d =>
          dsimp only
          by_cases hkeep : keep i d = true
          · rw [if_pos hkeep]
            exact fits_update_iff h ha hkeep
          · rw [if_neg hkeep]
            refine ⟨fun hj => ⟨hj, ?_⟩, fun hj => hj.1⟩
            intro _ e he _ hke
            rw [ha] at he
            cases he
            exact absurd hke hkeep

/-! ## Sequences -/

theorem run_eq_iff {cache : κ → Option δ} {is : List ι} :
    run key answer hit keep cache is = is.map answer ↔
      (∀ i ∈ is, Fits key answer hit cache i) ∧ is.Pairwise (Agree key answer hit keep) := by
  induction is generalizing cache with
  | nil => exact ⟨fun _ => ⟨fun _ h => absurd h List.not_mem_nil, .nil⟩, fun _ => rfl⟩
  | cons i is ih =>
      rw [run, List.map_cons, List.cons.injEq, lookup_eq_answer_iff, ih, List.pairwise_cons,
        List.forall_mem_cons]
      constructor
      · rintro ⟨hi, his, hpair⟩
        exact ⟨⟨hi, fun j hj => ((fits_lookup_iff hi).mp (his j hj)).1⟩,
          fun j hj => ((fits_lookup_iff hi).mp (his j hj)).2, hpair⟩
      · rintro ⟨⟨hi, his⟩, hagree, hpair⟩
        exact ⟨hi, fun j hj => (fits_lookup_iff hi).mpr ⟨his j hj, hagree j hj⟩, hpair⟩

/-- From the empty cache. -/
theorem run_eq_answers_iff {is : List ι} :
    run key answer hit keep (fun _ => none) is = is.map answer ↔
      is.Pairwise (Agree key answer hit keep) := by
  rw [run_eq_iff]
  exact ⟨fun h => h.2, fun h => ⟨fun _ _ _ hd => (by cases hd), h⟩⟩

end Cache
