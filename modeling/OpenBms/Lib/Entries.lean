/-
# `OpenBms.Lib.Entries` — the entries of an object or a map

Keys with their values, in an order; `List.lookup` reads one.

**Proved here.**

    a key that is not there has no value (`lookup_eq_none`)
    what one more entry changes (`lookup_concat`)
    with each key once, the values are those of the
    entries, in any order (`lookup_eq_some`, `lookup_perm`)
-/
import Mathlib.Data.List.Perm.Basic
import Mathlib.Data.List.Nodup

namespace Entries

variable {α β : Type} [BEq α] [LawfulBEq α] {entries : List (α × β)} {key : α}

theorem lookup_eq_none (h : key ∉ entries.map Prod.fst) : entries.lookup key = none := by
  refine List.lookup_eq_none_iff.mpr fun entry hmem => ?_
  refine bne_iff_ne.mpr fun heq => h ?_
  rw [heq]
  exact List.mem_map_of_mem hmem

theorem mem_of_lookup {value : β} (h : entries.lookup key = some value) : (key, value) ∈ entries := by
  obtain ⟨before, after, hentries, -⟩ := List.lookup_eq_some_iff.mp h
  rw [hentries]
  exact List.mem_append_right before List.mem_cons_self

theorem lookup_concat [DecidableEq α] {value : β} (h : key ∉ entries.map Prod.fst) (k : α) :
    (entries ++ [(key, value)]).lookup k = if k = key then some value else entries.lookup k := by
  rw [List.lookup_append]
  by_cases hk : k = key
  · subst hk
    rw [lookup_eq_none h, if_pos rfl, Option.none_or, List.lookup_cons, beq_self_eq_true]
  · have hlast : ([(key, value)] : List (α × β)).lookup k = none := by
      rw [List.lookup_cons, beq_eq_false_iff_ne.mpr hk]
      rfl
    rw [if_neg hk, hlast, Option.or_none]

theorem lookup_eq_some (h : (entries.map Prod.fst).Nodup) (key : α) (value : β) :
    entries.lookup key = some value ↔ (key, value) ∈ entries := by
  refine ⟨mem_of_lookup, fun hin => ?_⟩
  induction entries with
  | nil => exact absurd hin List.not_mem_nil
  | cons entry entries ih =>
      obtain ⟨key', value'⟩ := entry
      obtain ⟨hfresh, hrest⟩ := List.nodup_cons.mp h
      rcases List.mem_cons.mp hin with heq | hmem
      · cases heq
        exact List.lookup_cons_self
      · have hne : key ≠ key' := by
          rintro rfl
          have hkey : key ∈ entries.map Prod.fst := List.mem_map_of_mem hmem
          exact hfresh hkey
        rw [List.lookup_cons, beq_eq_false_iff_ne.mpr hne]
        exact ih hrest hmem

theorem lookup_perm {entries' : List (α × β)} (hperm : entries'.Perm entries)
    (h : (entries.map Prod.fst).Nodup) (key : α) : entries'.lookup key = entries.lookup key := by
  have h' : (entries'.map Prod.fst).Nodup := (hperm.map Prod.fst).nodup_iff.mpr h
  refine Option.ext fun value => ?_
  rw [lookup_eq_some h', lookup_eq_some h, hperm.mem_iff]

end Entries
