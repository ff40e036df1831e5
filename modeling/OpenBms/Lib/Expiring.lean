/-
# `OpenBms.Lib.Expiring` — a store whose entries expire

A key has a value from the moment it is set until its time to live is over, or until
it is deleted.  Time passes in whole units, between the commands.

| command | effect |
| :-- | :-- |
| `set` | the value, with a new time to live |
| `setNx` | the same, where the key has no value |
| `del` | no value, for any of several keys |
| `compareDelete` | no value, where the key has the one given |

**Proved here.**

    which keys have a value after a command (`has_set`, `has_del`, `has_of_wait`)
    which value a key has after it (`get_set`, `get_del`, `get_of_wait`,
    `get_compareDelete`)
-/
import Mathlib

namespace Expiring

/-- The moment, and the entries with the moments at which they expire. -/
structure Store (κ β : Type) where
  now : Nat
  entries : κ → Option (β × Nat)

namespace Store

variable {κ β : Type}

def empty (now : Nat) : Store κ β := ⟨now, fun _ => none⟩

section
variable (s : Store κ β)

def get (k : κ) : Option β := ((s.entries k).filter fun e => Nat.ble s.now e.2).map Prod.fst

def has (k : κ) : Bool := (s.get k).isSome

def wait (d : Nat) : Store κ β := { s with now := s.now + d }

variable [DecidableEq κ]

def set (k : κ) (v : β) (ttl : Nat) : Store κ β :=
  { s with entries := Function.update s.entries k (some (v, s.now + ttl)) }

def setNx (k : κ) (v : β) (ttl : Nat) : Store κ β := if s.has k then s else s.set k v ttl

def del (ks : List κ) : Store κ β :=
  { s with entries := fun k => if ks.contains k then none else s.entries k }

def compareDelete [DecidableEq β] (k : κ) (v : β) : Store κ β :=
  if s.get k = some v then s.del [k] else s

end

/-! ## Values -/

section
variable {s : Store κ β} {k k' : κ} {v v' : β} {ttl d : Nat}

theorem get_eq_some : s.get k = some v ↔ ∃ e, s.entries k = some (v, e) ∧ s.now ≤ e := by
  unfold get
  rw [Option.map_eq_some_iff]
  constructor
  · rintro ⟨⟨v', e⟩, hentry, rfl⟩
    obtain ⟨hentry, hle⟩ := Option.filter_eq_some_iff.mp hentry
    exact ⟨e, hentry, Nat.ble_eq.mp hle⟩
  · rintro ⟨e, hentry, hle⟩
    exact ⟨(v, e), Option.filter_eq_some_iff.mpr ⟨hentry, Nat.ble_eq.mpr hle⟩, rfl⟩

theorem has_iff : s.has k = true ↔ ∃ v, s.get k = some v := Option.isSome_iff_exists

@[simp]
theorem get_empty (now : Nat) : (empty now : Store κ β).get k = none := rfl

@[simp]
theorem has_empty (now : Nat) : (empty now : Store κ β).has k = false := rfl

/-- A value that is there after a while has been there before. -/
theorem get_of_wait (h : (s.wait d).get k = some v) : s.get k = some v := by
  obtain ⟨e, hentry, hle⟩ := get_eq_some.mp h
  have hwait : s.now + d ≤ e := hle
  exact get_eq_some.mpr ⟨e, hentry, by omega⟩

theorem has_of_wait (h : (s.wait d).has k = true) : s.has k = true := by
  obtain ⟨v, hv⟩ := has_iff.mp h
  exact has_iff.mpr ⟨v, get_of_wait hv⟩

variable [DecidableEq κ]

theorem get_set_self : (s.set k v ttl).get k = some v :=
  get_eq_some.mpr ⟨s.now + ttl, Function.update_self .., Nat.le_add_right ..⟩

theorem get_set_ne (hne : k ≠ k') : (s.set k' v ttl).get k = s.get k := by
  have hentry : (s.set k' v ttl).entries k = s.entries k := Function.update_of_ne hne ..
  unfold get
  rw [hentry]
  rfl

theorem get_set : (s.set k' v ttl).get k = if k = k' then some v else s.get k := by
  split
  next heq =>
    subst heq
    exact get_set_self
  next hne => exact get_set_ne hne

theorem has_set : (s.set k' v ttl).has k = true ↔ k = k' ∨ s.has k = true := by
  unfold has
  rw [get_set]
  split
  next heq => exact ⟨fun _ => .inl heq, fun _ => rfl⟩
  next hne => exact ⟨.inr, fun h => h.resolve_left hne⟩

theorem get_del (ks : List κ) : (s.del ks).get k = if ks.contains k then none else s.get k := by
  show (((if ks.contains k then none else s.entries k).filter fun e => Nat.ble s.now e.2).map
    Prod.fst : Option β) = _
  split <;> rfl

theorem has_del {ks : List κ} : (s.del ks).has k = true ↔ k ∉ ks ∧ s.has k = true := by
  unfold has
  rw [get_del, ← List.contains_iff_mem]
  split
  next hmem => exact ⟨fun h => (by cases h), fun h => (h.1 hmem).elim⟩
  next hmem => exact ⟨fun h => ⟨hmem, h⟩, fun h => h.2⟩

theorem get_compareDelete [DecidableEq β] : (s.compareDelete k' v').get k =
    if k = k' ∧ s.get k' = some v' then none else s.get k := by
  unfold compareDelete
  by_cases hv : s.get k' = some v'
  · rw [if_pos hv, get_del]
    by_cases hk : k = k'
    · rw [if_pos (by rw [hk]; simp), if_pos ⟨hk, hv⟩]
    · rw [if_neg (by simpa using hk), if_neg fun h => hk h.1]
  · rw [if_neg hv, if_neg fun h => hv h.2]

theorem now_compareDelete [DecidableEq β] : (s.compareDelete k' v').now = s.now := by
  unfold compareDelete
  split <;> rfl

/-- A key that does not have the value given keeps its entry. -/
theorem entries_compareDelete [DecidableEq β] (h : k = k' → s.get k' ≠ some v') :
    (s.compareDelete k' v').entries k = s.entries k := by
  unfold compareDelete
  split
  next hv =>
    have hne : k ≠ k' := fun heq => h heq hv
    exact if_neg (by simpa using hne)
  · rfl

theorem setNx_of_has (h : s.has k = true) : s.setNx k v ttl = s := if_pos h

theorem setNx_of_not_has (h : s.has k = false) : s.setNx k v ttl = s.set k v ttl :=
  if_neg (by rw [h]; exact Bool.false_ne_true)

end

end Store

end Expiring
