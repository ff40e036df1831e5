/-
# `OpenBms.Lib.Orbit` — following a partial function until it stops

    while (current) { visited.push(current); current = next(current); }

**Proved here**, for a function with finitely many values.

    what is visited is what the start leads to (`mem_walk`)
    the loop ends iff nothing that the start leads to
    leads to itself (`ends_iff`)
-/
import Mathlib.Data.Set.Finite.Basic
import Mathlib.Order.WellFounded

namespace Orbit

open Relation

variable {α : Type} (next : α → Option α)

/-- At most so many turns of the loop; `none` when it has not ended then. -/
@[grind =] def walk : Nat → Option α → Option (List α)
  | _, none => some []
  | 0, some _ => none
  | n + 1, some a => (walk n (next a)).map (a :: ·)

def Step (a b : α) : Prop := next a = some b

/-- What is come to, the start included. -/
def Leads : α → α → Prop := ReflTransGen (Step next)

/-- Nothing that the start leads to leads to itself. -/
def NoReturn (a : α) : Prop := ∀ b, Leads next a b → ¬ TransGen (Step next) b b

variable {next} {a b : α} {l l' : List α} {n n' : Nat}

theorem walk_succ_eq_some : walk next (n + 1) (some a) = some l ↔
    ∃ rest, walk next n (next a) = some rest ∧ l = a :: rest := by
  rw [walk, Option.map_eq_some_iff]
  constructor
  · rintro ⟨rest, hrest, rfl⟩
    exact ⟨rest, hrest, rfl⟩
  · rintro ⟨rest, hrest, rfl⟩
    exact ⟨rest, hrest, rfl⟩

/-- More turns than enough visit the same. -/
theorem walk_unique : ∀ {n n' : Nat} {x : Option α} {l l' : List α}, walk next n x = some l →
    walk next n' x = some l' → l = l'
  | _, _, none, _, _, h, h' => by
      rw [walk] at h h'
      exact (Option.some.inj h).symm.trans (Option.some.inj h')
  | 0, _, some _, _, _, h, _ => by cases h
  | _ + 1, 0, some _, _, _, _, h' => by cases h'
  | _ + 1, _ + 1, some _, _, _, h, h' => by
      obtain ⟨rest, hrest, rfl⟩ := walk_succ_eq_some.mp h
      obtain ⟨rest', hrest', rfl⟩ := walk_succ_eq_some.mp h'
      rw [walk_unique hrest hrest']

theorem walk_step (h : walk next n (some a) = some l) (hstep : Step next a b) :
    ∃ m rest, walk next m (some b) = some rest ∧ l = a :: rest := by
  cases n with
  | zero => cases h
  | succ n =>
      obtain ⟨rest, hrest, rfl⟩ := walk_succ_eq_some.mp h
      rw [hstep] at hrest
      exact ⟨n, rest, hrest, rfl⟩

theorem mem_of_leads (h : Leads next a b) : ∀ {n : Nat} {l : List α},
    walk next n (some a) = some l → b ∈ l := by
  induction h using ReflTransGen.head_induction_on with
  | refl =>
      intro n l hwalk
      cases n with
      | zero => cases hwalk
      | succ n =>
          obtain ⟨rest, -, rfl⟩ := walk_succ_eq_some.mp hwalk
          exact List.mem_cons_self
  | head hstep _ ih =>
      intro n l hwalk
      obtain ⟨m, rest, hrest, rfl⟩ := walk_step hwalk hstep
      exact List.mem_cons_of_mem _ (ih hrest)

theorem leads_of_mem : ∀ {n : Nat} {a : α} {l : List α}, walk next n (some a) = some l → b ∈ l →
    Leads next a b
  | 0, _, _, hwalk, _ => by cases hwalk
  | n + 1, a, l, hwalk, hmem => by
      obtain ⟨rest, hrest, rfl⟩ := walk_succ_eq_some.mp hwalk
      rcases List.mem_cons.mp hmem with rfl | hmem
      · exact .refl
      · cases hnext : next a with
        | none =>
            rw [hnext, walk] at hrest
            cases hrest
            exact absurd hmem List.not_mem_nil
        | some c =>
            rw [hnext] at hrest
            exact .head hnext (leads_of_mem hrest hmem)

/-- What is visited is what the start leads to. -/
theorem mem_walk (h : walk next n (some a) = some l) : b ∈ l ↔ Leads next a b :=
  ⟨leads_of_mem h, fun hleads => mem_of_leads hleads h⟩

/-- A walk is longer than those it comes to. -/
theorem length_lt (h : TransGen (Step next) a b) : ∀ {n : Nat} {l : List α},
    walk next n (some a) = some l →
      ∃ m l', walk next m (some b) = some l' ∧ l'.length < l.length := by
  induction h using TransGen.head_induction_on with
  | single hstep =>
      intro n l hwalk
      obtain ⟨m, rest, hrest, rfl⟩ := walk_step hwalk hstep
      exact ⟨m, rest, hrest, Nat.lt_succ_self _⟩
  | head hstep _ ih =>
      intro n l hwalk
      obtain ⟨m, rest, hrest, rfl⟩ := walk_step hwalk hstep
      obtain ⟨m', l', hwalk', hlt⟩ := ih hrest
      exact ⟨m', l', hwalk', hlt.trans (Nat.lt_succ_self _)⟩

theorem noReturn_of_walk (h : walk next n (some a) = some l) : NoReturn next a := by
  intro b hleads hreturn
  have hb : ∃ m l', walk next m (some b) = some l' := by
    rcases reflTransGen_iff_eq_or_transGen.mp hleads with rfl | htrans
    · exact ⟨n, l, h⟩
    · obtain ⟨m, l', hwalk, -⟩ := length_lt htrans h
      exact ⟨m, l', hwalk⟩
  obtain ⟨m, l', hwalk⟩ := hb
  obtain ⟨m', l'', hwalk', hlt⟩ := length_lt hreturn hwalk
  rw [walk_unique hwalk' hwalk] at hlt
  exact absurd hlt (Nat.lt_irrefl _)

/-- A walk among finitely many that does not return ends. -/
theorem walk_of_noReturn {values : List α} (hvalues : ∀ a b, Step next a b → b ∈ values)
    (h : NoReturn next a) : ∃ n l, walk next n (some a) = some l := by
  have hmem : ∀ b, Leads next a b → b ∈ a :: values := fun b hb => by
    rcases ReflTransGen.cases_tail hb with rfl | ⟨c, -, hc⟩
    · exact List.mem_cons_self
    · exact List.mem_cons_of_mem _ (hvalues c b hc)
  have hfinite : Finite {b // Leads next a b} :=
    Set.Finite.to_subtype ((List.finite_toSet (a :: values)).subset hmem)
  -- what is led to comes before what leads to it
  let r : {b // Leads next a b} → {b // Leads next a b} → Prop := fun x y =>
    TransGen (Step next) y.1 x.1
  have htrans : IsTrans _ r := ⟨fun _ _ _ hxy hyz => hyz.trans hxy⟩
  have hirrefl : Std.Irrefl r := ⟨fun x hx => h x.1 x.2 hx⟩
  have hwf : WellFounded r := Finite.wellFounded_of_trans_of_irrefl r
  have hall : ∀ x : {b // Leads next a b}, ∃ n l, walk next n (some x.1) = some l := by
    intro x
    induction x using hwf.induction with
    | _ x ih =>
        cases hnext : next x.1 with
        | none =>
            refine ⟨1, [x.1], walk_succ_eq_some.mpr ⟨[], ?_, rfl⟩⟩
            rw [hnext, walk]
        | some c =>
            obtain ⟨n, l, hwalk⟩ := ih ⟨c, x.2.tail hnext⟩ (.single hnext)
            refine ⟨n + 1, x.1 :: l, walk_succ_eq_some.mpr ⟨l, ?_, rfl⟩⟩
            rwa [hnext]
  exact hall ⟨a, .refl⟩

theorem ends_iff {values : List α} (hvalues : ∀ a b, Step next a b → b ∈ values) :
    (∃ n l, walk next n (some a) = some l) ↔ NoReturn next a :=
  ⟨fun ⟨_, _, h⟩ => noReturn_of_walk h, walk_of_noReturn hvalues⟩

end Orbit
