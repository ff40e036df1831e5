/-
# `OpenBms.Segment.TempTables` — the temp tables of a V1 segment on a pooled session

A segment run creates and fills one temp table for each external query, runs
the main query, which looks each table up, and the `DROP TABLE`s of `endQuery`
behind it.  The session goes back to its pool with what is left on it.

**Proved here.**

    the tables of a segment are distinct, numbered by one counter (`numbered_cardOuts`)
    the main query uses each of them once and drops `endQuery`'s (`assemble_commands`)
    the session is left as it was, and the same segment runs on it
    again, iff no branch but the repeated events pushes a query (`segmentQueryV1_tables_iff`)
    a page view leaves its table, and its next run fails (`segmentQueryV1_table_left`)
-/
import OpenBms.Lib.Resources
import OpenBms.Segment.Externals

namespace OpenBms.Segment

open Js Resources

/-! ## A run on a session -/

/-- What a token of the main query does to the session's temp tables. -/
def Tok.commands : Tok → List (Command String)
  | .pred (.inTable _ _ table) => [.use table]
  | .dropTable table => [.drop table]
  | _ => []

def GenerateResult.tableNames (r : GenerateResult) : List String :=
  r.externalQuerySteps.map (·.tableName)

/-- The main query with its `endQuery`. -/
def GenerateResult.queryCommands (r : GenerateResult) : List (Command String) :=
  r.query.flatMap Tok.commands

/-- A whole run: each external query's table is created and filled, then the
main query runs. -/
def GenerateResult.commands (r : GenerateResult) : List (Command String) :=
  creates r.tableNames ++ r.queryCommands

/-- The temp-table discipline of a result. -/
structure Disciplined (r : GenerateResult) : Prop where
  distinct : r.tableNames.Nodup
  referenced : ∀ t ∈ r.tableNames, t ∈ used r.queryCommands
  /-- Each table is dropped once, and nothing else is. -/
  dropped : (dropped r.queryCommands).Perm r.tableNames
  /-- Two runs on one session succeed, and leave it empty. -/
  twice : run (r.commands ++ r.commands) ∅ = some ∅

/-! ## What a branch names -/

def Push.kind : Push → String
  | .pageView _ => "_page_view"
  | .view _ => "_view"
  | .repeated _ => ""
  | .customEvent _ => "_custom_event"

/-- Whether the branch drops its table. -/
def Push.drops : Push → Bool
  | .repeated _ => true
  | .pageView _ | .view _ | .customEvent _ => false

def StepOut.tables (o : StepOut) : List String := (o.external.map (·.tableName)).toList

section
variable {rt : Runtime} {tag : TagLike} {dto : SegmentDtoLike} {zone : String} {n : Nat}

theorem push_tables (p : Push) : (p.out tag n).tables = [tableName p.kind n tag] := by
  cases p <;> rfl

theorem push_drops (p : Push) :
    (p.out tag n).drops = if p.drops then [tableName p.kind n tag] else [] := by
  cases p <;> rfl

theorem push_commands (p : Push) :
    (p.out tag n).toks.flatMap Tok.commands = [.use (tableName p.kind n tag)] := by
  cases p <;> rfl

/-! ### A table's name tells its branch and its number -/

theorem append_inj_of_digits {a a' d d' : List Char} (ha : ∀ c ∈ a, c.isDigit = false)
    (ha' : ∀ c ∈ a', c.isDigit = false) (hd : ∀ c ∈ d, c.isDigit = true)
    (hd' : ∀ c ∈ d', c.isDigit = true) (h : a ++ d = a' ++ d') : a = a' ∧ d = d' := by
  have htake : ∀ {a d : List Char}, (∀ c ∈ a, c.isDigit = false) → (∀ c ∈ d, c.isDigit = true) →
      (a ++ d).takeWhile (fun c => !c.isDigit) = a := by
    intro a d ha hd
    rw [List.takeWhile_append_of_pos fun c hc => by rw [ha c hc]; rfl]
    have hnil : d.takeWhile (fun c => !c.isDigit) = [] := by
      cases d with
      | nil => rfl
      | cons c d => rw [List.takeWhile_cons, hd c List.mem_cons_self]; rfl
    rw [hnil, List.append_nil]
  have haa : a = a' := by rw [← htake ha hd, h, htake ha' hd']
  exact ⟨haa, List.append_cancel_left (haa ▸ h)⟩

theorem toList_toString (n : Nat) : (toString n).toList = Nat.toDigits 10 n := Nat.toList_repr

theorem isDigit_toString {n : Nat} : ∀ c ∈ (toString n).toList, c.isDigit = true := by
  intro c hc
  rw [toList_toString] at hc
  exact Nat.isDigit_of_mem_toDigits (by decide) (by decide) hc

theorem toString_inj {n m : Nat} (h : (toString n).toList = (toString m).toList) : n = m := by
  rw [toList_toString, toList_toString] at h
  have hn := Nat.ofDigitChars_ten_toDigits (n := n)
  rw [h, Nat.ofDigitChars_ten_toDigits] at hn
  exact hn.symm

theorem kind_no_digit (p : Push) : ∀ c ∈ p.kind.toList, c.isDigit = false := by
  have hkinds : ["_page_view", "_view", "", "_custom_event"].all
      (fun kind => kind.toList.all fun c => !c.isDigit) = true := by decide
  have hkind : p.kind.toList.all (fun c => !c.isDigit) = true := by
    apply List.all_eq_true.mp hkinds
    cases p <;> simp [Push.kind]
  intro c hc
  simpa using List.all_eq_true.mp hkind c hc

theorem tableName_inj {p q : Push} {n m : Nat}
    (h : tableName p.kind n tag = tableName q.kind m tag) : p.kind = q.kind ∧ n = m := by
  have hlist := congrArg String.toList h
  simp only [tableName, String.toList_append, List.append_assoc] at hlist
  have htail := List.append_cancel_left hlist
  rw [← List.append_assoc, ← List.append_assoc q.kind.toList] at htail
  have hname := List.append_cancel_right htail
  obtain ⟨hkind, hnum⟩ := append_inj_of_digits (kind_no_digit p) (kind_no_digit q)
    isDigit_toString isDigit_toString hname
  exact ⟨String.toList_inj.mp hkind, toString_inj hnum⟩

/-! ### The tables of a segment -/

/-- Distinct tables with numbers from `n` up to, but not including, `m`. -/
structure Numbered (tag : TagLike) (n m : Nat) (ts : List String) : Prop where
  nodup : ts.Nodup
  name : ∀ t ∈ ts, ∃ (p : Push) (k : Nat), n ≤ k ∧ k < m ∧ t = tableName p.kind k tag

theorem numbered_nil (n m : Nat) : Numbered tag n m [] :=
  ⟨List.nodup_nil, fun _ h => nomatch h⟩

theorem Numbered.append {n m k : Nat} {ts us : List String} (hnm : n ≤ m) (hmk : m ≤ k)
    (ht : Numbered tag n m ts) (hu : Numbered tag m k us) : Numbered tag n k (ts ++ us) := by
  refine ⟨List.nodup_append.mpr ⟨ht.nodup, hu.nodup, ?_⟩, ?_⟩
  · intro a ha b hb hab
    obtain ⟨p, i, _, hi, rfl⟩ := ht.name a ha
    obtain ⟨q, j, hj, _, rfl⟩ := hu.name b hb
    have hij := (tableName_inj hab).2
    omega
  · intro t hmem
    rcases List.mem_append.mp hmem with hmem | hmem
    · obtain ⟨p, i, hn, hm, rfl⟩ := ht.name t hmem
      exact ⟨p, i, hn, by omega, rfl⟩
    · obtain ⟨p, i, hm, hk, rfl⟩ := hu.name t hmem
      exact ⟨p, i, by omega, hk, rfl⟩

theorem Plain.tables {o : StepOut} (h : Plain o) : o.tables = [] := by
  simp [StepOut.tables, h.external]

theorem Plain.drops {o : StepOut} (h : Plain o) : o.drops = [] := by
  simp [StepOut.drops, h.external]

theorem commands_of_table {t : Tok} (h : t.table = none) : t.commands = [] := by
  unfold Tok.table at h
  unfold Tok.commands
  split at h <;> simp_all

theorem Plain.commands {o : StepOut} (h : Plain o) : o.toks.flatMap Tok.commands = [] := by
  exact List.flatMap_eq_nil_iff.mpr fun t ht => commands_of_table (h.toks t ht)

/-- A step looks up the table it pushes, and its table bears its number. -/
theorem switchV1_tables {body : StepBody} {o : StepOut}
    (h : switchV1 rt tag dto zone n body = .ok o) (s : Step) :
    o.toks.flatMap Tok.commands = o.tables.map .use ∧
      Numbered tag n (n + (s.item o).bump) o.tables := by
  have hout := switchV1_push h
  cases hp : body.push with
  | none =>
      rw [hp] at hout
      rw [hout.commands, hout.tables]
      exact ⟨rfl, numbered_nil _ _⟩
  | some p =>
      rw [hp] at hout
      subst hout
      obtain ⟨x, hx⟩ := @push_out_external tag n p
      rw [push_commands, push_tables]
      refine ⟨rfl, List.nodup_singleton _, fun t ht => ⟨p, n, Nat.le_refl n, ?_, ?_⟩⟩
      · simp [Item.bump, hx]
      · exact List.mem_singleton.mp ht

def Item.tables (i : Item) : List String := i.out.tables

theorem bumps_cons (i : Item) (is : List Item) : bumps (i :: is) = i.bump + bumps is := by
  simp [bumps]

theorem numbered_items {ss : List Step} : ∀ {n : Nat} {is : List Item},
    items (switchV1 rt tag dto zone) n ss = .ok is →
      Numbered tag n (n + bumps is) (is.flatMap Item.tables) := by
  induction ss with
  | nil =>
      intro n is h
      cases h
      exact numbered_nil _ _
  | cons s ss ih =>
      intro n is h
      cases hs : tagOf s with
      | some t =>
          rw [items_tag hs] at h
          exact ih h
      | none =>
          obtain ⟨o, js, ho, hr, rfl⟩ := items_item_ok hs h
          rw [bumps_cons, ← Nat.add_assoc, List.flatMap_cons]
          exact (switchV1_tables ho s).2.append (Nat.le_add_right _ _) (Nat.le_add_right _ _) (ih hr)

def CardOut.tables (c : CardOut) : List String := c.items.flatMap Item.tables

theorem numbered_cardOuts {cards : List (List Step)} : ∀ {n : Nat} {cs : List CardOut},
    cardOuts (switchV1 rt tag dto zone) n cards = .ok cs →
      ∃ m, n ≤ m ∧ Numbered tag n m (cs.flatMap CardOut.tables) := by
  induction cards with
  | nil =>
      intro n cs h
      cases h
      exact ⟨n, Nat.le_refl n, numbered_nil _ _⟩
  | cons steps cards ih =>
      intro n cs h
      obtain ⟨is, ds, his, hds, rfl⟩ := cardOuts_cons_ok h
      obtain ⟨m, hm, hnum⟩ := ih hds
      refine ⟨m, by omega, ?_⟩
      exact (numbered_items his).append (Nat.le_add_right _ _) hm hnum

/-! ### What the whole query does -/

theorem commands_lead (st : Nat) (i : Item) : (i.lead st).flatMap Tok.commands = [] := by
  unfold Item.lead leadToks connToks
  cases i.conditional <;> split <;> rfl

theorem commands_groupToks {is : List Item}
    (h : ∀ i ∈ is, i.out.toks.flatMap Tok.commands = i.tables.map .use) :
    ∀ st, (groupToks st is).flatMap Tok.commands = (is.flatMap Item.tables).map .use := by
  induction is with
  | nil => exact fun _ => rfl
  | cons i is ih =>
      intro st
      rw [groupToks_cons, List.flatMap_append, List.flatMap_append, commands_lead,
        h i List.mem_cons_self, ih fun j hj => h j (List.mem_cons_of_mem _ hj),
        List.flatMap_cons, List.map_append, List.nil_append]

theorem commands_head (c : CardOut) : (c.head tag).flatMap Tok.commands = [] := by
  have hword : c.word.flatMap Tok.commands = [] := by
    unfold CardOut.word cardWord
    split
    · split <;> rfl
    · rfl
  have hjoin : (joinToks c.join).flatMap Tok.commands = [] := by
    unfold joinToks
    split <;> rfl
  rw [CardOut.head, List.flatMap_append, List.flatMap_append, List.flatMap_append, hword, hjoin]
  rfl

theorem commands_tags (ts : List TagStepData) :
    (ts.flatMap (tagToks tag)).flatMap Tok.commands = [] := by
  induction ts with
  | nil => rfl
  | cons t ts ih =>
      rw [List.flatMap_cons, List.flatMap_append, ih, List.append_nil]
      unfold tagToks
      split <;> rfl

theorem commands_card {c : CardOut}
    (h : ∀ i ∈ c.items, i.out.toks.flatMap Tok.commands = i.tables.map .use)
    (hempty : c.steps = [] → c.items = []) :
    (c.toks tag).flatMap Tok.commands = c.tables.map .use := by
  have hclose : (if finalStatus 1 c.items = 2 then [Tok.rpar] else []).flatMap Tok.commands = [] := by
    split <;> rfl
  rw [CardOut.toks, List.flatMap_append]
  by_cases hs : c.steps = []
  · rw [if_pos hs, CardOut.tables, hempty hs]
    rfl
  · rw [if_neg hs, List.flatMap_append, List.flatMap_append, commands_head, commands_tags,
      CardOut.group, List.flatMap_append, commands_groupToks h, hclose]
    simp [CardOut.tables, Tok.commands]

theorem assemble_commands {cs : List CardOut}
    (hcs : cardOuts (switchV1 rt tag dto zone) 0 dto.steps = .ok cs) :
    (assemble tag dto cs).queryCommands
      = usesDrops (cs.flatMap CardOut.tables) (cs.flatMap CardOut.drops) := by
  have hcard : ∀ c ∈ cs, (c.toks tag).flatMap Tok.commands = c.tables.map .use := by
    intro c hc
    obtain ⟨_, m, hm⟩ := mem_cardOuts hcs c hc
    refine commands_card (fun i hi => ?_) (fun hs => ?_)
    · obtain ⟨s, _, k, _, hk, _⟩ := mem_items hm i hi
      exact (switchV1_tables hk s).1
    · rw [hs] at hm
      exact (Except.ok.inj hm).symm
  have hcards : (cs.flatMap (CardOut.toks tag)).flatMap Tok.commands
      = (cs.flatMap CardOut.tables).map .use := by
    rw [List.flatMap_assoc, List.map_flatMap]
    exact List.flatMap_congr hcard
  have hlimit : (limitToks dto.contactsLimit).flatMap Tok.commands = [] := by
    unfold limitToks
    split <;> rfl
  have hdrops : ∀ ts : List String,
      (ts.map Tok.dropTable).flatMap Tok.commands = ts.map .drop := by
    intro ts
    rw [List.flatMap_map]
    exact List.flatMap_pure_eq_map _ _
  rw [GenerateResult.queryCommands, assemble, usesDrops, List.flatMap_append, List.flatMap_append,
    List.flatMap_append, List.flatMap_append, hcards, hlimit, hdrops]
  simp [Tok.commands]

theorem tableNames_assemble (cs : List CardOut) :
    (assemble tag dto cs).tableNames = cs.flatMap CardOut.tables := by
  simp only [GenerateResult.tableNames, assemble, CardOut.externals, List.map_flatMap]
  refine List.flatMap_congr fun c _ => List.flatMap_congr fun i _ => ?_
  rw [Item.tables, StepOut.tables]
  cases i.out.external <;> rfl

/-! ## When the session is left as it was -/

theorem kind_of_mem_drops {cs : List CardOut}
    (hcs : cardOuts (switchV1 rt tag dto zone) 0 dto.steps = .ok cs) {t : String}
    (h : t ∈ cs.flatMap CardOut.drops) :
    ∃ (p : Push) (k : Nat), p.drops = true ∧ t = tableName p.kind k tag := by
  obtain ⟨c, hc, ht⟩ := List.mem_flatMap.mp h
  obtain ⟨i, hi, ht⟩ := List.mem_flatMap.mp ht
  obtain ⟨_, m, hm⟩ := mem_cardOuts hcs c hc
  obtain ⟨s, _, k, _, hk, _⟩ := mem_items hm i hi
  have hout := switchV1_push hk
  cases hp : s.body.push with
  | none =>
      rw [hp] at hout
      rw [hout.drops] at ht
      exact nomatch ht
  | some p =>
      rw [hp] at hout
      rw [hout, push_drops] at ht
      cases hd : p.drops with
      | false =>
          rw [hd] at ht
          exact nomatch ht
      | true =>
          rw [hd] at ht
          exact ⟨p, k, hd, List.mem_singleton.mp ht⟩

theorem drops_of_kind {p q : Push} (h : p.kind = q.kind) (hq : q.drops = true) :
    p.drops = true := by
  cases q with
  | repeated => cases p <;> simp_all [Push.kind, Push.drops]
  | pageView | view | customEvent => simp [Push.drops] at hq

theorem drops_eq_tables {cs : List CardOut}
    (hcs : cardOuts (switchV1 rt tag dto zone) 0 dto.steps = .ok cs)
    (h : ∀ steps ∈ dto.steps, ∀ s ∈ steps, ∀ p, s.body.push = some p → p.drops = true) :
    cs.flatMap CardOut.drops = cs.flatMap CardOut.tables := by
  refine List.flatMap_congr fun c hc => List.flatMap_congr fun i hi => ?_
  obtain ⟨hsteps, m, hm⟩ := mem_cardOuts hcs c hc
  obtain ⟨s, hs, k, _, hk, _⟩ := mem_items hm i hi
  have hout := switchV1_push hk
  cases hp : s.body.push with
  | none =>
      rw [hp] at hout
      rw [Item.tables, hout.drops, hout.tables]
  | some p =>
      rw [hp] at hout
      rw [Item.tables, hout, push_drops, push_tables, h c.steps hsteps s hs p hp, if_pos rfl]

variable (rt tag dto) (timeZone : Option String)

/-- Distinct tables, each looked up and dropped once, and a session that two
runs leave empty: exactly when no step pushes a query but repeated events. -/
theorem segmentQueryV1_tables_iff {r : GenerateResult}
    (h : generateSegmentQueryV1 rt tag dto timeZone = .ok r) :
    Disciplined r ↔
      ∀ steps ∈ dto.steps, ∀ s ∈ steps, ∀ p, s.body.push = some p → p.drops = true := by
  obtain ⟨cs, hcs, rfl⟩ := generateV1_ok rt tag dto timeZone h
  obtain ⟨_, _, hnum⟩ := numbered_cardOuts hcs
  have hnames := @tableNames_assemble tag dto cs
  have hcommands := assemble_commands hcs
  constructor
  · intro hdis
    have hall : ∀ x ∈ (assemble tag dto cs).externalQuerySteps,
        ∃ (p : Push) (k : Nat), p.drops = true ∧ x.tableName = tableName p.kind k tag := by
      intro x hx
      have hmem : x.tableName ∈ (assemble tag dto cs).tableNames := List.mem_map_of_mem hx
      have hdrop := hdis.dropped.mem_iff.mpr hmem
      rw [hcommands, dropped_usesDrops] at hdrop
      exact kind_of_mem_drops hcs hdrop
    refine (forall_externals_iff hcs fun n p x hx => ?_).mp hall
    have hname : x.tableName = tableName p.kind n tag := by
      have ht := @push_tables tag n p
      rw [StepOut.tables, hx] at ht
      exact List.singleton_inj.mp ht
    rw [hname]
    constructor
    · rintro ⟨q, k, hq, heq⟩
      exact drops_of_kind (tableName_inj heq).1 hq
    · intro hp
      exact ⟨p, n, hp, rfl⟩
  · intro hdrops
    have heq := drops_eq_tables hcs hdrops
    have hrun : run (assemble tag dto cs).commands ∅ = some ∅ := by
      rw [GenerateResult.commands, hcommands, hnames, heq]
      exact run_balanced hnum.nodup (by simp) (fun _ hb => hb) (.refl _)
    refine ⟨by rw [hnames]; exact hnum.nodup, ?_, ?_, ?_⟩
    · intro t ht
      rw [hcommands, used_usesDrops, ← hnames]
      exact ht
    · rw [hcommands, dropped_usesDrops, heq, hnames]
    · rw [run_append, hrun, Option.bind_some, hrun]

end

/-! ## A page view leaves its table -/

/-- Page views of the last week. -/
def pageViewWeek : SegmentDtoLike :=
  { steps := [[
      { body := .interation { eventType := .str "page_view"
                              conditionalInteration := .str "yes"
                              pageViewFilter := .str "="
                              pageViewValue := .str "'shop'"
                              time := .num 7 } }]] }

theorem segmentQueryV1_table_left :
    ∃ r, generateSegmentQueryV1 plainRuntime ⟨3, 1⟩ pageViewWeek none = .ok r ∧
      run r.commands ∅ = some {"table_segment_page_view0_3"} ∧
      run (r.commands ++ r.commands) ∅ = none ∧ ¬ Disciplined r := by
  refine ⟨_, rfl, by decide, by decide, fun h => ?_⟩
  exact absurd h.twice (by decide)

/-- At least three opened e-mails in a week. -/
def openedOften : SegmentDtoLike :=
  { steps := [[
      { body := .interation { eventType := .str "email"
                              event := .str "last_open_date"
                              conditionalInteration := .str "yes"
                              message := .any
                              customTimesValue := .num 3
                              time := .num 7 } }]] }

theorem segmentQueryV1_tables_openedOften :
    ∃ r, generateSegmentQueryV1 plainRuntime ⟨3, 1⟩ openedOften none = .ok r ∧ Disciplined r := by
  refine ⟨_, rfl, (segmentQueryV1_tables_iff plainRuntime ⟨3, 1⟩ openedOften none rfl).mpr ?_⟩
  intro steps hsteps s hs p hp
  rw [List.mem_singleton.mp hsteps] at hs
  rw [List.mem_singleton.mp hs] at hp
  cases hp
  rfl

end OpenBms.Segment
