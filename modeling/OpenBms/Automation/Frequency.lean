/-
# `OpenBms.Automation.Frequency` — at most one running row for a pair

`startAutomation` looks the pair's rows up, cancels the running one without waiting,
and inserts the new one.  Nothing keeps another handler of the pair from looking up
in between.

| between a handler's first lookup and its insert | then |
| :-- | :-- |
| no other handler of the pair looks up | it has seen every row there is |
| the cancellation it sent has landed | no row of the pair is running |

**Proved here.**

    the newest started row is the running one, if one runs (`SerialInv`)
    a serial step keeps it (`SerialInv.step`)
    a serial run has one running row for a pair, and one row
    in all under `UNIQUE` (`serial_single`)
    two handlers that interleave leave two (`interleaved_two`)
-/
import OpenBms.Automation.Lifecycle

namespace OpenBms.Automation

/-! ## Serial runs -/

/-- Between its first lookup and its insert. -/
def Handler.looked (freq : Int → Frequency) (h : Handler) : Prop :=
  match h.stage with
  | .first => False
  | .latest => freq h.trigger.pair.automationId = .unique
  | .duplicate | .insert => True

/-- Handlers of a pair look up and insert one after the other, and the cancellation
a handler has sent is executed, and does not fail, before its insert. -/
def Serial (freq : Int → Frequency) (s : State) : Event → Prop
  | .advance no => ∀ h, s.handler no = some h →
      (¬ h.looked freq →
        ∀ h' ∈ s.handlers, h'.trigger.pair = h.trigger.pair → ¬ h'.looked freq) ∧
      (h.stage = .insert → ∀ u ∈ s.pending, u.handler ≠ some no)
  | .lose i => ∀ u, s.pending[i]? = some u → u.handler = none
  | _ => True

/-- A row of a run, not of a refused trigger. -/
def Started (r : ContactAutomation) : Prop := r.status ≠ .duplicate

/-- What serial steps keep. -/
structure SerialInv (freq : Int → Frequency) (s : State) : Prop where
  /-- the running row of a pair is its newest started one -/
  newest : ∀ r ∈ s.table.rows, r.status = .running → ∀ r' ∈ s.table.rows, r'.pair = r.pair →
    Started r' → r'.createdAt ≤ r.createdAt
  /-- a handler about to insert has sent the cancellation of the running row -/
  sent : ∀ h ∈ s.handlers, h.stage = .insert → ∀ r ∈ s.table.rows, r.pair = h.trigger.pair →
    r.status = .running → ∃ u ∈ s.pending, u.handler = some h.no ∧
      u.accountId = r.pair.accountId ∧ u.id = r.id
  alone : ∀ h ∈ s.handlers, ∀ h' ∈ s.handlers, h.trigger.pair = h'.trigger.pair →
    h.looked freq → h'.looked freq → h = h'
  numbers : ∀ h ∈ s.handlers, h.no < s.nextHandler
  distinct : ∀ h ∈ s.handlers, ∀ h' ∈ s.handlers, h.no = h'.no → h = h'
  /-- only started rows are updated -/
  pending : ∀ u ∈ s.pending, ∀ r ∈ s.table.rows, r.id = u.id → Started r
  pendingId : ∀ u ∈ s.pending, u.id < s.table.nextId ∧ u.status ≠ .running ∧ u.status ≠ .duplicate
  published : ∀ m ∈ s.published, m.id < s.table.nextId ∧ ∀ r ∈ s.table.rows, r.id = m.id → Started r
  completions : ∀ m ∈ s.completions,
    m.id < s.table.nextId ∧ ∀ r ∈ s.table.rows, r.id = m.id → Started r
  /-- under `UNIQUE` a handler that has looked up has found no row, and one inserts -/
  unique : ∀ pair : Pair, freq pair.automationId = .unique →
    (s.table.of pair).length ≤ 1 ∧
      ∀ h ∈ s.handlers, h.trigger.pair = pair → h.looked freq →
        s.table.of pair = [] ∧ h.stage ≠ .duplicate

section
variable {freq : Int → Frequency} {s s' t : State}

/-! ### Rows after an update and after an insert -/

theorem row_of_setStatus {table : Table} {a : Int} {i : Nat} {st : Status} (hst : st ≠ .running)
    (hdup : st ≠ .duplicate) (hi : ∀ r ∈ table.rows, r.id = i → Started r)
    {r : ContactAutomation} (hr : r ∈ (table.setStatus a i st).rows) :
    ∃ r₀ ∈ table.rows, r.id = r₀.id ∧ r.pair = r₀.pair ∧ r.createdAt = r₀.createdAt ∧
      (Started r ↔ Started r₀) ∧
      (r.status = .running → r = r₀ ∧ ¬ (r₀.pair.accountId = a ∧ r₀.id = i)) := by
  obtain ⟨r₀, hr₀, rfl⟩ := Table.mem_setStatus.mp hr
  refine ⟨r₀, hr₀, Table.update_id .., Table.update_pair .., Table.update_createdAt .., ?_, ?_⟩
  · unfold Table.update
    split
    · rename_i hpos
      exact iff_of_true hdup (hi r₀ hr₀ hpos.2)
    · exact Iff.rfl
  · unfold Table.update
    split
    · exact fun h => absurd h hst
    · rename_i hneg
      exact fun _ => ⟨rfl, hneg⟩

theorem of_setStatus (table : Table) (a : Int) (i : Nat) (st : Status) (pair : Pair) :
    (table.setStatus a i st).of pair = (table.of pair).map (Table.update a i st) := by
  simp only [Table.of, Table.setStatus, List.filter_map, Function.comp_def, Table.update_pair]

theorem of_insert_self (table : Table) (pair : Pair) (st : Status) :
    (table.insert pair st).of pair = table.of pair ++ [table.newRow pair st] := by
  simp [Table.of, Table.insert, Table.newRow]

theorem of_insert_other {pair pair' : Pair} (h : pair' ≠ pair) (table : Table) (st : Status) :
    (table.insert pair st).of pair' = table.of pair' := by
  simp [Table.of, Table.insert, Table.newRow, h.symm]

theorem mem_of {table : Table} {pair : Pair} {r : ContactAutomation} :
    r ∈ table.of pair ↔ r ∈ table.rows ∧ r.pair = pair := by
  simp [Table.of]

theorem SerialInv.single (h : SerialInv freq s) {r r' : ContactAutomation} (hr : r ∈ s.table.rows)
    (hr' : r' ∈ s.table.rows) (hpair : r.pair = r'.pair) (hrun : r.status = .running)
    (hrun' : r'.status = .running) : r = r' := by
  have hstarted : Started r := by simp [Started, hrun]
  have hstarted' : Started r' := by simp [Started, hrun']
  refine Table.eq_of_createdAt hr hr' (le_antisymm ?_ ?_)
  · exact h.newest r' hr' hrun' r hr hpair hstarted
  · exact h.newest r hr hrun r' hr' hpair.symm hstarted'

/-! ### Updates -/

theorem SerialInv.setStatus (h : SerialInv freq s) {a : Int} {i : Nat} {st : Status}
    (hst : st ≠ .running) (hdup : st ≠ .duplicate)
    (hi : ∀ r ∈ s.table.rows, r.id = i → Started r) {pending : List Update} (marks : List Mark)
    (hsub : ∀ u ∈ pending, u ∈ s.pending)
    (hkept : ∀ u ∈ s.pending, u ∈ pending ∨ u.accountId = a ∧ u.id = i) :
    SerialInv freq { s with table := s.table.setStatus a i st, pending := pending, marks := marks } := by
  have hrow := fun r => @row_of_setStatus s.table a i st hst hdup hi r
  have hstarted : ∀ j, (∀ r ∈ s.table.rows, r.id = j → Started r) →
      ∀ r ∈ (s.table.setStatus a i st).rows, r.id = j → Started r := by
    intro j hj r hr hid
    obtain ⟨r₀, hr₀, hid₀, _, _, hiff, _⟩ := hrow r hr
    exact hiff.mpr (hj r₀ hr₀ (hid₀ ▸ hid))
  constructor
  case newest =>
    intro r hr hrun r' hr' hpair hst'
    obtain ⟨r₀, hr₀, _, hpair₀, hdate₀, _, hsame⟩ := hrow r hr
    obtain ⟨r₁, hr₁, _, hpair₁, hdate₁, hiff₁, _⟩ := hrow r' hr'
    rw [hdate₀, hdate₁]
    refine h.newest r₀ hr₀ ((hsame hrun).1 ▸ hrun) r₁ hr₁ ?_ (hiff₁.mp hst')
    rw [← hpair₀, ← hpair₁, hpair]
  case sent =>
    intro hd hhd hstage r hr hpair hrun
    obtain ⟨r₀, hr₀, _, hpair₀, _, _, hsame⟩ := hrow r hr
    obtain ⟨rfl, hmiss⟩ := hsame hrun
    obtain ⟨u, hu, hby, hacc, hid⟩ := h.sent hd hhd hstage r hr₀ hpair hrun
    rcases hkept u hu with hu' | hhit
    · exact ⟨u, hu', hby, hacc, hid⟩
    · exact absurd ⟨hacc ▸ hhit.1, hid ▸ hhit.2⟩ hmiss
  case alone => exact h.alone
  case numbers => exact h.numbers
  case distinct => exact h.distinct
  case pending => exact fun u hu => hstarted u.id (h.pending u (hsub u hu))
  case pendingId => exact fun u hu => h.pendingId u (hsub u hu)
  case published => exact fun m hm => ⟨(h.published m hm).1, hstarted m.id (h.published m hm).2⟩
  case completions => exact fun m hm => ⟨(h.completions m hm).1, hstarted m.id (h.completions m hm).2⟩
  case unique =>
    intro pair hfreq
    obtain ⟨hlen, hlooked⟩ := h.unique pair hfreq
    refine ⟨?_, fun hd hhd hpair hl => ?_⟩
    · rw [of_setStatus, List.length_map]
      exact hlen
    · obtain ⟨hnone, hstage⟩ := hlooked hd hhd hpair hl
      refine ⟨?_, hstage⟩
      rw [of_setStatus, hnone, List.map_nil]

/-! ### Handlers -/

theorem mem_leave {no : Nat} {h : Handler} (hh : h ∈ (s.leave no).handlers) :
    h ∈ s.handlers ∧ h.no ≠ no := by
  simpa [State.leave] using hh

/-- A handler that ends. -/
theorem SerialInv.leave (h : SerialInv freq s) (no : Nat) : SerialInv freq (s.leave no) where
  newest := h.newest
  sent := fun hd hhd => h.sent hd (mem_leave hhd).1
  alone := fun hd hhd hd' hhd' => h.alone hd (mem_leave hhd).1 hd' (mem_leave hhd').1
  numbers := fun hd hhd => h.numbers hd (mem_leave hhd).1
  distinct := fun hd hhd hd' hhd' => h.distinct hd (mem_leave hhd).1 hd' (mem_leave hhd').1
  pending := h.pending
  pendingId := h.pendingId
  published := h.published
  completions := h.completions
  unique := fun pair hfreq => ⟨(h.unique pair hfreq).1,
    fun hd hhd => (h.unique pair hfreq).2 hd (mem_leave hhd).1⟩

theorem mem_goto {h h' : Handler} {stage : Stage} (hh : h' ∈ (s.goto h stage).handlers) :
    h' ∈ s.handlers ∧ h'.no ≠ h.no ∨ h' = { h with stage := stage } := by
  obtain ⟨h₀, hh₀, rfl⟩ := List.mem_map.mp hh
  split
  · exact .inr rfl
  · rename_i hne
    exact .inl ⟨hh₀, hne⟩

/-- A handler that goes on, alone among those of its pair that have looked up, and
that has sent the cancellation of the running row when it is about to insert. -/
theorem SerialInv.goto (h : SerialInv freq s) {hd : Handler} (hhd : hd ∈ s.handlers)
    {stage : Stage} {pending : List Update} (hsub : ∀ u ∈ s.pending, u ∈ pending)
    (hpending : ∀ u ∈ pending, u ∈ s.pending ∨
      ∃ r ∈ s.table.rows, Started r ∧ u.id = r.id ∧ u.status = .canceled)
    (halone : ∀ h' ∈ s.handlers, h'.trigger.pair = hd.trigger.pair → h'.looked freq → h' = hd)
    (hsent : stage = .insert → ∀ r ∈ s.table.rows, r.pair = hd.trigger.pair →
      r.status = .running → ∃ u ∈ pending, u.handler = some hd.no ∧
        u.accountId = r.pair.accountId ∧ u.id = r.id)
    (hunique : freq hd.trigger.pair.automationId = .unique →
      s.table.of hd.trigger.pair = [] ∧ stage ≠ .duplicate) :
    SerialInv freq { s.goto hd stage with pending := pending } := by
  have hstart : ∀ u ∈ pending, u.id < s.table.nextId ∧ u.status ≠ .running ∧
      u.status ≠ .duplicate ∧ ∀ r ∈ s.table.rows, r.id = u.id → Started r := by
    intro u hu
    rcases hpending u hu with hu | ⟨r, hr, hst, hid, hcancel⟩
    · obtain ⟨h1, h2, h3⟩ := h.pendingId u hu
      exact ⟨h1, h2, h3, h.pending u hu⟩
    · refine ⟨hid ▸ (s.table.fresh r hr).1, by simp [hcancel], by simp [hcancel], ?_⟩
      intro r' hr' hid'
      obtain rfl := Table.eq_of_id hr' hr (hid'.trans hid)
      exact hst
  have hothers : ∀ h' ∈ (s.goto hd stage).handlers, h'.trigger.pair = hd.trigger.pair →
      h'.looked freq → h' = { hd with stage := stage } := by
    intro h' hh' hpair hl
    rcases mem_goto hh' with ⟨hmem, hne⟩ | heq
    · exact absurd (congrArg Handler.no (halone h' hmem hpair hl)) hne
    · exact heq
  constructor
  case newest => exact h.newest
  case sent =>
    intro h' hh' hstage r hr hpair hrun
    rcases mem_goto hh' with ⟨hmem, _⟩ | rfl
    · obtain ⟨u, hu, hrest⟩ := h.sent h' hmem hstage r hr hpair hrun
      exact ⟨u, hsub u hu, hrest⟩
    · exact hsent hstage r hr hpair hrun
  case alone =>
    intro h₁ hh₁ h₂ hh₂ hpair hl₁ hl₂
    by_cases hhere : h₁.trigger.pair = hd.trigger.pair
    · rw [hothers h₁ hh₁ hhere hl₁, hothers h₂ hh₂ (hpair ▸ hhere) hl₂]
    · rcases mem_goto hh₁ with ⟨hmem₁, _⟩ | rfl
      · rcases mem_goto hh₂ with ⟨hmem₂, _⟩ | rfl
        · exact h.alone h₁ hmem₁ h₂ hmem₂ hpair hl₁ hl₂
        · exact absurd hpair hhere
      · exact absurd rfl hhere
  case numbers =>
    intro h' hh'
    rcases mem_goto hh' with ⟨hmem, _⟩ | rfl
    · exact h.numbers h' hmem
    · exact h.numbers hd hhd
  case distinct =>
    intro h₁ hh₁ h₂ hh₂ hno
    rcases mem_goto hh₁ with ⟨hmem₁, hne₁⟩ | rfl <;> rcases mem_goto hh₂ with ⟨hmem₂, hne₂⟩ | rfl
    · exact h.distinct h₁ hmem₁ h₂ hmem₂ hno
    · exact absurd hno hne₁
    · exact absurd hno.symm hne₂
    · rfl
  case pending => exact fun u hu => (hstart u hu).2.2.2
  case pendingId => exact fun u hu => ⟨(hstart u hu).1, (hstart u hu).2.1, (hstart u hu).2.2.1⟩
  case published => exact h.published
  case completions => exact h.completions
  case unique =>
    intro pair hfreq
    obtain ⟨hlen, hlooked⟩ := h.unique pair hfreq
    refine ⟨hlen, fun h' hh' hpair hl => ?_⟩
    rcases mem_goto hh' with ⟨hmem, _⟩ | rfl
    · exact hlooked h' hmem hpair hl
    · obtain rfl : hd.trigger.pair = pair := hpair
      exact hunique hfreq

theorem SerialInv.insert (h : SerialInv freq s) {hd : Handler} (hhd : hd ∈ s.handlers)
    (hl : hd.looked freq) {st : Status} {published : List LeadStateMessage}
    (hrun : st = .running → ∀ r ∈ s.table.rows, r.pair = hd.trigger.pair → r.status ≠ .running)
    (hst : st = .running ∨ st = .duplicate)
    (hpub : ∀ m ∈ published, m ∈ s.published ∨ m.id = s.table.nextId ∧ st = .running) :
    SerialInv freq { s.leave hd.no with
      table := s.table.insert hd.trigger.pair st, published := published } := by
  have hnew : ∀ j < s.table.nextId, (∀ r ∈ s.table.rows, r.id = j → Started r) →
      ∀ r ∈ (s.table.insert hd.trigger.pair st).rows, r.id = j → Started r := by
    intro j hj hold r hr hid
    rcases Table.mem_insert.mp hr with hr | rfl
    · exact hold r hr hid
    · exact absurd hid (Nat.ne_of_gt hj)
  have hgone : ∀ h' ∈ (s.leave hd.no).handlers, h'.looked freq →
      h'.trigger.pair ≠ hd.trigger.pair := by
    intro h' hh' hl' hpair
    obtain ⟨hmem, hne⟩ := mem_leave hh'
    exact hne (congrArg Handler.no (h.alone h' hmem hd hhd hpair hl' hl))
  constructor
  case newest =>
    intro r hr hrunning r' hr' hpair hst'
    rcases Table.mem_insert.mp hr with hr | rfl <;> rcases Table.mem_insert.mp hr' with hr' | rfl
    · exact h.newest r hr hrunning r' hr' hpair hst'
    · rcases hst with hst | hst
      · exact absurd hrunning (hrun hst r hr hpair.symm)
      · exact absurd hst hst'
    · exact (s.table.fresh r' hr').2.le
    · exact le_refl _
  case sent =>
    intro h' hh' hstage r hr hpair hrunning
    rcases Table.mem_insert.mp hr with hr | rfl
    · exact h.sent h' (mem_leave hh').1 hstage r hr hpair hrunning
    · have hl' : h'.looked freq := by
        unfold Handler.looked
        rw [hstage]
        trivial
      exact absurd hpair.symm (hgone h' hh' hl')
  case alone => exact (h.leave hd.no).alone
  case numbers => exact (h.leave hd.no).numbers
  case distinct => exact (h.leave hd.no).distinct
  case pending => exact fun u hu => hnew u.id (h.pendingId u hu).1 (h.pending u hu)
  case pendingId =>
    exact fun u hu => ⟨Nat.lt_succ_of_lt (h.pendingId u hu).1, (h.pendingId u hu).2⟩
  case published =>
    intro m hm
    rcases hpub m hm with hm | ⟨hid, hst'⟩
    · obtain ⟨hlt, hold⟩ := h.published m hm
      exact ⟨Nat.lt_succ_of_lt hlt, hnew m.id hlt hold⟩
    · refine ⟨hid ▸ Nat.lt_succ_self _, fun r hr hrid => ?_⟩
      rcases Table.mem_insert.mp hr with hr | rfl
      · have hlt := (s.table.fresh r hr).1
        omega
      · simp [Started, Table.newRow, hst']
  case completions =>
    intro m hm
    obtain ⟨hlt, hold⟩ := h.completions m hm
    exact ⟨Nat.lt_succ_of_lt hlt, hnew m.id hlt hold⟩
  case unique =>
    intro pair hfreq
    obtain ⟨hlen, hlooked⟩ := h.unique pair hfreq
    by_cases hpair : pair = hd.trigger.pair
    · subst hpair
      obtain ⟨hnone, _⟩ := hlooked hd hhd rfl hl
      refine ⟨?_, fun h' hh' hpair hl' => absurd hpair (hgone h' hh' hl')⟩
      rw [of_insert_self, hnone]
      exact le_refl _
    · refine ⟨?_, fun h' hh' hpair' hl' => ?_⟩
      · rw [of_insert_other hpair]
        exact hlen
      · obtain ⟨hnone, hstage⟩ := hlooked h' (mem_leave hh').1 hpair' hl'
        refine ⟨?_, hstage⟩
        rw [of_insert_other hpair]
        exact hnone

/-! ### A step -/

theorem SerialInv.running_of_newest (h : SerialInv freq s) {pair : Pair} {row r : ContactAutomation}
    (hnewest : s.table.newest pair [.running, .completed] = some row) (hr : r ∈ s.table.rows)
    (hpair : r.pair = pair) (hrun : r.status = .running) : r = row := by
  obtain ⟨hrow, hrowpair, hst, hlast⟩ := Table.newest_eq_some hnewest
  refine Table.eq_of_createdAt hr hrow (le_antisymm ?_ ?_)
  · exact hlast r hr hpair (by simp [hrun])
  · refine h.newest r hr hrun row hrow (hrowpair.trans hpair.symm) ?_
    intro hdup
    rw [hdup] at hst
    exact absurd hst (by decide)

theorem SerialInv.advance (h : SerialInv freq s) {hd : Handler} (hhd : s.handler hd.no = some hd)
    (hserial : Serial freq s (.advance hd.no)) : SerialInv freq (s.advance freq hd) := by
  obtain ⟨hmem, _⟩ := handler_eq_some hhd
  obtain ⟨hfirst, hinsert⟩ := hserial hd hhd
  have halone : ∀ h' ∈ s.handlers, h'.trigger.pair = hd.trigger.pair → h'.looked freq → h' = hd := by
    intro h' hh' hpair hl'
    by_cases hl : hd.looked freq
    · exact h.alone h' hh' hd hmem hpair hl' hl
    · exact absurd hl' (hfirst hl h' hh' hpair)
  have hsame : ∀ {stage : Stage}, (stage = .insert → ∀ r ∈ s.table.rows,
      r.pair = hd.trigger.pair → r.status ≠ .running) →
      (freq hd.trigger.pair.automationId = .unique →
        s.table.of hd.trigger.pair = [] ∧ stage ≠ .duplicate) →
      SerialInv freq (s.goto hd stage) := fun hnone hunique =>
    h.goto hmem (fun _ hu => hu) (fun _ hu => .inl hu) halone
      (fun hst r hr hpair hrun => absurd hrun (hnone hst r hr hpair)) hunique
  unfold State.advance
  cases hstage : hd.stage with
  | first =>
      dsimp only
      split
      · exact h.leave _
      · rename_i hnone
        exact hsame (fun hst => by cases hst)
          fun _ => ⟨Table.first_eq_none.mp hnone, by simp⟩
  | latest =>
      have hempty : freq hd.trigger.pair.automationId = .unique → s.table.of hd.trigger.pair = [] :=
        fun hfreq => ((h.unique _ hfreq).2 hd hmem rfl
          (by unfold Handler.looked; rw [hstage]; exact hfreq)).1
      dsimp only
      split
      · rename_i hnone
        refine hsame (fun _ r hr hpair hrun => ?_) fun hfreq => ⟨hempty hfreq, by simp⟩
        exact Table.newest_eq_none hnone r hr hpair (by simp [hrun])
      · rename_i row hnewest
        obtain ⟨hrow, hrowpair, hst, _⟩ := Table.newest_eq_some hnewest
        have hne : freq hd.trigger.pair.automationId ≠ .unique := by
          intro hfreq
          have hrowmem := mem_of.mpr ⟨hrow, hrowpair⟩
          rw [hempty hfreq] at hrowmem
          cases hrowmem
        split
        · exact hsame (fun hst => by cases hst) fun hfreq => absurd hfreq hne
        · split
          · rename_i hrunning
            refine h.goto hmem (fun u hu => List.mem_append_left _ hu) (fun u hu => ?_) halone
              (fun _ r hr hpair hrun => ?_) fun hfreq => absurd hfreq hne
            · rcases List.mem_append.mp hu with hu | hu
              · exact .inl hu
              · obtain rfl := List.mem_singleton.mp hu
                exact .inr ⟨row, hrow, by simp [Started, hrunning], rfl, rfl⟩
            · obtain rfl := h.running_of_newest hnewest hr hpair hrun
              exact ⟨_, List.mem_append_right _ List.mem_cons_self, rfl, rfl, rfl⟩
          · rename_i hstopped
            refine hsame (fun _ r hr hpair hrun => ?_) fun hfreq => absurd hfreq hne
            exact hstopped (h.running_of_newest hnewest hr hpair hrun ▸ hrun)
  | duplicate =>
      exact h.insert hmem (by unfold Handler.looked; rw [hstage]; trivial)
        (fun hst => by cases hst) (.inr rfl) (fun _ hm => .inl hm)
  | insert =>
      refine h.insert hmem (by unfold Handler.looked; rw [hstage]; trivial) ?_ (.inl rfl) ?_
      · intro _ r hr hpair hrun
        obtain ⟨u, hu, hby, _⟩ := h.sent hd hmem hstage r hr hpair hrun
        exact hinsert hstage u hu hby
      · intro m hm
        rcases List.mem_append.mp hm with hm | hm
        · exact .inl hm
        · obtain rfl := List.mem_singleton.mp hm
          exact .inr ⟨rfl, rfl⟩

theorem SerialInv.arrive (h : SerialInv freq s) (t : Trigger) {stage : Stage}
    (hstage : stage = if freq t.pair.automationId = .unique then .first else .latest) :
    SerialInv freq { s with
      handlers := s.handlers ++ [⟨s.nextHandler, t, stage⟩], nextHandler := s.nextHandler + 1 } := by
  have hnew : ¬ Handler.looked freq ⟨s.nextHandler, t, stage⟩ := by
    rw [hstage]
    split
    · exact id
    · rename_i hne
      exact hne
  have hinsert : stage ≠ .insert := by
    rw [hstage]
    split <;> simp
  have hold : ∀ h' ∈ s.handlers ++ [⟨s.nextHandler, t, stage⟩], h'.looked freq → h' ∈ s.handlers := by
    intro h' hh' hl
    rcases List.mem_append.mp hh' with hh' | hh'
    · exact hh'
    · rw [List.mem_singleton.mp hh'] at hl
      exact absurd hl hnew
  constructor
  case newest => exact h.newest
  case sent =>
    intro h' hh' hst
    rcases List.mem_append.mp hh' with hh' | hh'
    · exact h.sent h' hh' hst
    · rw [List.mem_singleton.mp hh'] at hst
      exact absurd hst hinsert
  case alone =>
    exact fun h₁ hh₁ h₂ hh₂ hpair hl₁ hl₂ =>
      h.alone h₁ (hold h₁ hh₁ hl₁) h₂ (hold h₂ hh₂ hl₂) hpair hl₁ hl₂
  case numbers =>
    intro h' hh'
    rcases List.mem_append.mp hh' with hh' | hh'
    · exact Nat.lt_succ_of_lt (h.numbers h' hh')
    · rw [List.mem_singleton.mp hh']
      exact Nat.lt_succ_self _
  case distinct =>
    intro h₁ hh₁ h₂ hh₂ hno
    rcases List.mem_append.mp hh₁ with hh₁ | hh₁ <;> rcases List.mem_append.mp hh₂ with hh₂ | hh₂
    · exact h.distinct h₁ hh₁ h₂ hh₂ hno
    · rw [List.mem_singleton.mp hh₂] at hno
      exact absurd hno (Nat.ne_of_lt (h.numbers h₁ hh₁))
    · rw [List.mem_singleton.mp hh₁] at hno
      exact absurd hno.symm (Nat.ne_of_lt (h.numbers h₂ hh₂))
    · rw [List.mem_singleton.mp hh₁, List.mem_singleton.mp hh₂]
  case pending => exact h.pending
  case pendingId => exact h.pendingId
  case published => exact h.published
  case completions => exact h.completions
  case unique =>
    exact fun pair hfreq => ⟨(h.unique pair hfreq).1, fun h' hh' hpair hl =>
      (h.unique pair hfreq).2 h' (hold h' hh' hl) hpair hl⟩

theorem SerialInv.decided (h : SerialInv freq s) {us : List Update}
    (hus : ∀ u ∈ us, ∃ r ∈ s.table.rows, r.status = .running ∧ u.id = r.id ∧
      (u.status = .canceled ∨ u.status = .completed)) :
    SerialInv freq { s with pending := s.pending ++ us } := by
  have hstarted : ∀ u ∈ us, u.id < s.table.nextId ∧ u.status ≠ .running ∧ u.status ≠ .duplicate ∧
      ∀ r ∈ s.table.rows, r.id = u.id → Started r := by
    intro u hu
    obtain ⟨r, hr, hrun, hid, hst⟩ := hus u hu
    refine ⟨hid ▸ (s.table.fresh r hr).1, ?_, ?_, fun r' hr' hid' => ?_⟩
    · rcases hst with hst | hst <;> simp [hst]
    · rcases hst with hst | hst <;> simp [hst]
    · obtain rfl := Table.eq_of_id hr' hr (hid'.trans hid)
      simp [Started, hrun]
  refine ⟨h.newest, ?_, h.alone, h.numbers, h.distinct, ?_, ?_, h.published, h.completions, h.unique⟩
  · intro hd hhd hst r hr hpair hrun
    obtain ⟨u, hu, hrest⟩ := h.sent hd hhd hst r hr hpair hrun
    exact ⟨u, List.mem_append_left _ hu, hrest⟩
  · intro u hu
    rcases List.mem_append.mp hu with hu | hu
    · exact h.pending u hu
    · exact (hstarted u hu).2.2.2
  · intro u hu
    rcases List.mem_append.mp hu with hu | hu
    · exact h.pendingId u hu
    · exact ⟨(hstarted u hu).1, (hstarted u hu).2.1, (hstarted u hu).2.2.1⟩

theorem mem_eraseIdx_or {us : List Update} {i : Nat} {u u' : Update} (hu : us[i]? = some u)
    (hu' : u' ∈ us) : u' ∈ us.eraseIdx i ∨ u' = u := by
  obtain ⟨j, hj⟩ := List.getElem?_of_mem hu'
  by_cases hij : j = i
  · subst hij
    exact .inr (Option.some.inj (hj.symm.trans hu))
  · exact .inl (List.mem_eraseIdx_iff_getElem?.mpr ⟨j, hij, hj⟩)

theorem SerialInv.step (h : SerialInv freq s) {e : Event} (hserial : Serial freq s e)
    (hs : step freq s e = some s') : SerialInv freq s' := by
  cases e with
  | arrive t =>
      cases hs
      exact h.arrive t rfl
  | advance no =>
      obtain ⟨hd, hhd, rfl⟩ := Option.map_eq_some_iff.mp hs
      obtain ⟨_, rfl⟩ := handler_eq_some hhd
      exact h.advance hhd hserial
  | crash no =>
      obtain ⟨hd, _, rfl⟩ := Option.map_eq_some_iff.mp hs
      exact h.leave no
  | untag pair id =>
      simp only [Automation.step] at hs
      split at hs
      · cases hs
        exact h
      · rename_i row hnewest
        cases hs
        obtain ⟨hrow, _, hst, _⟩ := Table.newest_eq_some hnewest
        refine h.decided fun u hu => ?_
        obtain rfl := List.mem_singleton.mp hu
        exact ⟨row, hrow, List.mem_singleton.mp hst, rfl, .inl rfl⟩
  | target pair =>
      cases hs
      refine h.decided fun u hu => ?_
      obtain ⟨row, hrow, rfl⟩ := List.mem_map.mp hu
      have hrow : row ∈ s.table.rows ∧ row.pair = pair ∧ row.status = .running := by
        simpa [Table.all, and_assoc] using hrow
      exact ⟨row, hrow.1, hrow.2.2, rfl, .inr rfl⟩
  | land i =>
      obtain ⟨u, hu, rfl⟩ := Option.map_eq_some_iff.mp hs
      have hmem := List.mem_of_getElem? hu
      obtain ⟨_, hst, hdup⟩ := h.pendingId u hmem
      refine h.setStatus hst hdup (h.pending u hmem) _ (fun u' hu' => List.mem_of_mem_eraseIdx hu') ?_
      intro u' hu'
      rcases mem_eraseIdx_or hu hu' with hkept | rfl
      · exact .inl hkept
      · exact .inr ⟨rfl, rfl⟩
  | lose i =>
      obtain ⟨u, hu, rfl⟩ := Option.map_eq_some_iff.mp hs
      refine ⟨h.newest, ?_, h.alone, h.numbers, h.distinct,
        fun u' hu' => h.pending u' (List.mem_of_mem_eraseIdx hu'),
        fun u' hu' => h.pendingId u' (List.mem_of_mem_eraseIdx hu'), h.published, h.completions,
        h.unique⟩
      intro hd hhd hst r hr hpair hrun
      obtain ⟨u', hu', hby, hrest⟩ := h.sent hd hhd hst r hr hpair hrun
      rcases mem_eraseIdx_or hu hu' with hkept | rfl
      · exact ⟨u', hkept, hby, hrest⟩
      · rw [hserial u' hu] at hby
        cases hby
  | complete a m =>
      simp only [Automation.step] at hs
      split at hs
      · rename_i hm
        cases hs
        exact h.setStatus (by simp) (by simp) (h.completions m hm).2 s.marks (fun _ hu => hu)
          fun _ hu => .inl hu
      · cases hs
  | wait d =>
      cases hs
      exact ⟨h.newest, h.sent, h.alone, h.numbers, h.distinct, h.pending, h.pendingId, h.published,
        h.completions, h.unique⟩
  | receive m last =>
      simp only [Automation.step] at hs
      split at hs
      · rename_i hm
        cases hs
        unfold State.receive
        dsimp only
        split
        · exact ⟨h.newest, h.sent, h.alone, h.numbers, h.distinct, h.pending, h.pendingId,
            h.published, h.completions, h.unique⟩
        · refine ⟨h.newest, h.sent, h.alone, h.numbers, h.distinct, h.pending, h.pendingId,
            h.published, fun m' hm' => ?_, h.unique⟩
          split at hm'
          · rcases List.mem_append.mp hm' with hm' | hm'
            · exact h.completions m' hm'
            · rw [List.mem_singleton.mp hm']
              exact h.published m hm
          · exact h.completions m' hm'
      · cases hs
  | mark i =>
      obtain ⟨_, _, rfl⟩ := Option.map_eq_some_iff.mp hs
      exact ⟨h.newest, h.sent, h.alone, h.numbers, h.distinct, h.pending, h.pendingId, h.published,
        h.completions, h.unique⟩
  | removeContact a c | expire k =>
      cases hs
      exact ⟨h.newest, h.sent, h.alone, h.numbers, h.distinct, h.pending, h.pendingId, h.published,
        h.completions, h.unique⟩

theorem serialInv_init (now : Int) : SerialInv freq (init now) where
  newest := fun _ hr => by cases hr
  sent := fun _ hh => by cases hh
  alone := fun _ hh => by cases hh
  numbers := fun _ hh => by cases hh
  distinct := fun _ hh => by cases hh
  pending := fun _ hu => by cases hu
  pendingId := fun _ hu => by cases hu
  published := fun _ hm => by cases hm
  completions := fun _ hm => by cases hm
  unique := fun _ _ => ⟨Nat.zero_le 1, fun _ hh => by cases hh⟩

/-- In every state of a serial run at most one row of a pair is running, and under
`UNIQUE` the pair has one row at most. -/
theorem serial_single {now : Int} {as : List Event}
    (hmeets : Runs.Meets (step freq) (Serial freq) (init now) as)
    (h : Runs.exec (step freq) (init now) as = some t) :
    (∀ r ∈ t.table.rows, ∀ r' ∈ t.table.rows, r.pair = r'.pair → r.status = .running →
      r'.status = .running → r = r') ∧
    ∀ pair : Pair, freq pair.automationId = .unique → (t.table.of pair).length ≤ 1 := by
  have hinv : SerialInv freq t :=
    Runs.invariant (fun _ _ _ hs hserial hstep => hs.step hserial hstep) (serialInv_init now)
      hmeets h
  exact ⟨fun r hr r' hr' => hinv.single hr hr', fun pair hfreq => (hinv.unique pair hfreq).1⟩

end

/-! ## Two triggers -/

def trigger9 : Trigger := ⟨⟨1, 9, 5⟩, "a@b.c", "Welcome", 0, none⟩

/-- Alone, a handler is serial. -/
theorem serial_single_trigger9 : ∃ t, Runs.exec (step fun _ => .multiply) (init 0)
      [.arrive trigger9, .advance 0, .advance 0] = some t ∧
    t.table.rows = [⟨1, trigger9.pair, .running, 0⟩] ∧
    ∀ r ∈ t.table.rows, ∀ r' ∈ t.table.rows, r.pair = r'.pair → r.status = .running →
      r'.status = .running → r = r' := by
  obtain ⟨t, ht, hrows⟩ : ∃ t, Runs.exec (step fun _ => .multiply) (init 0)
      [.arrive trigger9, .advance 0, .advance 0] = some t ∧
      t.table.rows = [⟨1, trigger9.pair, .running, 0⟩] := ⟨_, rfl, rfl⟩
  refine ⟨t, ht, hrows, (serial_single ?_ ht).1⟩
  refine ⟨trivial, fun s₁ h₁ => ?_⟩
  cases h₁
  refine ⟨fun h hh => ?_, fun s₂ h₂ => ?_⟩
  · cases hh
    refine ⟨fun hl h' hh' _ => ?_, fun hst => by cases hst⟩
    rw [List.mem_singleton.mp hh']
    exact hl
  cases h₂
  refine ⟨fun h hh => ?_, fun _ _ => trivial⟩
  cases hh
  exact ⟨fun hl => absurd trivial hl, fun _ u hu => by cases hu⟩

/-- Two trigger messages of one pair, handled at the same time under `UNIQUE`: both
look up before either inserts. -/
theorem interleaved_two : ∃ t, Runs.exec (step fun _ => .unique) (init 0)
      [.arrive trigger9, .arrive trigger9, .advance 0, .advance 1, .advance 0, .advance 1,
        .advance 0, .advance 1] = some t ∧
    t.table.rows = [⟨1, trigger9.pair, .running, 0⟩, ⟨2, trigger9.pair, .running, 1⟩] ∧
    ¬ (∀ r ∈ t.table.rows, ∀ r' ∈ t.table.rows, r.pair = r'.pair → r.status = .running →
      r'.status = .running → r = r') ∧
    ¬ (t.table.of trigger9.pair).length ≤ 1 := by
  obtain ⟨t, ht, hrows⟩ : ∃ t, Runs.exec (step fun _ => .unique) (init 0)
      [.arrive trigger9, .arrive trigger9, .advance 0, .advance 1, .advance 0, .advance 1,
        .advance 0, .advance 1] = some t ∧
      t.table.rows = [⟨1, trigger9.pair, .running, 0⟩, ⟨2, trigger9.pair, .running, 1⟩] :=
    ⟨_, rfl, rfl⟩
  refine ⟨t, ht, hrows, fun h => ?_, fun h => ?_⟩
  · rw [hrows] at h
    exact absurd (h _ List.mem_cons_self _ (List.mem_cons_of_mem _ List.mem_cons_self) rfl rfl rfl)
      (by decide)
  · rw [Table.of, hrows] at h
    exact absurd h (by decide)

end OpenBms.Automation
