/-
# `OpenBms.EnterpriseImport.Ownership` — whose rows an instance import stores

What the importer means to do is in its comments: the ids are preserved, a step
is called with the account of the moment, and the links "point at the same
rows".  Meant is that every row ends under the account it has in the source, and
that no account is lost in silence.

What decides it is that the list of a step is the same for every account.  The
first account processed takes the rows of the key's account, whoever it is; the
accounts after it are offered the same rows once more and keep those the unique
constraints let through; the rows of the others are never asked for.

**Proved here**, for every installation and every set of unique constraints.

    what a pass adds to a table that has none of its rows (`pass_fresh`)
    every row stored comes from the key's account (`mem_passes`)
    when the rows end where they belong (`keepsOwnership_iff`)
    fifty accounts that come as a bare array (`endless_of_bare_list`)
    two accounts, the second one the key's (`first_account_takes_rows`)
-/
import OpenBms.EnterpriseImport.Instance

namespace OpenBms.EnterpriseImport

open InsertIgnore

variable {target : Target} {src : Source} {step : Step} {fuel accountId : Nat}

/-! ## What is to be kept -/

/-- A stored row is the source's row, under the account it has there. -/
def Holds (r : Row) (s : Src) : Prop := r.ident = s.ident ∧ r.accountId = s.accountId

/-- An account is reported when the job fails: nothing else names one. -/
def Outcome.Reports (out : Outcome) (_accountId : Nat) : Prop := out.error.isSome = true

structure KeepsOwnership (src : Source) (out : Outcome) : Prop where
  /-- No row is stored under another account's id. -/
  owned : ∀ step, ∀ r ∈ out.db.rows step, ∃ s ∈ src.rows step, Holds r s
  /-- The rows of every account are imported, or the account is reported. -/
  complete : ∀ step, ∀ s ∈ src.rows step,
    (∃ r ∈ out.db.rows step, Holds r s) ∨ out.Reports s.accountId

/-! ## One page -/

theorem buildRow_eq_some {s : Src} {r : Row} (h : buildRow target accountId step s = some r) :
    r.ident = s.ident ∧ r.accountId = accountId ∧ naturalKey step s = some r.key := by
  obtain ⟨key, hkey, rfl⟩ := Option.map_eq_some_iff.mp h
  exact ⟨rfl, rfl, hkey⟩

theorem firsts_sublist (seen : List String) (rows : List Row) : (firsts seen rows).Sublist rows := by
  induction rows generalizing seen with
  | nil => exact List.Sublist.refl []
  | cons r rows ih =>
      rw [firsts]
      split
      · exact (ih seen).cons r
      · exact (ih (r.key :: seen)).cons_cons r

theorem key_not_seen {seen : List String} {rows : List Row} {r : Row} (h : r ∈ firsts seen rows) :
    r.key ∉ seen := by
  induction rows generalizing seen with
  | nil => cases h
  | cons x rows ih =>
      rw [firsts] at h
      split at h
      · exact ih h
      · next hx =>
        rcases List.mem_cons.mp h with rfl | h
        · exact fun hmem => hx (List.contains_iff_mem.mpr hmem)
        · exact fun hmem => ih h (List.mem_cons_of_mem _ hmem)

theorem nodup_firsts (seen : List String) (rows : List Row) :
    ((firsts seen rows).map (·.key)).Nodup := by
  induction rows generalizing seen with
  | nil => exact List.nodup_nil
  | cons r rows ih =>
      rw [firsts]
      split
      · exact ih seen
      · rw [List.map_cons, List.nodup_cons]
        refine ⟨fun hmem => ?_, ih _⟩
        obtain ⟨x, hx, hkey⟩ := List.mem_map.mp hmem
        exact key_not_seen hx (hkey ▸ List.mem_cons_self)

theorem firsts_eq_self {seen : List String} {rows : List Row} (hnodup : (rows.map (·.key)).Nodup)
    (hseen : ∀ r ∈ rows, r.key ∉ seen) : firsts seen rows = rows := by
  induction rows generalizing seen with
  | nil => rfl
  | cons r rows ih =>
      rw [List.map_cons, List.nodup_cons] at hnodup
      have hr : ¬seen.contains r.key = true :=
        fun h => hseen r List.mem_cons_self (List.contains_iff_mem.mp h)
      rw [firsts, if_neg hr, ih hnodup.2]
      intro x hx hmem
      rcases List.mem_cons.mp hmem with heq | hmem
      · exact hnodup.1 (heq ▸ List.mem_map_of_mem hx)
      · exact hseen x (List.mem_cons_of_mem _ hx) hmem

/-- A row is written with its id, its account and its key. -/
def Row.mark (r : Row) : Ident × Nat × String := (r.ident, r.accountId, r.key)

theorem mark_written (step : Step) (rows : List Row) :
    (written step rows).map Row.mark = rows.map Row.mark := by
  cases step <;> cases rows <;> simp [written, Row.mark, Function.comp_def]

theorem mark_refresh (accountId : Nat) (existing : List String) (candidates table : List Row) :
    (refresh step accountId existing candidates table).map Row.mark = table.map Row.mark := by
  cases step
  case contactCustomFields =>
    rw [refresh, List.map_map]
    refine List.map_congr_left fun r _ => ?_
    dsimp only [Function.comp_apply]
    split
    · split <;> rfl
    · rfl
  all_goals rfl

theorem refresh_eq_self {accountId : Nat} {existing : List String} {candidates table : List Row}
    (h : ∀ c ∈ candidates, c.key ∉ existing) :
    refresh step accountId existing candidates table = table := by
  cases step
  case contactCustomFields =>
    refine (List.map_congr_left fun r _ => ?_).trans (List.map_id table)
    split
    · next hr =>
      cases hfind : candidates.find? (·.key == r.key) with
      | none => rfl
      | some c =>
          have hkey : c.key = r.key := by simpa using List.find?_some hfind
          exact absurd (hkey ▸ List.contains_iff_mem.mp hr.2) (h c (List.mem_of_find?_eq_some hfind))
    · rfl
  all_goals rfl

/-- The rows a page brings to an account, before any of them is left out. -/
def drafts (target : Target) (accountId : Nat) (step : Step) (page : List Src) : List Row :=
  page.filterMap (buildRow target accountId step)

theorem mem_drafts {page : List Src} {r : Row} (h : r ∈ drafts target accountId step page) :
    r.accountId = accountId ∧ ∃ s ∈ page, r.ident = s.ident ∧ naturalKey step s = some r.key := by
  obtain ⟨s, hs, hr⟩ := List.mem_filterMap.mp h
  obtain ⟨hident, haccount, hkey⟩ := buildRow_eq_some hr
  exact ⟨haccount, s, hs, hident, hkey⟩

variable (target step) in
theorem processPage_marks (accountId : Nat) (table : List Row) (page : List Src) :
    ∃ added, (processPage target accountId step table page).map Row.mark
        = table.map Row.mark ++ added ∧
      added.Sublist ((drafts target accountId step page).map Row.mark) ∧
      (added.map fun m => m.2.2).Nodup ∧
      ∀ m ∈ added, ∀ r ∈ table, r.accountId = accountId → r.key ≠ m.2.2 := by
  have hcand := firsts_sublist [] (drafts target accountId step page)
  have hnodup := nodup_firsts [] (drafts target accountId step page)
  obtain ⟨rows, hrows, hsub⟩ := exists_added (target.clash step) table
    (written step ((firsts [] (drafts target accountId step page)).filter
      fun r => !(existingKeys accountId table).contains r.key))
  have hmarks := hsub.map Row.mark
  rw [mark_written] at hmarks
  refine ⟨rows.map Row.mark, ?_, ?_, ?_, ?_⟩
  · rw [processPage, mark_refresh]
    show (insertIgnore _ _ _).map Row.mark = _
    rw [drafts] at hrows
    rw [hrows, List.map_append]
  · exact hmarks.trans ((List.filter_sublist.trans hcand).map Row.mark)
  · refine (hmarks.map fun m => m.2.2).nodup ?_
    rw [List.map_map]
    exact (List.filter_sublist.map _).nodup hnodup
  · intro m hm r hr haccount hkey
    obtain ⟨x, hx, rfl⟩ := List.mem_map.mp (hmarks.subset hm)
    have hfree := (List.mem_filter.mp hx).2
    have hin : (existingKeys accountId table).contains x.key = true := by
      refine List.contains_iff_mem.mpr (List.mem_map.mpr ⟨r, ?_, hkey⟩)
      exact List.mem_filter.mpr ⟨hr, beq_iff_eq.mpr haccount⟩
    rw [hin] at hfree
    exact Bool.false_ne_true hfree

/-! ## A pass: all pages of a step for one account -/

def pages (target : Target) (src : Source) (step : Step) : List (List Src) :=
  (Chunk.chunk (target.batchSize step) (src.listing step.endpoint)).map step.expand

def pass (target : Target) (src : Source) (step : Step) (table : List Row) (accountId : Nat) :
    List Row :=
  (pages target src step).foldl (processPage target accountId step) table

/-- The rows a step is offered, the same for every account. -/
def Source.offered (src : Source) (step : Step) : List Src :=
  step.expand (src.listing step.endpoint)

theorem expand_append (step : Step) (l l' : List Src) :
    step.expand (l ++ l') = step.expand l ++ step.expand l' := by
  cases step
  case contactTags => exact List.flatMap_append
  all_goals rfl

theorem expand_nil (step : Step) : step.expand [] = [] := by
  cases step <;> rfl

theorem expand_flatten (step : Step) (l : List (List Src)) :
    (l.map step.expand).flatten = step.expand l.flatten := by
  induction l with
  | nil => exact (expand_nil step).symm
  | cons page l ih =>
      rw [List.map_cons, List.flatten_cons, List.flatten_cons, expand_append, ih]

theorem flatten_pages (target : Target) (src : Source) (step : Step) :
    (pages target src step).flatten = src.offered step := by
  rw [pages, expand_flatten, Chunk.flatten_chunk (target.batchSize_pos step)]
  rfl

theorem accountId_of_mem_links {contact s : Src} (h : s ∈ contact.links) :
    s.accountId = contact.accountId := by
  rw [Src.links] at h
  split at h
  · obtain ⟨tagId, _, rfl⟩ := List.mem_map.mp h
    rfl
  · cases h

theorem offered_eq (src : Source) (step : Step) :
    src.offered step = (src.rows step).filter (·.accountId == src.keyAccount) := by
  rw [Source.offered, Source.rows, Source.listing]
  generalize src.list step.endpoint = l
  cases step
  case contactTags =>
    induction l with
    | nil => rfl
    | cons contact l ih =>
        have hlinks : ∀ s ∈ contact.links,
            (s.accountId == src.keyAccount) = (contact.accountId == src.keyAccount) :=
          fun s hs => by rw [accountId_of_mem_links hs]
        have hcons : ∀ l : List Src, Step.contactTags.expand (contact :: l)
            = contact.links ++ Step.contactTags.expand l := fun l => rfl
        rw [hcons, List.filter_append, ← ih]
        cases hkey : contact.accountId == src.keyAccount with
        | true =>
            have hkept : contact.links.filter (·.accountId == src.keyAccount) = contact.links :=
              List.filter_eq_self.mpr fun s hs => (hlinks s hs).trans hkey
            rw [List.filter_cons, if_pos hkey, hcons, hkept]
        | false =>
            have hgone : contact.links.filter (·.accountId == src.keyAccount) = [] :=
              List.filter_eq_nil_iff.mpr fun s hs => by simp [hlinks s hs, hkey]
            rw [List.filter_cons, if_neg (Bool.not_eq_true _ ▸ hkey), hgone, List.nil_append]
  all_goals rfl

/-! ## What a pass adds -/

/-- The keys of a list of source rows, when every one of them has one. -/
def Usable (step : Step) (l : List Src) : Prop :=
  (∀ s ∈ l, naturalKey step s ≠ none) ∧ (l.map (naturalKey step)).Nodup

variable (target accountId) in
theorem drafts_keys {page : List Src} (h : ∀ s ∈ page, naturalKey step s ≠ none) :
    (drafts target accountId step page).map (fun r => some r.key) = page.map (naturalKey step) ∧
      (drafts target accountId step page).map (·.ident) = page.map (·.ident) := by
  induction page with
  | nil => exact ⟨rfl, rfl⟩
  | cons s page ih =>
      obtain ⟨hs, hpage⟩ := List.forall_mem_cons.mp h
      obtain ⟨key, hkey⟩ := Option.ne_none_iff_exists'.mp hs
      obtain ⟨hkeys, hidents⟩ := ih hpage
      have hbuild : buildRow target accountId step s = some
          { ident := s.ident, accountId, key, columns := rowColumns (target.columns step) step s } := by
        rw [buildRow, hkey]
        rfl
      rw [drafts, List.filterMap_cons_some hbuild]
      refine ⟨?_, ?_⟩
      · rw [List.map_cons, List.map_cons, hkey]
        exact congrArg _ hkeys
      · rw [List.map_cons, List.map_cons]
        exact congrArg _ hidents

/-- The rows a pass writes when none of them is there yet. -/
def inserted (target : Target) (src : Source) (step : Step) (accountId : Nat) : List Row :=
  (pages target src step).flatMap fun page => written step (drafts target accountId step page)

variable (target) in
theorem processPage_fresh {table : List Row} {page : List Src} (hpage : Usable step page)
    (hfresh : ∀ r ∈ table, r.accountId = accountId → ∀ s ∈ page, naturalKey step s ≠ some r.key) :
    processPage target accountId step table page
      = insertIgnore (target.clash step) table (written step (drafts target accountId step page)) := by
  have hnodup : ((drafts target accountId step page).map (·.key)).Nodup := by
    have hkeys := (drafts_keys target accountId hpage.1).1
    have hsome : (drafts target accountId step page).map (fun r => some r.key)
        = ((drafts target accountId step page).map (·.key)).map some := by
      rw [List.map_map]
      rfl
    exact ((hsome ▸ hkeys) ▸ hpage.2).of_map some
  have hfirsts := firsts_eq_self hnodup fun r _ => List.not_mem_nil
  have hnew : ∀ r ∈ drafts target accountId step page, r.key ∉ existingKeys accountId table := by
    intro r hr hmem
    obtain ⟨_, s, hs, _, hkey⟩ := mem_drafts hr
    obtain ⟨x, hx, hxkey⟩ := List.mem_map.mp hmem
    obtain ⟨hx, haccount⟩ := List.mem_filter.mp hx
    exact hfresh x hx (beq_iff_eq.mp haccount) s hs (hxkey ▸ hkey)
  have hall : (drafts target accountId step page).filter
      (fun r => !(existingKeys accountId table).contains r.key) = drafts target accountId step page := by
    refine List.filter_eq_self.mpr fun r hr => ?_
    rw [Bool.not_eq_true', ← Bool.not_eq_true]
    exact fun hmem => hnew r hr (List.contains_iff_mem.mp hmem)
  rw [processPage]
  show refresh step accountId _ (firsts [] (drafts target accountId step page))
    (insertIgnore _ _ (written step ((firsts [] (drafts target accountId step page)).filter _))) = _
  rw [hfirsts, hall, refresh_eq_self hnew]

theorem mem_written {rows : List Row} {r : Row} (h : r ∈ written step rows) :
    ∃ x ∈ rows, x.mark = r.mark := by
  have hmark := List.mem_map_of_mem (f := Row.mark) h
  rw [mark_written] at hmark
  exact List.mem_map.mp hmark

theorem mem_written_drafts {page : List Src} {r : Row}
    (h : r ∈ written step (drafts target accountId step page)) :
    r.accountId = accountId ∧ ∃ s ∈ page, r.ident = s.ident ∧ naturalKey step s = some r.key := by
  obtain ⟨x, hx, hmark⟩ := mem_written h
  obtain ⟨haccount, s, hs, hident, hkey⟩ := mem_drafts hx
  have hparts := (Prod.mk.inj hmark).2
  refine ⟨(Prod.mk.inj hparts).1 ▸ haccount, s, hs, (Prod.mk.inj hmark).1 ▸ hident, ?_⟩
  exact (Prod.mk.inj hparts).2 ▸ hkey

theorem foldl_fresh {ps : List (List Src)} {table : List Row} (hps : Usable step ps.flatten)
    (hfresh : ∀ r ∈ table, r.accountId = accountId →
      ∀ s ∈ ps.flatten, naturalKey step s ≠ some r.key) :
    ps.foldl (processPage target accountId step) table
      = insertIgnore (target.clash step) table
          (ps.flatMap fun page => written step (drafts target accountId step page)) := by
  induction ps generalizing table with
  | nil => rfl
  | cons page ps ih =>
      obtain ⟨husable, hnodup⟩ := hps
      rw [List.flatten_cons] at husable hnodup hfresh
      rw [List.map_append, List.nodup_append] at hnodup
      obtain ⟨hpage, hrest, hapart⟩ := hnodup
      have hfirst := processPage_fresh target
        ⟨fun s hs => husable s (List.mem_append_left _ hs), hpage⟩
        fun r hr haccount s hs => hfresh r hr haccount s (List.mem_append_left _ hs)
      rw [List.foldl_cons, hfirst, ih ⟨fun s hs => husable s (List.mem_append_right _ hs), hrest⟩,
        List.flatMap_cons, insertIgnore_append]
      intro r hr haccount s hs hkey
      rcases mem_insertIgnore hr with hr | hr
      · exact hfresh r hr haccount s (List.mem_append_right _ hs) hkey
      · -- the row came with the first page, whose keys are others
        obtain ⟨_, s', hs', _, hkey'⟩ := mem_written_drafts hr
        exact hapart _ (List.mem_map_of_mem hs') _ (List.mem_map_of_mem hs) (hkey'.trans hkey.symm)

theorem pass_fresh {table : List Row} (husable : Usable step (src.offered step))
    (hfresh : ∀ r ∈ table, r.accountId = accountId →
      ∀ s ∈ src.offered step, naturalKey step s ≠ some r.key) :
    pass target src step table accountId
      = insertIgnore (target.clash step) table (inserted target src step accountId) := by
  rw [← flatten_pages target src step] at husable hfresh
  exact foldl_fresh husable hfresh

variable (target) in
theorem mem_inserted {r : Row} (h : r ∈ inserted target src step accountId) :
    r.accountId = accountId ∧
      ∃ s ∈ src.offered step, r.ident = s.ident ∧ naturalKey step s = some r.key := by
  obtain ⟨page, hpage, hr⟩ := List.mem_flatMap.mp h
  obtain ⟨haccount, s, hs, hrest⟩ := mem_written_drafts hr
  refine ⟨haccount, s, ?_, hrest⟩
  rw [← flatten_pages target src step]
  exact List.mem_flatten_of_mem hpage hs

variable (target accountId) in
theorem inserted_idents (husable : Usable step (src.offered step)) :
    (inserted target src step accountId).map (·.ident) = (src.offered step).map (·.ident) := by
  rw [← flatten_pages target src step] at husable ⊢
  rw [inserted]
  generalize pages target src step = ps at husable
  induction ps with
  | nil => rfl
  | cons page ps ih =>
      obtain ⟨hkeys, hnodup⟩ := husable
      rw [List.flatten_cons] at hkeys hnodup
      rw [List.map_append, List.nodup_append] at hnodup
      have hrest := ih ⟨fun s hs => hkeys s (List.mem_append_right _ hs), hnodup.2.1⟩
      have hfirst : (written step (drafts target accountId step page)).map (·.ident)
          = page.map (·.ident) := by
        have hmarks := congrArg (List.map Prod.fst)
          (mark_written step (drafts target accountId step page))
        rw [List.map_map, List.map_map] at hmarks
        exact hmarks.trans (drafts_keys target accountId fun s hs => hkeys s (List.mem_append_left _ hs)).2
      rw [List.flatMap_cons, List.map_append, hfirst, hrest, List.flatten_cons, List.map_append]

/-! ## What any pass does -/

/-- The stored rows of one account have keys of their own. -/
def KeysApart (table : List Row) : Prop := ((table.map Row.mark).map Prod.snd).Nodup

theorem processPage_keysApart {table : List Row} (page : List Src) (h : KeysApart table) :
    KeysApart (processPage target accountId step table page) := by
  obtain ⟨added, hmarks, hsub, hnodup, hapart⟩ :=
    processPage_marks target step accountId table page
  rw [KeysApart, hmarks, List.map_append, List.nodup_append]
  refine ⟨h, ?_, ?_⟩
  · refine List.Nodup.of_map Prod.snd ?_
    rw [List.map_map]
    exact hnodup
  · intro x hx y hy hxy
    obtain ⟨m, hm, rfl⟩ := List.mem_map.mp hx
    obtain ⟨r, hr, rfl⟩ := List.mem_map.mp hm
    obtain ⟨n, hn, rfl⟩ := List.mem_map.mp hy
    obtain ⟨d, hd, rfl⟩ := List.mem_map.mp (hsub.subset hn)
    obtain ⟨haccount, hkey⟩ := Prod.mk.inj hxy
    exact hapart _ hn r hr (haccount.trans (mem_drafts hd).1) hkey

theorem mem_processPage {table : List Row} {page : List Src} {r : Row}
    (h : r ∈ processPage target accountId step table page) :
    (∃ x ∈ table, x.mark = r.mark) ∨
      (r.accountId = accountId ∧ ∃ s ∈ page, r.ident = s.ident ∧ naturalKey step s = some r.key) := by
  obtain ⟨added, hmarks, hsub, _⟩ :=
    processPage_marks target step accountId table page
  have hr := List.mem_map_of_mem (f := Row.mark) h
  rw [hmarks, List.mem_append] at hr
  rcases hr with hr | hr
  · exact .inl (List.mem_map.mp hr)
  · obtain ⟨d, hd, hmark⟩ := List.mem_map.mp (hsub.subset hr)
    obtain ⟨haccount, s, hs, hident, hkey⟩ := mem_drafts hd
    obtain ⟨hident', hparts⟩ := Prod.mk.inj hmark
    obtain ⟨haccount', hkey'⟩ := Prod.mk.inj hparts
    exact .inr ⟨haccount' ▸ haccount, s, hs, hident' ▸ hident, hkey' ▸ hkey⟩

/-- What a pass keeps of every table: its rows stay, those that come are the
account's and are offered, and keys stay apart. -/
structure Grows (src : Source) (step : Step) (accounts : List Nat) (table table' : List Row) :
    Prop where
  stays : table.map Row.mark <+: table'.map Row.mark
  comes : ∀ r ∈ table', (∃ x ∈ table, x.mark = r.mark) ∨
    (r.accountId ∈ accounts ∧
      ∃ s ∈ src.offered step, r.ident = s.ident ∧ naturalKey step s = some r.key)
  apart : KeysApart table → KeysApart table'

theorem Grows.refl (accounts : List Nat) (table : List Row) :
    Grows src step accounts table table where
  stays := List.prefix_refl _
  comes := fun r hr => .inl ⟨r, hr, rfl⟩
  apart := id

theorem Grows.trans {accounts : List Nat} {t t' t'' : List Row} (h : Grows src step accounts t t')
    (h' : Grows src step accounts t' t'') : Grows src step accounts t t'' where
  stays := h.stays.trans h'.stays
  comes := fun r hr => by
    rcases h'.comes r hr with ⟨x, hx, hmark⟩ | hnew
    · rcases h.comes x hx with ⟨y, hy, hmark'⟩ | ⟨haccount, s, hs, hident, hkey⟩
      · exact .inl ⟨y, hy, hmark'.trans hmark⟩
      · obtain ⟨hident', hparts⟩ := Prod.mk.inj hmark
        obtain ⟨haccount', hkey'⟩ := Prod.mk.inj hparts
        exact .inr ⟨haccount' ▸ haccount, s, hs, hident' ▸ hident, hkey' ▸ hkey⟩
    · exact .inr hnew
  apart := fun hapart => h'.apart (h.apart hapart)

theorem Grows.mono {accounts accounts' : List Nat} {t t' : List Row}
    (h : Grows src step accounts t t') (hsub : accounts ⊆ accounts') :
    Grows src step accounts' t t' where
  stays := h.stays
  comes := fun r hr => (h.comes r hr).imp_right fun hnew => ⟨hsub hnew.1, hnew.2⟩
  apart := h.apart

theorem pass_grows (table : List Row) (accountId : Nat) :
    Grows src step [accountId] table (pass target src step table accountId) := by
  have key : ∀ (ps : List (List Src)) (table : List Row),
      (∀ page ∈ ps, page ⊆ src.offered step) →
      Grows src step [accountId] table (ps.foldl (processPage target accountId step) table) := by
    intro ps
    induction ps with
    | nil => exact fun table _ => .refl _ table
    | cons page ps ih =>
        intro table hps
        obtain ⟨hpage, hrest⟩ := List.forall_mem_cons.mp hps
        refine Grows.trans ⟨?_, ?_, processPage_keysApart page⟩ (ih _ hrest)
        · obtain ⟨added, hmarks, _⟩ :=
            processPage_marks target step accountId table page
          exact ⟨added, hmarks.symm⟩
        · intro r hr
          refine (mem_processPage hr).imp_right fun ⟨haccount, s, hs, hrest⟩ => ?_
          exact ⟨haccount ▸ List.mem_singleton_self _, s, hpage hs, hrest⟩
  refine key _ table fun page hpage s hs => ?_
  rw [← flatten_pages target src step]
  exact List.mem_flatten_of_mem hpage hs

/-- The passes of a step, account after account. -/
def passes (target : Target) (src : Source) (step : Step) (accounts : List Nat) (table : List Row) :
    List Row :=
  accounts.foldl (pass target src step) table

variable (target) in
theorem passes_grows (accounts : List Nat) (table : List Row) :
    Grows src step accounts table (passes target src step accounts table) := by
  induction accounts generalizing table with
  | nil => exact .refl _ table
  | cons a accounts ih =>
      refine ((pass_grows table a).mono ?_).trans ((ih _).mono ?_)
      · exact List.cons_subset_cons a (List.nil_subset accounts)
      · exact List.subset_cons_self a accounts

theorem mem_passes {accounts : List Nat} {r : Row}
    (h : r ∈ passes target src step accounts []) :
    r.accountId ∈ accounts ∧
      ∃ s ∈ src.offered step, r.ident = s.ident ∧ naturalKey step s = some r.key := by
  rcases (passes_grows target accounts []).comes r h with ⟨x, hx, _⟩ | hnew
  · cases hx
  · exact hnew

/-! ## The installation, step by step -/

theorem runStep_eq_some {db db' : Db} (h : runStep target src fuel accountId db step = some db') :
    db' = { db with
      rows := Function.update db.rows step (pass target src step (db.rows step) accountId) } := by
  obtain ⟨table, hloop, rfl⟩ := Option.map_eq_some_iff.mp h
  rw [Paging.loop_page_eq_some (target.batchSize_pos step) hloop, pass, pages, List.foldl_map]

variable (target accountId) in
theorem runStep_runs (db : Db) (hfuel : (src.listing step.endpoint).length < fuel) :
    ∃ db', runStep target src fuel accountId db step = some db' := by
  exact ⟨_, Option.map_eq_some_iff.mpr
    ⟨_, (Paging.loop_page_iff (target.batchSize_pos step) hfuel (db.rows step) _).mpr rfl, rfl⟩⟩

/-- What a turn of the account loop leaves. -/
def imported (target : Target) (src : Source) (db : Db) (accountId : Nat) : Db where
  accounts := insertIgnore (· == ·) db.accounts [accountId]
  rows := fun step => pass target src step (db.rows step) accountId

theorem steps_eq_some {steps : List Step} (hnodup : steps.Nodup) {db db' : Db}
    (h : steps.foldlM (runStep target src fuel accountId) db = some db') :
    db'.accounts = db.accounts ∧ ∀ step,
      (step ∈ steps → db'.rows step = pass target src step (db.rows step) accountId) ∧
      (step ∉ steps → db'.rows step = db.rows step) := by
  induction steps generalizing db with
  | nil =>
      obtain rfl := Option.some.inj h
      exact ⟨rfl, fun step => ⟨nofun, fun _ => rfl⟩⟩
  | cons first steps ih =>
      rw [List.foldlM_cons] at h
      obtain ⟨mid, hmid, hrest⟩ := Option.bind_eq_some_iff.mp h
      obtain ⟨hfirst, hnodup⟩ := List.nodup_cons.mp hnodup
      obtain ⟨haccounts, hrows⟩ := ih hnodup hrest
      obtain rfl := runStep_eq_some hmid
      refine ⟨haccounts, fun step => ⟨fun hstep => ?_, fun hstep => ?_⟩⟩
      · rcases List.mem_cons.mp hstep with rfl | hstep
        · exact ((hrows step).2 hfirst).trans (Function.update_self step _ db.rows)
        · have hne : step ≠ first := fun heq => hfirst (heq ▸ hstep)
          rw [(hrows step).1 hstep]
          exact congrArg (pass target src step · accountId) (Function.update_of_ne hne _ db.rows)
      · obtain ⟨hne, hstep⟩ := not_or.mp fun h => hstep (List.mem_cons.mpr h)
        exact ((hrows step).2 hstep).trans (Function.update_of_ne hne _ db.rows)

theorem importAccount_eq_some {db db' : Db}
    (h : importAccount target src fuel db accountId = some db') :
    db' = imported target src db accountId := by
  obtain ⟨haccounts, hrows⟩ := steps_eq_some nodup_pipeline h
  cases db'
  rw [imported, Db.mk.injEq]
  exact ⟨haccounts, funext fun step => (hrows step).1 (mem_pipeline step)⟩

theorem importAccount_runs (db : Db) (accountId : Nat)
    (hfuel : ∀ step : Step, (src.listing step.endpoint).length < fuel) :
    importAccount target src fuel db accountId = some (imported target src db accountId) := by
  have hruns : ∀ (steps : List Step) (db : Db),
      ∃ db', steps.foldlM (runStep target src fuel accountId) db = some db' := by
    intro steps
    induction steps with
    | nil => exact fun db => ⟨db, rfl⟩
    | cons first steps ih =>
        intro db
        obtain ⟨mid, hmid⟩ := runStep_runs target accountId db (hfuel first)
        obtain ⟨db', hdb'⟩ := ih mid
        refine ⟨db', ?_⟩
        rw [List.foldlM_cons, hmid]
        exact hdb'
  obtain ⟨db', hdb'⟩ := hruns pipeline { db with accounts := insertIgnore (· == ·) db.accounts [accountId] }
  have hsome : importAccount target src fuel db accountId = some db' := hdb'
  rw [hsome, importAccount_eq_some hsome]

/-- The accounts in the order they are processed: page by page, each page in the
order of the ids. -/
def processed (src : Source) (m : Nat) : List Nat :=
  (Paging.reads src.allAccounts 1 m).flatMap fun page => page.mergeSort (· ≤ ·)

theorem nodup_processed {m : Nat} (h : Paging.Short 50 src.allAccounts 1 m) :
    (processed src m).Nodup := by
  have hperm : ∀ l : List (List Nat),
      (l.flatMap fun page => page.mergeSort (· ≤ ·)).Perm l.flatten := by
    intro l
    induction l with
    | nil => exact .refl []
    | cons page l ih =>
        rw [List.flatMap_cons, List.flatten_cons]
        exact (List.mergeSort_perm page _).append ih
  exact (hperm _).nodup_iff.mpr (src.listed_once m h)

theorem accounts_eq_some {accounts : List Nat} {db db' : Db}
    (h : accounts.foldlM (importAccount target src fuel) db = some db') :
    db' = accounts.foldl (imported target src) db := by
  induction accounts generalizing db with
  | nil => exact (Option.some.inj h).symm
  | cons a accounts ih =>
      rw [List.foldlM_cons] at h
      obtain ⟨mid, hmid, hrest⟩ := Option.bind_eq_some_iff.mp h
      rw [List.foldl_cons, ← importAccount_eq_some hmid]
      exact ih hrest

theorem accounts_run (hfuel : ∀ step : Step, (src.listing step.endpoint).length < fuel)
    (accounts : List Nat) (db : Db) :
    accounts.foldlM (importAccount target src fuel) db
      = some (accounts.foldl (imported target src) db) := by
  induction accounts generalizing db with
  | nil => rfl
  | cons a accounts ih =>
      rw [List.foldlM_cons, importAccount_runs db a hfuel]
      exact ih _

/-- The body of the loop over the pages of accounts. -/
def accountsPage (target : Target) (src : Source) (fuel : Nat) (db : Option Db) (page : List Nat) :
    Option Db :=
  db.bind ((page.mergeSort (· ≤ ·)).foldlM (importAccount target src fuel))

theorem accountsPages_eq_some {ps : List (List Nat)} {db : Option Db} {db' : Db}
    (h : ps.foldl (accountsPage target src fuel) db = some db') :
    ∃ start, db = some start ∧
      db' = (ps.flatMap fun page => page.mergeSort (· ≤ ·)).foldl (imported target src) start := by
  induction ps generalizing db with
  | nil => exact ⟨db', h, rfl⟩
  | cons page ps ih =>
      obtain ⟨mid, hmid, hrest⟩ := ih h
      obtain ⟨start, hstart, hpage⟩ := Option.bind_eq_some_iff.mp hmid
      refine ⟨start, hstart, ?_⟩
      rw [List.flatMap_cons, List.foldl_append, ← accounts_eq_some hpage]
      exact hrest

theorem accountsPages_run (hfuel : ∀ step : Step, (src.listing step.endpoint).length < fuel)
    (ps : List (List Nat)) (db : Db) :
    ps.foldl (accountsPage target src fuel) (some db)
      = some ((ps.flatMap fun page => page.mergeSort (· ≤ ·)).foldl (imported target src) db) := by
  induction ps generalizing db with
  | nil => rfl
  | cons page ps ih =>
      have hpage : accountsPage target src fuel (some db) page
          = some ((page.mergeSort (· ≤ ·)).foldl (imported target src) db) :=
        accounts_run hfuel _ db
      rw [List.foldl_cons, hpage, ih, List.flatMap_cons, List.foldl_append]

theorem rows_foldl_imported (accounts : List Nat) (db : Db) (step : Step) :
    (accounts.foldl (imported target src) db).rows step
      = passes target src step accounts (db.rows step) := by
  induction accounts generalizing db with
  | nil => rfl
  | cons a accounts ih => exact ih (imported target src db a)

theorem process_eq_some {out : Outcome} (h : process target src fuel Db.virgin = some out) :
    ∃ m, Paging.Short 50 src.allAccounts 1 m ∧ out.error = none ∧
      ∀ step, out.db.rows step = passes target src step (processed src m) [] := by
  obtain ⟨db, hdb, rfl⟩ := Option.map_eq_some_iff.mp h
  obtain ⟨done, hdone, hjoin⟩ := Option.bind_eq_some_iff.mp hdb
  obtain ⟨m, hm, hreads⟩ := Paging.loop_eq_some (Nat.succ_pos 49) hdone
  have hsome : (Paging.reads src.allAccounts 1 m).foldl (accountsPage target src fuel)
      (some Db.virgin) = some db := hreads.symm.trans hjoin
  obtain ⟨start, hstart, rfl⟩ := accountsPages_eq_some hsome
  obtain rfl := Option.some.inj hstart
  exact ⟨m, hm, rfl, fun step => rows_foldl_imported _ _ step⟩

variable (target) in
theorem process_runs {m : Nat} (hm : Paging.Short 50 src.allAccounts 1 m) :
    ∃ fuel out, process target src fuel Db.virgin = some out := by
  obtain ⟨fuel, hfm, hfuel⟩ : ∃ fuel, m < fuel ∧
      ∀ step : Step, (src.listing step.endpoint).length < fuel := by
    refine ⟨m + 1 + (pipeline.map fun step => (src.listing step.endpoint).length).sum,
      by omega, fun step => ?_⟩
    have hle := List.single_le_sum (fun n _ => Nat.zero_le n) _
      (List.mem_map_of_mem (f := fun step => (src.listing step.endpoint).length) (mem_pipeline step))
    omega
  have hloop : Paging.loop 50 src.allAccounts (accountsPage target src fuel) fuel 1 (some Db.virgin)
      = some (some ((processed src m).foldl (imported target src) Db.virgin)) := by
    rw [Paging.loop_stops (Nat.succ_pos 49) _ hm hfm, accountsPages_run hfuel]
    rfl
  exact ⟨fuel, _, Option.map_eq_some_iff.mpr ⟨_, Option.bind_eq_some_iff.mpr ⟨_, hloop, rfl⟩, rfl⟩⟩

/-! ## When the rows end where they belong -/

/-- The condition: one account has rows, they are the key's, it comes first, and
no account after it can take a copy. -/
structure Separable (target : Target) (src : Source) (accounts : List Nat) (step : Step) : Prop where
  /-- All rows are the key's account's. -/
  single : ∀ s ∈ src.rows step, s.accountId = src.keyAccount
  /-- Every row has a natural key, and no two have the same. -/
  usable : Usable step (src.rows step)
  /-- As they are written, no two clash on a unique constraint. -/
  accepted : (inserted target src step src.keyAccount).Pairwise fun x r =>
    target.clash step x r = false
  /-- The key's account is processed first. -/
  first : src.rows step ≠ [] → accounts.head? = some src.keyAccount
  /-- Under any other account each row clashes with one already there. -/
  refused : ∀ a ∈ accounts, a ≠ src.keyAccount → ∀ r ∈ inserted target src step a,
    ∃ x ∈ inserted target src step src.keyAccount, target.clash step x r = true

theorem ident_inj {s s' : Src} (hs : s ∈ src.rows step) (hs' : s' ∈ src.rows step)
    (h : s.ident = s'.ident) : s = s' :=
  List.inj_on_of_nodup_map (src.distinct step) hs hs' h

theorem mem_offered {s : Src} :
    s ∈ src.offered step ↔ s ∈ src.rows step ∧ s.accountId = src.keyAccount := by
  rw [offered_eq, List.mem_filter, beq_iff_eq]

theorem offered_eq_rows (h : ∀ s ∈ src.rows step, s.accountId = src.keyAccount) :
    src.offered step = src.rows step := by
  rw [offered_eq, List.filter_eq_self]
  exact fun s hs => beq_iff_eq.mpr (h s hs)

theorem passes_of_refused {rest : List Nat} (hK : src.keyAccount ∉ rest)
    (husable : Usable step (src.offered step))
    (href : ∀ a ∈ rest, ∀ r ∈ inserted target src step a,
      ∃ x ∈ inserted target src step src.keyAccount, target.clash step x r = true) :
    passes target src step rest (inserted target src step src.keyAccount)
      = inserted target src step src.keyAccount := by
  induction rest with
  | nil => rfl
  | cons a rest ih =>
      obtain ⟨hne, hrest⟩ := not_or.mp fun h => hK (List.mem_cons.mpr h)
      obtain ⟨ha, href⟩ := List.forall_mem_cons.mp href
      have hpass : pass target src step (inserted target src step src.keyAccount) a
          = inserted target src step src.keyAccount := by
        rw [pass_fresh husable]
        · exact insertIgnore_eq_self_iff.mpr ha
        · intro r hr haccount
          exact absurd ((mem_inserted target hr).1.symm.trans haccount) hne
      rw [passes, List.foldl_cons, hpass]
      exact ih hrest href

theorem refused_of_passes {rest : List Nat} (hK : src.keyAccount ∉ rest)
    (husable : Usable step (src.offered step))
    (hown : ∀ r ∈ passes target src step rest (inserted target src step src.keyAccount),
      r.accountId = src.keyAccount) :
    ∀ a ∈ rest, ∀ r ∈ inserted target src step a,
      ∃ x ∈ inserted target src step src.keyAccount, target.clash step x r = true := by
  induction rest with
  | nil => nofun
  | cons a rest ih =>
      obtain ⟨hne, hrest⟩ := not_or.mp fun h => hK (List.mem_cons.mpr h)
      rw [passes, List.foldl_cons] at hown
      have hpass : pass target src step (inserted target src step src.keyAccount) a
          = insertIgnore (target.clash step) (inserted target src step src.keyAccount)
              (inserted target src step a) := by
        refine pass_fresh husable fun r hr haccount => ?_
        exact absurd ((mem_inserted target hr).1.symm.trans haccount) hne
      -- a row that came would stay under its account to the end
      have hnone : pass target src step (inserted target src step src.keyAccount) a
          = inserted target src step src.keyAccount := by
        obtain ⟨added, heq, hsub⟩ := exists_added (target.clash step)
          (inserted target src step src.keyAccount) (inserted target src step a)
        rw [hpass, heq]
        cases added with
        | nil => exact List.append_nil _
        | cons x added =>
            have hx : x ∈ pass target src step (inserted target src step src.keyAccount) a := by
              rw [hpass, heq]
              exact List.mem_append_right _ List.mem_cons_self
            obtain ⟨y, hy, hmark⟩ := List.mem_map.mp
              ((passes_grows target rest _).stays.subset (List.mem_map_of_mem hx))
            have haccount : y.accountId = x.accountId := congrArg (fun m => m.2.1) hmark
            have hxa := (mem_inserted target (hsub.subset List.mem_cons_self)).1
            exact absurd ((hown y hy).symm.trans (haccount.trans hxa)) hne
      refine List.forall_mem_cons.mpr ⟨?_, ih hrest ?_⟩
      · exact insertIgnore_eq_self_iff.mp (hpass.symm.trans hnone)
      · rw [hnone] at hown
        exact hown

/-- The first account takes every row it is offered that has a place. -/
theorem passes_cons {rest : List Nat} (a : Nat) (husable : Usable step (src.offered step)) :
    passes target src step (a :: rest) []
      = passes target src step rest
          (insertIgnore (target.clash step) [] (inserted target src step a)) := by
  rw [passes, List.foldl_cons, pass_fresh husable fun r hr => absurd hr List.not_mem_nil]
  rfl

theorem single_of_complete {accounts : List Nat}
    (hcomplete : ∀ s ∈ src.rows step, ∃ r ∈ passes target src step accounts [], Holds r s) :
    ∀ s ∈ src.rows step, s.accountId = src.keyAccount := by
  intro s hs
  obtain ⟨r, hr, hident, _⟩ := hcomplete s hs
  obtain ⟨_, s', hs', hident', _⟩ := mem_passes hr
  obtain ⟨hs', haccount⟩ := mem_offered.mp hs'
  exact ident_inj hs hs' (hident.symm.trans hident') ▸ haccount

theorem usable_of_complete {accounts : List Nat}
    (hcomplete : ∀ s ∈ src.rows step, ∃ r ∈ passes target src step accounts [], Holds r s) :
    Usable step (src.rows step) := by
  have hkey : ∀ s ∈ src.rows step, ∃ r ∈ passes target src step accounts [],
      Holds r s ∧ naturalKey step s = some r.key := by
    intro s hs
    obtain ⟨r, hr, hident, haccount⟩ := hcomplete s hs
    obtain ⟨_, s', hs', hident', hkey⟩ := mem_passes hr
    obtain rfl := ident_inj hs (mem_offered.mp hs').1 (hident.symm.trans hident')
    exact ⟨r, hr, ⟨hident, haccount⟩, hkey⟩
  have hapart : KeysApart (passes target src step accounts []) :=
    (passes_grows target accounts []).apart List.nodup_nil
  refine ⟨fun s hs => ?_, ?_⟩
  · obtain ⟨r, _, _, hkey⟩ := hkey s hs
    rw [hkey]
    exact Option.some_ne_none _
  · refine List.Nodup.map_on ?_ ((src.distinct step).of_map _)
    intro s hs s' hs' heq
    obtain ⟨r, hr, hholds, hkey'⟩ := hkey s hs
    obtain ⟨r', hr', hholds', hkey''⟩ := hkey s' hs'
    have haccount : r.accountId = r'.accountId := by
      rw [hholds.2, hholds'.2, single_of_complete hcomplete s hs, single_of_complete hcomplete s' hs']
    have hsame : r.key = r'.key := Option.some.inj (hkey'.symm.trans (heq.trans hkey''))
    have hpair : (Prod.snd ∘ Row.mark) r = (Prod.snd ∘ Row.mark) r' :=
      Prod.ext haccount hsame
    rw [KeysApart, List.map_map] at hapart
    obtain rfl := List.inj_on_of_nodup_map hapart hr hr' hpair
    exact ident_inj hs hs' (hholds.1.symm.trans hholds'.1)

theorem first_of_owned {accounts : List Nat} (husable : Usable step (src.rows step))
    (hsingle : ∀ s ∈ src.rows step, s.accountId = src.keyAccount)
    (howned : ∀ r ∈ passes target src step accounts [], ∃ s ∈ src.rows step, Holds r s)
    (hcomplete : ∀ s ∈ src.rows step, ∃ r ∈ passes target src step accounts [], Holds r s)
    (hne : src.rows step ≠ []) : accounts.head? = some src.keyAccount := by
  obtain ⟨s, hs⟩ := List.exists_mem_of_ne_nil _ hne
  cases accounts with
  | nil =>
      obtain ⟨r, hr, _⟩ := hcomplete s hs
      cases hr
  | cons a rest =>
      have hoff := offered_eq_rows hsingle
      have husable' : Usable step (src.offered step) := hoff.symm ▸ husable
      rw [passes_cons a husable'] at howned
      have hidents := inserted_idents target a husable'
      cases hins : inserted target src step a with
      | nil =>
          rw [hins, hoff, List.map_nil] at hidents
          exact absurd (List.map_eq_nil_iff.mp hidents.symm) hne
      | cons x xs =>
          -- the first row finds the table empty
          have hx : x ∈ insertIgnore (target.clash step) [] (inserted target src step a) := by
            rw [hins, insertIgnore_cons, insertOne_of_free fun y hy => absurd hy List.not_mem_nil]
            exact (prefix_insertIgnore _ _ xs).subset List.mem_cons_self
          obtain ⟨y, hy, hmark⟩ := List.mem_map.mp
            ((passes_grows target rest _).stays.subset (List.mem_map_of_mem hx))
          obtain ⟨s', hs', _, hacc⟩ := howned y hy
          have hxa := (mem_inserted target (hins ▸ List.mem_cons_self)).1
          have hya : y.accountId = x.accountId := congrArg (fun m => m.2.1) hmark
          rw [List.head?_cons, ← hxa, ← hya, hacc, hsingle s' hs']

theorem accepted_of_complete {rest : List Nat} (hK : src.keyAccount ∉ rest)
    (husable : Usable step (src.rows step))
    (hsingle : ∀ s ∈ src.rows step, s.accountId = src.keyAccount)
    (hcomplete : ∀ s ∈ src.rows step,
      ∃ r ∈ passes target src step (src.keyAccount :: rest) [], Holds r s) :
    insertIgnore (target.clash step) [] (inserted target src step src.keyAccount)
      = inserted target src step src.keyAccount := by
  have hoff := offered_eq_rows hsingle
  have husable' : Usable step (src.offered step) := hoff.symm ▸ husable
  have hidents := inserted_idents target src.keyAccount husable'
  rw [passes_cons _ husable'] at hcomplete
  obtain ⟨added, heq, hsub⟩ := exists_added (target.clash step) []
    (inserted target src step src.keyAccount)
  rw [List.nil_append] at heq
  rw [heq] at hcomplete ⊢
  refine hsub.eq_of_length_le ?_
  have hin : (src.rows step).map (·.ident) ⊆ added.map (·.ident) := by
    intro i hi
    obtain ⟨s, hs, rfl⟩ := List.mem_map.mp hi
    obtain ⟨r, hr, hident, haccount⟩ := hcomplete s hs
    rcases (passes_grows target rest added).comes r hr with ⟨x, hx, hmark⟩ | ⟨hrest, _⟩
    · exact List.mem_map.mpr ⟨x, hx, (congrArg Prod.fst hmark).trans hident⟩
    · exact absurd ((haccount.trans (hsingle s hs)) ▸ hrest) hK
  have hdistinct : ((src.rows step).map (·.ident)).Nodup := src.distinct step
  have hlen := (List.subperm_of_subset hdistinct hin).length_le
  rw [← hoff, ← hidents, List.length_map, List.length_map] at hlen
  exact hlen

theorem step_kept_iff {accounts : List Nat} (hnodup : accounts.Nodup) :
    ((∀ r ∈ passes target src step accounts [], ∃ s ∈ src.rows step, Holds r s) ∧
        ∀ s ∈ src.rows step, ∃ r ∈ passes target src step accounts [], Holds r s) ↔
      Separable target src accounts step := by
  constructor
  · rintro ⟨howned, hcomplete⟩
    have hsingle := single_of_complete hcomplete
    have husable := usable_of_complete hcomplete
    have hfirst := first_of_owned husable hsingle howned hcomplete
    have hoff := offered_eq_rows hsingle
    have husable' : Usable step (src.offered step) := hoff.symm ▸ husable
    by_cases hne : src.rows step = []
    · have hnone : ∀ a, inserted target src step a = [] := by
        intro a
        have hidents := inserted_idents target a husable'
        rw [hoff, hne, List.map_nil] at hidents
        exact List.map_eq_nil_iff.mp hidents
      refine ⟨hsingle, husable, ?_, hfirst, fun a _ _ r hr => ?_⟩
      · rw [hnone]
        exact .nil
      · rw [hnone] at hr
        cases hr
    · obtain ⟨rest, rfl⟩ := List.head?_eq_some_iff.mp (hfirst hne)
      have hK : src.keyAccount ∉ rest := (List.nodup_cons.mp hnodup).1
      have haccepted := accepted_of_complete hK husable hsingle hcomplete
      rw [passes_cons _ husable', haccepted] at howned
      refine ⟨hsingle, husable, ?_, hfirst, fun a ha hneK => ?_⟩
      · exact (insertIgnore_eq_append_iff.mp (haccepted.trans (List.nil_append _).symm)).2
      · refine refused_of_passes hK husable' (fun r hr => ?_) a ?_
        · obtain ⟨s, hs, hholds⟩ := howned r hr
          exact hholds.2.trans (hsingle s hs)
        · exact (List.mem_cons.mp ha).resolve_left hneK
  · rintro ⟨hsingle, husable, haccepted, hfirst, hrefused⟩
    have hoff := offered_eq_rows hsingle
    have husable' : Usable step (src.offered step) := hoff.symm ▸ husable
    by_cases hne : src.rows step = []
    · refine ⟨fun r hr => ?_, fun s hs => ?_⟩
      · obtain ⟨_, s, hs, _⟩ := mem_passes hr
        rw [hoff, hne] at hs
        cases hs
      · rw [hne] at hs
        cases hs
    · obtain ⟨rest, rfl⟩ := List.head?_eq_some_iff.mp (hfirst hne)
      have hK : src.keyAccount ∉ rest := (List.nodup_cons.mp hnodup).1
      have hall : insertIgnore (target.clash step) [] (inserted target src step src.keyAccount)
          = inserted target src step src.keyAccount :=
        (insertIgnore_eq_append_iff.mpr ⟨fun r _ x hx => absurd hx List.not_mem_nil, haccepted⟩).trans
          (List.nil_append _)
      have href : ∀ a ∈ rest, ∀ r ∈ inserted target src step a,
          ∃ x ∈ inserted target src step src.keyAccount, target.clash step x r = true :=
        fun a ha => hrefused a (List.mem_cons_of_mem _ ha) fun heq => hK (heq ▸ ha)
      rw [passes_cons _ husable', hall, passes_of_refused hK husable' href]
      refine ⟨fun r hr => ?_, fun s hs => ?_⟩
      · obtain ⟨haccount, s, hs, hident, _⟩ := mem_inserted target hr
        exact ⟨s, hoff ▸ hs, hident, haccount.trans (mem_offered.mp hs).2.symm⟩
      · have hidents := inserted_idents target src.keyAccount husable'
        rw [hoff] at hidents
        have hmem := List.mem_map_of_mem (f := fun s : Src => s.ident) hs
        rw [← hidents] at hmem
        obtain ⟨r, hr, hident⟩ := List.mem_map.mp hmem
        exact ⟨r, hr, hident, (mem_inserted target hr).1.trans (hsingle s hs).symm⟩

/-- An import into a fresh OSS ends and leaves every row of every account where it
belongs, exactly when the pages of accounts end and the condition holds of every
step. -/
theorem keepsOwnership_iff (target : Target) (src : Source) :
    (∃ fuel out, process target src fuel Db.virgin = some out ∧ KeepsOwnership src out) ↔
      ∃ m, Paging.Short 50 src.allAccounts 1 m ∧
        ∀ step, Separable target src (processed src m) step := by
  constructor
  · rintro ⟨fuel, out, hout, hkeeps⟩
    obtain ⟨m, hm, herror, hrows⟩ := process_eq_some hout
    refine ⟨m, hm, fun step => (step_kept_iff (nodup_processed hm)).mp ⟨?_, fun s hs => ?_⟩⟩
    · rw [← hrows]
      exact hkeeps.owned step
    · rw [← hrows]
      refine (hkeeps.complete step s hs).resolve_right fun hreport => ?_
      rw [Outcome.Reports, herror] at hreport
      cases hreport
  · rintro ⟨m, hm, hsep⟩
    obtain ⟨fuel, out, hout⟩ := process_runs target hm
    obtain ⟨m', hm', _, hrows⟩ := process_eq_some hout
    obtain rfl := hm'.unique hm
    have hkept := fun step => (step_kept_iff (nodup_processed hm)).mpr (hsep step)
    refine ⟨fuel, out, hout, fun step r hr => ?_, fun step s hs => .inl ?_⟩
    · exact (hkept step).1 r (hrows step ▸ hr)
    · rw [hrows step]
      exact (hkept step).2 s hs

/-- `getAllAccounts` answers every page with all the accounts: from fifty on
the import does not end. -/
theorem endless_of_bare_list {l : List Nat} (hl : 50 ≤ l.length)
    (hbare : ∀ page, src.allAccounts page = l) : process target src fuel Db.virgin = none := by
  cases hout : process target src fuel Db.virgin with
  | none => rfl
  | some out =>
      obtain ⟨m, hm, _⟩ := process_eq_some hout
      have hshort := hm.2
      rw [hbare] at hshort
      omega

/-! ## Two accounts -/

/-- The tables as the migrations make them: the id is the primary key. -/
def migrated : Target where
  columns := fun _ => [⟨"name", "name", none⟩]
  clash := fun _ x r => x.ident == r.ident
  contactsBatch := 1000
  messagesBatch := 500
  contactsBatch_pos := Nat.succ_pos 999
  messagesBatch_pos := Nat.succ_pos 499

/-- The one tag of the installation, of account 2. -/
def vip : Src where
  ident := .id 5
  accountId := 2
  key := some "vip"
  columns := [("name", some "vip")]
  tags := []

theorem listed_once_of_short {l : List Nat} (hl : l.length < 50) (hne : l ≠ []) (hnodup : l.Nodup)
    (m : Nat) (hm : Paging.Short 50 (fun _ => l) 1 m) :
    (Paging.reads (fun _ => l) 1 m).flatten.Nodup := by
  have hzero : Paging.Short 50 (fun _ => l) 1 0 :=
    ⟨fun i hi => absurd hi (Nat.not_lt_zero i), hl⟩
  obtain rfl := hm.unique hzero
  rw [Paging.reads_zero, Paging.filter_read hne, List.filter_nil, List.flatten_singleton]
  exact hnodup

theorem distinct_vip (step : Step) : ((step.expand
    ((fun endpoint : Endpoint => if endpoint = .tags then [vip] else []) step.endpoint)).map
      (·.ident)).Nodup := by
  cases step <;> decide

/-- An installation with the accounts 1 and 2, read with a key of account 2. -/
def twoAccounts : Source where
  keyAccount := 2
  allAccounts := fun _ => [1, 2]
  list := fun endpoint => if endpoint = .tags then [vip] else []
  listed_once := listed_once_of_short (by decide) (List.cons_ne_nil 1 [2]) (by decide)
  distinct := distinct_vip

/-- An installation whose endpoint lists sixty accounts on every page. -/
def bareList : Source where
  keyAccount := 2
  allAccounts := fun _ => List.range 60
  list := fun _ => []
  listed_once := fun _ hm => absurd hm.2 (show ¬ (List.range 60).length < 50 by decide)
  distinct := fun step => by cases step <;> decide

theorem endless_of_bare_list_sample : process migrated bareList 1000 Db.virgin = none :=
  endless_of_bare_list (l := List.range 60) (by decide) fun _ => rfl

theorem first_account_takes_rows :
    ¬∃ fuel out, process migrated twoAccounts fuel Db.virgin = some out ∧
      KeepsOwnership twoAccounts out := by
  rintro ⟨fuel, out, hout, hkeeps⟩
  obtain ⟨m, hm, _, hrows⟩ := process_eq_some hout
  have hzero : Paging.Short 50 twoAccounts.allAccounts 1 0 :=
    ⟨fun i hi => absurd hi (Nat.not_lt_zero i), by decide⟩
  obtain rfl := hm.unique hzero
  have hprocessed : processed twoAccounts 0 = [1, 2] :=
    (List.append_nil _).trans (List.mergeSort_of_pairwise (by decide))
  have hstored : passes migrated twoAccounts .tags [1, 2] []
      = [{ ident := .id 5, accountId := 1, key := "vip", columns := [("name", some "vip")] }] := by
    decide
  have hrow : { ident := .id 5, accountId := 1, key := "vip", columns := [("name", some "vip")] }
      ∈ out.db.rows .tags := by
    rw [hrows, hprocessed, hstored]
    exact List.mem_singleton_self _
  obtain ⟨s, hs, _, haccount⟩ := hkeeps.owned .tags _ hrow
  obtain rfl := List.mem_singleton.mp hs
  cases haccount

end OpenBms.EnterpriseImport
