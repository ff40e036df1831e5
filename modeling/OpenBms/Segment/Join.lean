/-
# `OpenBms.Segment.Join` — the device join and the rows of a card

Some steps ask for `INNER JOIN contacts_devices`, once for the whole card.  The
join decides two things that no step asked for: a contact without devices has
no row at all, whatever the other predicates of the card say of it, and a
contact with several devices has one row for each device the condition is true
on.

A contact satisfies a card here when the card's formula is true on one of its
devices, or, if it has none, on the row without a device, where the device
columns are `NULL`: the reading of a `LEFT JOIN`.

**Proved here.**

    which steps ask for the join (`join_eq_any`)
    the rows of a contact in a SELECT (`countP_selectContacts`)
    a card returns each contact that satisfies it once
      exactly when it does not join, or its formula is
      true of no contact (`rowExact_iff`)
-/
import OpenBms.Segment.Guard

namespace OpenBms.Segment

open Js

/-! ## The property -/

/-- The rows `LEFT JOIN contacts_devices` puts a contact with. -/
def Db.leftJoined (db : Db) (ct : Contact) : List (Option Device) :=
  match db.devicesOf ct with
  | [] => [none]
  | ds => ds.map some

/-- The contact satisfies the card's formula. -/
def Db.satisfiesCard (db : Db) (c : CardOut) (ct : Contact) : Prop :=
  c.preds = [] ∨ ∃ e, c.formula = some e ∧ ∃ ctd ∈ db.leftJoined ct, db.Holds ct ctd e

def sameContact (a b : Contact) : Bool := a.accountId == b.accountId && a.id == b.id

/-- Every active contact of the account that satisfies the card is in the
card's `SELECT`, once. -/
def RowExact (tag : TagLike) (c : CardOut) : Prop :=
  ∀ (db : Db), ∀ ct ∈ db.contacts, ct.accountId = tag.accountId → ct.isActive = true →
    db.satisfiesCard c ct → (db.selectContacts (c.select tag)).countP (sameContact ct) = 1

/-! ## The condition -/

/-- The steps that ask for the join. -/
def StepBody.joinsDevices : StepBody → Bool
  | .interation d =>
      d.eventType == .str "anyChannel" ||
        (d.eventType == .str "web-push" || d.eventType == .str "mobile-push") &&
          (d.message == .any && isSingle d.customTimesValue)
  | .userField d =>
      d.userFieldKey == .str "communication_channels" && d.userFieldValue == .str "has_web_push"
  | _ => false

/-- A condition true of no active contact of the account. -/
def NeverTrue (tag : TagLike) (φ : Cond) : Prop :=
  ∀ (db : Db) (ct : Contact) (ctd : Option Device), ct.accountId = tag.accountId →
    ct.isActive = true → ¬ db.Holds ct ctd φ

/-- A card with the join has a formula that is never true. -/
def CardOut.JoinsIdly (tag : TagLike) (c : CardOut) : Prop :=
  (c.steps.any fun s => s.body.joinsDevices) = true → ∀ e, c.formula = some e → NeverTrue tag e

/-! ## Which steps join -/

/-- The condition reads a column of the device. -/
def Pred.device : Pred → Bool
  | .cmp .ctd _ _ _ => true
  | .isNull .ctd _ _ => true
  | _ => false

def NoDevice (ts : List Tok) : Prop := ∀ p, .pred p ∈ ts → p.device = false

/-- The `switch` joins where the step asks for it, and nowhere else reads a
column of the device. -/
def Switch.JoinsRight (sw : Switch) : Prop :=
  ∀ {n body o}, sw n body = .ok o →
    o.join = body.joinsDevices ∧ (body.joinsDevices = false → NoDevice o.toks)

theorem noDevice_pred {p : Pred} (h : p.device = false) : NoDevice [.pred p] := by
  intro q hq
  cases List.mem_singleton.mp hq
  exact h

theorem noDevice_nil : NoDevice [] := fun _ h => nomatch h

theorem NoDevice.append {ts us : List Tok} (ht : NoDevice ts) (hu : NoDevice us) :
    NoDevice (ts ++ us) := by
  intro p hp
  rcases List.mem_append.mp hp with hp | hp
  · exact ht p hp
  · exact hu p hp

theorem noDevice_intersperse {sep : Tok} (hsep : NoDevice [sep]) :
    ∀ {ps : List Pred}, (∀ p ∈ ps, p.device = false) →
      NoDevice ((ps.map Tok.pred).intersperse sep)
  | [], _ => noDevice_nil
  | [p], h => noDevice_pred (h p List.mem_cons_self)
  | p :: _ :: _, h =>
      NoDevice.append (noDevice_pred (h p List.mem_cons_self)) (NoDevice.append hsep
        (noDevice_intersperse hsep fun r hr => h r (List.mem_cons_of_mem _ hr)))

theorem noDevice_tok {t : Tok} (h : ∀ p, t ≠ .pred p) : NoDevice [t] := fun p hp =>
  absurd (List.mem_singleton.mp hp).symm (h p)

theorem noDevice_orGroup {ps : List Pred} (h : ∀ p ∈ ps, p.device = false) :
    NoDevice (orGroup ps) :=
  ((noDevice_tok (t := .lpar) (by simp)).append
    (noDevice_intersperse (noDevice_tok (by simp)) h)).append (noDevice_tok (by simp))

section
variable (rt : Runtime) (tag : TagLike) (dto : SegmentDtoLike) (zone : String)

theorem joinsRight_lastEvent {d : InteractionStepData}
    (h : (d.eventType = .str "web-push" ∨ d.eventType = .str "mobile-push") = False) :
    (lastEventOut zone d).join = false ∧ NoDevice (lastEventOut zone d).toks := by
  refine ⟨by simp [lastEventOut, h], ?_⟩
  intro p hp
  simp only [lastEventOut, h, if_false, decide_false] at hp
  simp only [List.append_assoc, List.nil_append, List.mem_append, List.mem_singleton, reduceCtorEq,
    false_or, or_false] at hp
  split at hp
  · split at hp
    · cases List.mem_singleton.mp hp
      rfl
    · simp only [List.mem_append, List.mem_cons, List.not_mem_nil, or_false, reduceCtorEq,
        Tok.pred.injEq] at hp
      rcases hp with rfl | rfl <;> rfl
  · cases List.mem_singleton.mp hp
    rfl

theorem joinsRight_interation (n : Nat) (d : InteractionStepData) :
    (interationV1 tag zone n d).join = (StepBody.interation d).joinsDevices ∧
      ((StepBody.interation d).joinsDevices = false →
        NoDevice (interationV1 tag zone n d).toks) := by
  unfold interationV1
  by_cases hany : d.eventType = .str "anyChannel"
  · simp [hany, anyChannelOut, StepBody.joinsDevices]
  by_cases hpage : d.eventType = .str "page_view"
  · rw [if_neg hany, if_pos hpage]
    exact ⟨by simp [pageViewOut, StepBody.joinsDevices, hpage], fun _ => noDevice_pred rfl⟩
  rw [if_neg hany, if_neg hpage]
  by_cases hlast : d.message = .any ∧ isSingle d.customTimesValue
  · rw [if_pos hlast]
    by_cases hpush : d.eventType = .str "web-push" ∨ d.eventType = .str "mobile-push"
    · have hjoin : (StepBody.interation d).joinsDevices = true := by
        simp [StepBody.joinsDevices, hlast.1, hlast.2, hpush]
      simp [hjoin, lastEventOut, hpush]
    · obtain ⟨hj, hd⟩ := joinsRight_lastEvent zone (eq_false hpush)
      have hjoin : (StepBody.interation d).joinsDevices = false := by
        simp only [not_or] at hpush
        simp [StepBody.joinsDevices, hany, hpush.1, hpush.2]
      exact ⟨hj.trans hjoin.symm, fun _ => hd⟩
  · rw [if_neg hlast]
    have hjoin : (StepBody.interation d).joinsDevices = false := by
      simp only [StepBody.joinsDevices, Bool.or_eq_false_iff, Bool.and_eq_false_iff, beq_eq_false_iff_ne]
      refine ⟨hany, .inr ?_⟩
      by_cases hm : d.message = .any
      · right
        simpa [hm] using hlast
      · exact .inl hm
    split <;> exact ⟨hjoin.symm, fun _ => noDevice_pred rfl⟩

theorem joinsRight_channel (d : UserFieldStepData) :
    (channelOut dto d).join = (d.userFieldValue == .str "has_web_push") ∧
      NoDevice (channelOut dto d).toks := by
  have hflag : ∀ (b n : Bool) (col : String),
      NoDevice (if b then [] else [.AND, .pred (.flag n col)]) := by
    intro b n col
    cases b with
    | false =>
        intro p hp
        simp only [Bool.false_eq_true, if_false, List.mem_cons, reduceCtorEq, Tok.pred.injEq,
          List.not_mem_nil, or_false, false_or] at hp
        rw [hp]
        rfl
    | true => exact noDevice_nil
  unfold channelOut
  split
  · refine ⟨rfl, NoDevice.append (noDevice_pred rfl) ?_⟩
    split
    · exact ((hflag _ _ _).append (hflag _ _ _)).append (hflag _ _ _)
    · exact noDevice_nil
  · rename_i h
    refine ⟨?_, noDevice_pred rfl⟩
    by_contra hne
    simp only [Bool.false_eq, beq_eq_false_iff_ne, ne_eq, not_not] at hne
    exact h (by rw [hne]; decide)

theorem joinsRight_dateField {key : String} {d : UserFieldStepData} {o : StepOut}
    (h : dateFieldOut rt zone key d = .ok o) : o.join = false ∧ NoDevice o.toks := by
  unfold dateFieldOut at h
  split at h
  · cases h
    exact ⟨rfl, noDevice_pred rfl⟩
  · split at h
    · exact nomatch h
    · cases h
      exact ⟨rfl, noDevice_pred rfl⟩

theorem joinsRight_textField (key : String) (d : UserFieldStepData) :
    (textFieldOut rt key d).join = false ∧ NoDevice (textFieldOut rt key d).toks := by
  unfold textFieldOut
  split
  · split <;> exact ⟨rfl, noDevice_pred rfl⟩
  · exact ⟨rfl, noDevice_pred rfl⟩

theorem joinsRight_userField {d : UserFieldStepData} {o : StepOut}
    (h : userFieldOut rt dto zone d = .ok o) :
    o.join = (StepBody.userField d).joinsDevices ∧
      ((StepBody.userField d).joinsDevices = false → NoDevice o.toks) := by
  have hother : d.userFieldKey ≠ .str "communication_channels" → o.join = false ∧ NoDevice o.toks →
      o.join = (StepBody.userField d).joinsDevices ∧
        ((StepBody.userField d).joinsDevices = false → NoDevice o.toks) := by
    rintro hne ⟨hj, hd⟩
    have hfalse : (StepBody.userField d).joinsDevices = false := by
      simp [StepBody.joinsDevices, hne]
    exact ⟨hj.trans hfalse.symm, fun _ => hd⟩
  unfold userFieldOut at h
  split at h
  · rename_i hkey
    cases h
    exact hother (fun hk => by rw [hk] at hkey; exact absurd hkey (by decide))
      ⟨rfl, noDevice_pred rfl⟩
  split at h
  · rename_i hkey
    refine hother (fun hk => ?_) (joinsRight_dateField rt zone h)
    rw [hk] at hkey
    exact absurd hkey (by decide)
  split at h
  · rename_i hkey
    cases h
    exact hother (fun hk => absurd (hk.symm.trans hkey) (by decide)) ⟨rfl, noDevice_pred rfl⟩
  split at h
  · rename_i hkey
    cases h
    refine hother (fun hk => absurd (hk.symm.trans hkey.1) (by decide)) ⟨rfl, ?_⟩
    exact noDevice_intersperse (noDevice_tok (by simp)) (by simp [Pred.device])
  split at h
  · rename_i hkey
    cases h
    refine hother (fun hk => absurd (hk.symm.trans hkey.1) (by decide)) ⟨rfl, ?_⟩
    exact noDevice_orGroup (by simp [Pred.device])
  split at h
  · rename_i hkey
    cases h
    obtain ⟨hj, hd⟩ := joinsRight_channel dto d
    exact ⟨by simp [hj, StepBody.joinsDevices, hkey], fun _ => hd⟩
  · rename_i hkey
    cases h
    exact hother hkey (joinsRight_textField rt _ d)

theorem switchV1_joinsRight : (switchV1 rt tag dto zone).JoinsRight := by
  intro n body o h
  cases body with
  | interation d =>
      cases h
      exact joinsRight_interation tag zone n d
  | customField d =>
      simp only [switchV1, customFieldOut] at h
      split at h
      · cases h
        exact ⟨rfl, fun _ => noDevice_pred rfl⟩
      · exact nomatch h
  | userField d => exact joinsRight_userField rt dto zone h
  | customEvent d =>
      cases h
      exact ⟨rfl, fun _ => noDevice_pred rfl⟩
  | automationState d =>
      cases h
      exact ⟨rfl, fun _ => noDevice_pred rfl⟩
  | conditionalCard | tag | other =>
      cases h
      exact ⟨rfl, fun _ => noDevice_nil⟩

end

section
variable {sw : Switch} {tag : TagLike}

theorem join_eq_any (hsw : sw.JoinsRight) {ss : List Step} : ∀ {n : Nat} {is : List Item},
    items sw n ss = .ok is →
    (is.any fun i => i.out.join) = ss.any fun s => s.body.joinsDevices := by
  induction ss with
  | nil =>
      intro n is h
      cases h
      rfl
  | cons s ss ih =>
      intro n is h
      cases hs : tagOf s with
      | some t =>
          rw [items_tag hs] at h
          rw [ih h, List.any_cons, body_of_tagOf hs]
          rfl
      | none =>
          obtain ⟨o, js, ho, hjs, rfl⟩ := items_item_ok hs h
          rw [List.any_cons, List.any_cons, ih hjs, Step.item_out, (hsw ho).1]

theorem mem_groupToks_two {is : List Item} {p : Pred} (h : .pred p ∈ groupToks 2 is) :
    ∃ i ∈ is, .pred p ∈ i.out.toks := by
  rw [groupToks_two] at h
  obtain ⟨i, hi, hp⟩ := List.mem_flatMap.mp h
  rcases List.mem_append.mp hp with hp | hp
  · cases hc : i.conditional <;> simp [connToks, hc] at hp
  · exact ⟨i, hi, hp⟩

theorem leaf_condToks {ts : List Tok} {p : Pred} (h : .leaf p ∈ condToks ts) : .pred p ∈ ts := by
  obtain ⟨t, ht, heq⟩ := List.mem_filterMap.mp h
  cases t with
  | conn c => cases c <;> exact nomatch heq
  | pred q =>
      cases heq
      exact ht
  | _ => exact nomatch heq

theorem formula_noDevice (hsw : sw.JoinsRight) {c : CardOut} {n : Nat}
    (h : items sw n c.steps = .ok c.items) (hjoin : c.join = false) {e : Cond}
    (he : c.formula = some e) : e.All fun p => p.device = false := by
  refine Infix.all_read (fun p hp => ?_) he
  have hitem : ∃ i ∈ c.items, .pred p ∈ i.out.toks := by
    unfold CardOut.inside at hp
    cases hpreds : c.preds with
    | nil => simp [hpreds] at hp
    | cons i is =>
        have hmem : ∀ j ∈ i :: is, j ∈ c.items := fun j hj =>
          List.dropWhile_subset _ (hpreds ▸ hj : j ∈ c.preds)
        simp only [hpreds] at hp
        rcases List.mem_append.mp (leaf_condToks hp) with hp | hp
        · exact ⟨i, hmem i List.mem_cons_self, hp⟩
        · obtain ⟨j, hj, hp⟩ := mem_groupToks_two hp
          exact ⟨j, hmem j (List.mem_cons_of_mem _ hj), hp⟩
  obtain ⟨i, hi, hp⟩ := hitem
  obtain ⟨s, _, m, _, ho, _⟩ := mem_items h i hi
  obtain ⟨hj, hd⟩ := hsw ho
  have hij : i.out.join = false := by simpa using List.any_eq_false.mp hjoin i hi
  exact hd (hj ▸ hij) p hp

/-- Such a formula does not depend on the device. -/
theorem holds_noDevice {db : Db} {ct : Contact} {φ : Cond} (h : φ.All fun p => p.device = false)
    (d d' : Option Device) : db.Holds ct d φ ↔ db.Holds ct d' φ := by
  have hpred : ∀ p : Pred, p.device = false → db.pred ct d p = db.pred ct d' p := by
    intro p hp
    cases p with
    | cmp a col op rhs => cases a <;> first | rfl | exact nomatch hp
    | isNull a col negated => cases a <;> first | rfl | exact nomatch hp
    | _ => rfl
  have hall : φ.All fun p => db.pred ct d p = db.pred ct d' p := by
    induction φ with
    | leaf p => exact hpred p h
    | lo o l r ihl ihr => exact ⟨ihl h.1, ihr h.2⟩
    | hi o l r ihl ihr => exact ⟨ihl h.1, ihr h.2⟩
  unfold Db.Holds Db.cond
  rw [Infix.eval_congr _ _ hall]

end

/-! ## Counting rows -/

theorem countP_flatMap_key {α : Type} {same : α → α → Bool} (hrefl : ∀ a, same a a = true)
    (hsymm : ∀ a b, same a b = same b a) {f : α → Nat} {a : α} :
    ∀ {l : List α}, a ∈ l → l.Pairwise (fun b b' => same b b' = false) →
      (l.flatMap fun b => List.replicate (f b) b).countP (same a) = f a
  | [], h, _ => nomatch h
  | b :: l, h, hpair => by
      obtain ⟨hb, hl⟩ := List.pairwise_cons.mp hpair
      rw [List.flatMap_cons, List.countP_append, List.countP_replicate]
      rcases List.mem_cons.mp h with rfl | h
      · have hrest : (l.flatMap fun b => List.replicate (f b) b).countP (same a) = 0 := by
          rw [List.countP_eq_zero]
          intro x hx
          obtain ⟨y, hy, hxy⟩ := List.mem_flatMap.mp hx
          rw [List.eq_of_mem_replicate hxy, hb y hy]
          decide
        rw [hrest, if_pos (hrefl a)]
        rfl
      · have hab : same a b = false := (hsymm a b).trans (hb a h)
        rw [hab, countP_flatMap_key hrefl hsymm h hl]
        simp

section
variable {db : Db} {s : ContactsSelect} {φ : Cond} {ct : Contact}

theorem countP_selectContacts (hφ : Infix.read s.whereToks = some φ) (hct : ct ∈ db.contacts) :
    (db.selectContacts s).countP (sameContact ct)
      = ((db.joined s.join ct).filter fun ctd => decide (db.Holds ct ctd φ)).length := by
  have hrows : db.selectContacts s = db.contacts.flatMap fun ct => List.replicate
      ((db.joined s.join ct).filter fun ctd => decide (db.Holds ct ctd φ)).length ct := by
    simp only [Db.selectContacts, hφ, List.map_const']
  have hpair : db.contacts.Pairwise fun a b => sameContact a b = false :=
    db.contactsPkey.imp fun h => by simpa [sameContact] using h
  rw [hrows, countP_flatMap_key (fun a => by simp [sameContact])
    (fun a b => by simp [sameContact, Bool.beq_comm (a := a.accountId), Bool.beq_comm (a := a.id)])
    hct hpair]

end

/-! ## The condition is exact -/

/-- The same database with one contact and the given devices. -/
def Db.only (db : Db) (ct : Contact) (ds : List Device) : Db :=
  { db with contacts := [ct], contactsPkey := by simp, contactsDevices := ds }

/-- A device row of the contact. -/
def Device.of (d : Device) (ct : Contact) : Device :=
  { d with contactId := ct.id, accountId := ct.accountId }

section
variable {db : Db} {ct : Contact} {φ : Cond} {sw : Switch} {tag : TagLike} {c : CardOut}

/-- A condition reads neither the contacts nor the devices but those of its row. -/
theorem holds_only {ds : List Device} {ctd : Option Device} :
    (db.only ct ds).Holds ct (ctd.map fun d => d.of ct) φ ↔ db.Holds ct ctd φ := by
  have hpred : ∀ p : Pred, (db.only ct ds).pred ct (ctd.map fun d => d.of ct) p
      = db.pred ct ctd p := by
    intro p
    cases p with
    | cmp a col op rhs => cases a <;> cases ctd <;> rfl
    | isNull a col negated => cases a <;> cases ctd <;> rfl
    | _ => rfl
  have hall : φ.All fun p => (db.only ct ds).pred ct (ctd.map fun d => d.of ct) p
      = db.pred ct ctd p := by
    induction φ with
    | leaf p => exact hpred p
    | lo o l r ihl ihr => exact ⟨ihl, ihr⟩
    | hi o l r ihl ihr => exact ⟨ihl, ihr⟩
  unfold Db.Holds Db.cond
  rw [Infix.eval_congr _ _ hall]

theorem holds_guarded {k : Option Connector} {e : Cond} {ctd : Option Device}
    (hacc : ct.accountId = tag.accountId) (hact : ct.isActive = true) (he : db.Holds ct ctd e) :
    db.Holds ct ctd (guarded tag k e) := by
  have hguard : db.Holds ct ctd (guardCond tag) := by
    simp [guardCond, Db.pred, hacc, hact]
  rcases k with _ | _ | _
  · exact holds_and.mpr ⟨hguard, he⟩
  · exact holds_and.mpr ⟨hguard, he⟩
  · exact holds_or.mpr (.inl hguard)

/-- A card that joins and whose formula some contact satisfies misses it or
repeats it in some database. -/
theorem not_rowExact {e : Cond} {i : Item} {is : List Item} (hlaw : LawfulItems c.items)
    (hbefore : ∀ i ∈ c.before, i.conditional = none) (hpreds : c.preds = i :: is)
    (hjoin : c.join = true) (he : c.formula = some e) {ctd : Option Device}
    (hacc : ct.accountId = tag.accountId) (hact : ct.isActive = true) (hholds : db.Holds ct ctd e) :
    ¬ RowExact tag c := by
  intro hexact
  have hread : Infix.read (c.whereToks tag) = some (guarded tag i.conditional e) :=
    (read_where hlaw).mpr ⟨hbefore, .inr ⟨i, is, e, hpreds, he, rfl⟩⟩
  cases ctd with
  | none =>
      -- without a device the inner join leaves no row
      have hsat : (db.only ct []).satisfiesCard c ct :=
        .inr ⟨e, he, none, List.mem_singleton.mpr rfl, holds_only.mpr hholds⟩
      have hone := hexact (db.only ct []) ct (List.mem_singleton.mpr rfl) hacc hact hsat
      rw [countP_selectContacts (s := c.select tag) hread (List.mem_singleton.mpr rfl)] at hone
      simp [CardOut.select, hjoin, Db.joined, Db.devicesOf, Db.only] at hone
  | some d =>
      -- with the same device twice it leaves two
      let db' := db.only ct [d.of ct, d.of ct]
      have hdevices : db'.devicesOf ct = [d.of ct, d.of ct] := by
        simp [db', Db.devicesOf, Db.only, Device.of]
      have hd : db'.Holds ct (some (d.of ct)) e := holds_only.mpr hholds
      have hsat : db'.satisfiesCard c ct := by
        refine .inr ⟨e, he, some (d.of ct), ?_, hd⟩
        simp [Db.leftJoined, hdevices]
      have hone := hexact db' ct (List.mem_singleton.mpr rfl) hacc hact hsat
      rw [countP_selectContacts (s := c.select tag) hread (List.mem_singleton.mpr rfl)] at hone
      have hg := holds_guarded (k := i.conditional) hacc hact hd
      simp [CardOut.select, hjoin, Db.joined, hdevices, hg] at hone

/-- A card PostgreSQL can read returns each contact that satisfies it once,
exactly when it joins idly. -/
theorem rowExact_iff (hsw : sw.Lawful) (hjr : sw.JoinsRight) {n : Nat}
    (h : items sw n c.steps = .ok c.items) (hread : (Infix.read (c.whereToks tag)).isSome = true) :
    RowExact tag c ↔ c.JoinsIdly tag := by
  have hlaw := lawfulItems hsw h
  have hjoins : c.join = c.steps.any fun s => s.body.joinsDevices := join_eq_any hjr h
  obtain ⟨φ, hφ⟩ := Option.isSome_iff_exists.mp hread
  obtain ⟨hbefore, hcase⟩ := (read_where hlaw).mp hφ
  have hsilent : c.preds = [] → c.join = false := by
    intro hp
    have hcards : ∀ i ∈ c.items, i.card = true := List.dropWhile_eq_nil_iff.mp hp
    rw [CardOut.join, List.any_eq_false]
    intro i hi
    simp [hlaw.silent i hi (hcards i hi)]
  constructor
  · intro hexact hjoin e he db ct ctd hacc hact hholds
    rw [← hjoins] at hjoin
    rcases hcase with ⟨hp, _⟩ | ⟨i, is, e', hp, he', rfl⟩
    · exact absurd (hsilent hp) (by simp [hjoin])
    · exact not_rowExact hlaw hbefore hp hjoin he hacc hact hholds hexact
  · intro hidle db ct hct hacc hact hsat
    have hone : c.join = false → db.Holds ct none φ →
        (db.selectContacts (c.select tag)).countP (sameContact ct) = 1 := by
      intro hjoin hholds
      rw [countP_selectContacts (s := c.select tag) hφ hct]
      simp [CardOut.select, hjoin, Db.joined, hholds]
    rcases hcase with ⟨hp, rfl⟩ | ⟨i, is, e, hp, he, rfl⟩
    · refine hone (hsilent hp) ?_
      simp [guardCond, Db.pred, hacc, hact]
    · rcases hsat with hnil | ⟨e', he', ctd, _, hholds⟩
      · exact absurd (hnil.symm.trans hp) (by simp)
      · cases hj : c.join with
        | true => exact absurd hholds (hidle (hjoins ▸ hj) e' he' db ct ctd hacc hact)
        | false =>
            refine hone hj (holds_guarded hacc hact ?_)
            cases he.symm.trans he'
            exact (holds_noDevice (formula_noDevice hjr h hj he) ctd none).mp hholds

end

/-! ## The V1 generator -/

/-- Every card of a V1 query that PostgreSQL can read returns each active
contact of the account that satisfies it, once, exactly when none of its steps
asks for the device join, or its formula is true of no such contact. -/
theorem segmentQueryV1_rows_iff (rt : Runtime) (tag : TagLike) (dto : SegmentDtoLike)
    (timeZone : Option String) {r : GenerateResult}
    (h : generateSegmentQueryV1 rt tag dto timeZone = .ok r) :
    ∃ cs, cardsV1 rt tag dto timeZone = .ok cs ∧
      contactsSelects r.query
        = (cs.filter fun c => decide (c.steps ≠ [])).map (CardOut.select tag) ∧
      ∀ c ∈ cs, (Infix.read (c.whereToks tag)).isSome = true →
        (RowExact tag c ↔ c.JoinsIdly tag) := by
  obtain ⟨cs, hcs, rfl⟩ := generateV1_ok rt tag dto timeZone h
  have hsw := switchV1_lawful rt tag dto (timeZoneValue timeZone)
  refine ⟨cs, hcs, contactsSelects_assemble (lawful_cardOuts hsw hcs), fun c hc hread => ?_⟩
  obtain ⟨_, m, hm⟩ := mem_cardOuts hcs c hc
  exact rowExact_iff hsw (switchV1_joinsRight rt tag dto _) hm hread

theorem segmentQueryV1_rows_providerThenTag :
    ∃ cs, cardsV1 plainRuntime ⟨3, 1⟩ providerThenTag none = .ok cs ∧ ∀ c ∈ cs, RowExact ⟨3, 1⟩ c := by
  obtain ⟨cs, hcs, _, hrows⟩ :=
    segmentQueryV1_rows_iff plainRuntime ⟨3, 1⟩ providerThenTag none rfl
  refine ⟨cs, hcs, fun c hc => (hrows c hc ?_).mpr ?_⟩
  · cases hcs
    cases List.mem_singleton.mp hc
    rfl
  · intro hjoin
    cases hcs
    cases List.mem_singleton.mp hc
    exact absurd hjoin (by decide)

/-! ### Active on any channel -/

/-- Opened or clicked in any channel in the last seven days. -/
def anyChannelCard : SegmentDtoLike :=
  { steps := [[
      { body := .interation { eventType := .str "anyChannel"
                              conditionalInteration := .str "yes"
                              time := .num 7 } }]] }

/-- A contact that opened an e-mail on day 100. -/
def recentContact (id : Int) : Contact :=
  { id := id, accountId := 1, isActive := true
    column := fun name => if name = "last_open_date" then .time (100 * 86400) else .null }

def silentDevice (contactId : Int) (token : String) : Device :=
  { contactId := contactId, accountId := 1
    column := fun name => if name = "token" then .text token else .null }

/-- On day 101: contact 1 without devices, contact 2 with two. -/
def devicesDb : Db :=
  { contacts := [recentContact 1, recentContact 2]
    contactsPkey := by simp [recentContact]
    contactsDevices := [silentDevice 2 "a", silentDevice 2 "b"]
    currentDate := 101 }

/-- The `SELECT` misses the contact without devices and repeats the other. -/
theorem segmentQueryV1_rows_fail :
    ∃ r cs, generateSegmentQueryV1 plainRuntime ⟨3, 1⟩ anyChannelCard none = .ok r ∧
      cardsV1 plainRuntime ⟨3, 1⟩ anyChannelCard none = .ok cs ∧
      (∀ ct ∈ devicesDb.contacts, ∀ c ∈ cs, devicesDb.satisfiesCard c ct) ∧
      (∀ c ∈ cs, devicesDb.selectRows (c.select ⟨3, 1⟩) = [2, 2]) ∧
      ∀ c ∈ cs, ¬ RowExact ⟨3, 1⟩ c := by
  refine ⟨_, _, rfl, rfl, ?_, ?_, ?_⟩
  · intro ct hct c hc
    cases List.mem_singleton.mp hc
    rcases List.mem_cons.mp hct with rfl | hct
    · exact .inr ⟨_, rfl, none, List.mem_singleton.mpr rfl, by decide⟩
    · cases List.mem_singleton.mp hct
      exact .inr ⟨_, rfl, some (silentDevice 2 "a"), List.mem_cons_self, by decide⟩
  · intro c hc
    cases List.mem_singleton.mp hc
    decide
  · intro c hc hexact
    cases List.mem_singleton.mp hc
    have hone := hexact devicesDb (recentContact 1) List.mem_cons_self rfl rfl
      (.inr ⟨_, rfl, none, List.mem_singleton.mpr rfl, by decide⟩)
    exact absurd hone (by decide)

end OpenBms.Segment
