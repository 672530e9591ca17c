import MidenAgglayer.Projector.Tick
import MidenAgglayer.Framework.Sorting
import MidenAgglayer.Safety.ExecutionChain

/-! # The Authoritative B2AGG Records of a Tick

    A tick takes its bridge-outs from the bridge's own transactions, not
    from the client's consumed feed (`Projector/Tick.lean`). This module
    says what that source gives, over every environment:

    * the bridge's inputs come in execution order: by block, by the
      transaction's place in the block's chain, by the input's place in the
      transaction, each place once (`pairwise_consumedInputs`);
    * the records `authoritativeB2agg` returns are B2AGG notes the bridge
      consumed, each at the place of one of its inputs in the window, and
      they stand in execution order (`authoritativeB2agg_ok`, `AuthSource`):
      the gate's comparator and the execution order agree on them, since
      no two stand at one place;
    * a bucket of the block loop holds, besides the CLAIM and GER notes,
      exactly the records of its block, and the per-block sort keeps them
      in that order (`AuthSource.filter_sortBy_bucket`); block after block
      the buckets give the records back (`AuthSource.flatMap_blocks`).
-/

open Maps MidenClient

namespace Projector

/-! ## Section 1: Execution order -/

/-- The place of a consumption: block, transaction order, input position. -/
def ConsumedRef.slot (r : ConsumedRef) : Nat × Nat × Nat := (r.block, r.order, r.withinTxPos)

/-- The execution order of places: lexicographic in block, transaction
    order and input position. -/
def SlotLt : Nat × Nat × Nat → Nat × Nat × Nat → Prop :=
  Prod.Lex (· < ·) (Prod.Lex (· < ·) (· < ·))

theorem slotLt_iff {a b : Nat × Nat × Nat} :
    SlotLt a b ↔ a.1 < b.1 ∨ a.1 = b.1 ∧ (a.2.1 < b.2.1 ∨ a.2.1 = b.2.1 ∧ a.2.2 < b.2.2) := by
  simp only [SlotLt, Prod.lex_def]

instance SlotLt.instDecidable (a b : Nat × Nat × Nat) : Decidable (SlotLt a b) :=
  decidable_of_iff _ slotLt_iff.symm

theorem SlotLt.irrefl (a : Nat × Nat × Nat) : ¬ SlotLt a a := by
  rw [slotLt_iff]
  omega

section Order

variable {A C : Type} [DecidableEq A] [DecidableEq C]

/-- On success, `ordered_account_transactions` lists its entries by block,
    then by order, each place once; each entry is a transaction of the
    input, at its own block. -/
theorem orderedAccountTransactions_places {txs : List (TransactionRecord A C)} {accountId : A}
    {ordered : List (Nat × Nat × TransactionRecord A C)}
    (h : orderedAccountTransactions txs accountId = .ok ordered) :
    ordered.Pairwise (fun e f => e.1 < f.1 ∨ e.1 = f.1 ∧ e.2.1 < f.2.1) ∧
      ∀ e ∈ ordered, e.2.2 ∈ txs ∧ e.2.2.blockNum = e.1 := by
  obtain ⟨-, chain, hchain, rfl⟩ := orderedAccountTransactions_eq_ok txs accountId h
  have hkeys := (keys_byBlock txs accountId).1
  constructor
  · rw [List.pairwise_flatMap]
    refine ⟨fun block _ => ?_, hkeys.imp fun hlt x hx y hy => ?_⟩
    · -- within a block the orders count up
      rw [List.pairwise_iff_getElem]
      intro i j hi hj hij
      simp only [List.getElem_mapIdx]
      exact .inr ⟨trivial, hij⟩
    · obtain ⟨i, hi, rfl⟩ := List.mem_mapIdx.mp hx
      obtain ⟨j, hj, rfl⟩ := List.mem_mapIdx.mp hy
      exact .inl hlt
  · intro e he
    obtain ⟨block, hblock, he⟩ := List.mem_flatMap.mp he
    obtain ⟨i, hi, rfl⟩ := List.mem_mapIdx.mp he
    have hmem := (hchain block hblock).1.subset (List.getElem_mem hi)
    simp only [List.mem_filter, beq_iff_eq, decide_eq_true_eq] at hmem
    exact ⟨hmem.1.1, hmem.2⟩

omit [DecidableEq A] [DecidableEq C]

variable (inputNotes : TransactionRecord A C → List (Nullifier × Option NoteId))

/-- Each consumption is an input of an entry, at its position among the
    transaction's inputs, under the entry's block and order. -/
theorem mem_consumedInputs {ordered : List (Nat × Nat × TransactionRecord A C)} {n : Nullifier}
    {c : ConsumedRef} (h : (n, c) ∈ consumedInputs inputNotes ordered) :
    ∃ e ∈ ordered, (inputNotes e.2.2)[c.withinTxPos]? = some (n, c.noteId) ∧
      c.block = e.1 ∧ c.order = e.2.1 := by
  obtain ⟨e, he, hin⟩ := List.mem_flatMap.mp h
  obtain ⟨⟨input, w⟩, hw, heq⟩ := List.mem_map.mp hin
  obtain ⟨-, hlt, hx⟩ := List.mem_zipIdx hw
  simp only [Prod.mk.injEq] at heq
  obtain ⟨rfl, rfl⟩ := heq
  refine ⟨e, he, ?_, rfl, rfl⟩
  rw [List.getElem?_eq_some_iff]
  exact ⟨by simpa using hlt, by simp [hx]⟩

/-- **Execution order.** The bridge's inputs, numbered along the ordered
    entries, come strictly in order of their places. -/
theorem pairwise_consumedInputs {ordered : List (Nat × Nat × TransactionRecord A C)}
    (h : ordered.Pairwise fun e f => e.1 < f.1 ∨ e.1 = f.1 ∧ e.2.1 < f.2.1) :
    (consumedInputs inputNotes ordered).Pairwise fun a b => SlotLt a.2.slot b.2.slot := by
  unfold consumedInputs
  rw [List.pairwise_flatMap]
  refine ⟨fun e _ => ?_, h.imp fun hef x hx y hy => ?_⟩
  · -- the inputs of one transaction, by position
    rw [List.pairwise_map, List.pairwise_iff_getElem]
    intro i j hi hj hij
    simp only [List.getElem_zipIdx, ConsumedRef.slot, Nat.zero_add]
    exact Prod.Lex.right _ (Prod.Lex.right _ hij)
  · obtain ⟨a, -, rfl⟩ := List.mem_map.mp hx
    obtain ⟨b, -, rfl⟩ := List.mem_map.mp hy
    rw [slotLt_iff]
    simpa only [ConsumedRef.slot] using hef.imp_right fun h => ⟨h.1, .inl h.2⟩

/-- In execution order, two inputs at one place are one. -/
theorem eq_of_mem_consumedInputs {ordered : List (Nat × Nat × TransactionRecord A C)}
    (h : ordered.Pairwise fun e f => e.1 < f.1 ∨ e.1 = f.1 ∧ e.2.1 < f.2.1)
    {a b : Nullifier × ConsumedRef} (ha : a ∈ consumedInputs inputNotes ordered)
    (hb : b ∈ consumedInputs inputNotes ordered) (hslot : a.2.slot = b.2.slot) : a = b :=
  @eq_of_mem_of_key_eq _ _ (fun r : Nullifier × ConsumedRef => r.2.slot) SlotLt SlotLt.irrefl _
    (pairwise_consumedInputs inputNotes h) _ _ ha hb hslot

end Order

/-! ## Section 2: The nullifier map and the identified references -/

section Refs

variable {A C : Type} [DecidableEq A] [DecidableEq C]
  (inputNotes : TransactionRecord A C → List (Nullifier × Option NoteId))

/-- The entries of `bridge_consumed_nullifiers`, as the map iterates them:
    each an input of the bridge's ordered transactions, no two at one
    place. -/
theorem bridgeConsumedNullifiers_ok {txs : List (TransactionRecord A C)} {bridgeId : A}
    {refs : Std.HashMap Nullifier ConsumedRef}
    (h : bridgeConsumedNullifiers inputNotes txs bridgeId = .ok refs) :
    ∃ ordered, orderedAccountTransactions txs bridgeId = .ok ordered ∧
      (∀ r ∈ refs.toList, r ∈ consumedInputs inputNotes ordered) ∧
      refs.toList.Pairwise fun a b => a.2.slot ≠ b.2.slot := by
  unfold bridgeConsumedNullifiers at h
  cases hord : orderedAccountTransactions txs bridgeId with
  | error e => rw [hord] at h; cases h
  | ok ordered =>
    rw [hord] at h
    cases h
    have hmem : ∀ r ∈ (Std.HashMap.ofList (consumedInputs inputNotes ordered)).toList,
        r ∈ consumedInputs inputNotes ordered := fun r hr =>
      mem_of_getElem?_ofList (Std.HashMap.mem_toList_iff_getElem?_eq_some.mp hr)
    refine ⟨ordered, rfl, hmem, ?_⟩
    -- two entries of distinct nullifiers are two inputs, so at two places
    refine Std.HashMap.distinct_keys_toList.imp_of_mem fun {a b} ha hb hab hslot => ?_
    have heq := eq_of_mem_consumedInputs inputNotes (orderedAccountTransactions_places hord).1
      (hmem a ha) (hmem b hb) hslot
    rw [heq, BEq.rfl] at hab
    cases hab

omit [DecidableEq A] [DecidableEq C]

/-- An identified reference is a reference, with the id its header keeps
    or the join gives. -/
theorem mem_identifiedRefs {refs : List (Nullifier × ConsumedRef)} {ids : Nullifier → Option NoteId}
    {x : ConsumedRef × NoteId} (h : x ∈ identifiedRefs refs ids) : ∃ r ∈ refs, x.1 = r.2 := by
  obtain ⟨r, hr, hx⟩ := List.mem_filterMap.mp h
  obtain ⟨noteId, -, rfl⟩ := Option.map_eq_some_iff.mp hx
  exact ⟨r, hr, rfl⟩

theorem pairwise_identifiedRefs {refs : List (Nullifier × ConsumedRef)} (ids : Nullifier → Option NoteId)
    (h : refs.Pairwise fun a b => a.2.slot ≠ b.2.slot) :
    (identifiedRefs refs ids).Pairwise fun a b => a.1.slot ≠ b.1.slot := by
  unfold identifiedRefs
  rw [List.pairwise_filterMap]
  refine h.imp fun {a b} hab x hx y hy => ?_
  obtain ⟨_, -, rfl⟩ := Option.map_eq_some_iff.mp hx
  obtain ⟨_, -, rfl⟩ := Option.map_eq_some_iff.mp hy
  exact hab

end Refs

/-! ## Section 3: The collected records -/

section Records

variable {A : Type} (bridgeId : A)

/-- A body the node returned as a B2AGG is one. -/
theorem isB2agg_of_b2aggBodies {fetched : FetchedBodies} {noteId : NoteId} {details : NoteDetails}
    (h : (b2aggBodies fetched)[noteId]? = some details) : details.isB2agg = true := by
  obtain ⟨body, hbody, heq⟩ := List.mem_map.mp (mem_of_getElem?_ofList h)
  simp only [Prod.mk.injEq] at heq
  rw [← heq.2]
  exact (List.mem_filter.mp hbody).2

/-- **Run lemma of the collection loop.** The loop keeps, in order, the
    references whose id the node returned as a B2AGG, records each with its
    body, and files its input position under its id. -/
theorem collectRecords_ok (fetched : FetchedBodies) : ∀ {refs : List (ConsumedRef × NoteId)} {recs₀ recs : List (NoteId × InputNote A)}
    {pos₀ pos : Std.HashMap NoteId Nat}, collectRecords bridgeId fetched refs recs₀ pos₀ = .ok (recs, pos) →
    ∃ sub : List ((ConsumedRef × NoteId) × NoteDetails), (sub.map Prod.fst).Sublist refs ∧
      (∀ x ∈ sub, x.2.isB2agg = true) ∧
      recs = recs₀ ++ sub.map (fun x => (x.1.2, x.1.1.record bridgeId x.2)) ∧
      pos = pos₀.insertMany (sub.map fun x => (x.1.2, x.1.1.withinTxPos))
  | [], recs₀, recs, pos₀, pos, h => by
    simp only [collectRecords, Except.ok.injEq, Prod.mk.injEq] at h
    obtain ⟨rfl, rfl⟩ := h
    exact ⟨[], List.Sublist.slnil, by simp, by simp, by simp⟩
  | (cref, noteId) :: rest, recs₀, recs, pos₀, pos, h => by
    unfold collectRecords at h
    split at h
    · -- a returned B2AGG: recorded, with its position
      rename_i details hbody
      obtain ⟨sub, hsub, hb2agg, hrecs, hpos⟩ := collectRecords_ok fetched h
      refine ⟨((cref, noteId), details) :: sub, hsub.cons_cons _, ?_, ?_, ?_⟩
      · rintro x (_ | ⟨_, hx⟩)
        · exact isB2agg_of_b2aggBodies hbody
        · exact hb2agg x hx
      · rw [hrecs, List.map_cons, List.append_assoc, List.singleton_append]
      · rw [hpos, List.map_cons, Std.HashMap.insertMany_cons]
    · split at h
      · -- a returned note of another kind: skipped
        obtain ⟨sub, hsub, hb2agg, hrecs, hpos⟩ := collectRecords_ok fetched h
        exact ⟨sub, hsub.cons _, hb2agg, hrecs, hpos⟩
      · cases h

/-- On success, `resolve_b2agg_consumptions` records some of the identified
    references, in order, each with a B2AGG body, and files their input
    positions under their ids. -/
theorem resolveB2aggConsumptions_ok {refs : List (Nullifier × ConsumedRef)} {ids : Nullifier → Option NoteId}
    {fetch : Except String FetchedBodies} {recs : List (NoteId × InputNote A)} {pos : Std.HashMap NoteId Nat}
    (h : resolveB2aggConsumptions bridgeId refs ids fetch = .ok (recs, pos)) :
    ∃ sub : List ((ConsumedRef × NoteId) × NoteDetails), (sub.map Prod.fst).Sublist (identifiedRefs refs ids) ∧
      (∀ x ∈ sub, x.2.isB2agg = true) ∧
      recs = sub.map (fun x => (x.1.2, x.1.1.record bridgeId x.2)) ∧
      pos = (∅ : Std.HashMap NoteId Nat).insertMany (sub.map fun x => (x.1.2, x.1.1.withinTxPos)) := by
  unfold resolveB2aggConsumptions at h
  dsimp only at h
  split at h
  · simp only [Except.ok.injEq, Prod.mk.injEq] at h
    obtain ⟨rfl, rfl⟩ := h
    exact ⟨[], List.nil_sublist _, by simp, rfl, by simp⟩
  · split at h
    · cases h
    · obtain ⟨sub, hsub, hb2agg, hrecs, hpos⟩ := collectRecords_ok bridgeId _ h
      exact ⟨sub, hsub, hb2agg, by rw [hrecs, List.nil_append], hpos⟩

end Records

/-! ## Section 4: The order of the records -/

section Slots

variable {A : Type} (pos : Std.HashMap NoteId Nat)

/-- Where the gate's order puts a record: its consumption block, its
    transaction's order and its input position. -/
def recordSlot (r : NoteId × InputNote A) : Nat × Nat × Nat :=
  (r.2.consumedBlock.getD 0, r.2.consumedTxOrder.getD 0, (pos[r.1]?).getD 0)

/-- The record stands at the place of the consumption `c`. -/
def PlacedAt (r : NoteId × InputNote A) (c : ConsumedRef) : Prop :=
  r.2.consumedBlock = some c.block ∧ r.2.consumedTxOrder = some c.order ∧ pos[r.1]? = some c.withinTxPos

theorem PlacedAt.recordSlot_eq {pos : Std.HashMap NoteId Nat} {r : NoteId × InputNote A} {c : ConsumedRef}
    (h : PlacedAt pos r c) : recordSlot pos r = c.slot := by
  obtain ⟨h1, h2, h3⟩ := h
  simp only [recordSlot, h1, h2, h3, Option.getD_some, ConsumedRef.slot]

instance authOrder.instTransCmp : Std.TransCmp (authOrder (A := A) pos) := by
  unfold authOrder
  infer_instance

instance blockOrder.instTransCmp : Std.TransCmp (blockOrder (A := A) pos) := by
  unfold blockOrder
  infer_instance

variable {pos}

/-- Between placed records the gate's order is the execution order: a
    record not after another stands before it, or at its place. -/
theorem slotLt_of_authOrder {a b : NoteId × InputNote A} {c d : ConsumedRef} (ha : PlacedAt pos a c)
    (hb : PlacedAt pos b d) (hle : (authOrder pos a b).isLE = true) (hne : c.slot ≠ d.slot) :
    SlotLt c.slot d.slot := by
  obtain ⟨ha1, ha2, ha3⟩ := ha
  obtain ⟨hb1, hb2, hb3⟩ := hb
  simp only [authOrder, compareLex, compareOn, ha1, ha2, ha3, hb1, hb2, hb3, compare_some] at hle
  simp only [ConsumedRef.slot, ne_eq, Prod.mk.injEq] at hne ⊢
  rw [slotLt_iff]
  -- block, then transaction order, then input position
  rcases isLE_compare_then hle with h1 | ⟨h1, hle⟩
  · exact .inl h1
  rcases isLE_compare_then hle with h2 | ⟨h2, hle⟩
  · exact .inr ⟨h1, .inl h2⟩
  rcases isLE_compare_then hle with h3 | ⟨h3, -⟩
  · exact .inr ⟨h1, .inr ⟨h2, h3⟩⟩
  · exact absurd ⟨h1, h2, h3⟩ hne

/-- Within one block the per-block order keeps the execution order of
    placed records, whatever their details: it never reaches the
    commitment tie-break. -/
theorem blockOrder_isLE_of_slotLt {a b : NoteId × InputNote A} {c d : ConsumedRef} (ha : PlacedAt pos a c)
    (hb : PlacedAt pos b d) (hblock : c.block = d.block) (hlt : SlotLt c.slot d.slot) :
    (blockOrder pos (some a.1, a.2) (some b.1, b.2)).isLE = true := by
  obtain ⟨-, ha2, ha3⟩ := ha
  obtain ⟨-, hb2, hb3⟩ := hb
  simp only [blockOrder, compareLex, compareOn, ha2, hb2, Option.bind_some, ha3, hb3, Option.getD_some,
    compare_some]
  rw [slotLt_iff] at hlt
  simp only [ConsumedRef.slot] at hlt
  rcases hlt with h | ⟨-, h | ⟨h2, h3⟩⟩
  · omega
  · rw [Nat.compare_eq_lt.mpr h]
    rfl
  · rw [h2, Nat.compare_eq_eq.mpr rfl, Ordering.eq_then, Nat.compare_eq_lt.mpr h3]
    rfl

/-- Records collected from references at distinct places, under distinct
    ids, sorted by the gate's order, stand in execution order. -/
theorem pairwise_sortBy_authOrder {pos : Std.HashMap NoteId Nat} {recs : List (NoteId × InputNote A)}
    (hplaced : ∀ r ∈ recs, ∃ c, PlacedAt pos r c)
    (hne : recs.Pairwise fun a b => recordSlot pos a ≠ recordSlot pos b) :
    (sortBy (authOrder pos) recs).Pairwise fun a b => SlotLt (recordSlot pos a) (recordSlot pos b) := by
  have hperm := sortBy_perm (authOrder pos) recs
  have hne' := (hperm.pairwise_iff fun h => Ne.symm h).mpr hne
  refine ((pairwise_sortBy _ recs).and hne').imp_of_mem fun {a b} ha hb hab => ?_
  obtain ⟨c, hc⟩ := hplaced a (hperm.subset ha)
  obtain ⟨d, hd⟩ := hplaced b (hperm.subset hb)
  rw [hc.recordSlot_eq, hd.recordSlot_eq] at hab ⊢
  exact slotLt_of_authOrder hc hd hab.1 hab.2

end Slots

section Source

variable {A C : Type}

/-- A record of the window: a B2AGG note the bridge consumed, placed at
    one of the inputs of its ordered transactions. -/
structure WindowRecord (cfg : Config A C) (ordered : List (Nat × Nat × TransactionRecord A C))
    (pos : Std.HashMap NoteId Nat) (r : NoteId × InputNote A) : Prop where
  isB2agg : r.2.details.isB2agg = true
  consumer : r.2.consumer = some cfg.bridgeId
  placed : ∃ n c, (n, c) ∈ consumedInputs cfg.inputNotes ordered ∧ PlacedAt pos r c

/-- What the gate checks, for the blocks `cursor + 1 ..= tip`: records of
    the window, the bridge's transactions all in the window, and the
    records in execution order. -/
structure AuthSource (cfg : Config A C) (ordered : List (Nat × Nat × TransactionRecord A C)) (cursor tip : Nat)
    (auth : List (NoteId × InputNote A)) (pos : Std.HashMap NoteId Nat) : Prop where
  window : ∀ e ∈ ordered, cursor + 1 ≤ e.1 ∧ e.1 ≤ tip
  record : ∀ r ∈ auth, WindowRecord cfg ordered pos r
  sorted : auth.Pairwise fun a b => SlotLt (recordSlot pos a) (recordSlot pos b)

/-- **The gate's records.** When `authoritativeB2agg` succeeds with
    distinct ids, the node's transactions order into the bridge's
    execution chain, and the records are the window's B2AGG notes the
    bridge consumed, in execution order. -/
theorem authoritativeB2agg_ok {P : Store.Primitives} [DecidableEq A] [DecidableEq C] (cfg : Config A C)
    (env : TickEnv P A C) {cursor tip : Nat}
    {auth : List (NoteId × InputNote A)} {pos : Std.HashMap NoteId Nat}
    (h : authoritativeB2agg P cfg env cursor tip = .ok (auth, pos)) (hnd : (auth.map Prod.fst).Nodup) :
    ∃ txs ordered, env.syncTransactions (cursor + 1) tip = .ok txs ∧
      orderedAccountTransactions txs cfg.bridgeId = .ok ordered ∧ AuthSource cfg ordered cursor tip auth pos := by
  unfold authoritativeB2agg at h
  split at h
  · cases h
  rename_i txs htxs
  split at h
  · cases h
  rename_i refs hrefs
  split at h
  · cases h
  rename_i recs pos' hres
  simp only [Except.ok.injEq, Prod.mk.injEq] at h
  obtain ⟨rfl, rfl⟩ := h
  obtain ⟨ordered, hord, hmem, hdistinct⟩ := bridgeConsumedNullifiers_ok cfg.inputNotes hrefs
  obtain ⟨sub, hsub, hb2agg, rfl, rfl⟩ := resolveB2aggConsumptions_ok cfg.bridgeId hres
  set pos := (∅ : Std.HashMap NoteId Nat).insertMany (sub.map fun x => (x.1.2, x.1.1.withinTxPos))
  set record : (ConsumedRef × NoteId) × NoteDetails → NoteId × InputNote A :=
    fun x => (x.1.2, x.1.1.record cfg.bridgeId x.2)
  have hperm := sortBy_perm (authOrder pos) (sub.map record)
  -- the collected ids are distinct, so each finds its own position
  have hids : (sub.map fun x => x.1.2).Nodup := by
    have := (hperm.map Prod.fst).nodup_iff.mp hnd
    simpa only [List.map_map, Function.comp_def] using this
  have hplaced : ∀ x ∈ sub, PlacedAt pos (record x) x.1.1 := by
    intro x hx
    refine ⟨rfl, rfl, Std.HashMap.getElem?_insertMany_list_of_mem BEq.rfl ?_ (List.mem_map_of_mem hx)⟩
    rw [List.pairwise_map]
    exact (List.pairwise_map.mp hids).imp fun h => beq_eq_false_iff_ne.mpr h
  -- each collected reference is an input of the ordered transactions
  have hwindow : ∀ x ∈ sub, WindowRecord cfg ordered pos (record x) := by
    intro x hx
    obtain ⟨r, hr, hxr⟩ := mem_identifiedRefs (hsub.subset (List.mem_map_of_mem hx))
    exact ⟨hb2agg x hx, rfl, r.1, x.1.1, by rw [hxr]; exact hmem r hr, hplaced x hx⟩
  -- the references are at distinct places
  have hslots : sub.Pairwise fun x y => x.1.1.slot ≠ y.1.1.slot := by
    have := (pairwise_identifiedRefs env.b2aggNoteIds hdistinct).sublist hsub
    rwa [List.pairwise_map] at this
  refine ⟨txs, ordered, htxs, hord, ⟨fun e he => ?_, fun r hr => ?_, ?_⟩⟩
  · obtain ⟨htx, hnum⟩ := (orderedAccountTransactions_places hord).2 e he
    rw [← hnum]
    exact env.syncTransactions_range _ _ txs htxs e.2.2 htx
  · obtain ⟨x, hx, rfl⟩ := List.mem_map.mp (hperm.subset hr)
    exact hwindow x hx
  · refine pairwise_sortBy_authOrder (fun r hr => ?_) ?_
    · obtain ⟨x, hx, rfl⟩ := List.mem_map.mp hr
      exact ⟨x.1.1, hplaced x hx⟩
    · rw [List.pairwise_map]
      refine hslots.imp_of_mem fun {x y} hx hy hxy => ?_
      rw [(hplaced x hx).recordSlot_eq, (hplaced y hy).recordSlot_eq]
      exact hxy

variable {cfg : Config A C} {ordered : List (Nat × Nat × TransactionRecord A C)} {cursor tip : Nat}
  {auth : List (NoteId × InputNote A)} {pos : Std.HashMap NoteId Nat}

/-- Every record is consumed in a block of the window. -/
theorem AuthSource.block_mem (h : AuthSource cfg ordered cursor tip auth pos) {r : NoteId × InputNote A}
    (hr : r ∈ auth) : ∃ block, r.2.consumedBlock = some block ∧ cursor + 1 ≤ block ∧ block ≤ tip := by
  obtain ⟨_, c, hc, hplaced⟩ := (h.record r hr).placed
  obtain ⟨e, he, -, hblock, -⟩ := mem_consumedInputs cfg.inputNotes hc
  have hwindow := h.window e he
  rw [← hblock] at hwindow
  exact ⟨c.block, hplaced.1, hwindow⟩

/-- **Blocks.** The records, block after block of the window, are the
    records. -/
theorem AuthSource.flatMap_blocks (h : AuthSource cfg ordered cursor tip auth pos) :
    (List.range' (cursor + 1) (tip - cursor)).flatMap (fun b => auth.filter fun r => r.2.consumedBlock = some b) =
      auth := by
  -- every record has a block, so a block's records are those of its key
  have hkey : ∀ b, (auth.filter fun r => r.2.consumedBlock = some b) =
      auth.filter fun r => (recordSlot pos r).1 = b := by
    intro b
    refine List.filter_congr fun r hr => ?_
    obtain ⟨block, hblock, -⟩ := h.block_mem hr
    simp [recordSlot, hblock]
  simp only [hkey]
  refine flatMap_range'_filter _ _ _ _ (h.sorted.imp fun hlt => ?_) fun r hr => ?_
  · rw [slotLt_iff] at hlt
    omega
  · obtain ⟨block, hblock, hlo, hhi⟩ := h.block_mem hr
    simp only [recordSlot, hblock, Option.getD_some]
    omega

end Source

/-! ## Section 5: The buckets of the block loop -/

section Buckets

variable {A : Type}

/-- The consumed feed's buckets hold no B2AGG. -/
theorem not_b2agg_storeFedBuckets (consumed : List (InputNote A)) :
    ∀ b, ∀ n ∈ (storeFedBuckets consumed).getD b [], n.2.details.isB2agg = false := by
  unfold storeFedBuckets
  -- the invariant of the fold: no bucket holds a B2AGG
  apply List.foldlRecOn (motive := fun (m : Std.HashMap Nat (List (Option NoteId × InputNote A))) =>
    ∀ b, ∀ n ∈ m.getD b [], n.2.details.isB2agg = false)
  · intro b n hn
    simp at hn
  · intro m hm note _ b n hn
    split at hn
    · exact hm b n hn
    · rename_i hnote
      split at hn
      · rw [getD_pushEntry] at hn
        split at hn
        · rcases List.mem_append.mp hn with hn | hn
          · exact hm b n hn
          · rw [List.mem_singleton.mp hn]
            simpa using hnote
        · exact hm b n hn
      · exact hm b n hn

/-- A bucket after the records are pushed: the block's store-fed notes,
    then the block's records, in order. -/
theorem getD_pushAuthoritative (byBlock : Std.HashMap Nat (List (Option NoteId × InputNote A)))
    (auth : List (NoteId × InputNote A)) (b : Nat) :
    (pushAuthoritative byBlock auth).getD b [] =
      byBlock.getD b [] ++ (auth.filter fun r => r.2.consumedBlock = some b).map fun r => (some r.1, r.2) := by
  unfold pushAuthoritative
  induction auth generalizing byBlock with
  | nil => simp
  | cons r rest ih =>
    rw [List.foldl_cons, ih, List.filter_cons]
    cases hr : r.2.consumedBlock with
    | none => simp
    | some block =>
      simp only [getD_pushEntry]
      by_cases hb : block = b
      · subst hb
        simp
      · simp [hb]

/-- The B2AGG notes of a bucket are the block's records. -/
theorem filter_isB2agg_bucket (consumed : List (InputNote A)) {auth : List (NoteId × InputNote A)}
    (hb2agg : ∀ r ∈ auth, r.2.details.isB2agg = true) (b : Nat) :
    ((pushAuthoritative (storeFedBuckets consumed) auth).getD b []).filter (fun n => n.2.details.isB2agg) =
      (auth.filter fun r => r.2.consumedBlock = some b).map fun r => (some r.1, r.2) := by
  rw [getD_pushAuthoritative, List.filter_append]
  have hfed : ((storeFedBuckets consumed).getD b []).filter (fun n => n.2.details.isB2agg) = [] := by
    rw [List.filter_eq_nil_iff]
    intro n hn
    simp [not_b2agg_storeFedBuckets consumed b n hn]
  have hrecs : ((auth.filter fun r => r.2.consumedBlock = some b).map fun r => (some r.1, r.2)).filter
      (fun n => n.2.details.isB2agg) = (auth.filter fun r => r.2.consumedBlock = some b).map
        fun r => (some r.1, r.2) := by
    rw [List.filter_eq_self]
    intro n hn
    obtain ⟨r, hr, rfl⟩ := List.mem_map.mp hn
    exact hb2agg r (List.mem_of_mem_filter hr)
  rw [hfed, hrecs, List.nil_append]

/-- Every B2AGG of a bucket is a record, consumed by the bridge. -/
theorem consumer_of_bucket (consumed : List (InputNote A)) {auth : List (NoteId × InputNote A)} {bridgeId : A}
    (hconsumer : ∀ r ∈ auth, r.2.consumer = some bridgeId) (b : Nat) :
    ∀ n ∈ (pushAuthoritative (storeFedBuckets consumed) auth).getD b [], n.2.details.isB2agg = true →
      n.2.consumer = some bridgeId := by
  intro n hn hb2agg
  rw [getD_pushAuthoritative] at hn
  rcases List.mem_append.mp hn with hn | hn
  · rw [not_b2agg_storeFedBuckets consumed b n hn] at hb2agg
    cases hb2agg
  · obtain ⟨r, hr, rfl⟩ := List.mem_map.mp hn
    exact hconsumer r (List.mem_of_mem_filter hr)

end Buckets

section SortedBuckets

variable {A C : Type} {cfg : Config A C} {ordered : List (Nat × Nat × TransactionRecord A C)} {cursor tip : Nat} {auth : List (NoteId × InputNote A)}
  {pos : Std.HashMap NoteId Nat}

/-- **Per-block order.** Sorting a bucket by the per-block order keeps the
    block's records in execution order, as the gate has them. -/
theorem AuthSource.filter_sortBy_bucket (h : AuthSource cfg ordered cursor tip auth pos)
    (consumed : List (InputNote A)) (b : Nat) :
    (sortBy (blockOrder pos) ((pushAuthoritative (storeFedBuckets consumed) auth).getD b [])).filter
        (fun n => n.2.details.isB2agg) =
      (auth.filter fun r => r.2.consumedBlock = some b).map fun r => (some r.1, r.2) := by
  have hb2agg : ∀ r ∈ auth, r.2.details.isB2agg = true := fun r hr => (h.record r hr).isB2agg
  rw [filter_sortBy, filter_isB2agg_bucket consumed hb2agg]
  rw [filter_isB2agg_bucket consumed hb2agg, List.pairwise_map]
  -- two records of the block, in execution order, are in the per-block order
  refine (h.sorted.filter _).imp_of_mem fun {x y} hx hy hxy => ?_
  obtain ⟨_, c, -, hc⟩ := (h.record x (List.mem_of_mem_filter hx)).placed
  obtain ⟨_, d, -, hd⟩ := (h.record y (List.mem_of_mem_filter hy)).placed
  have hxb : x.2.consumedBlock = some b := by simpa using (List.mem_filter.mp hx).2
  have hyb : y.2.consumedBlock = some b := by simpa using (List.mem_filter.mp hy).2
  have hblock : c.block = d.block := Option.some.inj (hc.1.symm.trans (hxb.trans (hyb.symm.trans hd.1)))
  rw [hc.recordSlot_eq, hd.recordSlot_eq] at hxy
  exact blockOrder_isLE_of_slotLt hc hd hblock hxy

end SortedBuckets

end Projector
