import MidenAgglayer.Framework.Limbs
import MidenAgglayer.Framework.Lru
import MidenAgglayer.Framework.Maps
import MidenAgglayer.Framework.Run

/-! # The Expected-MINT Tracker

    The monitor of Cantina finding #7 (`src/expected_mint_tracker.rs`). Each
    submitted claim's global index is tracked with the NoteId its MINT note
    must have, in the store's table `monitor_expected_mints` (the
    `InMemoryStore` field of `src/store/memory.rs`), and counted in sync
    ticks until the MINT lands.

    * `record_expected` writes a fresh row (zero ticks, not alerted),
      replacing any row of the index.
    * `tick` loads every row, and for each: a landed MINT reports `Landed`
      and the row goes; otherwise the tick count goes up by one (saturating)
      and a row that reaches the threshold reports `StaleAlert` and goes, a
      row already alerted goes silently, and any other row reports `Pending`
      with its new count, written back. The statuses come sorted by index.
    * `mark_landed` removes the row.

    The tracker also mirrors rows into an LRU cache, which nothing reads.
    No other modelled operation reads or writes the table, so the tracker's
    state is its cache and its table.

    What one call does to the row of one index depends on that row alone
    (`rowStep`, `watchStep`): `step_row` and `mem_step_results` project every
    call onto one index, the refinement that the alert laws of
    `Safety/StaleAlerts.lean` are proved over.
-/

namespace Monitors

open Lru LruCache

/-! ## Section 1: Rows and the store's table -/

/-- `MonitorExpectedMintRow`. -/
structure MonitorExpectedMintRow where
  expectedMint : B256
  ticksPending : UInt32
  alerted : Bool
  deriving DecidableEq, Repr

/-- `expected_mint_tracker::Entry`, the cache's copy of a row. -/
structure Entry where
  expectedMint : B256
  ticksPending : UInt32
  alerted : Bool
  deriving DecidableEq, Repr

/-- `MintStatus`. -/
inductive MintStatus where
  | landed
  | pending (ticksPending : UInt32)
  | staleAlert (ticksPending : UInt32)
  deriving DecidableEq, Repr

/-- `expected_mint_record`: a fresh row, replacing any row of the index. -/
def expectedMintRecord (globalIndex expectedMint : B256) (map : Std.HashMap B256 MonitorExpectedMintRow) :
    Std.HashMap B256 MonitorExpectedMintRow :=
  map.insert globalIndex ⟨expectedMint, 0, false⟩

/-- `expected_mint_remove`. -/
def expectedMintRemove (globalIndex : B256) (map : Std.HashMap B256 MonitorExpectedMintRow) :
    Std.HashMap B256 MonitorExpectedMintRow :=
  map.erase globalIndex

/-- `expected_mint_load_all`: every row as `(gi, mint, ticks, alerted)`, in
    the map's iteration order. -/
def expectedMintLoadAll (map : Std.HashMap B256 MonitorExpectedMintRow) : List (B256 × B256 × UInt32 × Bool) :=
  map.toList.map fun e => (e.1, e.2.expectedMint, e.2.ticksPending, e.2.alerted)

/-- `expected_mint_update_tick`: set the count and the flag of a row that
    exists (`get_mut`). -/
def expectedMintUpdateTick (globalIndex : B256) (ticksPending : UInt32) (alerted : Bool)
    (map : Std.HashMap B256 MonitorExpectedMintRow) : Std.HashMap B256 MonitorExpectedMintRow :=
  map.modify globalIndex fun row => { row with ticksPending := ticksPending, alerted := alerted }

/-- The row a loaded tuple describes. -/
def rowOf (x : B256 × B256 × UInt32 × Bool) : MonitorExpectedMintRow := ⟨x.2.1, x.2.2.1, x.2.2.2⟩

theorem mem_expectedMintLoadAll {map : Std.HashMap B256 MonitorExpectedMintRow} {gi : B256}
    {row : MonitorExpectedMintRow} :
    (gi, row.expectedMint, row.ticksPending, row.alerted) ∈ expectedMintLoadAll map ↔ map[gi]? = some row := by
  rw [← Std.HashMap.mem_toList_iff_getElem?_eq_some, expectedMintLoadAll, List.mem_map]
  constructor
  · rintro ⟨⟨gi', row'⟩, hmem, heq⟩
    simp only [Prod.mk.injEq] at heq
    obtain ⟨rfl, hm, ht, ha⟩ := heq
    have hrow : row' = row := by
      cases row
      cases row'
      simp_all
    rw [← hrow]
    exact hmem
  · intro hmem
    exact ⟨(gi, row), hmem, rfl⟩

/-- The loaded rows of one index: the tuple of its row, if it has one. -/
theorem filter_expectedMintLoadAll (map : Std.HashMap B256 MonitorExpectedMintRow) (gi : B256) :
    (expectedMintLoadAll map).filter (fun x => gi == x.1) =
      (map[gi]?.map fun row => (gi, row.expectedMint, row.ticksPending, row.alerted)).toList := by
  rw [expectedMintLoadAll, List.filter_map]
  have hfilter := Maps.filter_key_toList map gi
  simp only [Function.comp_def] at hfilter ⊢
  rw [hfilter]
  cases map[gi]? <;> rfl

theorem nodup_keys_expectedMintLoadAll (map : Std.HashMap B256 MonitorExpectedMintRow) :
    ((expectedMintLoadAll map).map Prod.fst).Nodup := by
  rw [expectedMintLoadAll, List.map_map]
  exact List.pairwise_map.mpr (Std.HashMap.distinct_keys_toList.imp fun h heq => by simp_all)

/-! ## Section 2: The tracker -/

/-- `ExpectedMintTracker`: the cache, and the table it writes. -/
structure ExpectedMintTracker where
  cache : LruCache B256 Entry
  monitorExpectedMints : Std.HashMap B256 MonitorExpectedMintRow

namespace ExpectedMintTracker

/-- `ExpectedMintTracker::with_capacity`. -/
def withCapacity (store : Std.HashMap B256 MonitorExpectedMintRow) (capacity : Nat) : ExpectedMintTracker :=
  ⟨LruCache.withCapacity capacity, store⟩

/-- `ExpectedMintTracker::record_expected`. -/
def recordExpected (t : ExpectedMintTracker) (globalIndex expectedMint : B256) : ExpectedMintTracker :=
  { monitorExpectedMints := expectedMintRecord globalIndex expectedMint t.monitorExpectedMints
    cache := t.cache.put globalIndex ⟨expectedMint, 0, false⟩ }

/-- `ExpectedMintTracker::mark_landed`. -/
def markLanded (t : ExpectedMintTracker) (globalIndex : B256) : ExpectedMintTracker :=
  { monitorExpectedMints := expectedMintRemove globalIndex t.monitorExpectedMints
    cache := (t.cache.pop globalIndex).2 }

/-- The locals of `tick`'s loop. -/
structure TickLoop where
  tracker : ExpectedMintTracker
  results : List (B256 × MintStatus)
  toRemove : List B256

/-- One round of `tick`'s loop, over one loaded row. -/
def tickRow (landedMintIds : Std.HashSet B256) (staleThresholdTicks : UInt32) (acc : TickLoop)
    (row : B256 × B256 × UInt32 × Bool) : TickLoop :=
  match row with
  | (gi, expectedMint, ticksPending, alerted) =>
    if landedMintIds.contains expectedMint then
      { acc with results := acc.results ++ [(gi, .landed)], toRemove := acc.toRemove ++ [gi] }
    else
      let nextTicks := Bytes.u32SaturatingAdd ticksPending 1
      if nextTicks ≥ staleThresholdTicks && !alerted then
        { acc with results := acc.results ++ [(gi, .staleAlert nextTicks)], toRemove := acc.toRemove ++ [gi] }
      -- already alerted before a crash: removed without a second alert
      else if alerted then { acc with toRemove := acc.toRemove ++ [gi] }
      else
        { acc with
          tracker :=
            { monitorExpectedMints := expectedMintUpdateTick gi nextTicks false acc.tracker.monitorExpectedMints
              cache := acc.tracker.cache.put gi ⟨expectedMint, nextTicks, false⟩ }
          results := acc.results ++ [(gi, .pending nextTicks)] }

/-- `ExpectedMintTracker::tick`. -/
def tick (t : ExpectedMintTracker) (landedMintIds : Std.HashSet B256) (staleThresholdTicks : UInt32) :
    ExpectedMintTracker × List (B256 × MintStatus) :=
  let rows := expectedMintLoadAll t.monitorExpectedMints
  let loop := rows.foldl (tickRow landedMintIds staleThresholdTicks) ⟨t, [], []⟩
  -- each removal is `expected_mint_remove` and the cache's `pop`, as in `mark_landed`
  let t := loop.toRemove.foldl markLanded loop.tracker
  (t, Maps.sortBy (fun a b => compare a.1 b.1) loop.results)

/-- The calls on the tracker. -/
inductive Call where
  | recordExpected (globalIndex expectedMint : B256)
  | tick (landedMintIds : Std.HashSet B256) (staleThresholdTicks : UInt32)
  | markLanded (globalIndex : B256)

/-- The replies: `tick`'s statuses, and `()` for the other calls. -/
inductive Reply where
  | done
  | statuses (results : List (B256 × MintStatus))

/-- The statuses a reply carries. -/
def Reply.results : Reply → List (B256 × MintStatus)
  | .done => []
  | .statuses results => results

/-- One call. -/
def step (t : ExpectedMintTracker) : Call → ExpectedMintTracker × Reply
  | .recordExpected globalIndex expectedMint => (t.recordExpected globalIndex expectedMint, .done)
  | .tick landedMintIds staleThresholdTicks =>
    let r := t.tick landedMintIds staleThresholdTicks
    (r.1, .statuses r.2)
  | .markLanded globalIndex => (t.markLanded globalIndex, .done)

/-- The statuses the `k`-th call of a run reports. -/
def reported (t : ExpectedMintTracker) (calls : List Call) (k : Nat) : List (B256 × MintStatus) :=
  ((Run.outputs step t calls)[k]?.map Reply.results).getD []

/-- The call records an expected MINT for `globalIndex`. -/
def Call.IsRecordFor (globalIndex : B256) : Call → Prop
  | .recordExpected gi _ => gi = globalIndex
  | _ => False

/-- The call settles the MINT `mint` of `globalIndex`: `mark_landed` of the
    index, or a tick whose landed set holds the MINT. -/
def Call.Settles (globalIndex mint : B256) : Call → Prop
  | .markLanded gi => gi = globalIndex
  | .tick landedMintIds _ => mint ∈ landedMintIds
  | .recordExpected _ _ => False

/-- The call is a tick. -/
def Call.isTick : Call → Bool
  | .tick _ _ => true
  | _ => false

/-- The ticks among the calls after position `r` and before position `q`. -/
def ticksBetween (calls : List Call) (r q : Nat) : Nat := ((calls.take q).drop (r + 1)).countP Call.isTick

/-! ## Section 3: One index -/

/-- What a tick does to one row: the status it reports, and the row it
    leaves (`none`: removed). -/
def rowStep (landedMintIds : Std.HashSet B256) (staleThresholdTicks : UInt32) (row : MonitorExpectedMintRow) :
    Option MintStatus × Option MonitorExpectedMintRow :=
  if landedMintIds.contains row.expectedMint then (some .landed, none)
  else
    let nextTicks := Bytes.u32SaturatingAdd row.ticksPending 1
    if nextTicks ≥ staleThresholdTicks && !row.alerted then (some (.staleAlert nextTicks), none)
    else if row.alerted then (none, none)
    else (some (.pending nextTicks), some { row with ticksPending := nextTicks, alerted := false })

/-- What a call does to the row of `globalIndex`, and what it reports for it. -/
def watchStep (globalIndex : B256) (row : Option MonitorExpectedMintRow) :
    Call → Option MonitorExpectedMintRow × Option MintStatus
  | .recordExpected gi expectedMint => (if gi = globalIndex then some ⟨expectedMint, 0, false⟩ else row, none)
  | .tick landedMintIds staleThresholdTicks =>
    match row with
    | none => (none, none)
    | some r => ((rowStep landedMintIds staleThresholdTicks r).2, (rowStep landedMintIds staleThresholdTicks r).1)
  | .markLanded gi => (if gi = globalIndex then none else row, none)

/-- A row a tick keeps is the row with its new count, not alerted. -/
theorem rowStep_snd_eq_some {landed : Std.HashSet B256} {th : UInt32} {row r : MonitorExpectedMintRow}
    (h : (rowStep landed th row).2 = some r) : r = { row with ticksPending := r.ticksPending, alerted := false } := by
  simp only [rowStep] at h
  -- only the `Pending` branch keeps a row
  split_ifs at h
  cases h
  rfl

/-- A row whose MINT has not landed counts one more tick: it alerts when
    the count reaches the threshold, and stays pending otherwise. -/
theorem rowStep_of_not_landed {landed : Std.HashSet B256} {th : UInt32} {mint : B256} {n : UInt32}
    (hmint : mint ∉ landed) :
    rowStep landed th ⟨mint, n, false⟩ =
      if th ≤ Bytes.u32SaturatingAdd n 1 then (some (.staleAlert (Bytes.u32SaturatingAdd n 1)), none)
      else (some (.pending (Bytes.u32SaturatingAdd n 1)), some ⟨mint, Bytes.u32SaturatingAdd n 1, false⟩) := by
  have hc : landed.contains mint = false := Bool.eq_false_iff.mpr fun h => hmint (Std.HashSet.contains_iff_mem.mp h)
  simp only [rowStep, hc, Bool.false_eq_true, if_false, Bool.not_false, Bool.and_true, ge_iff_le,
    decide_eq_true_eq]

/-- The MINT a row of the index expects, if it has one. -/
def MintIs (mint : B256) (row : Option MonitorExpectedMintRow) : Prop := ∀ r, row = some r → r.expectedMint = mint

section Watch

variable {gi : B256} {row : Option MonitorExpectedMintRow} {c : Call}

/-- Without a row, nothing but a record of the index makes one, and
    nothing is reported. -/
theorem watchStep_none (hc : ¬ c.IsRecordFor gi) : watchStep gi none c = (none, none) := by
  cases c with
  | recordExpected g mint => simp only [Call.IsRecordFor] at hc; simp [watchStep, hc]
  | tick landed th => rfl
  | markLanded g => simp [watchStep]

/-- Only a row is reported on. -/
theorem watchStep_none_snd (c : Call) : (watchStep gi none c).2 = none := by
  cases c <;> rfl

theorem watchStep_record (mint : B256) :
    watchStep gi row (.recordExpected gi mint) = (some ⟨mint, 0, false⟩, none) := by
  simp [watchStep]

/-- An alert removes the row. -/
theorem watchStep_staleAlert {n : UInt32} (h : (watchStep gi row c).2 = some (.staleAlert n)) :
    (watchStep gi row c).1 = none := by
  cases c with
  | recordExpected g mint => simp [watchStep] at h
  | tick landed th =>
    cases row with
    | none => cases h
    | some r =>
      simp only [watchStep] at h ⊢
      simp only [rowStep] at h ⊢
      split_ifs at h ⊢ <;> simp_all
  | markLanded g => simp [watchStep] at h

/-- A settling call removes a row that expects the settled MINT. -/
theorem watchStep_settles {mint : B256} (hc : c.Settles gi mint) (hrow : MintIs mint row) :
    (watchStep gi row c).1 = none := by
  cases c with
  | recordExpected g m => exact absurd hc id
  | tick landed th =>
    cases row with
    | none => rfl
    | some r =>
      have hr : r.expectedMint = mint := hrow r rfl
      have hcontains : landed.contains r.expectedMint = true := by
        rw [hr]
        exact Std.HashSet.contains_iff_mem.mpr hc
      simp [watchStep, rowStep, hcontains]
  | markLanded g =>
    simp only [Call.Settles] at hc
    simp [watchStep, hc]

/-- Only a record of the index changes the MINT its row expects. -/
theorem MintIs.watchStep {mint : B256} (hrow : MintIs mint row) (hc : ¬ c.IsRecordFor gi) :
    MintIs mint (watchStep gi row c).1 := by
  intro r hr
  cases c with
  | recordExpected g m =>
    simp only [Call.IsRecordFor] at hc
    simp only [watchStep, if_neg hc] at hr
    exact hrow r hr
  | tick landed th =>
    cases row with
    | none => cases hr
    | some r' =>
      -- a kept row keeps its MINT
      rw [rowStep_snd_eq_some hr]
      exact hrow r' rfl
  | markLanded g =>
    simp only [watchStep] at hr
    split_ifs at hr
    exact hrow r hr

end Watch

/-! ## Section 4: The loop of `tick` -/

section Loop

variable (landed : Std.HashSet B256) (th : UInt32)

/-- **Round lemma.** A round of the loop reports the row's status, if any,
    writes back a row the tick keeps, and schedules the removal of one it
    does not. -/
theorem tickRow_eq (acc : TickLoop) (gi : B256) (row : MonitorExpectedMintRow) :
    tickRow landed th acc (gi, row.expectedMint, row.ticksPending, row.alerted) =
      { tracker :=
          match (rowStep landed th row).2 with
          | some r =>
            { monitorExpectedMints := expectedMintUpdateTick gi r.ticksPending false acc.tracker.monitorExpectedMints
              cache := acc.tracker.cache.put gi ⟨row.expectedMint, r.ticksPending, false⟩ }
          | none => acc.tracker
        results := acc.results ++ ((rowStep landed th row).1.map (gi, ·)).toList
        toRemove := acc.toRemove ++ if (rowStep landed th row).2.isNone then [gi] else [] } := by
  simp only [tickRow, rowStep]
  split_ifs <;> simp_all

theorem tickRow_results (acc : TickLoop) (x : B256 × B256 × UInt32 × Bool) :
    (tickRow landed th acc x).results = acc.results ++ ((rowStep landed th (rowOf x)).1.map (x.1, ·)).toList := by
  obtain ⟨gi, mint, ticks, alerted⟩ := x
  rw [tickRow_eq landed th acc gi ⟨mint, ticks, alerted⟩]
  rfl

theorem tickRow_toRemove (acc : TickLoop) (x : B256 × B256 × UInt32 × Bool) :
    (tickRow landed th acc x).toRemove =
      acc.toRemove ++ if (rowStep landed th (rowOf x)).2.isNone then [x.1] else [] := by
  obtain ⟨gi, mint, ticks, alerted⟩ := x
  rw [tickRow_eq landed th acc gi ⟨mint, ticks, alerted⟩]
  rfl

/-- What a round writes to the table at its own index: the new count of a
    row the tick keeps. -/
def roundRow (x : B256 × B256 × UInt32 × Bool) (row : Option MonitorExpectedMintRow) :
    Option MonitorExpectedMintRow :=
  match (rowStep landed th (rowOf x)).2 with
  | some r => row.map fun row => { row with ticksPending := r.ticksPending, alerted := false }
  | none => row

theorem tickRow_getElem? (acc : TickLoop) (x : B256 × B256 × UInt32 × Bool) (gi : B256) :
    (tickRow landed th acc x).tracker.monitorExpectedMints[gi]? =
      if gi == x.1 then roundRow landed th x acc.tracker.monitorExpectedMints[gi]?
      else acc.tracker.monitorExpectedMints[gi]? := by
  obtain ⟨gi', mint, ticks, alerted⟩ := x
  rw [tickRow_eq landed th acc gi' ⟨mint, ticks, alerted⟩, roundRow]
  simp only [rowOf]
  -- only a kept row is written, and only at the round's index
  cases (rowStep landed th ⟨mint, ticks, alerted⟩).2 with
  | none => split_ifs <;> rfl
  | some r =>
    simp only [expectedMintUpdateTick, Std.HashMap.getElem?_modify]
    by_cases hg : gi' = gi
    · simp [hg]
    · simp [hg, Ne.symm hg]

/-- **Loop lemma for the statuses.** -/
theorem foldl_tickRow_results (rows : List (B256 × B256 × UInt32 × Bool)) (acc : TickLoop) :
    (rows.foldl (tickRow landed th) acc).results =
      acc.results ++ rows.filterMap fun x => (rowStep landed th (rowOf x)).1.map (x.1, ·) := by
  induction rows generalizing acc with
  | nil => simp
  | cons x rows ih =>
    rw [List.foldl_cons, ih, tickRow_results, List.filterMap_cons]
    cases (rowStep landed th (rowOf x)).1 <;> simp

/-- **Loop lemma for the removals.** -/
theorem foldl_tickRow_toRemove (rows : List (B256 × B256 × UInt32 × Bool)) (acc : TickLoop) :
    (rows.foldl (tickRow landed th) acc).toRemove =
      acc.toRemove ++ rows.filterMap fun x => if (rowStep landed th (rowOf x)).2.isNone then some x.1 else none := by
  induction rows generalizing acc with
  | nil => simp
  | cons x rows ih =>
    rw [List.foldl_cons, ih, tickRow_toRemove, List.filterMap_cons]
    split_ifs <;> simp

/-- **Loop lemma for the table.** At each index only the rounds over that
    index write. -/
theorem foldl_tickRow_getElem? (rows : List (B256 × B256 × UInt32 × Bool)) (acc : TickLoop) (gi : B256) :
    (rows.foldl (tickRow landed th) acc).tracker.monitorExpectedMints[gi]? =
      (rows.filter fun x => gi == x.1).foldl (fun row x => roundRow landed th x row)
        acc.tracker.monitorExpectedMints[gi]? := by
  induction rows generalizing acc with
  | nil => rfl
  | cons x rows ih =>
    rw [List.foldl_cons, ih, tickRow_getElem?, List.filter_cons]
    split_ifs <;> rfl

end Loop

/-- Removing the scheduled rows clears exactly their indices. -/
theorem foldl_markLanded_getElem? (toRemove : List B256) (t : ExpectedMintTracker) (gi : B256) :
    (toRemove.foldl markLanded t).monitorExpectedMints[gi]? =
      if gi ∈ toRemove then none else t.monitorExpectedMints[gi]? := by
  induction toRemove generalizing t with
  | nil => simp
  | cons g toRemove ih =>
    rw [List.foldl_cons, ih]
    by_cases hg : g = gi
    · subst hg
      simp [markLanded, expectedMintRemove]
    · simp [markLanded, expectedMintRemove, Std.HashMap.getElem?_erase, hg, Ne.symm hg]

/-! ## Section 5: Each call at one index -/

/-- The loaded rows of an index are its row: one with a given property
    exists exactly when the index has a row with it. -/
theorem exists_mem_expectedMintLoadAll (map : Std.HashMap B256 MonitorExpectedMintRow) (gi : B256)
    (P : MonitorExpectedMintRow → Prop) :
    (∃ x ∈ expectedMintLoadAll map, x.1 = gi ∧ P (rowOf x)) ↔ ∃ row, map[gi]? = some row ∧ P row := by
  constructor
  · rintro ⟨⟨g, mint, ticks, alerted⟩, hx, rfl, hP⟩
    exact ⟨⟨mint, ticks, alerted⟩, mem_expectedMintLoadAll.mp hx, hP⟩
  · rintro ⟨row, hrow, hP⟩
    exact ⟨(gi, row.expectedMint, row.ticksPending, row.alerted), mem_expectedMintLoadAll.mpr hrow, rfl, hP⟩

section Tick

variable (t : ExpectedMintTracker) (landed : Std.HashSet B256) (th : UInt32) (gi : B256)

/-- An index is removed by the tick exactly when its row is not kept. -/
theorem mem_tick_toRemove :
    gi ∈ ((expectedMintLoadAll t.monitorExpectedMints).foldl (tickRow landed th) ⟨t, [], []⟩).toRemove ↔
      ∃ row, t.monitorExpectedMints[gi]? = some row ∧ (rowStep landed th row).2 = none := by
  rw [foldl_tickRow_toRemove, List.nil_append, List.mem_filterMap, ← exists_mem_expectedMintLoadAll]
  apply exists_congr
  intro x
  simp only [Option.ite_none_right_eq_some, Option.some.injEq, Option.isNone_iff_eq_none]
  tauto

/-- **Tick at one index: the table.** The row of an index after a tick is
    the row the tick keeps of it. -/
theorem tick_getElem? :
    (t.tick landed th).1.monitorExpectedMints[gi]? =
      t.monitorExpectedMints[gi]?.bind fun row => (rowStep landed th row).2 := by
  have hremove := mem_tick_toRemove t landed th gi
  simp only [tick]
  rw [foldl_markLanded_getElem?, foldl_tickRow_getElem?, filter_expectedMintLoadAll]
  cases hrow : t.monitorExpectedMints[gi]? with
  | none => simp
  | some row =>
    rw [hrow] at hremove
    simp only [Option.some.injEq, exists_eq_left'] at hremove
    simp only [Option.map_some, Option.toList_some, List.foldl_cons, List.foldl_nil, Option.bind_some]
    cases hkeep : (rowStep landed th row).2 with
    | none => rw [if_pos (hremove.mpr hkeep)]
    | some r =>
      -- a kept row is written back with its new count
      rw [if_neg fun h => by simp [hremove.mp h] at hkeep, roundRow]
      simp only [rowOf, hkeep, Option.map_some]
      rw [rowStep_snd_eq_some hkeep]

/-- **Tick at one index: the statuses.** -/
theorem mem_tick_results (st : MintStatus) :
    (gi, st) ∈ (t.tick landed th).2 ↔
      ∃ row, t.monitorExpectedMints[gi]? = some row ∧ (rowStep landed th row).1 = some st := by
  simp only [tick]
  rw [(Maps.sortBy_perm _ _).mem_iff, foldl_tickRow_results, List.nil_append, List.mem_filterMap,
    ← exists_mem_expectedMintLoadAll]
  apply exists_congr
  intro x
  simp only [Option.map_eq_some_iff, Prod.mk.injEq]
  constructor
  · rintro ⟨hx, st', hst, rfl, rfl⟩
    exact ⟨hx, rfl, hst⟩
  · rintro ⟨hx, rfl, hst⟩
    exact ⟨hx, st, hst, rfl, rfl⟩

/-- A tick reports each index at most once. -/
theorem nodup_keys_tick : ((t.tick landed th).2.map Prod.fst).Nodup := by
  simp only [tick]
  rw [((Maps.sortBy_perm _ _).map Prod.fst).nodup_iff, foldl_tickRow_results, List.nil_append]
  refine (Maps.sublist_keys_filterMap Prod.fst Prod.fst ?_ _).nodup
    (nodup_keys_expectedMintLoadAll t.monitorExpectedMints)
  intro x b hb
  obtain ⟨st, -, rfl⟩ := Option.map_eq_some_iff.mp hb
  rfl

end Tick

/-- **Step at one index: the table.** A call moves the row of every index
    as `watchStep` moves it. -/
theorem step_row (t : ExpectedMintTracker) (c : Call) (gi : B256) :
    (step t c).1.monitorExpectedMints[gi]? = (watchStep gi t.monitorExpectedMints[gi]? c).1 := by
  cases c with
  | recordExpected g mint =>
    simp only [step, recordExpected, expectedMintRecord, watchStep, Std.HashMap.getElem?_insert, beq_iff_eq]
  | tick landed th =>
    simp only [step, tick_getElem?, watchStep]
    cases t.monitorExpectedMints[gi]? <;> rfl
  | markLanded g =>
    simp only [step, markLanded, expectedMintRemove, watchStep, Std.HashMap.getElem?_erase, beq_iff_eq]

/-- **Step at one index: the statuses.** A call reports for an index what
    `watchStep` reports. -/
theorem mem_step_results (t : ExpectedMintTracker) (c : Call) (gi : B256) (st : MintStatus) :
    (gi, st) ∈ (step t c).2.results ↔ (watchStep gi t.monitorExpectedMints[gi]? c).2 = some st := by
  cases c with
  | recordExpected g mint => simp [step, Reply.results, watchStep]
  | tick landed th =>
    simp only [step, Reply.results, mem_tick_results, watchStep]
    cases t.monitorExpectedMints[gi]? <;> simp
  | markLanded g => simp [step, Reply.results, watchStep]

/-- A reply names each index at most once. -/
theorem nodup_keys_step_results (t : ExpectedMintTracker) (c : Call) :
    ((step t c).2.results.map Prod.fst).Nodup := by
  cases c with
  | recordExpected g mint => exact List.nodup_nil
  | tick landed th => exact nodup_keys_tick t landed th
  | markLanded g => exact List.nodup_nil

end ExpectedMintTracker

end Monitors
