import MidenAgglayer.Framework.Bytes
import MidenAgglayer.Framework.Lru
import MidenAgglayer.Framework.Run

/-! # The Burn-Serial and Twin-NoteId Monitors

    Two monitors of the Cantina findings #5 and #6 (`src/burn_serial_tracker.rs`,
    `src/twin_note_detector.rs`). Each keeps its observations in a table of
    the store (`monitor_burn_serials`, `monitor_twin_notes`, here the
    `InMemoryStore` fields of `src/store/memory.rs`) and puts an LRU cache in
    front of it. No other modelled operation reads or writes these tables,
    so each monitor's state is its cache and its own table.

    * `BurnSerialTracker.record` answers `Duplicate` on a cache hit without
      asking the store; on a miss it inserts the serial into the table and
      answers `New` when the insert was new.
    * `TwinNoteDetector.record` takes the commitments of a NoteId from the
      cache, or from the table when the cache has none, classifies the new
      commitment against them, appends it to the table and writes the list
      back into the cache.

    The caches are sound when every entry they hold agrees with the table
    (`BurnSerialTracker.Sound`, `TwinNoteDetector.Sound`): every `record`
    keeps that, whatever the cache evicts, and from a sound state a record
    answers what the table alone says.
-/

namespace Monitors

open Lru LruCache

/-! ## Section 1: The store's tables -/

/-- `burn_serial_observe`: `HashSet::insert`, true when the serial was not
    in the table. -/
def burnSerialObserve (serial : B256) (set : Std.HashSet B256) : Bool × Std.HashSet B256 :=
  (!set.contains serial, set.insert serial)

/-- `twin_note_commitments`: the stored list of a NoteId, or the empty one. -/
def twinNoteCommitments (noteId : B256) (map : Std.HashMap B256 (List B256)) : List B256 :=
  map[noteId]?.getD []

/-- `twin_note_observe`: push the commitment onto the NoteId's list
    (`entry(..).or_default()`) unless it is already there. -/
def twinNoteObserve (noteId commitment : B256) (map : Std.HashMap B256 (List B256)) :
    Bool × Std.HashMap B256 (List B256) :=
  let entry := map[noteId]?.getD []
  if entry.contains commitment then (false, map)
  else (true, map.insert noteId (entry ++ [commitment]))

theorem burnSerialObserve_fst (serial : B256) (set : Std.HashSet B256) :
    (burnSerialObserve serial set).1 = !set.contains serial := rfl

theorem mem_burnSerialObserve {serial x : B256} {set : Std.HashSet B256} :
    x ∈ (burnSerialObserve serial set).2 ↔ x ∈ set ∨ x = serial := by
  rw [burnSerialObserve, Std.HashSet.mem_insert, beq_iff_eq]
  tauto

/-- An observation appends a commitment not yet stored and leaves every other
    list alone. -/
theorem twinNoteCommitments_observe (noteId commitment k : B256) (map : Std.HashMap B256 (List B256)) :
    twinNoteCommitments k (twinNoteObserve noteId commitment map).2 =
      if k = noteId ∧ commitment ∉ twinNoteCommitments noteId map then
        twinNoteCommitments noteId map ++ [commitment]
      else twinNoteCommitments k map := by
  unfold twinNoteObserve
  by_cases hc : commitment ∈ twinNoteCommitments noteId map
  · have hcontains : (map[noteId]?.getD []).contains commitment = true := List.contains_iff_mem.mpr hc
    simp only [hcontains, if_true, hc, not_true_eq_false, and_false, if_false]
  · have hcontains : (map[noteId]?.getD []).contains commitment = false :=
      Bool.eq_false_iff.mpr fun h => hc (List.contains_iff_mem.mp h)
    simp only [hcontains, Bool.false_eq_true, if_false, hc, not_false_eq_true, and_true]
    by_cases hk : k = noteId
    · subst hk
      simp [twinNoteCommitments]
    · simp only [if_neg hk, twinNoteCommitments, Std.HashMap.getElem?_insert, beq_iff_eq, Ne.symm hk,
        if_false]

/-- The observation reports whether it appended. -/
theorem twinNoteObserve_fst (noteId commitment : B256) (map : Std.HashMap B256 (List B256)) :
    (twinNoteObserve noteId commitment map).1 = !(twinNoteCommitments noteId map).contains commitment := by
  unfold twinNoteObserve twinNoteCommitments
  dsimp only
  split <;> simp_all

/-! ## Section 2: The burn-serial tracker -/

/-- `BurnSerialTracker`: the cache of serials, and the table it writes. -/
structure BurnSerialTracker where
  cache : LruCache B256 Unit
  monitorBurnSerials : Std.HashSet B256

/-- `burn_serial_tracker::Outcome`. -/
inductive BurnSerialTracker.Outcome where
  | new
  | duplicate
  deriving DecidableEq, Repr

namespace BurnSerialTracker

/-- `BurnSerialTracker::with_capacity` over a store whose table holds
    `store`: the capacity is at least one. -/
def withCapacity (store : Std.HashSet B256) (capacity : Nat) : BurnSerialTracker :=
  ⟨LruCache.withCapacity capacity, store⟩

/-- `BurnSerialTracker::record`. -/
def record (t : BurnSerialTracker) (serial : B256) : BurnSerialTracker × Outcome :=
  let lookup := t.cache.get serial
  -- a hit answers from the cache alone
  if lookup.1.isSome then ({ t with cache := lookup.2 }, .duplicate)
  else
    let observed := burnSerialObserve serial t.monitorBurnSerials
    let cache := lookup.2.put serial ()
    if observed.1 then (⟨cache, observed.2⟩, .new) else (⟨cache, observed.2⟩, .duplicate)

/-- Every cached serial is in the table. -/
def Sound (t : BurnSerialTracker) : Prop := Holds (fun serial _ => serial ∈ t.monitorBurnSerials) t.cache

theorem sound_withCapacity (store : Std.HashSet B256) (capacity : Nat) :
    Sound (withCapacity store capacity) :=
  holds_withCapacity _ _

/-- **Step lemma.** From a sound state a record keeps the cache sound, adds
    the serial to the table, and answers `New` exactly when the table did
    not hold it. -/
theorem record_spec {t : BurnSerialTracker} (h : Sound t) (serial : B256) :
    Sound (t.record serial).1 ∧
      (∀ x, x ∈ (t.record serial).1.monitorBurnSerials ↔ x ∈ t.monitorBurnSerials ∨ x = serial) ∧
      (t.record serial).2 = if serial ∈ t.monitorBurnSerials then .duplicate else .new := by
  unfold record
  cases hpeek : t.cache.peek serial with
  | some u =>
    -- a hit: the serial is stored, and the table is not touched
    have hmem : serial ∈ t.monitorBurnSerials := h.peek hpeek
    simp only [get_fst, hpeek, Option.isSome_some, if_true, if_pos hmem]
    refine ⟨h.get, fun x => ⟨.inl, ?_⟩, trivial⟩
    rintro (hx | rfl)
    · exact hx
    · exact hmem
  | none =>
    simp only [get_fst, hpeek, Option.isSome_none, Bool.false_eq_true, if_false, burnSerialObserve_fst]
    have hsound : Sound ⟨(t.cache.get serial).2.put serial (), (burnSerialObserve serial t.monitorBurnSerials).2⟩ :=
      h.get.put (mem_burnSerialObserve.mpr (.inr rfl)) fun x _ _ hx => mem_burnSerialObserve.mpr (.inl hx)
    by_cases hmem : serial ∈ t.monitorBurnSerials
    · have hc : t.monitorBurnSerials.contains serial = true := Std.HashSet.contains_iff_mem.mpr hmem
      simp only [hc, Bool.not_true, Bool.false_eq_true, if_false, if_pos hmem]
      exact ⟨hsound, fun _ => mem_burnSerialObserve, trivial⟩
    · have hc : t.monitorBurnSerials.contains serial = false :=
        Bool.eq_false_iff.mpr fun hc => hmem (Std.HashSet.contains_iff_mem.mp hc)
      simp only [hc, Bool.not_false, if_true, if_neg hmem]
      exact ⟨hsound, fun _ => mem_burnSerialObserve, trivial⟩

/-- **Run lemma.** From a sound state the cache stays sound, and the table
    holds what it held and every serial recorded. -/
theorem final_spec {t : BurnSerialTracker} (h : Sound t) (serials : List B256) :
    Sound (Run.final record t serials) ∧
      ∀ x, x ∈ (Run.final record t serials).monitorBurnSerials ↔ x ∈ t.monitorBurnSerials ∨ x ∈ serials := by
  induction serials generalizing t with
  | nil => simpa using h
  | cons serial serials ih =>
    obtain ⟨hsound, hmem, -⟩ := record_spec h serial
    obtain ⟨hsound', hmem'⟩ := ih hsound
    refine ⟨hsound', fun x => ?_⟩
    rw [Run.final_cons, hmem', hmem, List.mem_cons]
    tauto

end BurnSerialTracker

/-! ## Section 3: The twin-NoteId detector -/

/-- `TwinNoteDetector`: the cache of commitment lists, and the table it
    writes. -/
structure TwinNoteDetector where
  cache : LruCache B256 (List B256)
  monitorTwinNotes : Std.HashMap B256 (List B256)

/-- `twin_note_detector::Outcome`. -/
inductive TwinNoteDetector.Outcome where
  | new
  | legitimateDuplicate
  | twinDetected (priorCommitments : List B256)
  deriving DecidableEq, Repr

namespace TwinNoteDetector

/-- `TwinNoteDetector::with_capacity`. -/
def withCapacity (store : Std.HashMap B256 (List B256)) (capacity : Nat) : TwinNoteDetector :=
  ⟨LruCache.withCapacity capacity, store⟩

/-- The outcome of `record` against the commitments known before it. -/
def classify (prior : List B256) (commitment : B256) : Outcome :=
  if prior.isEmpty then .new
  else if prior.contains commitment then .legitimateDuplicate
  else .twinDetected prior

/-- `TwinNoteDetector::record`. -/
def record (t : TwinNoteDetector) (noteId commitment : B256) : TwinNoteDetector × Outcome :=
  let lookup := t.cache.get noteId
  let prior := lookup.1.getD []
  -- an empty list is a miss, or an eviction: the table decides
  let prior := if prior.isEmpty then twinNoteCommitments noteId t.monitorTwinNotes else prior
  let outcome := classify prior commitment
  let observed := twinNoteObserve noteId commitment t.monitorTwinNotes
  let next := if prior.contains commitment then prior else prior ++ [commitment]
  let cache :=
    if observed.1 || !prior.contains commitment then lookup.2.put noteId next
    else lookup.2.put noteId prior
  (⟨cache, observed.2⟩, outcome)

/-- The detector without a cache: classify against the table, then observe. -/
def recordStoreOnly (map : Std.HashMap B256 (List B256)) (noteId commitment : B256) :
    Std.HashMap B256 (List B256) × Outcome :=
  ((twinNoteObserve noteId commitment map).2, classify (twinNoteCommitments noteId map) commitment)

theorem recordStoreOnly_snd (map : Std.HashMap B256 (List B256)) (noteId commitment : B256) :
    (recordStoreOnly map noteId commitment).2 = classify (twinNoteCommitments noteId map) commitment := rfl

/-- Every cached list is the table's list of its NoteId. -/
def Sound (t : TwinNoteDetector) : Prop :=
  Holds (fun noteId l => twinNoteCommitments noteId t.monitorTwinNotes = l) t.cache

theorem sound_withCapacity (store : Std.HashMap B256 (List B256)) (capacity : Nat) :
    Sound (withCapacity store capacity) :=
  holds_withCapacity _ _

/-- From a sound state the commitments `record` classifies against are the
    table's, hit or miss. -/
theorem prior_eq {t : TwinNoteDetector} (h : Sound t) (noteId : B256) :
    (let prior := ((t.cache.get noteId).1).getD []
     if prior.isEmpty then twinNoteCommitments noteId t.monitorTwinNotes else prior) =
      twinNoteCommitments noteId t.monitorTwinNotes := by
  cases hpeek : t.cache.peek noteId with
  | none => simp [hpeek]
  | some l =>
    have hl : twinNoteCommitments noteId t.monitorTwinNotes = l := h.peek hpeek
    simp only [get_fst, hpeek, Option.getD_some, hl, ite_self]

/-- The list written back into the cache is the table's list after the
    observation. -/
theorem written_eq (noteId commitment : B256) (map : Std.HashMap B256 (List B256)) :
    (let prior := twinNoteCommitments noteId map
     if (twinNoteObserve noteId commitment map).1 || !prior.contains commitment then
       (if prior.contains commitment then prior else prior ++ [commitment])
     else prior) = twinNoteCommitments noteId (twinNoteObserve noteId commitment map).2 := by
  rw [twinNoteCommitments_observe, twinNoteObserve_fst]
  by_cases hc : commitment ∈ twinNoteCommitments noteId map
  · simp [hc]
  · simp [hc]

/-- **Step lemma.** From a sound state a record keeps the cache sound and
    does what the detector without a cache does. -/
theorem record_spec {t : TwinNoteDetector} (h : Sound t) (noteId commitment : B256) :
    Sound (t.record noteId commitment).1 ∧
      (t.record noteId commitment).1.monitorTwinNotes =
        (recordStoreOnly t.monitorTwinNotes noteId commitment).1 ∧
      (t.record noteId commitment).2 = (recordStoreOnly t.monitorTwinNotes noteId commitment).2 := by
  have hprior := prior_eq h noteId
  have hwritten := written_eq noteId commitment t.monitorTwinNotes
  simp only at hprior hwritten
  -- every list but the NoteId's is left alone by the observation
  have hother : ∀ k l, k ≠ noteId → twinNoteCommitments k t.monitorTwinNotes = l →
      twinNoteCommitments k (twinNoteObserve noteId commitment t.monitorTwinNotes).2 = l := by
    intro k l hk hl
    rw [twinNoteCommitments_observe, if_neg (fun hk' => hk hk'.1), hl]
  refine ⟨?_, rfl, by simp only [record, recordStoreOnly, hprior]⟩
  -- the list written back is the table's new list, in either branch
  simp only [record, hprior]
  unfold Sound
  split
  · exact h.get.put (by rw [← hwritten, if_pos ‹_›]) hother
  · exact h.get.put (by rw [← hwritten, if_neg ‹_›]) hother

/-- **Run lemma.** From a sound state the detector answers every record as
    the detector without a cache does. -/
theorem outputs_eq_storeOnly {t : TwinNoteDetector} (h : Sound t) (calls : List (B256 × B256)) :
    Run.outputs (fun t c => record t c.1 c.2) t calls =
      Run.outputs (fun map c => recordStoreOnly map c.1 c.2) t.monitorTwinNotes calls := by
  apply Run.outputs_simulates _ monitorTwinNotes Sound _ _ h calls
  intro s c hs
  exact record_spec hs c.1 c.2

/-- A list with a commitment appended unless it is already there. -/
def pushNew (l : List B256) (commitment : B256) : List B256 :=
  if l.contains commitment then l else l ++ [commitment]

/-- **Insertion order.** The table's list of a NoteId after a run of the
    detector without a cache is its list at the start followed by the
    run's commitments for that NoteId, each once, in the order first
    observed. -/
theorem twinNoteCommitments_final_storeOnly (k : B256) (map : Std.HashMap B256 (List B256))
    (calls : List (B256 × B256)) :
    twinNoteCommitments k (Run.final (fun map c => recordStoreOnly map c.1 c.2) map calls) =
      ((calls.filter fun c => c.1 = k).map Prod.snd).foldl pushNew (twinNoteCommitments k map) := by
  induction calls generalizing map with
  | nil => rfl
  | cons c calls ih =>
    rw [Run.final_cons, ih]
    -- an observation of another NoteId leaves this list alone
    by_cases hk : c.1 = k
    · have hpush : twinNoteCommitments k (recordStoreOnly map c.1 c.2).1 =
          pushNew (twinNoteCommitments k map) c.2 := by
        rw [recordStoreOnly, twinNoteCommitments_observe, ← hk, pushNew]
        by_cases hc : c.2 ∈ twinNoteCommitments c.1 map <;> simp [hc]
      rw [hpush]
      simp only [List.filter_cons, hk, decide_true, if_true, List.map_cons, List.foldl_cons]
    · have hkeep : twinNoteCommitments k (recordStoreOnly map c.1 c.2).1 = twinNoteCommitments k map := by
        rw [recordStoreOnly, twinNoteCommitments_observe, if_neg fun h => hk h.1.symm]
      rw [hkeep]
      simp only [List.filter_cons, hk, decide_false, Bool.false_eq_true, if_false]

end TwinNoteDetector

end Monitors
