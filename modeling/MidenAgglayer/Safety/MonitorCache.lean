import MidenAgglayer.Monitors.Trackers

/-! # Cached Monitors Answer as Their Tables Do

    A burn-serial tracker or a twin-NoteId detector, built with any cache
    capacity over a store whose table holds anything, and then the only
    writer of that table, answers every record of a run as its table alone
    would:

    * a serial is `New` exactly when it was neither in the table at the
      start nor recorded earlier in the run;
    * a commitment is classified against the list its NoteId has in the
      table at that point, which the detector without a cache keeps
      (`TwinNoteDetector.recordStoreOnly`), in the order of insertion.

    Neither answer mentions the capacity: what the cache evicts, and when,
    never changes a result. Both rest on the soundness of the caches
    (`Monitors/Trackers.lean`), which every record keeps.
-/

namespace Monitors

/-- **Burn serials over a run.** -/
theorem BurnSerialTracker.outputs_withCapacity (store : Std.HashSet B256) (capacity : Nat)
    (serials : List B256) :
    Run.outputs BurnSerialTracker.record (BurnSerialTracker.withCapacity store capacity) serials =
      serials.mapIdx fun i serial =>
        if serial ∈ store ∨ serial ∈ serials.take i then .duplicate else .new := by
  rw [Run.outputs_eq_mapIdx, List.mapIdx_eq_mapIdx_iff]
  intro i hi
  -- the state in front of record `i` is sound and holds the earlier serials
  obtain ⟨hsound, hmem⟩ := final_spec (sound_withCapacity store capacity) (serials.take i)
  rw [(record_spec hsound serials[i]).2.2]
  simp only [hmem]
  rfl

/-- **Twin NoteIds over a run.** The list a commitment is classified
    against is the NoteId's list at the start followed by its earlier
    commitments, each once, in the order first recorded. -/
theorem TwinNoteDetector.outputs_withCapacity (store : Std.HashMap B256 (List B256)) (capacity : Nat)
    (calls : List (B256 × B256)) :
    Run.outputs (fun t c => TwinNoteDetector.record t c.1 c.2) (TwinNoteDetector.withCapacity store capacity)
        calls =
      calls.mapIdx fun i c =>
        let stored := (((calls.take i).filter fun c' => c'.1 = c.1).map Prod.snd).foldl
          TwinNoteDetector.pushNew (twinNoteCommitments c.1 store)
        if stored = [] then .new
        else if c.2 ∈ stored then .legitimateDuplicate
        else .twinDetected stored := by
  rw [outputs_eq_storeOnly (sound_withCapacity store capacity), Run.outputs_eq_mapIdx,
    List.mapIdx_eq_mapIdx_iff]
  intro i hi
  rw [recordStoreOnly_snd, twinNoteCommitments_final_storeOnly]
  simp only [classify, List.isEmpty_iff, List.contains_iff_mem]
  rfl

/-- **The cached monitors agree with their tables.** For every capacity and
    every table at the start, the burn-serial tracker answers `New` exactly
    for a serial neither stored at the start nor recorded earlier, and the
    twin-NoteId detector answers `New` for a NoteId with no stored
    commitment, `LegitimateDuplicate` for a stored commitment, and
    `TwinDetected` with the stored list, in insertion order, otherwise. -/
theorem cached_monitors_agree_with_store (capacity : Nat) (serialStore : Std.HashSet B256)
    (serials : List B256) (noteStore : Std.HashMap B256 (List B256)) (calls : List (B256 × B256)) :
    Run.outputs BurnSerialTracker.record (BurnSerialTracker.withCapacity serialStore capacity) serials =
        serials.mapIdx (fun i serial =>
          if serial ∈ serialStore ∨ serial ∈ serials.take i then .duplicate else .new) ∧
      Run.outputs (fun t c => TwinNoteDetector.record t c.1 c.2)
          (TwinNoteDetector.withCapacity noteStore capacity) calls =
        calls.mapIdx fun i c =>
          let stored := (((calls.take i).filter fun c' => c'.1 = c.1).map Prod.snd).foldl
            TwinNoteDetector.pushNew (twinNoteCommitments c.1 noteStore)
          if stored = [] then .new
          else if c.2 ∈ stored then .legitimateDuplicate
          else .twinDetected stored :=
  ⟨BurnSerialTracker.outputs_withCapacity serialStore capacity serials,
    TwinNoteDetector.outputs_withCapacity noteStore capacity calls⟩

end Monitors
