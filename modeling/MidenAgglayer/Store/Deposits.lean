import MidenAgglayer.Synthesis.Events

/-! # LET Deposit-Index Reservations

    The bridge-out side of `InMemoryStore` (`src/store/memory.rs`): every
    B2AGG leaf the bridge consumed reserves its local-exit-tree index in
    `processed_notes` (note key ↦ (index, emitted)), the `BridgeEvent` of a
    reserved leaf is emitted at most once, and a commitment-keyed legacy
    reservation migrates to its note key only next to its own event.

    Indices are absolute: `let_gate_baseline` counts audited legacy leaves,
    and the `u32` `deposit_counter` counts reservations made here.
-/

open Bytes Maps

namespace Store

variable (P : Primitives)

/-- `u32::MAX + 1`. -/
def u32Bound : Nat := 2 ^ 32

/-- `reserve_deposit_index`: an existing reservation is returned as it is;
    otherwise the next absolute index `baseline + counter` is reserved,
    unemitted, unless an `u32` conversion or addition overflows. -/
def reserveDepositIndex (noteKey : String) (s : InMemoryStore) :
    InMemoryStore × Except StoreError Nat :=
  match s.processedNotes[noteKey]? with
  | some (existing, _) => (s, .ok existing)
  | none =>
    let baseline := s.letGateBaseline.toNat
    let raw := s.depositCounter
    if u32Bound ≤ baseline then (s, .error .baselineOutOfRange)
    else if u32Bound ≤ raw + 1 then (s, .error .depositCounterOverflow)
    else if u32Bound ≤ baseline + raw then (s, .error .depositIndexOverflow)
    else
      ({ s with
        depositCounter := raw + 1
        processedNotes := s.processedNotes.insert noteKey (baseline + raw, false) },
        .ok (baseline + raw))

/-- `add_bridge_event`: build the `BridgeEvent` log and insert it. -/
def addBridgeEvent (bridgeAddress : String) (blockNumber : Nat) (blockHash : B256)
    (txHash : String) (leafType : UInt8) (originNetwork : Nat) (originAddress : Address)
    (destinationNetwork : Nat) (destinationAddress : Address) (amount : Nat)
    (metadata : List UInt8) (depositCount : Nat) (s : InMemoryStore) : InMemoryStore :=
  insertLog P
    { address := bridgeAddress, topics := [bridgeEventTopic],
      data := encodeBridgeEventData P leafType originNetwork originAddress destinationNetwork
        destinationAddress amount metadata depositCount,
      blockNumber := blockNumber, blockHash := blockHash, transactionHash := txHash,
      transactionIndex := 0, logIndex := 0, removed := false } s

/-- `commit_b2agg_event_atomic`: emit the `BridgeEvent` of a reserved leaf
    under its reserved index and mark it emitted, at most once. -/
def commitB2aggEventAtomic (noteId bridgeAddress : String) (blockNumber : Nat) (blockHash : B256)
    (txHash : String) (leafType : UInt8) (originNetwork : Nat) (originAddress : Address)
    (destinationNetwork : Nat) (destinationAddress : Address) (amount : Nat)
    (metadata : List UInt8) (s : InMemoryStore) : InMemoryStore × Except StoreError Nat :=
  match s.processedNotes[noteId]? with
  | none => (s, .error (.missingDepositReservation noteId))
  | some (depositCount, emitted) =>
    if emitted then (s, .ok depositCount)
    else
      (addBridgeEvent P bridgeAddress blockNumber blockHash txHash leafType originNetwork
        originAddress destinationNetwork destinationAddress amount metadata depositCount
        { s with processedNotes := s.processedNotes.insert noteId (depositCount, true) },
        .ok depositCount)

/-- The test of `migrate_legacy_deposit_key`: a `BridgeEvent` of the legacy
    transaction at the legacy block carrying the reserved index. -/
def hasMatchingBridgeEvent (blockNumber : Nat) (txHash : String) (index : Nat)
    (s : InMemoryStore) : Bool :=
  (s.logsByBlock.getD blockNumber []).any fun log =>
    eqIgnoreAsciiCase log.transactionHash.toList txHash.toList &&
      log.topics.head? == some bridgeEventTopic &&
      bridgeEventDepositCount P log.data == some index

/-- `migrate_legacy_deposit_key`: move a commitment-keyed reservation to the
    note key, unchanged, if the note key has none and the legacy event is
    exactly this reservation's. -/
def migrateLegacyDepositKey (legacyKey noteKey : String) (blockNumber : Nat) (txHash : String)
    (s : InMemoryStore) : InMemoryStore :=
  match s.processedNotes[legacyKey]? with
  | none => s
  | some reservation =>
    if s.processedNotes.contains noteKey then s
    else if hasMatchingBridgeEvent P blockNumber txHash reservation.1 s then
      { s with processedNotes := (s.processedNotes.erase legacyKey).insert noteKey reservation }
    else s

/-- `first_unemitted_reservation`: the unemitted reservation of least index,
    as `min_by_key` meets it while iterating. -/
def firstUnemittedReservation (s : InMemoryStore) : Option (Nat × String) :=
  (minByKey (fun p => p.2.1) (s.processedNotes.toList.filter fun p => !p.2.2)).map
    fun p => (p.2.1, p.1)

/-- `get_accounted_deposit_count`: baseline plus counter, as a checked `u64`. -/
def getAccountedDepositCount (s : InMemoryStore) : Except StoreError Nat :=
  if s.letGateBaseline.toNat + s.depositCounter < 2 ^ 64 then
    .ok (s.letGateBaseline.toNat + s.depositCounter)
  else .error .letAccountingOverflow

/-- `is_note_processed`: reserved and emitted. -/
def isNoteProcessed (noteId : String) (s : InMemoryStore) : Bool :=
  (s.processedNotes[noteId]?).any (·.2)

end Store

namespace Store

variable (P : Primitives) (s : InMemoryStore)

/-! ## What each operation can do -/

/-- `reserve_deposit_index` returns an existing reservation, fails without a
    write, or reserves the next absolute index. -/
theorem reserveDepositIndex_cases (noteKey : String) :
    (∃ i e, s.processedNotes[noteKey]? = some (i, e) ∧
        reserveDepositIndex noteKey s = (s, .ok i)) ∨
    (s.processedNotes[noteKey]? = none ∧ (reserveDepositIndex noteKey s).1 = s ∧
        ∃ err, (reserveDepositIndex noteKey s).2 = .error err) ∨
    (s.processedNotes[noteKey]? = none ∧ s.depositCounter + 1 < u32Bound ∧
        s.letGateBaseline.toNat + s.depositCounter < u32Bound ∧
        reserveDepositIndex noteKey s =
          ({ s with
            depositCounter := s.depositCounter + 1
            processedNotes := s.processedNotes.insert noteKey
              (s.letGateBaseline.toNat + s.depositCounter, false) },
            .ok (s.letGateBaseline.toNat + s.depositCounter))) := by
  unfold reserveDepositIndex
  rcases h : s.processedNotes[noteKey]? with _ | ⟨i, e⟩
  · simp only
    split
    · exact .inr (.inl ⟨trivial, rfl, _, rfl⟩)
    · split
      · exact .inr (.inl ⟨trivial, rfl, _, rfl⟩)
      · split
        · exact .inr (.inl ⟨trivial, rfl, _, rfl⟩)
        · exact .inr (.inr ⟨trivial, by omega, by omega, rfl⟩)
  · exact .inl ⟨i, e, rfl, rfl⟩

/-- A re-reservation returns the key's index and writes nothing. -/
theorem reserveDepositIndex_of_reserved {noteKey : String} {i : Nat} {e : Bool}
    (hk : s.processedNotes[noteKey]? = some (i, e)) :
    reserveDepositIndex noteKey s = (s, .ok i) := by
  unfold reserveDepositIndex
  rw [hk]

/-- A failing reservation writes nothing: neither the counter nor the map. -/
theorem reserveDepositIndex_of_error {noteKey : String} {err : StoreError}
    (h : (reserveDepositIndex noteKey s).2 = .error err) :
    (reserveDepositIndex noteKey s).1 = s := by
  rcases reserveDepositIndex_cases s noteKey with ⟨i, e, -, hr⟩ | ⟨-, hr, -⟩ | ⟨-, -, -, hr⟩
  · rw [hr]
  · exact hr
  · rw [hr] at h
    cases h

/-- `commit_b2agg_event_atomic` changes nothing, or emits an unemitted
    reservation's event and marks it emitted. -/
theorem commitB2aggEventAtomic_cases (noteId bridgeAddress : String) (blockNumber : Nat)
    (blockHash : B256) (txHash : String) (leafType : UInt8) (originNetwork : Nat)
    (originAddress : Address) (destinationNetwork : Nat) (destinationAddress : Address)
    (amount : Nat) (metadata : List UInt8) :
    (commitB2aggEventAtomic P noteId bridgeAddress blockNumber blockHash txHash leafType
        originNetwork originAddress destinationNetwork destinationAddress amount metadata s).1 = s ∨
    ∃ i, s.processedNotes[noteId]? = some (i, false) ∧
      (commitB2aggEventAtomic P noteId bridgeAddress blockNumber blockHash txHash leafType
        originNetwork originAddress destinationNetwork destinationAddress amount metadata s).1 =
        addBridgeEvent P bridgeAddress blockNumber blockHash txHash leafType originNetwork
          originAddress destinationNetwork destinationAddress amount metadata i
          { s with processedNotes := s.processedNotes.insert noteId (i, true) } := by
  unfold commitB2aggEventAtomic
  rcases h : s.processedNotes[noteId]? with _ | ⟨i, _ | _⟩
  · exact .inl rfl
  · exact .inr ⟨i, rfl, rfl⟩
  · exact .inl rfl

/-- `migrate_legacy_deposit_key` changes nothing, or moves the legacy
    reservation unchanged to a note key that had none. -/
theorem migrateLegacyDepositKey_cases (legacyKey noteKey : String) (blockNumber : Nat)
    (txHash : String) :
    migrateLegacyDepositKey P legacyKey noteKey blockNumber txHash s = s ∨
    ∃ reservation, s.processedNotes[legacyKey]? = some reservation ∧
      s.processedNotes[noteKey]? = none ∧
      migrateLegacyDepositKey P legacyKey noteKey blockNumber txHash s =
        { s with processedNotes := (s.processedNotes.erase legacyKey).insert noteKey reservation } := by
  unfold migrateLegacyDepositKey
  rcases h : s.processedNotes[legacyKey]? with _ | reservation
  · exact .inl rfl
  · simp only
    split
    · exact .inl rfl
    · rename_i hkey
      split
      · refine .inr ⟨reservation, rfl, ?_, rfl⟩
        exact Std.HashMap.getElem?_eq_none_of_contains_eq_false (Bool.eq_false_iff.mpr hkey)
      · exact .inl rfl

@[simp] theorem addBridgeEvent_processedNotes (bridgeAddress : String) (blockNumber : Nat)
    (blockHash : B256) (txHash : String) (leafType : UInt8) (originNetwork : Nat)
    (originAddress : Address) (destinationNetwork : Nat) (destinationAddress : Address)
    (amount : Nat) (metadata : List UInt8) (depositCount : Nat) :
    (addBridgeEvent P bridgeAddress blockNumber blockHash txHash leafType originNetwork
      originAddress destinationNetwork destinationAddress amount metadata depositCount
      s).processedNotes = s.processedNotes := rfl

@[simp] theorem addBridgeEvent_depositCounter (bridgeAddress : String) (blockNumber : Nat)
    (blockHash : B256) (txHash : String) (leafType : UInt8) (originNetwork : Nat)
    (originAddress : Address) (destinationNetwork : Nat) (destinationAddress : Address)
    (amount : Nat) (metadata : List UInt8) (depositCount : Nat) :
    (addBridgeEvent P bridgeAddress blockNumber blockHash txHash leafType originNetwork
      originAddress destinationNetwork destinationAddress amount metadata depositCount
      s).depositCounter = s.depositCounter := rfl

@[simp] theorem addBridgeEvent_letGateBaseline (bridgeAddress : String) (blockNumber : Nat)
    (blockHash : B256) (txHash : String) (leafType : UInt8) (originNetwork : Nat)
    (originAddress : Address) (destinationNetwork : Nat) (destinationAddress : Address)
    (amount : Nat) (metadata : List UInt8) (depositCount : Nat) :
    (addBridgeEvent P bridgeAddress blockNumber blockHash txHash leafType originNetwork
      originAddress destinationNetwork destinationAddress amount metadata depositCount
      s).letGateBaseline = s.letGateBaseline := rfl

/-- The stored logs gain exactly the new event. -/
theorem addBridgeEvent_allValues (bridgeAddress : String) (blockNumber : Nat)
    (blockHash : B256) (txHash : String) (leafType : UInt8) (originNetwork : Nat)
    (originAddress : Address) (destinationNetwork : Nat) (destinationAddress : Address)
    (amount : Nat) (metadata : List UInt8) (depositCount : Nat) :
    ∃ log, log.topics = [bridgeEventTopic] ∧
      log.data = encodeBridgeEventData P leafType originNetwork originAddress destinationNetwork
        destinationAddress amount metadata depositCount ∧
      (allValues (addBridgeEvent P bridgeAddress blockNumber blockHash txHash leafType
        originNetwork originAddress destinationNetwork destinationAddress amount metadata
        depositCount s).logsByBlock).Perm (log :: allValues s.logsByBlock) :=
  ⟨_, rfl, rfl, allValues_pushEntry _ _ _⟩

/-! ## Reading the reservations -/

/-- `first_unemitted_reservation` finds an unemitted reservation of least
    index, and finds none exactly when every reservation is emitted. -/
theorem firstUnemittedReservation_spec :
    (firstUnemittedReservation s = none ↔
        ∀ (k : String) (i : Nat), s.processedNotes[k]? ≠ some (i, false)) ∧
    ∀ i key, firstUnemittedReservation s = some (i, key) →
      s.processedNotes[key]? = some (i, false) ∧
      ∀ (k : String) (j : Nat), s.processedNotes[k]? = some (j, false) → i ≤ j := by
  have hmem : ∀ (k : String) (i : Nat), (k, (i, false)) ∈ s.processedNotes.toList.filter (fun p => !p.2.2) ↔
      s.processedNotes[k]? = some (i, false) := by
    intro k i
    simp [List.mem_filter, Std.HashMap.mem_toList_iff_getElem?_eq_some]
  constructor
  · unfold firstUnemittedReservation
    rw [Option.map_eq_none_iff, minByKey_eq_none_iff, List.eq_nil_iff_forall_not_mem]
    constructor
    · intro h k i hk
      exact h _ ((hmem k i).mpr hk)
    · rintro h ⟨k, i, e⟩ hp
      have he : e = false := by simpa using (List.mem_filter.mp hp).2
      subst he
      exact h k i ((hmem k i).mp hp)
  · intro i key h
    unfold firstUnemittedReservation at h
    obtain ⟨⟨k, i', e⟩, hmin, hkey⟩ := Option.map_eq_some_iff.mp h
    cases hkey
    obtain ⟨hin, hle⟩ := minByKey_spec _ hmin
    have he : e = false := by simpa using (List.mem_filter.mp hin).2
    subst he
    refine ⟨(hmem _ _).mp hin, fun k j hk => hle (k, (j, false)) ((hmem k j).mpr hk)⟩

end Store
