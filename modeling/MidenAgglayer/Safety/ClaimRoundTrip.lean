import MidenAgglayer.Notes.ClaimStorage

/-! # The CLAIM Note Round Trip

    Restore and the calldata backfill serve a claim to aggkit from the CLAIM
    note alone, so the note must give back the call it was built from, as
    the bridge verified it. For every `claimAsset` call whose CLAIM storage
    can be built (the amount scales to a Miden amount), and for the layout
    the decoders pin:

    * `parse_full_claim_from_storage` succeeds, and `build_claim_asset_call`
      of its result with the call's metadata is the canonical call: for a
      mainnet-flagged global index, the rollup SMT proof zeroed and bytes
      24..28 of the global index zeroed; otherwise the call itself;
    * `parse_claim_event_from_storage` gives the same global index, origin
      network and addresses, and fails exactly when the amount exceeds
      `u64::MAX`.
-/

open Store

namespace Notes

/-- **CLAIM storage round trip.** -/
theorem claim_storage_round_trip (P : Primitives)
    (scaleToTokenAmount : B256 → UInt32 → Except String Felt) (params : ClaimAssetCall)
    (scaleExp : UInt32) (st : ClaimNoteStorage)
    (h : claimStorageFromCall P scaleToTokenAmount params scaleExp = .ok st) :
    ∃ full, parseFullClaimFromStorage st.items = .ok full ∧
      buildClaimAssetCall full params.metadata = params.canonical ∧
      parseClaimEventFromStorage st.items =
        if params.amount.toNat < 2 ^ 64 then
          .ok { globalIndex := full.globalIndex
                originNetwork := full.originNetwork
                originAddress := full.originAddress
                destinationAddress := full.destinationAddress
                amount := UInt64.ofNat params.amount.toNat }
        else .error .amountOverflow :=
  ⟨st.fullClaim, parseFullClaimFromStorage_items st, buildClaimAssetCall_fullClaim h,
    parseClaimEventFromStorage_claimStorage h⟩

/-- The claim of the source's `roundtrips_known_vector` test: a mainnet
    global index with leaf `0x42`, origin network `0x12345678`, an origin
    address ending in `0xAB`, a destination address starting `DEADBEEF` and
    an amount of 1 000 000. -/
def knownCall : ClaimAssetCall where
  smtProofLocalExitRoot := Vector.replicate 32 zeroWord
  smtProofRollupExitRoot := Vector.replicate 32 zeroWord
  globalIndex := 0x10000000000000042
  mainnetExitRoot := zeroWord
  rollupExitRoot := zeroWord
  originNetwork := 0x12345678
  originTokenAddress := Vector.ofFn fun j => if j.val = 19 then 0xAB else 0
  destinationNetwork := 0xAABBCCDD
  destinationAddress := Vector.ofFn fun j =>
    if j.val = 0 then 0xDE else if j.val = 1 then 0xAD else if j.val = 2 then 0xBE
    else if j.val = 3 then 0xEF else 0
  amount := 1000000
  metadata := []

/-- The note built from `knownCall`, with every amount scaling to zero. -/
def knownStorage : ClaimNoteStorage where
  proofData := buildCanonicalProofData knownCall
  leafData :=
    { originNetwork := knownCall.originNetwork
      originTokenAddress := knownCall.originTokenAddress
      destinationNetwork := knownCall.destinationNetwork
      destinationAddress := knownCall.destinationAddress
      amount := U256.toBeBytes knownCall.amount
      metadataHash := Primitives.sample.keccak256 knownCall.metadata }
  midenClaimAmount := Felt.zero

/-- The known vector's note round-trips. -/
theorem known_claim_round_trips :
    claimStorageFromCall Primitives.sample (fun _ _ => .ok Felt.zero) knownCall 10 =
        .ok knownStorage ∧
      ∃ full, parseFullClaimFromStorage knownStorage.items = .ok full ∧
        buildClaimAssetCall full knownCall.metadata = knownCall.canonical ∧
        parseClaimEventFromStorage knownStorage.items =
          if knownCall.amount.toNat < 2 ^ 64 then
            .ok { globalIndex := full.globalIndex
                  originNetwork := full.originNetwork
                  originAddress := full.originAddress
                  destinationAddress := full.destinationAddress
                  amount := UInt64.ofNat knownCall.amount.toNat }
          else .error .amountOverflow := by
  have hbuilt : claimStorageFromCall Primitives.sample (fun _ _ => .ok Felt.zero) knownCall 10 =
      .ok knownStorage := rfl
  exact ⟨hbuilt, claim_storage_round_trip Primitives.sample _ knownCall 10 knownStorage hbuilt⟩

end Notes
