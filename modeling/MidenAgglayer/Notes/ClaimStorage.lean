import MidenAgglayer.Framework.Abi
import MidenAgglayer.Notes.Storage

/-! # CLAIM Note Storage: From `claimAsset` Calldata and Back

    A bridge-in is a `claimAsset` call on L1. The service builds a CLAIM
    note from it (`claim_storage_from_call`, `src/claim.rs`), after
    canonicalising the rollup-side fields that the mainnet branch of the
    bridge does not read (`build_canonical_proof_data`). Recovery reads the
    note back: `parse_full_claim_from_storage` (`src/claim_watcher.rs`)
    decodes every calldata field but the metadata, `build_claim_asset_call`
    (`src/restore.rs`) rebuilds the call, and `parse_claim_event_from_storage`
    decodes the fields of the `ClaimEvent`.

    The note's felts come from the upstream `ClaimNoteStorage → NoteStorage`
    conversion, outside `src/`. `ClaimNoteStorage.items` states the layout
    the decoders pin in their offset constants: every byte field packed as
    little-endian `u32` limbs (`bytes_to_packed_u32_elements`), each
    network byte-swapped, at

      `[0, 256)` local SMT proof, `[256, 512)` rollup SMT proof,
      `[512, 520)` global index, `[520, 528)` mainnet exit root,
      `[528, 536)` rollup exit root, `536` leaf type, `537` origin network,
      `[538, 543)` origin address, `543` destination network,
      `[544, 549)` destination address, `[549, 557)` amount,
      `[557, 565)` metadata hash, `[565, 568)` padding, `568` Miden amount.

    The amount scaling (`EthAmount::scale_to_token_amount`) and the metadata
    hash are upstream too: `scaleToTokenAmount` and `Primitives.keccak256`.
-/

open Bytes Store

namespace Notes

/-! ## Section 1: The calldata and the note -/

/-- The arguments of `claimAsset` (`claimAssetCall`). -/
structure ClaimAssetCall where
  smtProofLocalExitRoot : Vector B256 32
  smtProofRollupExitRoot : Vector B256 32
  globalIndex : U256
  mainnetExitRoot : B256
  rollupExitRoot : B256
  originNetwork : UInt32
  originTokenAddress : Address
  destinationNetwork : UInt32
  destinationAddress : Address
  amount : U256
  metadata : List UInt8
  deriving DecidableEq

/-- The upstream `ProofData`: SMT nodes, global index and exit roots, each a
    32-byte word. -/
structure ProofData where
  smtProofLocalExitRoot : Vector B256 32
  smtProofRollupExitRoot : Vector B256 32
  globalIndex : B256
  mainnetExitRoot : B256
  rollupExitRoot : B256

/-- The upstream `LeafData`. -/
structure LeafData where
  originNetwork : UInt32
  originTokenAddress : Address
  destinationNetwork : UInt32
  destinationAddress : Address
  amount : B256
  metadataHash : B256

/-- The upstream `ClaimNoteStorage`. -/
structure ClaimNoteStorage where
  proofData : ProofData
  leafData : LeafData
  midenClaimAmount : Felt

/-- `Felt::ZERO`. -/
def Felt.zero : Felt := Felt.ofU32 0

instance instInhabitedFelt : Inhabited Felt := ⟨Felt.zero⟩

/-- `ProofData::to_elements`: each word as its eight limbs. -/
def ProofData.toElements (d : ProofData) : List Felt :=
  d.smtProofLocalExitRoot.toList.flatMap (fun node => packedU32Elements node.toList) ++
    d.smtProofRollupExitRoot.toList.flatMap (fun node => packedU32Elements node.toList) ++
    packedU32Elements d.globalIndex.toList ++ packedU32Elements d.mainnetExitRoot.toList ++
    packedU32Elements d.rollupExitRoot.toList

/-- `LeafData::to_elements`: the leaf type, the byte-swapped networks, the
    limbs of the addresses, amount and metadata hash, and three felts of
    padding. -/
def LeafData.toElements (d : LeafData) : List Felt :=
  [Felt.zero, Felt.ofU32 (u32SwapBytes d.originNetwork)] ++
    packedU32Elements d.originTokenAddress.toList ++
    [Felt.ofU32 (u32SwapBytes d.destinationNetwork)] ++
    packedU32Elements d.destinationAddress.toList ++
    packedU32Elements d.amount.toList ++ packedU32Elements d.metadataHash.toList ++
    [Felt.zero, Felt.zero, Felt.zero]

/-- `NoteStorage::try_from(ClaimNoteStorage)`, the layout the decoders pin. -/
def ClaimNoteStorage.items (st : ClaimNoteStorage) : List Felt :=
  st.proofData.toElements ++ st.leafData.toElements ++ [st.midenClaimAmount]

/-! ## Section 2: Building the note -/

/-- `is_mainnet_global_index`: bytes 20..24 of the global index, read
    big-endian, are 1. -/
def isMainnetGlobalIndex (globalIndexBytes : B256) : Bool :=
  beValue [globalIndexBytes[20], globalIndexBytes[21], globalIndexBytes[22],
    globalIndexBytes[23]] == 1

/-- `global_index_bytes[24..28].fill(0)`: the rollup index zeroed. -/
def zeroRollupIndex (globalIndexBytes : B256) : B256 :=
  Vector.ofFn fun j => if 24 ≤ j.val ∧ j.val < 28 then 0 else globalIndexBytes[j]

/-- `build_canonical_proof_data`: for a mainnet global index, the rollup
    index and the rollup SMT proof zeroed; the exit roots kept. -/
def buildCanonicalProofData (params : ClaimAssetCall) : ProofData :=
  let globalIndexBytes := params.globalIndex.toBeBytes
  let isMainnet := isMainnetGlobalIndex globalIndexBytes
  { smtProofLocalExitRoot := params.smtProofLocalExitRoot
    smtProofRollupExitRoot :=
      if isMainnet then Vector.replicate 32 zeroWord else params.smtProofRollupExitRoot
    globalIndex := if isMainnet then zeroRollupIndex globalIndexBytes else globalIndexBytes
    mainnetExitRoot := params.mainnetExitRoot
    rollupExitRoot := params.rollupExitRoot }

section Build

variable (P : Primitives) (scaleToTokenAmount : B256 → UInt32 → Except String Felt)

/-- `claim_storage_from_call`: the canonical proof data, the leaf data of
    the call, and the amount scaled by `10^scale_exp`, which may fail. -/
def claimStorageFromCall (params : ClaimAssetCall) (scaleExp : UInt32) :
    Except String ClaimNoteStorage := do
  let proofData := buildCanonicalProofData params
  let leafData : LeafData :=
    { originNetwork := params.originNetwork
      originTokenAddress := params.originTokenAddress
      destinationNetwork := params.destinationNetwork
      destinationAddress := params.destinationAddress
      amount := params.amount.toBeBytes
      metadataHash := P.keccak256 params.metadata }
  let midenClaimAmount ← (scaleToTokenAmount leafData.amount scaleExp).mapError
    fun e => "claim amount is not representable on Miden: " ++ e
  pure { proofData, leafData, midenClaimAmount }

end Build

/-! ## Section 3: Reading the note back -/

/-- `OFFSET_*` and `MIN_FELT_COUNT`. -/
def offsetSmtProofLocal : Nat := 0
def offsetSmtProofRollup : Nat := 256
def offsetGlobalIndex : Nat := 512
def offsetMainnetExitRoot : Nat := 520
def offsetRollupExitRoot : Nat := 528
def offsetOriginNetwork : Nat := 537
def offsetOriginAddress : Nat := 538
def offsetDestinationNetwork : Nat := 543
def offsetDestinationAddress : Nat := 544
def offsetAmount : Nat := 549
def offsetMetadataHash : Nat := 557
def minFeltCount : Nat := 569

/-- The failures of the CLAIM storage decoders. -/
inductive ClaimStorageError where
  | tooShort (got : Nat)
  | notEnoughFelts (need bytes got : Nat)
  | limbOverflow (index : Nat)
  | networkOverflow
  | amountOverflow
  deriving DecidableEq, Repr

/-- The `anyhow` message of each failure (the outermost context). -/
def ClaimStorageError.message : ClaimStorageError → String
  | .tooShort got => "CLAIM storage too short: expected ≥569 felts, got " ++ toString got
  | .notEnoughFelts need bytes got =>
    "unpack_u32_felts: need ≥" ++ toString need ++ " felts for " ++ toString bytes ++
      " bytes, got " ++ toString got
  | .limbOverflow index => "limb " ++ toString index ++ " exceeds u32::MAX — malformed CLAIM storage"
  | .networkOverflow => "network felt exceeds u32::MAX — malformed CLAIM storage"
  | .amountOverflow => "CLAIM amount exceeds u64::MAX (top 24 bytes nonzero); refusing to truncate"

/-- `&items[start..start + len]`. -/
def feltSlice (items : List Felt) (start len : Nat) : List Felt := (items.drop start).take len

/-- `decode_swapped_u32`: the felt as a `u32`, byte-swapped back. -/
def decodeSwappedU32 (felt : Felt) : Except ClaimStorageError UInt32 :=
  match u32TryFrom felt.val with
  | none => .error .networkOverflow
  | some raw => .ok (u32SwapBytes raw)

/-- `unpack_u32_felts::<N>`: the first `⌈N/4⌉` felts, each as four
    little-endian bytes, the first `N` of them kept. -/
def unpackU32Felts (n : Nat) (felts : List Felt) : Except ClaimStorageError (Vector UInt8 n) :=
  if felts.length * 4 < n then .error (.notEnoughFelts ((n + 3) / 4) n felts.length)
  else
    match limbBytes 0 ((felts.take ((n + 3) / 4)).map Felt.val) with
    | .error index => .error (.limbOverflow index)
    | .ok bytes => .ok (fill n bytes)

/-- The fields of a `ClaimEvent` (`DecodedClaim`). -/
structure DecodedClaim where
  globalIndex : B256
  originNetwork : UInt32
  originAddress : Address
  destinationAddress : Address
  amount : UInt64
  deriving DecidableEq

/-- Every `claimAsset` field but the metadata (`DecodedFullClaim`). -/
structure DecodedFullClaim where
  smtProofLocalExitRoot : Vector B256 32
  smtProofRollupExitRoot : Vector B256 32
  globalIndex : B256
  mainnetExitRoot : B256
  rollupExitRoot : B256
  originNetwork : UInt32
  originAddress : Address
  destinationNetwork : UInt32
  destinationAddress : Address
  amount : B256
  metadataHash : B256
  deriving DecidableEq

/-- `parse_claim_event_from_storage`: the event's fields, refusing an amount
    whose top 24 bytes are not zero. -/
def parseClaimEventFromStorage (items : List Felt) : Except ClaimStorageError DecodedClaim :=
  if items.length < minFeltCount then .error (.tooShort items.length)
  else do
    let globalIndex ← unpackU32Felts 32 (feltSlice items offsetGlobalIndex 8)
    let originNetwork ← decodeSwappedU32 items[offsetOriginNetwork]!
    let originAddress ← unpackU32Felts 20 (feltSlice items offsetOriginAddress 5)
    let destinationAddress ← unpackU32Felts 20 (feltSlice items offsetDestinationAddress 5)
    let amountBytes ← unpackU32Felts 32 (feltSlice items offsetAmount 8)
    if (amountBytes.toList.take 24).any (· != 0) then .error .amountOverflow
    else
      let amount := UInt64.ofNat (beValue (amountBytes.toList.drop 24))
      pure { globalIndex, originNetwork, originAddress, destinationAddress, amount }

/-- Round `i` of the SMT-proof loop of `parse_full_claim_from_storage`:
    node `i` of the local proof from felts `i*8..i*8+8`, then node `i` of
    the rollup proof from `256 + i*8..`. -/
def unpackSmtNodes (items : List Felt) (proofs : Vector B256 32 × Vector B256 32) (i : Nat) :
    Except ClaimStorageError (Vector B256 32 × Vector B256 32) := do
  let localNode ← unpackU32Felts 32 (feltSlice items (offsetSmtProofLocal + i * 8) 8)
  let rollupNode ← unpackU32Felts 32 (feltSlice items (offsetSmtProofRollup + i * 8) 8)
  pure (proofs.1.setIfInBounds i localNode, proofs.2.setIfInBounds i rollupNode)

/-- The SMT-proof loop, `for i in 0..32`, into zeroed arrays. -/
def unpackSmtProofs (items : List Felt) :
    Except ClaimStorageError (Vector B256 32 × Vector B256 32) :=
  (List.range 32).foldlM (unpackSmtNodes items)
    (Vector.replicate 32 zeroWord, Vector.replicate 32 zeroWord)

/-- `parse_full_claim_from_storage`: both SMT proofs, then every field in
    the order the source builds the result. -/
def parseFullClaimFromStorage (items : List Felt) : Except ClaimStorageError DecodedFullClaim :=
  if items.length < minFeltCount then .error (.tooShort items.length)
  else do
    let (smtProofLocalExitRoot, smtProofRollupExitRoot) ← unpackSmtProofs items
    let globalIndex ← unpackU32Felts 32 (feltSlice items offsetGlobalIndex 8)
    let mainnetExitRoot ← unpackU32Felts 32 (feltSlice items offsetMainnetExitRoot 8)
    let rollupExitRoot ← unpackU32Felts 32 (feltSlice items offsetRollupExitRoot 8)
    let originNetwork ← decodeSwappedU32 items[offsetOriginNetwork]!
    let originAddress ← unpackU32Felts 20 (feltSlice items offsetOriginAddress 5)
    let destinationNetwork ← decodeSwappedU32 items[offsetDestinationNetwork]!
    let destinationAddress ← unpackU32Felts 20 (feltSlice items offsetDestinationAddress 5)
    let amount ← unpackU32Felts 32 (feltSlice items offsetAmount 8)
    let metadataHash ← unpackU32Felts 32 (feltSlice items offsetMetadataHash 8)
    pure { smtProofLocalExitRoot, smtProofRollupExitRoot, globalIndex, mainnetExitRoot,
           rollupExitRoot, originNetwork, originAddress, destinationNetwork, destinationAddress,
           amount, metadataHash }

/-- `build_claim_asset_call`: the call rebuilt from the decode and the
    metadata preimage. -/
def buildClaimAssetCall (full : DecodedFullClaim) (metadata : List UInt8) : ClaimAssetCall where
  smtProofLocalExitRoot := full.smtProofLocalExitRoot
  smtProofRollupExitRoot := full.smtProofRollupExitRoot
  globalIndex := U256.fromBeBytes full.globalIndex
  mainnetExitRoot := full.mainnetExitRoot
  rollupExitRoot := full.rollupExitRoot
  originNetwork := full.originNetwork
  originTokenAddress := full.originAddress
  destinationNetwork := full.destinationNetwork
  destinationAddress := full.destinationAddress
  amount := U256.fromBeBytes full.amount
  metadata := metadata

/-! ## Section 4: What the note proves

    The abstract side of the round trip: the call as the CLAIM note proves
    it, stated on the call itself. -/

/-- The call `p` after canonicalisation: for a mainnet-flagged global index,
    the rollup SMT proof all zero and bytes 24..28 of the global index zero;
    otherwise `p` itself. -/
def ClaimAssetCall.canonical (p : ClaimAssetCall) : ClaimAssetCall :=
  if isMainnetGlobalIndex p.globalIndex.toBeBytes then
    { p with
      smtProofRollupExitRoot := Vector.replicate 32 zeroWord
      globalIndex := U256.fromBeBytes (Vector.ofFn fun j =>
        if 24 ≤ j.val ∧ j.val < 28 then 0 else p.globalIndex.toBeBytes[j]) }
  else p

/-- What a CLAIM note's storage holds, field by field. -/
def ClaimNoteStorage.fullClaim (st : ClaimNoteStorage) : DecodedFullClaim where
  smtProofLocalExitRoot := st.proofData.smtProofLocalExitRoot
  smtProofRollupExitRoot := st.proofData.smtProofRollupExitRoot
  globalIndex := st.proofData.globalIndex
  mainnetExitRoot := st.proofData.mainnetExitRoot
  rollupExitRoot := st.proofData.rollupExitRoot
  originNetwork := st.leafData.originNetwork
  originAddress := st.leafData.originTokenAddress
  destinationNetwork := st.leafData.destinationNetwork
  destinationAddress := st.leafData.destinationAddress
  amount := st.leafData.amount
  metadataHash := st.leafData.metadataHash

/-! ## Section 5: The pieces invert -/

@[simp] theorem length_packedU32Elements_b256 (b : B256) :
    (packedU32Elements b.toList).length = 8 := by
  rw [length_packedU32Elements, length_packLimbs_of_length (k := 8) (by simp)]

@[simp] theorem length_packedU32Elements_address (a : Address) :
    (packedU32Elements a.toList).length = 5 := by
  rw [length_packedU32Elements, length_packLimbs_of_length (k := 5) (by simp)]

@[simp] theorem length_smtElements (v : Vector B256 32) :
    (v.toList.flatMap fun node => packedU32Elements node.toList).length = 256 := by
  rw [List.length_flatMap, List.map_congr_left (fun b _ => length_packedU32Elements_b256 b),
    List.map_const', List.sum_replicate]
  simp

/-- `unpack_u32_felts` reads back the limbs of a whole number of chunks. -/
theorem unpackU32Felts_packedU32Elements {n : Nat} (v : Vector UInt8 n) (h : 4 ∣ n) :
    unpackU32Felts n (packedU32Elements v.toList) = .ok v := by
  have hlen : (packedU32Elements v.toList).length = n / 4 := by
    rw [length_packedU32Elements, length_packLimbs_of_length (k := n / 4) (by simp; omega)]
  have hceil : (n + 3) / 4 = n / 4 := by omega
  rw [unpackU32Felts, if_neg (by omega), hceil, List.take_of_length_le (by omega),
    limbBytes_packedU32Elements 0 (by simpa using h)]
  exact congrArg Except.ok (fill_eq_of_toList v)

/-- `decode_swapped_u32` undoes the byte swap of a network felt. -/
theorem decodeSwappedU32_ofU32 (network : UInt32) :
    decodeSwappedU32 (Felt.ofU32 (u32SwapBytes network)) = .ok network := by
  rw [decodeSwappedU32, Felt.val_ofU32, u32TryFrom_toNat]
  exact congrArg Except.ok (u32SwapBytes_u32SwapBytes network)

/-- Where each field of a CLAIM note sits in its felts: the offsets of the
    layout, added up. -/
theorem items_layout (st : ClaimNoteStorage) :
    st.items.length = minFeltCount ∧
    feltSlice st.items offsetGlobalIndex 8 = packedU32Elements st.proofData.globalIndex.toList ∧
    feltSlice st.items offsetMainnetExitRoot 8 =
      packedU32Elements st.proofData.mainnetExitRoot.toList ∧
    feltSlice st.items offsetRollupExitRoot 8 =
      packedU32Elements st.proofData.rollupExitRoot.toList ∧
    st.items[offsetOriginNetwork]! = Felt.ofU32 (u32SwapBytes st.leafData.originNetwork) ∧
    feltSlice st.items offsetOriginAddress 5 =
      packedU32Elements st.leafData.originTokenAddress.toList ∧
    st.items[offsetDestinationNetwork]! = Felt.ofU32 (u32SwapBytes st.leafData.destinationNetwork) ∧
    feltSlice st.items offsetDestinationAddress 5 =
      packedU32Elements st.leafData.destinationAddress.toList ∧
    feltSlice st.items offsetAmount 8 = packedU32Elements st.leafData.amount.toList ∧
    feltSlice st.items offsetMetadataHash 8 = packedU32Elements st.leafData.metadataHash.toList := by
  simp only [feltSlice, ClaimNoteStorage.items, ProofData.toElements, LeafData.toElements,
    List.append_assoc, List.drop_append, List.take_append, List.length_append,
    length_smtElements, length_packedU32Elements_b256, length_packedU32Elements_address,
    List.length_cons, List.length_nil, Nat.reduceAdd, Nat.reduceSub, List.drop_eq_nil_of_le,
    List.drop_zero, List.take_of_length_le, le_refl, Nat.reduceLeDiff, List.nil_append,
    List.take_zero, List.append_nil, List.getElem!_eq_getElem?_getD, List.getElem?_append,
    offsetGlobalIndex, offsetMainnetExitRoot, offsetRollupExitRoot, offsetOriginNetwork,
    offsetOriginAddress, offsetDestinationNetwork, offsetDestinationAddress, offsetAmount,
    offsetMetadataHash, minFeltCount, Nat.reduceLT, reduceIte, List.getElem?_cons_succ,
    List.getElem?_cons_zero, Option.getD_some, and_self]

theorem feltSlice_append_of_length {front rest : List Felt} {a : Nat} (h : front.length = a)
    (n k : Nat) : feltSlice (front ++ rest) (a + n) k = feltSlice rest n k := by
  subst h
  rw [feltSlice, List.drop_length_add_append, feltSlice]

/-- Node `i` of the local SMT proof sits at `i * 8`. -/
theorem feltSlice_items_smtLocal (st : ClaimNoteStorage) {i : Nat} (hi : i < 32) :
    feltSlice st.items (offsetSmtProofLocal + i * 8) 8 =
      packedU32Elements st.proofData.smtProofLocalExitRoot[i].toList := by
  simp only [ClaimNoteStorage.items, ProofData.toElements, List.append_assoc, offsetSmtProofLocal,
    Nat.zero_add, feltSlice]
  rw [drop_take_flatMap length_packedU32Elements_b256 _ _ (by simpa using hi), Vector.getElem_toList]

/-- Node `i` of the rollup SMT proof sits at `256 + i * 8`. -/
theorem feltSlice_items_smtRollup (st : ClaimNoteStorage) {i : Nat} (hi : i < 32) :
    feltSlice st.items (offsetSmtProofRollup + i * 8) 8 =
      packedU32Elements st.proofData.smtProofRollupExitRoot[i].toList := by
  simp only [ClaimNoteStorage.items, ProofData.toElements, List.append_assoc, offsetSmtProofRollup]
  rw [feltSlice_append_of_length (length_smtElements _), feltSlice,
    drop_take_flatMap length_packedU32Elements_b256 _ _ (by simpa using hi), Vector.getElem_toList]

/-! ### The SMT-proof loop -/

/-- The loop's arrays after `k` rounds: the first `k` nodes of `v`, zero
    after them. -/
def smtPrefix (k : Nat) (v : Vector B256 32) : Vector B256 32 :=
  Vector.ofFn fun j => if j.val < k then v[j] else zeroWord

theorem smtPrefix_zero (v : Vector B256 32) : smtPrefix 0 v = Vector.replicate 32 zeroWord := by
  ext j hj
  simp [smtPrefix]

theorem smtPrefix_succ {k : Nat} (hk : k < 32) (v : Vector B256 32) :
    (smtPrefix k v).setIfInBounds k v[k] = smtPrefix (k + 1) v := by
  ext j hj
  rw [Vector.getElem_setIfInBounds hj]
  simp only [smtPrefix, Vector.getElem_ofFn]
  -- node `k` is the one this round writes
  rcases Nat.lt_trichotomy j k with hlt | rfl | hgt
  · simp [Nat.ne_of_gt hlt, hlt, Nat.lt_succ_of_lt hlt]
  · simp
  · simp [Nat.ne_of_lt hgt, Nat.not_lt_of_gt hgt, show ¬ j < k + 1 by omega]

theorem smtPrefix_all (v : Vector B256 32) : smtPrefix 32 v = v := by
  ext j hj
  simp [smtPrefix]

/-- One round reads node `i` of both proofs. -/
theorem unpackSmtNodes_items (st : ClaimNoteStorage) {i : Nat} (hi : i < 32)
    (proofs : Vector B256 32 × Vector B256 32) :
    unpackSmtNodes st.items proofs i =
      .ok (proofs.1.setIfInBounds i st.proofData.smtProofLocalExitRoot[i],
        proofs.2.setIfInBounds i st.proofData.smtProofRollupExitRoot[i]) := by
  rw [unpackSmtNodes, feltSlice_items_smtLocal st hi, feltSlice_items_smtRollup st hi,
    unpackU32Felts_packedU32Elements _ (by decide), unpackU32Felts_packedU32Elements _ (by decide)]
  rfl

/-- **The loop.** After `k` rounds, the first `k` nodes of both proofs are
    read. -/
theorem foldlM_unpackSmtNodes (st : ClaimNoteStorage) {k : Nat} (hk : k ≤ 32) :
    (List.range k).foldlM (unpackSmtNodes st.items)
        (Vector.replicate 32 zeroWord, Vector.replicate 32 zeroWord) =
      .ok (smtPrefix k st.proofData.smtProofLocalExitRoot,
        smtPrefix k st.proofData.smtProofRollupExitRoot) := by
  induction k with
  | zero => rw [smtPrefix_zero, smtPrefix_zero]; rfl
  | succ k ih =>
    rw [List.range_succ, List.foldlM_append, ih (by omega)]
    show unpackSmtNodes st.items _ k >>= pure = _
    rw [unpackSmtNodes_items st (by omega), smtPrefix_succ (by omega), smtPrefix_succ (by omega)]
    rfl

theorem unpackSmtProofs_items (st : ClaimNoteStorage) :
    unpackSmtProofs st.items =
      .ok (st.proofData.smtProofLocalExitRoot, st.proofData.smtProofRollupExitRoot) := by
  rw [unpackSmtProofs, foldlM_unpackSmtNodes st (le_refl 32), smtPrefix_all, smtPrefix_all]

/-! ### The decoders -/

/-- `parse_full_claim_from_storage` reads back everything a CLAIM note
    holds. -/
theorem parseFullClaimFromStorage_items (st : ClaimNoteStorage) :
    parseFullClaimFromStorage st.items = .ok st.fullClaim := by
  obtain ⟨hlen, hgi, hmainnet, hrollup, horigin, horiginAddress, hdestination,
    hdestinationAddress, hamount, hmetadata⟩ := items_layout st
  rw [parseFullClaimFromStorage, if_neg (by rw [hlen]; exact Nat.lt_irrefl _), unpackSmtProofs_items,
    hgi, hmainnet, hrollup, horigin, horiginAddress, hdestination, hdestinationAddress, hamount,
    hmetadata]
  simp only [unpackU32Felts_packedU32Elements _ (show 4 ∣ 32 by decide),
    unpackU32Felts_packedU32Elements _ (show 4 ∣ 20 by decide), decodeSwappedU32_ofU32]
  rfl

/-- `parse_claim_event_from_storage` reads back the event's fields of a
    CLAIM note, and refuses exactly an amount whose top 24 bytes are not
    zero. -/
theorem parseClaimEventFromStorage_items (st : ClaimNoteStorage) :
    parseClaimEventFromStorage st.items =
      if (st.leafData.amount.toList.take 24).any (· != 0) then .error .amountOverflow
      else .ok { globalIndex := st.proofData.globalIndex
                 originNetwork := st.leafData.originNetwork
                 originAddress := st.leafData.originTokenAddress
                 destinationAddress := st.leafData.destinationAddress
                 amount := UInt64.ofNat (beValue (st.leafData.amount.toList.drop 24)) } := by
  obtain ⟨hlen, hgi, -, -, horigin, horiginAddress, -, hdestinationAddress, hamount, -⟩ :=
    items_layout st
  rw [parseClaimEventFromStorage, if_neg (by rw [hlen]; exact Nat.lt_irrefl _), hgi, horigin,
    horiginAddress, hdestinationAddress, hamount]
  simp only [unpackU32Felts_packedU32Elements _ (show 4 ∣ 32 by decide),
    unpackU32Felts_packedU32Elements _ (show 4 ∣ 20 by decide), decodeSwappedU32_ofU32]
  rfl

/-! ## Section 6: The round trip -/

section RoundTrip

variable {P : Primitives} {scaleToTokenAmount : B256 → UInt32 → Except String Felt}
  {params : ClaimAssetCall} {scaleExp : UInt32} {st : ClaimNoteStorage}

/-- A built note holds the canonical proof data and the call's leaf data. -/
theorem claimStorageFromCall_eq_ok
    (h : claimStorageFromCall P scaleToTokenAmount params scaleExp = .ok st) :
    st.proofData = buildCanonicalProofData params ∧
      st.leafData = { originNetwork := params.originNetwork
                      originTokenAddress := params.originTokenAddress
                      destinationNetwork := params.destinationNetwork
                      destinationAddress := params.destinationAddress
                      amount := U256.toBeBytes params.amount
                      metadataHash := P.keccak256 params.metadata } := by
  unfold claimStorageFromCall at h
  dsimp only at h
  -- only the amount scaling can fail
  cases hscale : scaleToTokenAmount (U256.toBeBytes params.amount) scaleExp with
  | error e =>
    rw [hscale] at h
    cases h
  | ok midenClaimAmount =>
    rw [hscale] at h
    cases h
    exact ⟨rfl, rfl⟩

/-- The top 24 bytes of a `U256` are zero exactly when it fits in `u64`. -/
theorem any_take_toBeBytes (x : U256) :
    ((U256.toBeBytes x).toList.take 24).any (· != 0) = decide (2 ^ 64 ≤ x.toNat) := by
  have hlt : x.toNat < 256 ^ 32 := x.isLt
  -- the top 24 bytes are those of `x / 2^64`, which is below `256 ^ 24`
  rw [U256.toList_toBeBytes, show 32 = 24 + 8 from rfl, beBytes_add,
    List.take_left' (length_beBytes _ _), any_beBytes_ne_zero,
    Nat.mod_eq_of_lt (show x.toNat / 256 ^ 8 < 256 ^ 24 by omega)]
  simp only [decide_eq_decide]
  omega

/-- The low eight bytes of a `U256`, read as a `u64`, are its value mod `2^64`. -/
theorem ofNat_beValue_drop_toBeBytes (x : U256) :
    UInt64.ofNat (beValue ((U256.toBeBytes x).toList.drop 24)) = UInt64.ofNat x.toNat := by
  rw [U256.toList_toBeBytes, show 32 = 24 + 8 from rfl, beBytes_add,
    List.drop_left' (length_beBytes _ _), beValue_beBytes]
  exact UInt64.ofNat_mod_size

/-- **Recovery rebuilds the canonical call.** -/
theorem buildClaimAssetCall_fullClaim
    (h : claimStorageFromCall P scaleToTokenAmount params scaleExp = .ok st) :
    buildClaimAssetCall st.fullClaim params.metadata = params.canonical := by
  obtain ⟨hproof, hleaf⟩ := claimStorageFromCall_eq_ok h
  simp only [buildClaimAssetCall, ClaimNoteStorage.fullClaim, hproof, hleaf,
    buildCanonicalProofData, ClaimAssetCall.canonical, U256.fromBeBytes_toBeBytes]
  -- the mainnet flag decides both the rollup proof and the global index
  by_cases hmainnet : isMainnetGlobalIndex (U256.toBeBytes params.globalIndex) = true
  · simp only [hmainnet, if_true]
    rfl
  · simp only [hmainnet, if_false, Bool.false_eq_true, U256.fromBeBytes_toBeBytes]

/-- **The event decode agrees with the full decode** and fails exactly on
    an amount above `u64::MAX`. -/
theorem parseClaimEventFromStorage_claimStorage
    (h : claimStorageFromCall P scaleToTokenAmount params scaleExp = .ok st) :
    parseClaimEventFromStorage st.items =
      if params.amount.toNat < 2 ^ 64 then
        .ok { globalIndex := st.fullClaim.globalIndex
              originNetwork := st.fullClaim.originNetwork
              originAddress := st.fullClaim.originAddress
              destinationAddress := st.fullClaim.destinationAddress
              amount := UInt64.ofNat params.amount.toNat }
      else .error .amountOverflow := by
  obtain ⟨-, hleaf⟩ := claimStorageFromCall_eq_ok h
  rw [parseClaimEventFromStorage_items]
  simp only [ClaimNoteStorage.fullClaim, hleaf, any_take_toBeBytes, ofNat_beValue_drop_toBeBytes]
  by_cases hfit : params.amount.toNat < 2 ^ 64
  · rw [decide_eq_false (by omega), if_neg Bool.false_ne_true, if_pos hfit]
  · rw [decide_eq_true (by omega), if_pos rfl, if_neg hfit]

end RoundTrip


end Notes
