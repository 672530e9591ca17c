import MidenAgglayer.Synthesis.Events
import MidenAgglayer.Framework.Abi

/-! # The BridgeEvent Data Is Canonical ABI, and Its Readers Agree

    `encode_bridge_event_data` (`src/bridge_out.rs`) writes the data of a
    `BridgeEvent(uint8,uint32,address,uint32,address,uint256,bytes,uint32)`
    by hand, word by word. Here the same tuple is stated through the generic
    encoding of `Framework/Abi`, and the two agree on every input the Rust
    types admit (`bridgeEventBytes_eq_encode`).

    Two readers take fixed windows of that data back:
    `bridge_event_deposit_count` (`src/store/memory.rs`, in
    `Synthesis/Events`) and `encode_bridge_asset_from_log`
    (`src/service_helpers.rs`), which rebuilds a `bridgeAsset` call from
    the destination network, address and amount words.
-/

open Bytes

namespace Store

variable (P : Primitives)

/-- `MAX_BRIDGE_EVENT_METADATA_BYTES`. -/
def maxBridgeEventMetadataBytes : Nat := 64 * 1024

/-- The components of a `BridgeEvent` as an ABI tuple. -/
def bridgeEventValues (leafType : UInt8) (originNetwork : Nat) (originAddress : Address)
    (destinationNetwork : Nat) (destinationAddress : Address) (amount : Nat)
    (metadata : List UInt8) (depositCount : Nat) : List Abi.Value :=
  [.uint 8 leafType.toNat, .uint 32 originNetwork, .address originAddress.toList,
    .uint 32 destinationNetwork, .address destinationAddress.toList, .uint 256 amount,
    .bytes metadata, .uint 32 depositCount]

/-- The Solidity signature of `bridgeAsset`. -/
def bridgeAssetSignature : String :=
  "bridgeAsset(uint32,address,uint256,address,bool,bytes)"

/-- `SolCall::abi_encode` of a `bridgeAssetCall`: the selector (the first
    four bytes of the signature's keccak256), then the argument tuple. -/
def bridgeAssetCalldata (destinationNetwork : Nat) (destinationAddress : List UInt8)
    (amount : Nat) (token : List UInt8) (forceUpdateGlobalExitRoot : Bool)
    (permitData : List UInt8) : List UInt8 :=
  (P.keccak256 bridgeAssetSignature.toUTF8.data.toList).toList.take 4 ++
    Abi.encode [.uint 32 destinationNetwork, .address destinationAddress, .uint 256 amount,
      .address token, .bool forceUpdateGlobalExitRoot, .bytes permitData]

/-- `encode_bridge_asset_from_log`: undecodable or short data gives `"0x"`;
    otherwise the `bridgeAsset` call to the destination network, address
    and amount of the event, for the zero token with no permit. -/
def encodeBridgeAssetFromLog (log : SyntheticLog) : String :=
  match P.hex.decode (stripHexPrefix log.data) with
  | none => "0x"
  | some dataBytes =>
    if dataBytes.length < 8 * 32 then "0x"
    else
      -- each window has its exact width, so the `unwrap_or` fallbacks never apply
      let destNet := beValue ((dataBytes.drop (3 * 32 + 28)).take 4)
      let destAddr := (dataBytes.drop (4 * 32 + 12)).take 20
      let amount := beValue ((dataBytes.drop (5 * 32)).take 32)
      hexText P (bridgeAssetCalldata P destNet destAddr amount (zeros 20) false [])

/-! ## The hand-written encoding is the ABI encoding -/

/-- `encode_bridge_event_data` writes `abi.encode` of the event's tuple, for
    `u32` networks and deposit count, a `u128` amount and metadata whose
    length fits the `u64` length word. -/
theorem bridgeEventBytes_eq_encode (leafType : UInt8) {originNetwork : Nat}
    (originAddress : Address) {destinationNetwork : Nat} (destinationAddress : Address)
    {amount : Nat} {metadata : List UInt8} {depositCount : Nat}
    (horigin : originNetwork < 2 ^ 32) (hdestination : destinationNetwork < 2 ^ 32)
    (hamount : amount < 2 ^ 128) (hmetadata : metadata.length < 2 ^ 64)
    (hcount : depositCount < 2 ^ 32) :
    bridgeEventBytes leafType originNetwork originAddress destinationNetwork destinationAddress
      amount metadata depositCount =
      Abi.encode (bridgeEventValues leafType originNetwork originAddress destinationNetwork
        destinationAddress amount metadata depositCount) := by
  -- every hand-written word is the ABI word of its value
  have hleaf : zeros 31 ++ [leafType] = Abi.word leafType.toNat := by
    rw [Abi.word_eq_replicate_append (w := 1) (by norm_num) (by simpa using leafType.toNat_lt)]
    simp [zeros, beBytes]
  have hu32 : ∀ n, n < 2 ^ 32 → zeros 28 ++ beBytes 4 n = Abi.word n := fun n h =>
    (Abi.word_eq_replicate_append (w := 4) (by norm_num) (lt_of_lt_of_eq h (by norm_num))).symm
  have hu128 : zeros 16 ++ beBytes 16 amount = Abi.word amount :=
    (Abi.word_eq_replicate_append (w := 16) (by norm_num) (lt_of_lt_of_eq hamount (by norm_num))).symm
  have hu64 : zeros 24 ++ beBytes 8 metadata.length = Abi.word metadata.length :=
    (Abi.word_eq_replicate_append (w := 8) (by norm_num) (lt_of_lt_of_eq hmetadata (by norm_num))).symm
  rw [bridgeEventBytes, hleaf, hu32 _ horigin, hu32 _ hdestination, hu128, hu32 _ hcount,
    hu32 _ (by norm_num), hu64]
  simp [Abi.encode, bridgeEventValues, Abi.Value.head, Abi.Value.tail, Abi.padLength, zeros]

/-! ## The windows the readers take -/

/-- The windows `encode_bridge_asset_from_log` reads: the low four bytes of
    the fourth word, the low twenty of the fifth and the whole sixth. -/
theorem bridgeEventBytes_windows (leafType : UInt8) (originNetwork : Nat)
    (originAddress : Address) (destinationNetwork : Nat) (destinationAddress : Address)
    (amount : Nat) (metadata : List UInt8) (depositCount : Nat) :
    let bytes := bridgeEventBytes leafType originNetwork originAddress destinationNetwork
      destinationAddress amount metadata depositCount
    8 * 32 ≤ bytes.length ∧
    (bytes.drop (3 * 32 + 28)).take 4 = beBytes 4 destinationNetwork ∧
    (bytes.drop (4 * 32 + 12)).take 20 = destinationAddress.toList ∧
    (bytes.drop (5 * 32)).take 32 = zeros 16 ++ beBytes 16 amount := by
  intro bytes
  -- the three words before the destination network, and everything after the amount
  let front := (zeros 31 ++ [leafType]) ++ (zeros 28 ++ beBytes 4 originNetwork)
    ++ (zeros 12 ++ originAddress.toList)
  let back := (zeros 28 ++ beBytes 4 (8 * 32)) ++ (zeros 28 ++ beBytes 4 depositCount)
    ++ (zeros 24 ++ beBytes 8 metadata.length) ++ metadata
    ++ zeros ((metadata.length + 31) / 32 * 32 - metadata.length)
  have hfront : front.length = 96 := by simp [front]
  refine ⟨?_, ?_, ?_, ?_⟩
  · simp only [bytes, bridgeEventBytes, List.length_append, length_zeros, length_beBytes,
      List.length_singleton, Vector.length_toList]
    omega
  · rw [show bytes = (front ++ zeros 28) ++ beBytes 4 destinationNetwork
        ++ ((zeros 12 ++ destinationAddress.toList) ++ (zeros 16 ++ beBytes 16 amount) ++ back) by
      simp only [bytes, front, back, bridgeEventBytes, List.append_assoc]]
    exact Abi.drop_take_append (by simp [hfront]) (by simp)
  · rw [show bytes = (front ++ (zeros 28 ++ beBytes 4 destinationNetwork) ++ zeros 12)
        ++ destinationAddress.toList ++ ((zeros 16 ++ beBytes 16 amount) ++ back) by
      simp only [bytes, front, back, bridgeEventBytes, List.append_assoc]]
    exact Abi.drop_take_append (by simp [hfront]) (by simp)
  · rw [show bytes = (front ++ (zeros 28 ++ beBytes 4 destinationNetwork)
        ++ (zeros 12 ++ destinationAddress.toList)) ++ (zeros 16 ++ beBytes 16 amount) ++ back by
      simp only [bytes, front, back, bridgeEventBytes, List.append_assoc]]
    exact Abi.drop_take_append (by simp [hfront]) (by simp)

/-! ## The two readers agree with the writer -/

/-- `encode_bridge_asset_from_log` on a log carrying an encoded event
    rebuilds the `bridgeAsset` call to the event's destination network,
    address and amount. -/
theorem encodeBridgeAssetFromLog_of_data {log : SyntheticLog} (leafType : UInt8)
    (originNetwork : Nat) (originAddress : Address) {destinationNetwork : Nat}
    (destinationAddress : Address) {amount : Nat} (metadata : List UInt8) (depositCount : Nat)
    (hdestination : destinationNetwork < 2 ^ 32) (hamount : amount < 2 ^ 128)
    (hlog : log.data = encodeBridgeEventData P leafType originNetwork originAddress
      destinationNetwork destinationAddress amount metadata depositCount) :
    encodeBridgeAssetFromLog P log =
      hexText P (bridgeAssetCalldata P destinationNetwork destinationAddress.toList amount
        (zeros 20) false []) := by
  obtain ⟨hlen, hnet, haddr, hamt⟩ := bridgeEventBytes_windows leafType originNetwork
    originAddress destinationNetwork destinationAddress amount metadata depositCount
  have hamountWord : beValue (zeros 16 ++ beBytes 16 amount) = amount := by
    rw [show zeros 16 = List.replicate 16 0 from rfl, replicate_append_beBytes (w := 16) 16
      (lt_of_lt_of_eq hamount (by norm_num)), beValue_beBytes_of_lt (w := 16 + 16)
      (lt_trans hamount (by norm_num))]
  rw [encodeBridgeAssetFromLog, hlog, encodeBridgeEventData, stripHexPrefix_hexText,
    P.hex.decode_encode]
  simp only [if_neg (Nat.not_lt.mpr hlen), hnet, haddr, hamt, hamountWord,
    beValue_beBytes_of_lt (w := 4) (lt_of_lt_of_eq hdestination (by norm_num))]

/-- **The BridgeEvent encoding is canonical ABI and decodable.** For a
    `u8` leaf type, `u32` networks and deposit count, a `u128` amount and
    metadata within `MAX_BRIDGE_EVENT_METADATA_BYTES`:
    `encode_bridge_event_data` is `0x` and the hex of `abi.encode` of the
    event tuple; `bridge_event_deposit_count` reads the deposit count back;
    and `encode_bridge_asset_from_log` on any log carrying that data builds
    the `bridgeAsset` call with the event's destination network, address
    and amount. -/
theorem bridge_event_abi_canonical (leafType : UInt8) {originNetwork : Nat}
    (originAddress : Address) {destinationNetwork : Nat} (destinationAddress : Address)
    {amount : Nat} {metadata : List UInt8} {depositCount : Nat} {log : SyntheticLog}
    (horigin : originNetwork < 2 ^ 32) (hdestination : destinationNetwork < 2 ^ 32)
    (hamount : amount < 2 ^ 128) (hcount : depositCount < 2 ^ 32)
    (hmetadata : metadata.length ≤ maxBridgeEventMetadataBytes)
    (hlog : log.data = encodeBridgeEventData P leafType originNetwork originAddress
      destinationNetwork destinationAddress amount metadata depositCount) :
    encodeBridgeEventData P leafType originNetwork originAddress destinationNetwork
        destinationAddress amount metadata depositCount =
      hexText P (Abi.encode (bridgeEventValues leafType originNetwork originAddress
        destinationNetwork destinationAddress amount metadata depositCount)) ∧
    bridgeEventDepositCount P (encodeBridgeEventData P leafType originNetwork originAddress
      destinationNetwork destinationAddress amount metadata depositCount) = some depositCount ∧
    encodeBridgeAssetFromLog P log =
      hexText P (bridgeAssetCalldata P destinationNetwork destinationAddress.toList amount
        (zeros 20) false []) := by
  have hlength : metadata.length < 2 ^ 64 :=
    lt_of_le_of_lt hmetadata (by simp [maxBridgeEventMetadataBytes])
  refine ⟨?_, bridgeEventDepositCount_encodeBridgeEventData P leafType originNetwork
    originAddress destinationNetwork destinationAddress amount metadata hcount,
    encodeBridgeAssetFromLog_of_data P leafType originNetwork originAddress destinationAddress
      metadata depositCount hdestination hamount hlog⟩
  rw [encodeBridgeEventData, bridgeEventBytes_eq_encode leafType originAddress destinationAddress
    horigin hdestination hamount hlength hcount]

/-- The 21 metadata bytes of the encoder's own canonical-encoding test,
    `b"USDC-erc20-decimals-6"`: not a multiple of 32, so the tail is padded. -/
def sampleMetadata : List UInt8 := "USDC-erc20-decimals-6".toUTF8.data.toList

/-- A bridge-out of 1000 units to `0xaa…aa` on network 1 with that
    metadata, as the encoder's own unit test writes it, in a log. -/
def sampleBridgeOutLog : SyntheticLog where
  address := l2GlobalExitRootAddress
  topics := [bridgeEventTopic]
  data := encodeBridgeEventData Primitives.sample 0 0 (Vector.replicate 20 0) 1
    (Vector.replicate 20 0xaa) 1000 sampleMetadata 0
  blockNumber := 0
  blockHash := zeroWord
  transactionHash := ""
  transactionIndex := 0
  logIndex := 0
  removed := false

theorem sample_bridge_out_canonical :
    ((0 : Nat) < 2 ^ 32 ∧ (1 : Nat) < 2 ^ 32 ∧ (1000 : Nat) < 2 ^ 128 ∧ (0 : Nat) < 2 ^ 32 ∧
      sampleMetadata.length ≤ maxBridgeEventMetadataBytes) ∧
    (encodeBridgeEventData Primitives.sample 0 0 (Vector.replicate 20 0) 1
        (Vector.replicate 20 0xaa) 1000 sampleMetadata 0 =
      hexText Primitives.sample (Abi.encode (bridgeEventValues 0 0 (Vector.replicate 20 0) 1
        (Vector.replicate 20 0xaa) 1000 sampleMetadata 0)) ∧
    bridgeEventDepositCount Primitives.sample (encodeBridgeEventData Primitives.sample 0 0
      (Vector.replicate 20 0) 1 (Vector.replicate 20 0xaa) 1000 sampleMetadata 0) = some 0 ∧
    encodeBridgeAssetFromLog Primitives.sample sampleBridgeOutLog =
      hexText Primitives.sample (bridgeAssetCalldata Primitives.sample 1
        (Vector.replicate 20 0xaa).toList 1000 (zeros 20) false [])) :=
  ⟨⟨by norm_num, by norm_num, by norm_num, by norm_num, by decide⟩,
    bridge_event_abi_canonical Primitives.sample 0 (Vector.replicate 20 0)
      (Vector.replicate 20 0xaa) (by norm_num) (by norm_num) (by norm_num) (by norm_num)
      (by decide) rfl⟩

end Store
