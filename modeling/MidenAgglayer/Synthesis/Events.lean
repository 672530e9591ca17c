import MidenAgglayer.Store.State

/-! # Synthetic Event Encodings

    The ABI data of the two synthetic events the store writes itself and
    the decoder the store reads back (`src/log_synthesis.rs`,
    `src/bridge_out.rs`, `src/store/memory.rs`):

    * `encodeClaimEventData` — `ClaimEvent(uint256,uint32,address,address,uint256)`;
    * `encodeBridgeEventData` — `BridgeEvent(uint8,uint32,address,uint32,address,uint256,bytes,uint32)`,
      a static head of eight words, then the metadata length and the
      metadata padded to a word boundary;
    * `bridgeEventDepositCount` — reads `depositCount`, the eighth head word,
      back from the hex text of the data (bytes 252‥256).

    The central fact is `bridgeEventDepositCount_encodeBridgeEventData`:
    every encoded event reads back the deposit count it was built with.
-/

open Bytes

namespace Store

variable (P : Primitives)

/-- `CLAIM_EVENT_TOPIC`. -/
def claimEventTopic : String :=
  "0x1df3f2a973a00d6635911755c260704e95e8a5876997546798770f76396fda4d"

/-- `BRIDGE_EVENT_TOPIC`. -/
def bridgeEventTopic : String :=
  "0x501781209a1f8899323b96b4ef08b168df93e0a90c673d1e4cce39366cb62f9b"

/-- `UPDATE_HASH_CHAIN_VALUE_TOPIC`. -/
def updateHashChainValueTopic : String :=
  "0x65d3bf36615f1f02a134d12dfa9ea6b1d4a52386e825973cd27ddb70895c2319"

/-- `L2_GLOBAL_EXIT_ROOT_ADDRESS`. -/
def l2GlobalExitRootAddress : String := "0xa40D5f56745a118D0906a34E69aeC8C0Db1cB8fA"

/-- `n` zero bytes. -/
def zeros (n : Nat) : List UInt8 := List.replicate n 0

@[simp] theorem length_zeros (n : Nat) : (zeros n).length = n := List.length_replicate

/-- `format!("0x{}", hex::encode(bytes))`. -/
def hexText (bytes : List UInt8) : String := "0x" ++ P.hex.encode bytes

/-- `data.strip_prefix("0x").unwrap_or(data)`. -/
def stripHexPrefix (data : String) : String :=
  match data.toList with
  | '0' :: 'x' :: rest => String.ofList rest
  | _ => data

theorem stripHexPrefix_hexText (bytes : List UInt8) :
    stripHexPrefix (hexText P bytes) = P.hex.encode bytes := by
  have h : (hexText P bytes).toList = '0' :: 'x' :: (P.hex.encode bytes).toList := by
    simp [hexText, String.toList_append]
  simp [stripHexPrefix, h]

/-- `eq_ignore_ascii_case` on the characters of two strings. -/
def eqIgnoreAsciiCase (a b : List Char) : Bool :=
  a.map Char.toLower == b.map Char.toLower

/-- `encode_claim_event_data`. -/
def encodeClaimEventData (globalIndex : B256) (originNetwork : Nat)
    (originAddress destinationAddress : Address) (amountBe : B256) : String :=
  hexText P
    (globalIndex.toList
      ++ zeros 28 ++ beBytes 4 originNetwork
      ++ zeros 12 ++ originAddress.toList
      ++ zeros 12 ++ destinationAddress.toList
      ++ amountBe.toList)

/-- `encode_claim_event_data_u64`: the amount zero-extended into a word. -/
def encodeClaimEventDataU64 (globalIndex : B256) (originNetwork : Nat)
    (originAddress destinationAddress : Address) (amount : Nat) : String :=
  encodeClaimEventData P globalIndex originNetwork originAddress destinationAddress
    ⟨(zeros 24 ++ beBytes 8 amount).toArray, by simp⟩

/-- The bytes of `encode_bridge_event_data`, before hex encoding. -/
def bridgeEventBytes (leafType : UInt8) (originNetwork : Nat) (originAddress : Address)
    (destinationNetwork : Nat) (destinationAddress : Address) (amount : Nat)
    (metadata : List UInt8) (depositCount : Nat) : List UInt8 :=
  let paddedLen := (metadata.length + 31) / 32 * 32
  -- the static head: eight words
  (zeros 31 ++ [leafType])
    ++ (zeros 28 ++ beBytes 4 originNetwork)
    ++ (zeros 12 ++ originAddress.toList)
    ++ (zeros 28 ++ beBytes 4 destinationNetwork)
    ++ (zeros 12 ++ destinationAddress.toList)
    ++ (zeros 16 ++ beBytes 16 amount)
    ++ (zeros 28 ++ beBytes 4 (8 * 32))
    ++ (zeros 28 ++ beBytes 4 depositCount)
    -- the dynamic tail: metadata length, metadata, zero padding
    ++ (zeros 24 ++ beBytes 8 metadata.length)
    ++ metadata
    ++ zeros (paddedLen - metadata.length)

/-- `encode_bridge_event_data`. -/
def encodeBridgeEventData (leafType : UInt8) (originNetwork : Nat) (originAddress : Address)
    (destinationNetwork : Nat) (destinationAddress : Address) (amount : Nat)
    (metadata : List UInt8) (depositCount : Nat) : String :=
  hexText P (bridgeEventBytes leafType originNetwork originAddress destinationNetwork
    destinationAddress amount metadata depositCount)

/-- `bridge_event_deposit_count`: decode the hex data and read bytes 252‥256
    as a big-endian `u32`. -/
def bridgeEventDepositCount (data : String) : Option Nat :=
  match P.hex.decode (stripHexPrefix data) with
  | none => none
  | some bytes => if 256 ≤ bytes.length then some (beValue ((bytes.drop 252).take 4)) else none

/-- The head of a bridge event occupies exactly its first 256 bytes, with
    the deposit count in its last four. -/
theorem bridgeEventBytes_head (leafType : UInt8) (originNetwork : Nat) (originAddress : Address)
    (destinationNetwork : Nat) (destinationAddress : Address) (amount : Nat)
    (metadata : List UInt8) (depositCount : Nat) :
    ∃ front tail, front.length = 252 ∧
      bridgeEventBytes leafType originNetwork originAddress destinationNetwork
        destinationAddress amount metadata depositCount =
        front ++ beBytes 4 depositCount ++ tail := by
  refine ⟨(zeros 31 ++ [leafType]) ++ (zeros 28 ++ beBytes 4 originNetwork)
    ++ (zeros 12 ++ originAddress.toList) ++ (zeros 28 ++ beBytes 4 destinationNetwork)
    ++ (zeros 12 ++ destinationAddress.toList) ++ (zeros 16 ++ beBytes 16 amount)
    ++ (zeros 28 ++ beBytes 4 (8 * 32)) ++ zeros 28,
    (zeros 24 ++ beBytes 8 metadata.length) ++ metadata
      ++ zeros ((metadata.length + 31) / 32 * 32 - metadata.length),
    by simp, ?_⟩
  simp only [bridgeEventBytes, List.append_assoc]

/-- Every encoded bridge event reads back the deposit count it was built
    with (a `u32`). -/
theorem bridgeEventDepositCount_encodeBridgeEventData (leafType : UInt8) (originNetwork : Nat)
    (originAddress : Address) (destinationNetwork : Nat) (destinationAddress : Address)
    (amount : Nat) (metadata : List UInt8) {depositCount : Nat} (h : depositCount < 2 ^ 32) :
    bridgeEventDepositCount P (encodeBridgeEventData P leafType originNetwork originAddress
      destinationNetwork destinationAddress amount metadata depositCount) = some depositCount := by
  obtain ⟨front, tail, hfront, heq⟩ := bridgeEventBytes_head leafType originNetwork originAddress
    destinationNetwork destinationAddress amount metadata depositCount
  have hdrop : ((front ++ beBytes 4 depositCount ++ tail).drop 252).take 4 =
      beBytes 4 depositCount := by
    simp [List.append_assoc, hfront]
  have hlen : 256 ≤ (front ++ beBytes 4 depositCount ++ tail).length := by
    simp [hfront]; omega
  simp only [bridgeEventDepositCount, encodeBridgeEventData, stripHexPrefix_hexText,
    P.hex.decode_encode, heq, hdrop, hlen, if_true]
  rw [beValue_beBytes_of_lt (by simpa using h)]

end Store
