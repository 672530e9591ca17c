import MidenAgglayer.Framework.Bytes
import MidenAgglayer.Framework.Maps

/-! # The In-Memory Store: State

    The state of `InMemoryStore` (`src/store/memory.rs`), the reference
    implementation of the `Store` trait that the service, the projector,
    restore and the writer share. Every field is one `RwLock`/`Mutex` of the
    source; every trait method takes the locks it needs for its whole body,
    so each call is one atomic step on this record.

    Modelling choices (see also `MODEL_MAP.json`):

    * `HashMap`s and `HashSet`s are `Std.HashMap` / `Std.HashSet`, with the
      same insert, erase, lookup and unspecified iteration order.
    * The `transactions` LRU cache (10 000 rows) never evicts here. Under
      load the source's cache can drop an admitted row, and then
      `reserve_nonce` takes its hash for absent, as its own comment says of
      this development store; the model keeps every row.
    * `Instant`s and `Duration`s are natural numbers of one clock; each
      operation receives its `now`.
    * The hex crate, keccak256, `to_lowercase` and alloy's transaction-hash
      text form come from outside `src/`; they are the fields of
      `Primitives`, with the round trips the code relies on as laws.
    * Test-only fields and hooks (`#[cfg(test)]`) are left out.
-/

open Bytes Maps

/-- An alloy `TxHash` (`B256`). -/
abbrev TxHash := B256

/-- An alloy `U256` (claim global indices). -/
abbrev U256 := BitVec 256

/-- An alloy `Address`. -/
abbrev Address := Vector UInt8 20

/-- A Miden `TransactionId` (a 32-byte digest). -/
abbrev TransactionId := B256

namespace Store

/-- The primitives the store calls from crates outside `src/`. -/
structure Primitives where
  /-- `hex::encode` / `hex::decode`. -/
  hex : HexCodec
  /-- `sha3::Keccak256` over the concatenated input. -/
  keccak256 : List UInt8 → B256
  /-- `str::to_lowercase`. -/
  toLowercase : String → String
  /-- `format!("{tx_hash:#x}")`. -/
  txKey : TxHash → String
  /-- `str::parse::<TxHash>()`. -/
  parseTxHash : String → Option TxHash
  /-- A formatted hash parses back to itself. -/
  parseTxHash_txKey : ∀ h, parseTxHash (txKey h) = some h

/-- Distinct hashes have distinct keys: a key parses back to its hash. -/
theorem Primitives.txKey_injective (P : Primitives) {h h' : TxHash}
    (hkey : P.txKey h = P.txKey h') : h = h' := by
  have hparse := P.parseTxHash_txKey h
  rw [hkey, P.parseTxHash_txKey h'] at hparse
  exact (Option.some.inj hparse).symm

/-! ## Records -/

/-- `log_synthesis::SyntheticLog`. -/
structure SyntheticLog where
  address : String
  topics : List String
  data : String
  blockNumber : Nat
  blockHash : B256
  transactionHash : String
  transactionIndex : Nat
  logIndex : Nat
  removed : Bool
  deriving DecidableEq

/-- `log_synthesis::GerEntry`. -/
structure GerEntry where
  mainnetExitRoot : Option B256
  rollupExitRoot : Option B256
  blockNumber : Nat
  timestamp : Nat
  evidenceVerified : Bool
  deriving DecidableEq

/-- alloy `LogData`: the topics and data a receipt carries. -/
structure LogData where
  topics : List B256
  data : List UInt8
  deriving DecidableEq

/-- `TxnEntry`; of the envelope only its nonce is read. -/
structure TxnEntry where
  id : Option TransactionId
  envelopeNonce : Nat
  signer : Address
  expiresAt : Option Nat
  logs : List LogData

/-- `TxnReceipt`, one row of `transactions`. `result = none` is pending. -/
structure TxnReceipt where
  id : Option TransactionId
  envelopeNonce : Nat
  signer : Address
  expiresAt : Option Nat
  result : Option (Except String Unit)
  blockNum : Nat
  logs : List LogData
  recoveryAttempts : Nat
  nextRecoveryAt : Option Nat

/-- `ReservationState`. -/
inductive ReservationState where
  | executing
  | releasedSuccess
  | releasedFailure
  deriving DecidableEq, Repr

/-- `Reservation`, the fenced admission lease of one `(signer, nonce)` slot. -/
structure Reservation where
  txHash : TxHash
  state : ReservationState
  leaseExpiresAt : Nat
  fence : Nat
  deriving DecidableEq

/-- `ClaimState`. -/
inductive ClaimState where
  | executing
  | prepared
  | submitted
  | landed
  deriving DecidableEq, Repr

/-- `ClaimRecord`, the submission lock of one claim global index. -/
structure ClaimRecord where
  ownerTxHash : Option TxHash
  state : ClaimState
  acquiredAt : Nat
  leaseExpiresAt : Option Nat
  fence : Nat
  deriving DecidableEq

/-- `NoteHandoffState`. -/
inductive NoteHandoffState where
  | prepared
  | submitted
  deriving DecidableEq, Repr

/-- `NoteHandoffRecord`, the durable link from an Ethereum write to its note. -/
structure NoteHandoffRecord where
  noteCommitment : String
  noteId : Option String
  state : NoteHandoffState
  expirationBlock : Option Nat
  deriving DecidableEq

/-- The store's `anyhow` failures, one constructor for each message, carrying
    the values the message interpolates. -/
inductive StoreError where
  /-- "transaction {tx_hash} is already linked to a different note" -/
  | linkedToDifferentNote (txHash : String)
  /-- "transaction {tx_key} is already linked to a different claim note" -/
  | linkedToDifferentClaimNote (txKey : String)
  /-- "Store: transaction {tx_hash} already exists" -/
  | transactionExists (txHash : TxHash)
  /-- "Store: transaction {tx_hash} not found" -/
  | transactionNotFound (txHash : TxHash)
  /-- `u32::try_from(let_gate_baseline)` failed -/
  | baselineOutOfRange
  /-- "deposit counter overflow" -/
  | depositCounterOverflow
  /-- "deposit index overflow" -/
  | depositIndexOverflow
  /-- "missing deposit reservation for {note_id}" -/
  | missingDepositReservation (noteId : String)
  /-- "LET accounting overflow" -/
  | letAccountingOverflow
  deriving DecidableEq

/-! ## The store -/

/-- The fields of `InMemoryStore` that the modelled operations read or write. -/
structure InMemoryStore where
  latestBlockNumber : Nat
  logsByBlock : Std.HashMap Nat (List SyntheticLog)
  logsByTx : Std.HashMap String (List SyntheticLog)
  logCounter : Nat
  pendingEvents : List SyntheticLog
  seenGers : Std.HashMap B256 GerEntry
  latestGer : Option B256
  hashChainValue : B256
  injectedGers : Std.HashSet B256
  transactions : Std.HashMap TxHash TxnReceipt
  nonces : Std.HashMap String Nat
  nonceReservations : Std.HashMap (String × Nat) Reservation
  claimed : Std.HashMap U256 ClaimRecord
  /-- note key ↦ (reserved LET deposit index, emitted). -/
  processedNotes : Std.HashMap String (Nat × Bool)
  letGateBaseline : UInt64
  depositCounter : Nat
  claimWatcherProcessed : Std.HashMap String B256
  projectorCursor : Nat
  reconcileCursor : Nat
  txNoteLinks : Std.HashMap String NoteHandoffRecord
  noteTxLinks : Std.HashMap String String
  claimCalldataPending : Std.HashSet String

/-- The all-zero word. -/
def zeroWord : B256 := Vector.replicate 32 0

/-- A 32-byte word read from a byte list of exactly that length. -/
def B256.ofList? (bs : List UInt8) : Option B256 :=
  if h : bs.length = 32 then some ⟨bs.toArray, by simpa using h⟩ else none

/-- Sample primitives that meet the laws: lowercase hex, `0x`-prefixed
    transaction keys, ASCII lowercasing and a constant hash. Every result
    holds for all primitives; these only make concrete runs computable. -/
def Primitives.sample : Primitives where
  hex := HexCodec.lower
  keccak256 _ := zeroWord
  toLowercase := String.toLower
  txKey h := "0x" ++ HexCodec.lower.encode h.toList
  parseTxHash s :=
    match s.toList with
    | '0' :: 'x' :: digits => (unhexChars digits).bind B256.ofList?
    | _ => none
  parseTxHash_txKey h := by
    have hkey : ("0x" ++ HexCodec.lower.encode h.toList).toList = '0' :: 'x' :: hexChars h.toList := by
      simp [HexCodec.lower, String.toList_append]
    simp only [hkey, unhexChars_hexChars, Option.bind_some, B256.ofList?, Vector.length_toList,
      dite_true]
    rfl

/-- `InMemoryStore::new`. -/
def InMemoryStore.new : InMemoryStore where
  latestBlockNumber := 0
  logsByBlock := ∅
  logsByTx := ∅
  logCounter := 0
  pendingEvents := []
  seenGers := ∅
  latestGer := none
  hashChainValue := zeroWord
  injectedGers := ∅
  transactions := ∅
  nonces := ∅
  nonceReservations := ∅
  claimed := ∅
  processedNotes := ∅
  letGateBaseline := 0
  depositCounter := 0
  claimWatcherProcessed := ∅
  projectorCursor := 0
  reconcileCursor := 0
  txNoteLinks := ∅
  noteTxLinks := ∅
  claimCalldataPending := ∅

/-- `set_let_gate_baseline_for_test`: a fresh store whose LET accounting
    starts at the audited legacy offset `baseline`. -/
def InMemoryStore.withBaseline (baseline : UInt64) : InMemoryStore :=
  { InMemoryStore.new with letGateBaseline := baseline }

/-! ## Shared helpers -/

/-- `U256::to_be_bytes::<32>()`. -/
def U256.toBeBytes (x : U256) : B256 := ⟨(beBytes 32 x.toNat).toArray, by simp⟩

/-- `U256::from_be_bytes`. -/
def U256.fromBeBytes (b : B256) : U256 := BitVec.ofNat 256 (beValue b.toList)

@[simp] theorem U256.toList_toBeBytes (x : U256) :
    (U256.toBeBytes x).toList = beBytes 32 x.toNat := by
  simp [U256.toBeBytes]

theorem U256.fromBeBytes_toBeBytes (x : U256) : U256.fromBeBytes (U256.toBeBytes x) = x := by
  have hlt : x.toNat < 256 ^ 32 := x.isLt
  rw [U256.fromBeBytes, U256.toList_toBeBytes, beValue_beBytes_of_lt hlt, BitVec.ofNat_toNat,
    BitVec.setWidth_eq]

variable (P : Primitives)

/-- The log-insertion sequence of the atomic commits: number the log with
    the running counter and file it under its block, under `txKey` and in
    the pending-event queue. -/
def insertLogUnder (txKey : String) (log : SyntheticLog) (s : InMemoryStore) : InMemoryStore :=
  let log := { log with logIndex := s.logCounter }
  { s with
    logCounter := s.logCounter + 1
    logsByBlock := pushEntry s.logsByBlock log.blockNumber log
    logsByTx := pushEntry s.logsByTx txKey log
    pendingEvents := s.pendingEvents ++ [log] }

/-- `insert_log`: number the log with the running counter and file it under
    its block, its lowercased transaction hash and the pending-event queue. -/
def insertLog (log : SyntheticLog) (s : InMemoryStore) : InMemoryStore :=
  insertLogUnder (P.toLowercase log.transactionHash) log s

end Store

namespace Store

variable (P : Primitives) (key : String) (log : SyntheticLog) (s : InMemoryStore)

/-! ## Frame lemmas of log insertion -/

@[simp] theorem insertLogUnder_claimed : (insertLogUnder key log s).claimed = s.claimed := rfl
@[simp] theorem insertLogUnder_txNoteLinks :
    (insertLogUnder key log s).txNoteLinks = s.txNoteLinks := rfl
@[simp] theorem insertLogUnder_transactions :
    (insertLogUnder key log s).transactions = s.transactions := rfl
@[simp] theorem insertLogUnder_reconcileCursor :
    (insertLogUnder key log s).reconcileCursor = s.reconcileCursor := rfl
@[simp] theorem insertLogUnder_processedNotes :
    (insertLogUnder key log s).processedNotes = s.processedNotes := rfl
@[simp] theorem insertLogUnder_depositCounter :
    (insertLogUnder key log s).depositCounter = s.depositCounter := rfl
@[simp] theorem insertLogUnder_letGateBaseline :
    (insertLogUnder key log s).letGateBaseline = s.letGateBaseline := rfl
@[simp] theorem insertLogUnder_hashChainValue :
    (insertLogUnder key log s).hashChainValue = s.hashChainValue := rfl
@[simp] theorem insertLogUnder_seenGers :
    (insertLogUnder key log s).seenGers = s.seenGers := rfl
@[simp] theorem insertLogUnder_injectedGers :
    (insertLogUnder key log s).injectedGers = s.injectedGers := rfl
@[simp] theorem insertLogUnder_nonces : (insertLogUnder key log s).nonces = s.nonces := rfl
@[simp] theorem insertLogUnder_nonceReservations :
    (insertLogUnder key log s).nonceReservations = s.nonceReservations := rfl
@[simp] theorem insertLogUnder_logsByTx :
    (insertLogUnder key log s).logsByTx =
      pushEntry s.logsByTx key { log with logIndex := s.logCounter } := rfl
@[simp] theorem insertLogUnder_logsByBlock :
    (insertLogUnder key log s).logsByBlock =
      pushEntry s.logsByBlock log.blockNumber { log with logIndex := s.logCounter } := rfl

end Store
