import MidenAgglayer.Store.Ger
import MidenAgglayer.Store.Nonces

/-! # Transaction Receipts

    The `transactions` rows of `InMemoryStore` (`src/store/memory.rs`) and
    the calls that write their `result`: `none` is pending, `some (ok ())`
    a landed success, `some (error e)` a failure that exposes status 0.

    * `txnBegin` and `txnBeginIfAbsent` create pending rows;
    * `txnCommit` is the success-always-wins compare-and-set: a success is
      never overwritten, a failure only overwrites a pending row, and a
      failure for a hash with a note handoff link is ignored outright, since
      the outcome is ambiguous until the note is observed;
    * `txnCommitConfirmedDuplicate` settles a pending row as it is told;
    * `commitRevertedReceiptAndAdvanceNonce` writes a reverted row unless a
      real receipt (a success, or a linked pending row) is there, and
      advances the signer's nonce by compare-and-set.

    `txn_commit_pending` and `txn_expire_pending` are loops of `txn_commit`
    calls, each taking the locks anew; `txnCommitPending` and
    `txnExpirePending` model the loops, and every interleaving of their
    calls is a sequence of `txnCommit` steps.

    The bridge address of the receipt logs is the process-wide
    `get_bridge_address()`, a parameter here.
-/

open Bytes Maps

namespace Store

variable (P : Primitives)

/-! ## Creating rows -/

/-- The pending row a `TxnEntry` opens. -/
def TxnEntry.pendingReceipt (entry : TxnEntry) : TxnReceipt where
  id := entry.id
  envelopeNonce := entry.envelopeNonce
  signer := entry.signer
  expiresAt := entry.expiresAt
  result := none
  blockNum := 0
  logs := entry.logs
  recoveryAttempts := 0
  nextRecoveryAt := none

/-- `txn_begin`: open a pending row; an existing row is an error. -/
def txnBegin (txHash : TxHash) (entry : TxnEntry) (s : InMemoryStore) :
    InMemoryStore × Except StoreError Unit :=
  if s.transactions.contains txHash then (s, .error (.transactionExists txHash))
  else ({ s with transactions := s.transactions.insert txHash entry.pendingReceipt }, .ok ())

/-- The refresh of an existing row by `txn_begin_if_absent`: a pending row
    takes the entry's id, expiry and logs where the entry has them. -/
def TxnReceipt.refresh (receipt : TxnReceipt) (entry : TxnEntry) : TxnReceipt :=
  match receipt.result with
  | none =>
    { receipt with
      id := if entry.id.isSome then entry.id else receipt.id
      expiresAt := if entry.expiresAt.isSome then entry.expiresAt else receipt.expiresAt
      logs := if entry.logs.isEmpty then receipt.logs else entry.logs }
  | some _ => receipt

/-- `txn_begin_if_absent`: open a pending row, or refresh the existing one. -/
def txnBeginIfAbsent (txHash : TxHash) (entry : TxnEntry) (s : InMemoryStore) :
    InMemoryStore × Bool :=
  match s.transactions[txHash]? with
  | some receipt =>
    ({ s with transactions := s.transactions.insert txHash (receipt.refresh entry) }, false)
  | none => ({ s with transactions := s.transactions.insert txHash entry.pendingReceipt }, true)

/-! ## Committing results -/

/-- The success-always-wins rule of `txn_commit`: whether a result
    (`isOk`) overwrites the current one. -/
def applyCommit (current : Option (Except String Unit)) (isOk : Bool) : Bool :=
  match current, isOk with
  | some (.ok _), _ => false
  | _, true => true
  | none, false => true
  | some (.error _), false => false

/-- The synthetic log of one receipt log of a committed transaction. -/
def receiptLog (bridgeAddress : String) (txHash : TxHash) (blockNum : Nat) (blockHash : B256)
    (logData : LogData) : SyntheticLog where
  address := bridgeAddress
  topics := logData.topics.map fun topic => hexText P topic.toList
  data := hexText P logData.data
  blockNumber := blockNum
  blockHash := blockHash
  transactionHash := P.txKey txHash
  transactionIndex := 0
  logIndex := 0
  removed := false

/-- The effects of a successful commit: drain the calldata backlog entry and
    emit the receipt's logs. -/
def emitReceiptLogs (bridgeAddress : String) (txHash : TxHash) (blockNum : Nat)
    (blockHash : B256) (logs : List LogData) (s : InMemoryStore) : InMemoryStore :=
  logs.foldl (fun s logData => insertLog P (receiptLog P bridgeAddress txHash blockNum blockHash logData) s)
    { s with claimCalldataPending := s.claimCalldataPending.erase (P.txKey txHash) }

/-- `txn_commit`. -/
def txnCommit (bridgeAddress : String) (txHash : TxHash) (result : Except String Unit)
    (blockNum : Nat) (blockHash : B256) (s : InMemoryStore) :
    InMemoryStore × Except StoreError Unit :=
  -- a failure of a linked transaction is ambiguous: never expose status 0
  if !result.isOk && s.txNoteLinks.contains (P.txKey txHash) then (s, .ok ())
  else
    match s.transactions[txHash]? with
    | none => (s, .error (.transactionNotFound txHash))
    | some receipt =>
      if applyCommit receipt.result result.isOk then
        let s' := { s with
          transactions := s.transactions.insert txHash
            { receipt with result := some result, blockNum := blockNum } }
        if result.isOk then
          (emitReceiptLogs P bridgeAddress txHash blockNum blockHash receipt.logs s', .ok ())
        else (s', .ok ())
      else (s, .ok ())

/-- `txn_commit_confirmed_duplicate`: settle a pending row, dropping its
    logs. -/
def txnCommitConfirmedDuplicate (txHash : TxHash) (result : Except String Unit) (blockNum : Nat)
    (s : InMemoryStore) : InMemoryStore × Except StoreError Unit :=
  match s.transactions[txHash]? with
  | none => (s, .error (.transactionNotFound txHash))
  | some receipt =>
    match receipt.result with
    | none =>
      ({ s with
        transactions := s.transactions.insert txHash
          { receipt with result := some result, blockNum := blockNum, logs := [] } }, .ok ())
    | some _ => (s, .ok ())

/-- `txn_pending_by_miden_id`: a pending row of the Miden transaction, as
    iteration meets it. -/
def txnPendingByMidenId (id : TransactionId) (s : InMemoryStore) : Option TxHash :=
  (s.transactions.toList.find? fun p => p.2.result.isNone && p.2.id == some id).map Prod.fst

/-- `txn_commit_pending`: commit, one call at a time, the pending row of
    each Miden id; a failed commit is logged and skipped. -/
def txnCommitPending (bridgeAddress : String) (ids : List TransactionId) (blockNum : Nat)
    (blockHash : B256) (s : InMemoryStore) : InMemoryStore :=
  ids.foldl (fun s id =>
    match txnPendingByMidenId id s with
    | some txHash => (txnCommit P bridgeAddress txHash (.ok ()) blockNum blockHash s).1
    | none => s) s

/-- `u64::MAX`. -/
def u64Max : Nat := 2 ^ 64 - 1

/-- The rows `txn_expire_pending` collects: pending, and expired by
    `block_num` (`expires_at.unwrap_or(u64::MAX)`). -/
def expiredPending (blockNum : Nat) (s : InMemoryStore) : List TxHash :=
  (s.transactions.toList.filter fun p =>
    p.2.result.isNone && decide (p.2.expiresAt.getD u64Max ≤ blockNum)).map Prod.fst

/-- `txn_expire_pending`: fail each collected row with `"expired"`, one
    `txn_commit` at a time. -/
def txnExpirePending (bridgeAddress : String) (blockNum : Nat) (blockHash : B256)
    (s : InMemoryStore) : InMemoryStore :=
  (expiredPending blockNum s).foldl
    (fun s txHash => (txnCommit P bridgeAddress txHash (.error "expired") blockNum blockHash s).1) s

/-- The write rule of `commit_reverted_receipt_and_advance_nonce`: never
    overwrite a real receipt, a success or a linked pending row. -/
def mayWriteReverted (row : Option TxnReceipt) (linked : Bool) : Bool :=
  match row with
  | none => true
  | some receipt =>
    match receipt.result with
    | none => !linked
    | some (.ok _) => false
    | some (.error _) => true

/-- `commit_reverted_receipt_and_advance_nonce`: the reverted row and the
    nonce compare-and-set in one step. -/
def commitRevertedReceiptAndAdvanceNonce (txHash : TxHash) (entry : TxnEntry) (reason : String)
    (blockNum : Nat) (addr : String) (expectedNonce : Nat) (s : InMemoryStore) :
    InMemoryStore × Bool :=
  let transactions :=
    if mayWriteReverted s.transactions[txHash]? (s.txNoteLinks.contains (P.txKey txHash)) then
      s.transactions.insert txHash
        { entry.pendingReceipt with result := some (.error reason), blockNum := blockNum, logs := [] }
    else s.transactions
  let r := advanceNonce (P.toLowercase addr) expectedNonce s.nonces
  ({ s with transactions := transactions, nonces := r.1 }, r.2)

/-! ## Rows after each call -/

section Rows

variable (s : InMemoryStore)

/-- Emitting logs writes no row. -/
theorem foldl_insertLog_transactions {α : Type} (f : α → SyntheticLog) (logs : List α)
    (s : InMemoryStore) :
    (logs.foldl (fun s x => insertLog P (f x) s) s).transactions = s.transactions := by
  induction logs generalizing s with
  | nil => rfl
  | cons x xs ih => exact (ih _).trans (insertLogUnder_transactions _ _ s)

theorem emitReceiptLogs_transactions (bridgeAddress : String) (txHash : TxHash) (blockNum : Nat)
    (blockHash : B256) (logs : List LogData) :
    (emitReceiptLogs P bridgeAddress txHash blockNum blockHash logs s).transactions =
      s.transactions :=
  foldl_insertLog_transactions P _ logs _

/-- Emitting logs touches no nonce, reservation or handoff link. -/
theorem foldl_insertLog_frame {α : Type} (f : α → SyntheticLog) (logs : List α)
    (s : InMemoryStore) :
    (logs.foldl (fun s x => insertLog P (f x) s) s).nonces = s.nonces ∧
      (logs.foldl (fun s x => insertLog P (f x) s) s).nonceReservations = s.nonceReservations ∧
      (logs.foldl (fun s x => insertLog P (f x) s) s).txNoteLinks = s.txNoteLinks := by
  induction logs generalizing s with
  | nil => exact ⟨rfl, rfl, rfl⟩
  | cons x xs ih => exact ih _

/-- A refresh keeps the row's envelope. -/
@[simp] theorem TxnReceipt.refresh_signer (receipt : TxnReceipt) (entry : TxnEntry) :
    (receipt.refresh entry).signer = receipt.signer := by
  unfold TxnReceipt.refresh
  split <;> rfl

@[simp] theorem TxnReceipt.refresh_envelopeNonce (receipt : TxnReceipt) (entry : TxnEntry) :
    (receipt.refresh entry).envelopeNonce = receipt.envelopeNonce := by
  unfold TxnReceipt.refresh
  split <;> rfl

/-- A refresh keeps the row's result. -/
@[simp] theorem TxnReceipt.refresh_result (receipt : TxnReceipt) (entry : TxnEntry) :
    (receipt.refresh entry).result = receipt.result := by
  unfold TxnReceipt.refresh
  split <;> simp_all

/-- `txn_commit` writes only the row of its hash, and only as the
    success-always-wins rule allows; a failure of a linked hash writes
    nothing. -/
theorem txnCommit_transactions (bridgeAddress : String) (txHash : TxHash)
    (result : Except String Unit) (blockNum : Nat) (blockHash : B256) :
    (txnCommit P bridgeAddress txHash result blockNum blockHash s).1.transactions = s.transactions ∨
      ∃ receipt, s.transactions[txHash]? = some receipt ∧
        applyCommit receipt.result result.isOk = true ∧
        (result.isOk = false → s.txNoteLinks.contains (P.txKey txHash) = false) ∧
        (txnCommit P bridgeAddress txHash result blockNum blockHash s).1.transactions =
          s.transactions.insert txHash { receipt with result := some result, blockNum := blockNum } := by
  unfold txnCommit
  split
  · exact .inl rfl
  · rename_i hlink
    split
    · exact .inl rfl
    · rename_i receipt hrow
      split
      · rename_i happly
        have hlink' : result.isOk = false → s.txNoteLinks.contains (P.txKey txHash) = false := by
          intro hfail
          simpa [hfail] using hlink
        refine .inr ⟨receipt, hrow, happly, hlink', ?_⟩
        split
        · exact emitReceiptLogs_transactions P _ _ _ _ _ _
        · rfl
      · exact .inl rfl

/-- `txn_commit` writes rows and logs only. -/
theorem txnCommit_frame (bridgeAddress : String) (txHash : TxHash) (result : Except String Unit)
    (blockNum : Nat) (blockHash : B256) :
    (txnCommit P bridgeAddress txHash result blockNum blockHash s).1.nonces = s.nonces ∧
      (txnCommit P bridgeAddress txHash result blockNum blockHash s).1.nonceReservations =
        s.nonceReservations ∧
      (txnCommit P bridgeAddress txHash result blockNum blockHash s).1.txNoteLinks =
        s.txNoteLinks := by
  unfold txnCommit
  split
  · exact ⟨rfl, rfl, rfl⟩
  · split
    · exact ⟨rfl, rfl, rfl⟩
    · split
      · split
        · exact foldl_insertLog_frame P _ _ _
        · exact ⟨rfl, rfl, rfl⟩
      · exact ⟨rfl, rfl, rfl⟩

end Rows

end Store

