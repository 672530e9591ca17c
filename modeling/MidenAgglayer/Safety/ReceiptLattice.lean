import MidenAgglayer.Framework.Run
import MidenAgglayer.Store.Receipts

/-! # The Receipt-State Lattice

    A dozen store calls from the writer, the projector, recovery and the
    sync listener write the `result` of `transactions` rows. A row exposes
    one of four statuses: absent, pending, success (status 1) or failed
    (status 0). Over every interleaving of these calls, from any store, with
    rows never evicted:

    * a success stays a success;
    * a row whose hash has a note handoff link never turns from pending or
      success into a failure, except by `txn_commit_confirmed_duplicate` on
      a pending row;
    * a pending row fails only by an unlinked `txn_commit` failure, an
      unlinked `commit_reverted_receipt_and_advance_nonce`, or
      `txn_commit_confirmed_duplicate`;
    * a failed row returns to pending only by
      `clear_expired_prepared_note_handoff`.

    `txn_commit_pending` and `txn_expire_pending` are sequences of
    `txn_commit` calls (`Store.Receipts`), so the `txnCommit` step covers
    every interleaving of their calls.

    The engine is one step lemma, `receiptStep_rowStep`, assembled from one
    status lemma per call.
-/

open Bytes Maps

namespace Store

variable (P : Primitives)

/-! ## Section 1: Row statuses -/

/-- What a row exposes. -/
inductive RowStatus where
  | absent
  | pending
  | success
  | failed
  deriving DecidableEq

/-- The status of a row. -/
def RowStatus.ofRow : Option TxnReceipt → RowStatus
  | none => .absent
  | some receipt =>
    match receipt.result with
    | none => .pending
    | some (.ok _) => .success
    | some (.error _) => .failed

/-- The status of the row of `txHash`. -/
def rowStatus (s : InMemoryStore) (txHash : TxHash) : RowStatus :=
  RowStatus.ofRow s.transactions[txHash]?

/-- Whether `txHash` has a note handoff link, under its `{:#x}` key. -/
def linked (s : InMemoryStore) (txHash : TxHash) : Bool :=
  s.txNoteLinks.contains (P.txKey txHash)

theorem ofRow_insert (m : Std.HashMap TxHash TxnReceipt) (h₀ h : TxHash) (r : TxnReceipt) :
    RowStatus.ofRow (m.insert h₀ r)[h]? =
      if h₀ = h then RowStatus.ofRow (some r) else RowStatus.ofRow m[h]? := by
  rw [Std.HashMap.getElem?_insert]
  by_cases hh : h₀ = h
  · simp [hh]
  · simp [hh]

/-- A row written with a failure fails. -/
theorem ofRow_error (r : TxnReceipt) {e : String} (h : r.result = some (.error e)) :
    RowStatus.ofRow (some r) = .failed := by
  simp [RowStatus.ofRow, h]

/-! ## Section 2: The calls as one transition system -/

/-- The store calls that write transaction rows or the links they read. -/
inductive ReceiptOp where
  | txnBegin (txHash : TxHash) (entry : TxnEntry)
  | txnBeginIfAbsent (txHash : TxHash) (entry : TxnEntry)
  | txnCommit (txHash : TxHash) (result : Except String Unit) (blockNum : Nat) (blockHash : B256)
  | txnCommitConfirmedDuplicate (txHash : TxHash) (result : Except String Unit) (blockNum : Nat)
  | commitRevertedReceiptAndAdvanceNonce (txHash : TxHash) (entry : TxnEntry) (reason : String)
      (blockNum : Nat) (addr : String) (expectedNonce : Nat)
  | commitGerEventAtomic (blockNumber : Nat) (blockHash : B256) (txHash : String)
      (globalExitRoot : B256) (mainnetExitRoot rollupExitRoot : Option B256) (timestamp : Nat)
  | commitManualClaimEventAtomic (noteId bridgeAddress : String) (blockNumber : Nat)
      (blockHash : B256) (txHash : String) (globalIndex : B256) (originNetwork : Nat)
      (originAddress destinationAddress : Address) (amount now : Nat)
  | prepareNoteHandoff (txHash noteCommitment noteId : String) (expirationBlock : Nat)
  | prepareClaimSubmissionFenced (gi : U256) (owner : TxHash) (fence : Nat) (txHash : TxHash)
      (noteCommitment noteId : String) (expirationBlock now : Nat)
  | clearExpiredPreparedNoteHandoff (txHash noteCommitment : String)
  | setReconcileCursor (block : Nat)

/-- The replies of the receipt calls. -/
inductive ReceiptReply where
  | unit (r : Except StoreError Unit)
  | flag (b : Bool)
  | claim (r : Except StoreError Bool)
  | done

/-- One call on the store; `bridgeAddress` is the process-wide bridge
    address of the receipt logs. -/
def receiptStep (bridgeAddress : String) (s : InMemoryStore) :
    ReceiptOp → InMemoryStore × ReceiptReply
  | .txnBegin txHash entry =>
    let r := txnBegin txHash entry s
    (r.1, .unit r.2)
  | .txnBeginIfAbsent txHash entry =>
    let r := txnBeginIfAbsent txHash entry s
    (r.1, .flag r.2)
  | .txnCommit txHash result blockNum blockHash =>
    let r := txnCommit P bridgeAddress txHash result blockNum blockHash s
    (r.1, .unit r.2)
  | .txnCommitConfirmedDuplicate txHash result blockNum =>
    let r := txnCommitConfirmedDuplicate txHash result blockNum s
    (r.1, .unit r.2)
  | .commitRevertedReceiptAndAdvanceNonce txHash entry reason blockNum addr expectedNonce =>
    let r := commitRevertedReceiptAndAdvanceNonce P txHash entry reason blockNum addr expectedNonce s
    (r.1, .flag r.2)
  | .commitGerEventAtomic blockNumber blockHash txHash globalExitRoot mainnetExitRoot
      rollupExitRoot timestamp =>
    (commitGerEventAtomic P blockNumber blockHash txHash globalExitRoot mainnetExitRoot
      rollupExitRoot timestamp s, .done)
  | .commitManualClaimEventAtomic noteId bridgeAddress' blockNumber blockHash txHash globalIndex
      originNetwork originAddress destinationAddress amount now =>
    (commitManualClaimEventAtomic P noteId bridgeAddress' blockNumber blockHash txHash globalIndex
      originNetwork originAddress destinationAddress amount now s, .done)
  | .prepareNoteHandoff txHash noteCommitment noteId expirationBlock =>
    let r := prepareNoteHandoff txHash noteCommitment noteId expirationBlock s
    (r.1, .unit r.2)
  | .prepareClaimSubmissionFenced gi owner fence txHash noteCommitment noteId expirationBlock now =>
    let r := prepareClaimSubmissionFenced P gi owner fence txHash noteCommitment noteId
      expirationBlock now s
    (r.1, .claim r.2)
  | .clearExpiredPreparedNoteHandoff txHash noteCommitment =>
    let r := clearExpiredPreparedNoteHandoff P txHash noteCommitment s
    (r.1, .flag r.2)
  | .setReconcileCursor block => ({ s with reconcileCursor := block }, .done)

/-! ## Section 3: The status moves of each call

    Each lemma says that the call leaves the status of the row of `h` as it
    is, or makes one move of its own. -/

section Moves

variable {P} (s : InMemoryStore) (h : TxHash)

theorem rowStatus_txnBegin (h₀ : TxHash) (entry : TxnEntry) :
    rowStatus (txnBegin h₀ entry s).1 h = rowStatus s h ∨
      (rowStatus s h = .absent ∧ rowStatus (txnBegin h₀ entry s).1 h = .pending) := by
  unfold txnBegin
  split
  · exact .inl rfl
  · rename_i hfresh
    unfold rowStatus
    rw [ofRow_insert]
    by_cases hh : h₀ = h
    · subst hh
      refine .inr ⟨?_, by simp [RowStatus.ofRow, TxnEntry.pendingReceipt]⟩
      rw [Std.HashMap.getElem?_eq_none_of_contains_eq_false (by simpa using hfresh)]
      rfl
    · exact .inl (if_neg hh)

theorem rowStatus_txnBeginIfAbsent (h₀ : TxHash) (entry : TxnEntry) :
    rowStatus (txnBeginIfAbsent h₀ entry s).1 h = rowStatus s h ∨
      (rowStatus s h = .absent ∧ rowStatus (txnBeginIfAbsent h₀ entry s).1 h = .pending) := by
  unfold txnBeginIfAbsent
  split
  · rename_i receipt hrow
    -- a refresh keeps the result, so the status
    refine .inl ?_
    unfold rowStatus
    rw [ofRow_insert]
    split
    · rename_i hh
      subst hh
      rw [hrow]
      simp [RowStatus.ofRow]
    · rfl
  · rename_i hrow
    unfold rowStatus
    rw [ofRow_insert]
    by_cases hh : h₀ = h
    · subst hh
      exact .inr ⟨by rw [hrow]; rfl, by simp [RowStatus.ofRow, TxnEntry.pendingReceipt]⟩
    · exact .inl (if_neg hh)

/-- `txn_commit` moves only the row of its hash: a success to success, a
    failure of a pending unlinked row to failed. -/
theorem rowStatus_txnCommit (bridgeAddress : String) (h₀ : TxHash) (result : Except String Unit)
    (blockNum : Nat) (blockHash : B256) :
    rowStatus (txnCommit P bridgeAddress h₀ result blockNum blockHash s).1 h = rowStatus s h ∨
      (h₀ = h ∧ rowStatus s h ≠ .success ∧
        ((result.isOk = true ∧
            rowStatus (txnCommit P bridgeAddress h₀ result blockNum blockHash s).1 h = .success) ∨
          (result.isOk = false ∧ rowStatus s h = .pending ∧ linked P s h = false ∧
            rowStatus (txnCommit P bridgeAddress h₀ result blockNum blockHash s).1 h = .failed))) := by
  rcases txnCommit_transactions P s bridgeAddress h₀ result blockNum blockHash with
    htx | ⟨receipt, hrow, happly, hlink, htx⟩
  · exact .inl (by rw [rowStatus, htx]; rfl)
  · unfold rowStatus
    rw [htx, ofRow_insert]
    by_cases hh : h₀ = h
    · subst hh
      rw [if_pos rfl, hrow]
      -- the rule applies only to a row that is not a success; a failure only
      -- to a pending one
      refine .inr ⟨rfl, ?_, ?_⟩
      · rcases hres : receipt.result with _ | (e | u)
        · simp [RowStatus.ofRow, hres]
        · simp [RowStatus.ofRow, hres]
        · rw [hres] at happly
          simp [applyCommit] at happly
      · cases hok : result with
        | ok u => exact .inl ⟨rfl, by simp [RowStatus.ofRow]⟩
        | error e =>
          refine .inr ⟨rfl, ?_, hlink (by rw [hok]; rfl), by simp [RowStatus.ofRow]⟩
          rw [hok] at happly
          rcases hres : receipt.result with _ | (e' | u)
          · simp [RowStatus.ofRow, hres]
          · rw [hres] at happly
            simp [applyCommit, Except.isOk, Except.toBool] at happly
          · rw [hres] at happly
            simp [applyCommit] at happly
    · exact .inl (if_neg hh)

/-- `txn_commit_confirmed_duplicate` settles only a pending row of its hash. -/
theorem rowStatus_txnCommitConfirmedDuplicate (h₀ : TxHash) (result : Except String Unit)
    (blockNum : Nat) :
    rowStatus (txnCommitConfirmedDuplicate h₀ result blockNum s).1 h = rowStatus s h ∨
      (h₀ = h ∧ rowStatus s h = .pending ∧
        (rowStatus (txnCommitConfirmedDuplicate h₀ result blockNum s).1 h = .success ∨
          rowStatus (txnCommitConfirmedDuplicate h₀ result blockNum s).1 h = .failed)) := by
  unfold txnCommitConfirmedDuplicate
  split
  · exact .inl rfl
  · rename_i receipt hrow
    split
    · rename_i hpending
      unfold rowStatus
      rw [ofRow_insert]
      by_cases hh : h₀ = h
      · subst hh
        rw [if_pos rfl, hrow]
        refine .inr ⟨rfl, by simp [RowStatus.ofRow, hpending], ?_⟩
        cases result <;> simp [RowStatus.ofRow]
      · exact .inl (if_neg hh)
    · exact .inl rfl

/-- `commit_reverted_receipt_and_advance_nonce` fails only the row of its
    hash, and only an absent, failed, or pending unlinked one. -/
theorem rowStatus_commitRevertedReceiptAndAdvanceNonce (h₀ : TxHash) (entry : TxnEntry)
    (reason : String) (blockNum : Nat) (addr : String) (expectedNonce : Nat) :
    rowStatus (commitRevertedReceiptAndAdvanceNonce P h₀ entry reason blockNum addr
        expectedNonce s).1 h = rowStatus s h ∨
      (h₀ = h ∧
        rowStatus (commitRevertedReceiptAndAdvanceNonce P h₀ entry reason blockNum addr
          expectedNonce s).1 h = .failed ∧
        (rowStatus s h = .absent ∨ rowStatus s h = .failed ∨
          (rowStatus s h = .pending ∧ linked P s h = false))) := by
  unfold commitRevertedReceiptAndAdvanceNonce
  dsimp only
  split
  · rename_i hwrite
    unfold rowStatus
    rw [ofRow_insert]
    by_cases hh : h₀ = h
    · subst hh
      rw [if_pos rfl]
      refine .inr ⟨rfl, ofRow_error _ rfl, ?_⟩
      -- the write rule admits exactly these three rows
      unfold mayWriteReverted at hwrite
      rcases hrow : s.transactions[h₀]? with _ | receipt
      · exact .inl rfl
      · rw [hrow] at hwrite
        dsimp only at hwrite
        rcases hres : receipt.result with _ | (e | u)
        · rw [hres] at hwrite
          exact .inr (.inr ⟨by simp [RowStatus.ofRow, hres],
            by simpa [linked] using hwrite⟩)
        · exact .inr (.inl (by simp [RowStatus.ofRow, hres]))
        · rw [hres] at hwrite
          cases hwrite
    · exact .inl (if_neg hh)
  · exact .inl rfl

/-- A landing finalises an existing row as a success, or leaves it. -/
theorem ofRow_finaliseReceipt (txHash : String) (blockNumber : Nat)
    (m : Std.HashMap TxHash TxnReceipt) :
    RowStatus.ofRow (finaliseReceipt P txHash blockNumber m)[h]? = RowStatus.ofRow m[h]? ∨
      (RowStatus.ofRow m[h]? ≠ .absent ∧
        RowStatus.ofRow (finaliseReceipt P txHash blockNumber m)[h]? = .success) := by
  unfold finaliseReceipt
  split
  · rename_i h₀ _
    split
    · rename_i receipt hrow
      rw [ofRow_insert]
      by_cases hh : h₀ = h
      · subst hh
        rw [if_pos rfl, hrow]
        exact .inr ⟨by simp [RowStatus.ofRow]; split <;> simp, by simp [RowStatus.ofRow]⟩
      · exact .inl (if_neg hh)
    · exact .inl rfl
  · exact .inl rfl

/-- Clearing an expired handoff returns a failed row to pending, or leaves
    it. -/
theorem ofRow_clearHandoff (txHash noteCommitment : String) (claimed : Std.HashMap U256 ClaimRecord) :
    RowStatus.ofRow (clearHandoff P txHash noteCommitment claimed s).transactions[h]? = rowStatus s h ∨
      (P.parseTxHash txHash = some h ∧ rowStatus s h = .failed ∧
        RowStatus.ofRow (clearHandoff P txHash noteCommitment claimed s).transactions[h]? = .pending) := by
  unfold clearHandoff
  dsimp only
  split
  · rename_i h₀ hparse
    split
    · rename_i receipt hrow
      split
      · rename_i e hres
        rw [ofRow_insert]
        by_cases hh : h₀ = h
        · subst hh
          rw [if_pos rfl]
          exact .inr ⟨hparse, by simp [rowStatus, hrow, RowStatus.ofRow, hres],
            by simp [RowStatus.ofRow]⟩
        · exact .inl (if_neg hh)
      · exact .inl rfl
    · exact .inl rfl
  · exact .inl rfl

end Moves

/-! ## Section 4: One step -/

/-- The calls that may fail a pending row of `h`: a `txn_commit` failure or
    a reverted receipt while `h` is unlinked, or a confirmed duplicate. -/
def FailsPending (s : InMemoryStore) (h : TxHash) (op : ReceiptOp) : Prop :=
  (∃ e blockNum blockHash, op = .txnCommit h (.error e) blockNum blockHash ∧ linked P s h = false) ∨
  (∃ entry reason blockNum addr expectedNonce,
    op = .commitRevertedReceiptAndAdvanceNonce h entry reason blockNum addr expectedNonce ∧
      linked P s h = false) ∨
  (∃ result blockNum, op = .txnCommitConfirmedDuplicate h result blockNum)

/-- What one call `op` from `s` to `s'` may do to the row of `h`. -/
structure RowStep (op : ReceiptOp) (s s' : InMemoryStore) (h : TxHash) : Prop where
  success_stays : rowStatus s h = .success → rowStatus s' h = .success
  linked_fails : linked P s h = true → (rowStatus s h = .pending ∨ rowStatus s h = .success) →
    rowStatus s' h = .failed →
    rowStatus s h = .pending ∧ ∃ result blockNum, op = .txnCommitConfirmedDuplicate h result blockNum
  pending_fails : rowStatus s h = .pending → rowStatus s' h = .failed → FailsPending P s h op
  failed_resets : rowStatus s h = .failed → rowStatus s' h = .pending →
    ∃ txHash noteCommitment, op = .clearExpiredPreparedNoteHandoff txHash noteCommitment ∧
      P.parseTxHash txHash = some h

section RowStep

variable {P} {op : ReceiptOp} {s s' : InMemoryStore} {h : TxHash}

/-- A call that keeps the status is allowed. -/
theorem RowStep.of_eq (heq : rowStatus s' h = rowStatus s h) : RowStep P op s s' h where
  success_stays hs := heq.trans hs
  linked_fails _ hst hf := by
    rcases hst with hst | hst <;> rw [heq, hst] at hf <;> cases hf
  pending_fails hp hf := by
    rw [heq, hp] at hf
    cases hf
  failed_resets hf hp := by
    rw [heq, hf] at hp
    cases hp

/-- Anything may be made of an absent row. -/
theorem RowStep.of_absent (habs : rowStatus s h = .absent) : RowStep P op s s' h where
  success_stays hs := by
    rw [habs] at hs
    cases hs
  linked_fails _ hst _ := by
    rcases hst with hst | hst <;> rw [habs] at hst <;> cases hst
  pending_fails hp _ := by
    rw [habs] at hp
    cases hp
  failed_resets hf _ := by
    rw [habs] at hf
    cases hf

/-- A call that ends in a success is allowed. -/
theorem RowStep.of_success (hs' : rowStatus s' h = .success) : RowStep P op s s' h where
  success_stays _ := hs'
  linked_fails _ _ hf := by
    rw [hs'] at hf
    cases hf
  pending_fails _ hf := by
    rw [hs'] at hf
    cases hf
  failed_resets _ hp := by
    rw [hs'] at hp
    cases hp

/-- A call that keeps the status or makes an allowed move is allowed. -/
theorem RowStep.of_or {Move : Prop} (hmove : Move → RowStep P op s s' h)
    (h' : rowStatus s' h = rowStatus s h ∨ Move) : RowStep P op s s' h := by
  rcases h' with heq | hm
  · exact RowStep.of_eq heq
  · exact hmove hm

end RowStep

/-- **Step lemma.** Every call moves the row of `h` only as the lattice
    allows. -/
theorem receiptStep_rowStep (bridgeAddress : String) (s : InMemoryStore) (op : ReceiptOp)
    (h : TxHash) : RowStep P op s (receiptStep P bridgeAddress s op).1 h := by
  cases op with
  | txnBegin h₀ entry =>
    exact RowStep.of_or (fun hm => RowStep.of_absent hm.1) (rowStatus_txnBegin s h h₀ entry)
  | txnBeginIfAbsent h₀ entry =>
    exact RowStep.of_or (fun hm => RowStep.of_absent hm.1) (rowStatus_txnBeginIfAbsent s h h₀ entry)
  | txnCommit h₀ result blockNum blockHash =>
    refine RowStep.of_or ?_ (rowStatus_txnCommit s h bridgeAddress h₀ result blockNum blockHash)
    rintro ⟨rfl, hne, ⟨hok, hs'⟩ | ⟨hfail, hp, hunlinked, hf'⟩⟩
    · exact RowStep.of_success hs'
    · -- a failure of a pending unlinked row: the first kind of failing call
      refine ⟨fun hs => absurd hs hne, fun hl _ _ => ?_, fun _ _ => ?_, fun _ hp' => ?_⟩
      · rw [hunlinked] at hl
        cases hl
      · cases result with
        | ok u => cases hfail
        | error e => exact .inl ⟨e, blockNum, blockHash, rfl, hunlinked⟩
      · rw [show (receiptStep P bridgeAddress s (.txnCommit h₀ result blockNum blockHash)).1 =
          (txnCommit P bridgeAddress h₀ result blockNum blockHash s).1 from rfl, hf'] at hp'
        cases hp'
  | txnCommitConfirmedDuplicate h₀ result blockNum =>
    refine RowStep.of_or ?_ (rowStatus_txnCommitConfirmedDuplicate s h h₀ result blockNum)
    rintro ⟨rfl, hp, hs'⟩
    refine ⟨fun hs => ?_, fun _ _ _ => ⟨hp, result, blockNum, rfl⟩,
      fun _ _ => .inr (.inr ⟨result, blockNum, rfl⟩), fun hf => ?_⟩
    · rw [hp] at hs
      cases hs
    · rw [hp] at hf
      cases hf
  | commitRevertedReceiptAndAdvanceNonce h₀ entry reason blockNum addr expectedNonce =>
    refine RowStep.of_or ?_
      (rowStatus_commitRevertedReceiptAndAdvanceNonce s h h₀ entry reason blockNum addr expectedNonce)
    rintro ⟨rfl, hf', hwas⟩
    refine ⟨fun hs => ?_, fun hl hst _ => ?_, fun hp _ => ?_, fun _ hp' => ?_⟩
    · rcases hwas with hw | hw | ⟨hw, -⟩ <;> rw [hw] at hs <;> cases hs
    · rcases hwas with hw | hw | ⟨-, hw⟩
      · rcases hst with hst | hst <;> rw [hw] at hst <;> cases hst
      · rcases hst with hst | hst <;> rw [hw] at hst <;> cases hst
      · rw [hw] at hl
        cases hl
    · -- only the unlinked pending row is written: the second kind
      rcases hwas with hw | hw | ⟨-, hw⟩
      · rw [hw] at hp
        cases hp
      · rw [hw] at hp
        cases hp
      · exact .inr (.inl ⟨entry, reason, blockNum, addr, expectedNonce, rfl, hw⟩)
    · rw [show (receiptStep P bridgeAddress s
          (.commitRevertedReceiptAndAdvanceNonce h₀ entry reason blockNum addr expectedNonce)).1 =
          (commitRevertedReceiptAndAdvanceNonce P h₀ entry reason blockNum addr expectedNonce s).1
          from rfl, hf'] at hp'
      cases hp'
  | commitGerEventAtomic blockNumber blockHash txHash ger mainnetExitRoot rollupExitRoot timestamp =>
    have hfin := ofRow_finaliseReceipt (P := P) h txHash blockNumber s.transactions
    rw [← commitGerEventAtomic_transactions P blockNumber blockHash txHash ger mainnetExitRoot
      rollupExitRoot timestamp s] at hfin
    exact RowStep.of_or (fun hm => RowStep.of_success hm.2) hfin
  | commitManualClaimEventAtomic noteId bridgeAddress' blockNumber blockHash txHash globalIndex
      originNetwork originAddress destinationAddress amount now =>
    have hfin := ofRow_finaliseReceipt (P := P) h txHash blockNumber s.transactions
    rw [← commitManualClaimEventAtomic_transactions P s noteId bridgeAddress' blockNumber blockHash
      txHash globalIndex originNetwork originAddress destinationAddress amount now] at hfin
    exact RowStep.of_or (fun hm => RowStep.of_success hm.2) hfin
  | prepareNoteHandoff txHash noteCommitment noteId expirationBlock =>
    refine RowStep.of_eq ?_
    simp only [receiptStep, rowStatus]
    rw [prepareNoteHandoff_transactions]
  | prepareClaimSubmissionFenced gi owner fence txHash noteCommitment noteId expirationBlock now =>
    refine RowStep.of_eq ?_
    simp only [receiptStep, rowStatus]
    rw [prepareClaimSubmissionFenced_transactions]
  | clearExpiredPreparedNoteHandoff txHash noteCommitment =>
    rcases clearExpiredPreparedNoteHandoff_transactions P s txHash noteCommitment with htx | htx
    · refine RowStep.of_eq ?_
      simp only [receiptStep, rowStatus]
      rw [htx]
    · have hclear := ofRow_clearHandoff (P := P) s h txHash noteCommitment s.claimed
      rw [← htx] at hclear
      refine RowStep.of_or ?_ hclear
      rintro ⟨hparse, hf, hp'⟩
      refine ⟨fun hs => ?_, fun _ hst _ => ?_, fun hp _ => ?_,
        fun _ _ => ⟨txHash, noteCommitment, rfl, hparse⟩⟩
      · rw [hf] at hs
        cases hs
      · rcases hst with hst | hst <;> rw [hf] at hst <;> cases hst
      · rw [hf] at hp
        cases hp
  | setReconcileCursor block => exact RowStep.of_eq rfl

/-! ## Section 5: The loops are runs of commits -/

/-- `txn_expire_pending`, run with nothing interleaved, is the run of its
    `txn_commit` calls over the rows it collected. -/
theorem txnExpirePending_eq_run (bridgeAddress : String) (blockNum : Nat) (blockHash : B256)
    (s : InMemoryStore) :
    txnExpirePending P bridgeAddress blockNum blockHash s =
      Run.final (receiptStep P bridgeAddress) s
        ((expiredPending blockNum s).map fun h => .txnCommit h (.error "expired") blockNum blockHash) := by
  unfold txnExpirePending
  -- the collected list is fixed in front of the loop; induct on it
  generalize expiredPending blockNum s = hashes
  induction hashes generalizing s with
  | nil => rfl
  | cons h hashes ih => exact ih _

/-- `txn_commit_pending`, run with nothing interleaved, is a run of
    successful `txn_commit` calls. -/
theorem txnCommitPending_eq_run (bridgeAddress : String) (ids : List TransactionId)
    (blockNum : Nat) (blockHash : B256) (s : InMemoryStore) :
    ∃ hashes : List TxHash, txnCommitPending P bridgeAddress ids blockNum blockHash s =
      Run.final (receiptStep P bridgeAddress) s
        (hashes.map fun h => .txnCommit h (.ok ()) blockNum blockHash) := by
  induction ids generalizing s with
  | nil => exact ⟨[], rfl⟩
  | cons id ids ih =>
    unfold txnCommitPending
    rw [List.foldl_cons]
    split
    · rename_i h _
      obtain ⟨hashes, hrun⟩ := ih (txnCommit P bridgeAddress h (.ok ()) blockNum blockHash s).1
      exact ⟨h :: hashes, hrun⟩
    · exact ih s

/-! ## Section 6: Every run -/

section Runs

variable (bridgeAddress : String) (s₀ : InMemoryStore) (ops : List ReceiptOp) (h : TxHash)

/-- The step at position `i` of a run is allowed. -/
theorem rowStep_at {i : Nat} {op : ReceiptOp} (hi : ops[i]? = some op) :
    RowStep P op (Run.final (receiptStep P bridgeAddress) s₀ (ops.take i))
      (Run.final (receiptStep P bridgeAddress) s₀ (ops.take (i + 1))) h := by
  obtain ⟨hlt, rfl⟩ := List.getElem?_eq_some_iff.mp hi
  rw [Run.final_take_succ _ _ _ hlt]
  exact receiptStep_rowStep P bridgeAddress _ _ h

/-- **Run lemma.** A success stays a success along the run. -/
theorem success_along {i : Nat}
    (hs : rowStatus (Run.final (receiptStep P bridgeAddress) s₀ (ops.take i)) h = .success) :
    ∀ j, i ≤ j → rowStatus (Run.final (receiptStep P bridgeAddress) s₀ (ops.take j)) h = .success := by
  intro j hij
  induction j, hij using Nat.le_induction with
  | base => exact hs
  | succ n _ ih =>
    rcases hop : ops[n]? with _ | op
    · rw [List.getElem?_eq_none_iff] at hop
      rwa [List.take_of_length_le (by omega)] at ih ⊢
    · exact (rowStep_at P bridgeAddress s₀ ops h hop).success_stays ih

end Runs

/-- **Receipt-state lattice.** Over every run of the receipt calls from any
    store, for every transaction hash `h`: a success stays a success; a
    linked row never turns from pending or success into a failure except by
    a confirmed duplicate of a pending row; a pending row fails only by an
    unlinked `txn_commit` failure, an unlinked reverted receipt, or a
    confirmed duplicate; and a failed row returns to pending only by the
    clearing of an expired handoff of `h`. -/
theorem receipt_state_lattice (bridgeAddress : String) (s₀ : InMemoryStore) (ops : List ReceiptOp)
    (h : TxHash) :
    (∀ i j, i ≤ j →
      rowStatus (Run.final (receiptStep P bridgeAddress) s₀ (ops.take i)) h = .success →
      rowStatus (Run.final (receiptStep P bridgeAddress) s₀ (ops.take j)) h = .success) ∧
    (∀ i op, ops[i]? = some op →
      linked P (Run.final (receiptStep P bridgeAddress) s₀ (ops.take i)) h = true →
      (rowStatus (Run.final (receiptStep P bridgeAddress) s₀ (ops.take i)) h = .pending ∨
        rowStatus (Run.final (receiptStep P bridgeAddress) s₀ (ops.take i)) h = .success) →
      rowStatus (Run.final (receiptStep P bridgeAddress) s₀ (ops.take (i + 1))) h = .failed →
      rowStatus (Run.final (receiptStep P bridgeAddress) s₀ (ops.take i)) h = .pending ∧
        ∃ result blockNum, op = .txnCommitConfirmedDuplicate h result blockNum) ∧
    (∀ i op, ops[i]? = some op →
      rowStatus (Run.final (receiptStep P bridgeAddress) s₀ (ops.take i)) h = .pending →
      rowStatus (Run.final (receiptStep P bridgeAddress) s₀ (ops.take (i + 1))) h = .failed →
      (∃ e blockNum blockHash, op = .txnCommit h (.error e) blockNum blockHash ∧
        linked P (Run.final (receiptStep P bridgeAddress) s₀ (ops.take i)) h = false) ∨
      (∃ entry reason blockNum addr expectedNonce,
        op = .commitRevertedReceiptAndAdvanceNonce h entry reason blockNum addr expectedNonce ∧
          linked P (Run.final (receiptStep P bridgeAddress) s₀ (ops.take i)) h = false) ∨
      (∃ result blockNum, op = .txnCommitConfirmedDuplicate h result blockNum)) ∧
    (∀ i op, ops[i]? = some op →
      rowStatus (Run.final (receiptStep P bridgeAddress) s₀ (ops.take i)) h = .failed →
      rowStatus (Run.final (receiptStep P bridgeAddress) s₀ (ops.take (i + 1))) h = .pending →
      ∃ txHash noteCommitment, op = .clearExpiredPreparedNoteHandoff txHash noteCommitment ∧
        P.parseTxHash txHash = some h) := by
  refine ⟨fun i j hij hs => success_along P bridgeAddress s₀ ops h hs j hij, ?_, ?_, ?_⟩
  · intro i op hi
    exact (rowStep_at P bridgeAddress s₀ ops h hi).linked_fails
  · intro i op hi
    exact (rowStep_at P bridgeAddress s₀ ops h hi).pending_fails
  · intro i op hi
    exact (rowStep_at P bridgeAddress s₀ ops h hi).failed_resets

end Store

