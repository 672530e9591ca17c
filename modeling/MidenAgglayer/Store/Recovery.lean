import MidenAgglayer.Service.SendRawTxn
import MidenAgglayer.Framework.Limbs
import MidenAgglayer.Framework.Runs

/-! # The Store Side of Orphan Recovery

    The calls of `InMemoryStore` (`src/store/memory.rs`) that the recovery
    sweep of `src/orphan_recovery.rs` makes beside the receipt and handoff
    calls of `Store/Receipts.lean` and `Store/Claims.lean`.

    * `recoverablePendingTxns` lists the pending rows, sorted by signer and
      then nonce, at most `limit` of them (`recoverable_pending_txns`).
    * `recordRecoveryAttempt` is the eligibility compare-and-set: only a row
      that is still pending, without a Miden id and without a note handoff
      link takes the new attempt count and next-attempt time
      (`record_recovery_attempt`).
    * `clearRecoveryBackoff` resets both (`clear_recovery_backoff`).
    * `isGerInjected` reads the injected GER set (`is_ger_injected`).

    Of a `RecoverablePendingTxn` the model keeps what the sweep reads: the
    hash, the signer text, the envelope's nonce and the backoff columns.
    The envelope's call is decoded from the hash by the sweep's
    configuration; the recorded Miden id, the handoff state and the age feed
    only its gauges and logs.
-/

open Bytes Maps

namespace Store

variable (P : Primitives)

/-- `RecoverablePendingTxn`. -/
structure RecoverablePendingTxn where
  txHash : TxHash
  /-- The row's signer as `format!("{:#x}", signer)`. -/
  signer : String
  nonce : Nat
  recoveryAttempts : Nat
  nextRecoveryAt : Option Nat
  deriving DecidableEq

/-- The recoverable view of one pending row. -/
def RecoverablePendingTxn.ofRow (signerKey : Address → String) (txHash : TxHash) (row : TxnReceipt) :
    RecoverablePendingTxn where
  txHash := txHash
  signer := signerKey row.signer
  nonce := row.envelopeNonce
  recoveryAttempts := row.recoveryAttempts
  nextRecoveryAt := row.nextRecoveryAt

/-- The scan's order, `a.signer.cmp(&b.signer).then(a.nonce.cmp(&b.nonce))`. -/
def RecoverablePendingTxn.cmp (a b : RecoverablePendingTxn) : Ordering :=
  (compare a.signer b.signer).then (compare a.nonce b.nonce)

/-- `recoverable_pending_txns(limit)`. -/
def recoverablePendingTxns (signerKey : Address → String) (limit : Nat) (s : InMemoryStore) :
    InMemoryStore × List RecoverablePendingTxn :=
  if limit = 0 then (s, [])
  else
    let out := (s.transactions.toList.filter fun p => p.2.result.isNone).map fun p =>
      RecoverablePendingTxn.ofRow signerKey p.1 p.2
    (s, (sortBy RecoverablePendingTxn.cmp out).take limit)

/-- The error of a compare-and-set that matched no eligible row. -/
def notEligibleError (txHash : TxHash) : String :=
  let key := P.txKey txHash
  s!"record_recovery_attempt: row {key} no longer an eligible orphan (concurrently linked / terminalised / miden-id recorded); rescan"

/-- `record_recovery_attempt`: the eligibility compare-and-set. The count
    is a `u32` that saturates. -/
def recordRecoveryAttempt (txHash : TxHash) (nextRecoveryAt : Nat) (s : InMemoryStore) :
    InMemoryStore × Except String Nat :=
  let linked := s.txNoteLinks.contains (P.txKey txHash)
  match s.transactions[txHash]? with
  | some row =>
    if row.result.isNone && row.id.isNone && !linked then
      let attempts := min (row.recoveryAttempts + 1) (2 ^ 32 - 1)
      ({ s with
        transactions := s.transactions.insert txHash
          { row with recoveryAttempts := attempts, nextRecoveryAt := some nextRecoveryAt } },
        .ok attempts)
    else (s, .error (notEligibleError P txHash))
  | none => (s, .error (notEligibleError P txHash))

/-- `clear_recovery_backoff`. -/
def clearRecoveryBackoff (txHash : TxHash) (s : InMemoryStore) : InMemoryStore × Unit :=
  ({ s with
    transactions := s.transactions.modify txHash fun row =>
      { row with recoveryAttempts := 0, nextRecoveryAt := none } }, ())

/-- `is_ger_injected`. -/
def isGerInjected (ger : B256) (s : InMemoryStore) : Bool := s.injectedGers.contains ger

/-! ## The scan -/

section Scan

variable (signerKey : Address → String) (limit : Nat) (s : InMemoryStore)

/-- The scan's comparator is the lexicographic one of signer and nonce. -/
theorem RecoverablePendingTxn.cmp_eq_compareLex :
    RecoverablePendingTxn.cmp =
      compareLex (compareOn RecoverablePendingTxn.signer) (compareOn RecoverablePendingTxn.nonce) := rfl

instance RecoverablePendingTxn.instTransCmp : Std.TransCmp RecoverablePendingTxn.cmp := by
  rw [RecoverablePendingTxn.cmp_eq_compareLex]
  infer_instance

@[simp] theorem recoverablePendingTxns_store : (recoverablePendingTxns signerKey limit s).1 = s := by
  unfold recoverablePendingTxns
  split <;> rfl

/-- The scan is sorted by signer, then nonce. -/
theorem pairwise_recoverablePendingTxns :
    (recoverablePendingTxns signerKey limit s).2.Pairwise fun a b =>
      (RecoverablePendingTxn.cmp a b).isLE := by
  unfold recoverablePendingTxns
  split
  · exact List.Pairwise.nil
  · exact List.Pairwise.sublist (List.take_sublist _ _) (pairwise_sortBy _ _)

/-- Under the scan's order, a row of the same signer as a later one has a
    nonce no larger. -/
theorem RecoverablePendingTxn.nonce_le_of_cmp {a b : RecoverablePendingTxn}
    (h : (RecoverablePendingTxn.cmp a b).isLE) (hsigner : a.signer = b.signer) : a.nonce ≤ b.nonce := by
  simp only [RecoverablePendingTxn.cmp, hsigner, Std.ReflCmp.compare_self, Ordering.eq_then] at h
  exact Nat.isLE_compare.mp h

/-- Under the scan's order, the signers ascend. -/
theorem RecoverablePendingTxn.signer_isLE_of_cmp {a b : RecoverablePendingTxn}
    (h : (RecoverablePendingTxn.cmp a b).isLE) : (compare a.signer b.signer).isLE := by
  simp only [RecoverablePendingTxn.cmp] at h
  cases hc : compare a.signer b.signer <;> simp_all

end Scan

/-! ## The recovery columns -/

section Attempts

variable (txHash : TxHash) (nextRecoveryAt : Nat) (s : InMemoryStore)

/-- **Compare-and-set rule.** The attempt is recorded on a row that is
    pending, without a Miden id and without a handoff link, and only on
    such a row; otherwise nothing changes. -/
theorem recordRecoveryAttempt_cases :
    (∃ row, s.transactions[txHash]? = some row ∧ row.result = none ∧ row.id = none ∧
      s.txNoteLinks.contains (P.txKey txHash) = false ∧
      recordRecoveryAttempt P txHash nextRecoveryAt s =
        ({ s with
          transactions := s.transactions.insert txHash
            { row with
              recoveryAttempts := min (row.recoveryAttempts + 1) (2 ^ 32 - 1)
              nextRecoveryAt := some nextRecoveryAt } },
          .ok (min (row.recoveryAttempts + 1) (2 ^ 32 - 1)))) ∨
    recordRecoveryAttempt P txHash nextRecoveryAt s = (s, .error (notEligibleError P txHash)) := by
  unfold recordRecoveryAttempt
  cases hrow : s.transactions[txHash]? with
  | none => exact .inr rfl
  | some row =>
    dsimp only
    by_cases helig : (row.result.isNone && row.id.isNone && !s.txNoteLinks.contains (P.txKey txHash)) = true
    · simp only [Bool.and_eq_true, Option.isNone_iff_eq_none, Bool.not_eq_true'] at helig
      obtain ⟨⟨hres, hid⟩, hlink⟩ := helig
      refine .inl ⟨row, rfl, hres, hid, hlink, ?_⟩
      simp [hres, hid, hlink]
    · exact .inr (by simp only [Bool.not_eq_true] at helig; simp [helig])

/-- A successful compare-and-set writes the time it was given. -/
theorem recordRecoveryAttempt_ok {attempts : Nat}
    (h : (recordRecoveryAttempt P txHash nextRecoveryAt s).2 = .ok attempts) :
    ∃ row, s.transactions[txHash]? = some row ∧ row.result = none ∧ row.id = none ∧
      s.txNoteLinks.contains (P.txKey txHash) = false ∧
      attempts = min (row.recoveryAttempts + 1) (2 ^ 32 - 1) ∧
      (recordRecoveryAttempt P txHash nextRecoveryAt s).1 =
        { s with
          transactions := s.transactions.insert txHash
            { row with recoveryAttempts := attempts, nextRecoveryAt := some nextRecoveryAt } } := by
  rcases recordRecoveryAttempt_cases P txHash nextRecoveryAt s with ⟨row, hrow, hres, hid, hlink, heq⟩ | heq
  · rw [heq] at h
    cases h
    exact ⟨row, hrow, hres, hid, hlink, rfl, by rw [heq]⟩
  · rw [heq] at h
    cases h

end Attempts

end Store
