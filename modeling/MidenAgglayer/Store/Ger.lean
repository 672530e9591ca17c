import MidenAgglayer.Store.Claims

/-! # Global Exit Root Commits

    `commit_ger_event_atomic` of `InMemoryStore` (`src/store/memory.rs`):
    the one atomic commit of an injected global exit root. It

    * confirms the transaction's note handoff link;
    * records the GER in `seen_gers` at its first sighting;
    * rolls the hash chain, `chain := keccak256(chain ‖ ger)`, and emits the
      `UpdateHashChainValue` log, unless a log is already filed under the
      lowercased transaction hash (the idempotence gate of audit H2);
    * marks the GER injected and finalises a real transaction's receipt.

    The gated roll is its own definition, `rollHashChainOnce`, so that the
    chain and the logs are read off it alone.
-/

open Bytes Maps

namespace Store

variable (P : Primitives)

/-- One roll of the GER hash chain: `keccak256(chain ‖ ger)`. -/
def rollHashChain (chain ger : B256) : B256 :=
  P.keccak256 (chain.toList ++ ger.toList)

/-- The `seen_gers` update: the first sighting of a GER records its entry
    and makes it the latest. -/
def recordSeenGer (ger : B256) (entry : GerEntry) (s : InMemoryStore) : InMemoryStore :=
  if s.seenGers.contains ger then s
  else { s with seenGers := s.seenGers.insert ger entry, latestGer := some ger }

/-- The `UpdateHashChainValue` log of a roll to `newHashChain`. -/
def hashChainLog (blockNumber : Nat) (blockHash : B256) (txKey : String)
    (ger newHashChain : B256) : SyntheticLog where
  address := l2GlobalExitRootAddress
  topics := [updateHashChainValueTopic, hexText P ger.toList, hexText P newHashChain.toList]
  data := "0x"
  blockNumber := blockNumber
  blockHash := blockHash
  transactionHash := txKey
  transactionIndex := 0
  logIndex := 0
  removed := false

/-- The gated roll: roll the chain and file its log under `txKey`, unless
    a log is already filed there. -/
def rollHashChainOnce (blockNumber : Nat) (blockHash : B256) (txKey : String) (ger : B256)
    (s : InMemoryStore) : InMemoryStore :=
  if s.logsByTx.contains txKey then s
  else
    let newHashChain := rollHashChain P s.hashChainValue ger
    insertLogUnder txKey (hashChainLog P blockNumber blockHash txKey ger newHashChain)
      { s with hashChainValue := newHashChain }

/-- `commit_ger_event_atomic`. -/
def commitGerEventAtomic (blockNumber : Nat) (blockHash : B256) (txHash : String)
    (globalExitRoot : B256) (mainnetExitRoot rollupExitRoot : Option B256) (timestamp : Nat)
    (s : InMemoryStore) : InMemoryStore :=
  let txKey := P.toLowercase txHash
  let s₁ := { s with txNoteLinks := confirmLink txKey s.txNoteLinks }
  let s₂ := recordSeenGer globalExitRoot
    { mainnetExitRoot := mainnetExitRoot, rollupExitRoot := rollupExitRoot,
      blockNumber := blockNumber, timestamp := timestamp, evidenceVerified := false } s₁
  let s₃ := rollHashChainOnce P blockNumber blockHash txKey globalExitRoot s₂
  { s₃ with
    injectedGers := s₃.injectedGers.insert globalExitRoot
    transactions := finaliseReceipt P txHash blockNumber s₃.transactions }

/-! ## The gated roll -/

section Roll

variable (blockNumber : Nat) (blockHash : B256) (txKey : String) (ger : B256) (s : InMemoryStore)

/-- The chain rolls exactly when no log is filed under the key. -/
theorem rollHashChainOnce_hashChainValue :
    (rollHashChainOnce P blockNumber blockHash txKey ger s).hashChainValue =
      if s.logsByTx.contains txKey then s.hashChainValue
      else rollHashChain P s.hashChainValue ger := by
  unfold rollHashChainOnce
  split <;> rfl

/-- After the roll a log is filed under the key, and under no other new key. -/
theorem rollHashChainOnce_contains (k : String) :
    (rollHashChainOnce P blockNumber blockHash txKey ger s).logsByTx.contains k = true ↔
      s.logsByTx.contains k = true ∨ k = txKey := by
  unfold rollHashChainOnce
  split
  · rename_i h
    constructor
    · exact .inl
    · rintro (hk | rfl)
      · exact hk
      · exact h
  · simp only [insertLogUnder_logsByTx, pushEntry, Std.HashMap.contains_insert, Bool.or_eq_true,
      beq_iff_eq]
    rw [eq_comm, or_comm]

/-- A retried roll changes neither the chain nor any log. -/
theorem rollHashChainOnce_of_contains (h : s.logsByTx.contains txKey = true) :
    rollHashChainOnce P blockNumber blockHash txKey ger s = s := by
  unfold rollHashChainOnce
  rw [if_pos h]

/-- A first roll files exactly one log, under the key and its block: the
    `UpdateHashChainValue` log of its GER and the rolled chain. -/
theorem rollHashChainOnce_of_not_contains (h : s.logsByTx.contains txKey = false) :
    ∃ log, log.topics = [updateHashChainValueTopic, hexText P ger.toList,
        hexText P (rollHashChain P s.hashChainValue ger).toList] ∧
      (rollHashChainOnce P blockNumber blockHash txKey ger s).logsByTx[txKey]? = some [log] ∧
      (allValues (rollHashChainOnce P blockNumber blockHash txKey ger s).logsByBlock).Perm
        (log :: allValues s.logsByBlock) ∧
      (rollHashChainOnce P blockNumber blockHash txKey ger s).pendingEvents =
        s.pendingEvents ++ [log] := by
  unfold rollHashChainOnce
  rw [if_neg (by simp [h])]
  have hnone : s.logsByTx.getD txKey [] = [] := by
    rw [Std.HashMap.getD_eq_getD_getElem?, Std.HashMap.getElem?_eq_none_of_contains_eq_false h]
    rfl
  refine ⟨_, rfl, ?_, allValues_pushEntry _ _ _, rfl⟩
  simp [pushEntry, hnone]

end Roll

/-! ## The commit -/

section Commit

variable (blockNumber : Nat) (blockHash : B256) (txHash : String) (ger : B256)
  (mainnetExitRoot rollupExitRoot : Option B256) (timestamp : Nat) (s : InMemoryStore)

/-- The logs, the chain and the pending events of a commit are those of
    its gated roll from the store itself: the steps before the roll write
    neither. -/
theorem commitGerEventAtomic_logs :
    let s' := commitGerEventAtomic P blockNumber blockHash txHash ger mainnetExitRoot
      rollupExitRoot timestamp s
    let r := rollHashChainOnce P blockNumber blockHash (P.toLowercase txHash) ger s
    s'.hashChainValue = r.hashChainValue ∧ s'.logsByTx = r.logsByTx ∧
      s'.logsByBlock = r.logsByBlock ∧ s'.pendingEvents = r.pendingEvents ∧
      s'.logCounter = r.logCounter := by
  unfold commitGerEventAtomic recordSeenGer rollHashChainOnce
  by_cases hseen : s.seenGers.contains ger <;> by_cases hlog : s.logsByTx.contains (P.toLowercase txHash) <;>
    simp [hseen, hlog, insertLogUnder]

/-- After a commit its GER is injected and seen. -/
theorem commitGerEventAtomic_injected_seen :
    (commitGerEventAtomic P blockNumber blockHash txHash ger mainnetExitRoot rollupExitRoot
        timestamp s).injectedGers.contains ger = true ∧
      (commitGerEventAtomic P blockNumber blockHash txHash ger mainnetExitRoot rollupExitRoot
        timestamp s).seenGers.contains ger = true := by
  unfold commitGerEventAtomic recordSeenGer rollHashChainOnce
  by_cases hseen : s.seenGers.contains ger <;> by_cases hlog : s.logsByTx.contains (P.toLowercase txHash) <;>
    simp [hseen, hlog, insertLogUnder]

/-- A commit finalises the receipt of its transaction, and writes no other
    row. -/
theorem commitGerEventAtomic_transactions :
    (commitGerEventAtomic P blockNumber blockHash txHash ger mainnetExitRoot rollupExitRoot
        timestamp s).transactions = finaliseReceipt P txHash blockNumber s.transactions := by
  unfold commitGerEventAtomic recordSeenGer rollHashChainOnce
  by_cases hseen : s.seenGers.contains ger <;> by_cases hlog : s.logsByTx.contains (P.toLowercase txHash) <;>
    simp [hseen, hlog]

end Commit

/-! ## The L1 evidence upsert -/

section Evidence

/-- `combined_ger` (`src/ger.rs`): `keccak256(mainnet ‖ rollup)`. -/
def combinedGer (mainnetExitRoot rollupExitRoot : B256) : B256 :=
  P.keccak256 (mainnetExitRoot.toList ++ rollupExitRoot.toList)

/-- `set_ger_exit_roots`: the L1 indexer's upsert of a GER's decomposition
    and L1 origin. It overwrites every field of the entry, and marks the
    evidence verified. -/
def setGerExitRoots (ger mainnetExitRoot rollupExitRoot : B256) (l1BlockNumber l1Timestamp : UInt64)
    (s : InMemoryStore) : InMemoryStore :=
  let entry := s.seenGers[ger]?.getD
    { mainnetExitRoot := none, rollupExitRoot := none, blockNumber := 0, timestamp := 0,
      evidenceVerified := false }
  { s with
    seenGers := s.seenGers.insert ger
      { entry with
        mainnetExitRoot := some mainnetExitRoot, rollupExitRoot := some rollupExitRoot
        blockNumber := l1BlockNumber.toNat, timestamp := l1Timestamp.toNat
        evidenceVerified := true } }

@[simp] theorem seenGers_setGerExitRoots (ger mainnetExitRoot rollupExitRoot : B256)
    (l1BlockNumber l1Timestamp : UInt64) (s : InMemoryStore) :
    (setGerExitRoots ger mainnetExitRoot rollupExitRoot l1BlockNumber l1Timestamp s).seenGers =
      s.seenGers.insert ger ⟨some mainnetExitRoot, some rollupExitRoot, l1BlockNumber.toNat,
        l1Timestamp.toNat, true⟩ := rfl

end Evidence

end Store

