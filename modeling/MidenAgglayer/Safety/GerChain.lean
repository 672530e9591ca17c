import MidenAgglayer.Framework.Run
import MidenAgglayer.Store.Ger

/-! # GER Hash-Chain Agreement

    The proxy's GER hash chain must equal aggkit's: the left fold of
    `acc := keccak256(acc ‖ ger)` from 32 zero bytes over the injected GERs,
    each once. `commit_ger_event_atomic` rolls the chain behind an
    idempotence gate keyed on the lowercased transaction hash, so a retried
    commit — after a crash, or with the hash in another letter case — rolls
    nothing and emits nothing.

    Over every sequence of commits from a store holding no log under the
    commits' hashes:

    * the gate is closed in front of a commit exactly when an earlier commit
      had the same lowercased hash;
    * the final chain is the fold over the first commit of each lowercased
      hash (`Run.fresh`), in call order;
    * each such commit files exactly one `UpdateHashChainValue` log, whose
      topics are its GER and the chain right after its roll;
    * a repeated commit changes neither the chain nor the logs;
    * after every commit its GER is injected and seen.

    The fold is `Run.final_fresh`, the rule of an idempotence gate, at the
    gate "a log is filed under the key".
-/

open Bytes Maps

namespace Store

variable (P : Primitives)

/-! ## Section 1: Commits as a transition system -/

/-- The arguments of one `commit_ger_event_atomic` call. -/
structure GerCall where
  blockNumber : Nat
  blockHash : B256
  txHash : String
  globalExitRoot : B256
  mainnetExitRoot : Option B256
  rollupExitRoot : Option B256
  timestamp : Nat

/-- One GER commit on the store. -/
def gerStep (s : InMemoryStore) (c : GerCall) : InMemoryStore × Unit :=
  (commitGerEventAtomic P c.blockNumber c.blockHash c.txHash c.globalExitRoot c.mainnetExitRoot
    c.rollupExitRoot c.timestamp s, ())

/-- The key of a commit's gate and log: its lowercased transaction hash. -/
def gerKey (c : GerCall) : String := P.toLowercase c.txHash

/-- The gate: a log is filed under the key. -/
def logFiled (s : InMemoryStore) (k : String) : Bool := s.logsByTx.contains k

/-! ## Section 2: One commit -/

section Step

variable (s : InMemoryStore) (c : GerCall)

theorem gerStep_logFiled (k : String) :
    logFiled (gerStep P s c).1 k = true ↔ logFiled s k = true ∨ k = gerKey P c := by
  unfold logFiled gerStep gerKey
  rw [(commitGerEventAtomic_logs P _ _ _ _ _ _ _ s).2.1]
  exact rollHashChainOnce_contains P _ _ _ _ s k

theorem gerStep_hashChainValue :
    (gerStep P s c).1.hashChainValue =
      if logFiled s (gerKey P c) then s.hashChainValue
      else rollHashChain P s.hashChainValue c.globalExitRoot := by
  unfold logFiled gerStep gerKey
  rw [(commitGerEventAtomic_logs P _ _ _ _ _ _ _ s).1]
  exact rollHashChainOnce_hashChainValue P _ _ _ _ s

/-- A commit whose key has a log changes neither the chain nor the logs. -/
theorem gerStep_of_logFiled (h : logFiled s (gerKey P c) = true) :
    (gerStep P s c).1.hashChainValue = s.hashChainValue ∧
      (gerStep P s c).1.logsByTx = s.logsByTx ∧
      (gerStep P s c).1.logsByBlock = s.logsByBlock ∧
      (gerStep P s c).1.pendingEvents = s.pendingEvents ∧
      (gerStep P s c).1.logCounter = s.logCounter := by
  have hlogs := commitGerEventAtomic_logs P c.blockNumber c.blockHash c.txHash c.globalExitRoot
    c.mainnetExitRoot c.rollupExitRoot c.timestamp s
  dsimp only at hlogs
  rw [rollHashChainOnce_of_contains P c.blockNumber c.blockHash (P.toLowercase c.txHash)
    c.globalExitRoot s h] at hlogs
  exact hlogs

/-- A commit whose key has no log rolls the chain and files exactly one
    log, whose topics are its GER and the rolled chain. -/
theorem gerStep_of_not_logFiled (h : logFiled s (gerKey P c) = false) :
    (gerStep P s c).1.hashChainValue = rollHashChain P s.hashChainValue c.globalExitRoot ∧
      ∃ log, log.topics = [updateHashChainValueTopic, hexText P c.globalExitRoot.toList,
          hexText P (gerStep P s c).1.hashChainValue.toList] ∧
        (gerStep P s c).1.logsByTx[gerKey P c]? = some [log] ∧
        (allValues (gerStep P s c).1.logsByBlock).Perm (log :: allValues s.logsByBlock) := by
  have hchain : (gerStep P s c).1.hashChainValue =
      rollHashChain P s.hashChainValue c.globalExitRoot := by
    rw [gerStep_hashChainValue, h]
    rfl
  obtain ⟨hc, htx, hblock, -, -⟩ := commitGerEventAtomic_logs P c.blockNumber c.blockHash c.txHash
    c.globalExitRoot c.mainnetExitRoot c.rollupExitRoot c.timestamp s
  obtain ⟨log, htopics, hlog, hperm, -⟩ :=
    rollHashChainOnce_of_not_contains P c.blockNumber c.blockHash _ c.globalExitRoot s h
  refine ⟨hchain, log, by rw [hchain]; exact htopics, ?_, ?_⟩
  · exact htx ▸ hlog
  · exact hblock ▸ hperm

end Step

/-! ## Section 3: Every run of commits -/

/-- **GER hash-chain agreement.** Over every sequence of GER commits from a
    store whose chain is 32 zero bytes and which holds no log under the
    commits' lowercased hashes: the gate is closed in front of a commit
    exactly when an earlier commit had its lowercased hash; the final chain
    is the fold of `keccak256(acc ‖ ger)` over the first commit of each
    lowercased hash, in call order; each such commit files exactly one log,
    whose topics are its GER and the chain right after its roll; a repeated
    commit changes neither the chain nor the logs; and after every commit
    its GER is injected and seen. -/
theorem ger_hash_chain_agreement (s₀ : InMemoryStore) (calls : List GerCall)
    (hchain : s₀.hashChainValue = zeroWord)
    (hfresh : ∀ c ∈ calls, s₀.logsByTx.contains (P.toLowercase c.txHash) = false) :
    (∀ i c, calls[i]? = some c →
      ((Run.final (gerStep P) s₀ (calls.take i)).logsByTx.contains (P.toLowercase c.txHash) = true ↔
        ∃ j c', j < i ∧ calls[j]? = some c' ∧ P.toLowercase c'.txHash = P.toLowercase c.txHash)) ∧
    (Run.final (gerStep P) s₀ calls).hashChainValue =
      ((Run.fresh (gerKey P) [] calls).map GerCall.globalExitRoot).foldl (rollHashChain P) zeroWord ∧
    (∀ i c, calls[i]? = some c →
      (∀ j c', j < i → calls[j]? = some c' → P.toLowercase c'.txHash ≠ P.toLowercase c.txHash) →
      (Run.final (gerStep P) s₀ (calls.take (i + 1))).hashChainValue =
          rollHashChain P (Run.final (gerStep P) s₀ (calls.take i)).hashChainValue c.globalExitRoot ∧
        ∃ log, log.topics = [updateHashChainValueTopic, hexText P c.globalExitRoot.toList,
            hexText P (Run.final (gerStep P) s₀ (calls.take (i + 1))).hashChainValue.toList] ∧
          (Run.final (gerStep P) s₀ (calls.take (i + 1))).logsByTx[P.toLowercase c.txHash]? =
            some [log] ∧
          (allValues (Run.final (gerStep P) s₀ (calls.take (i + 1))).logsByBlock).Perm
            (log :: allValues (Run.final (gerStep P) s₀ (calls.take i)).logsByBlock)) ∧
    (∀ i j c c', calls[i]? = some c → calls[j]? = some c' → j < i →
      P.toLowercase c'.txHash = P.toLowercase c.txHash →
      let before := Run.final (gerStep P) s₀ (calls.take i)
      let after := Run.final (gerStep P) s₀ (calls.take (i + 1))
      after.hashChainValue = before.hashChainValue ∧ after.logsByTx = before.logsByTx ∧
        after.logsByBlock = before.logsByBlock ∧ after.pendingEvents = before.pendingEvents ∧
        after.logCounter = before.logCounter) ∧
    (∀ i c, calls[i]? = some c →
      (Run.final (gerStep P) s₀ (calls.take (i + 1))).injectedGers.contains c.globalExitRoot = true ∧
        (Run.final (gerStep P) s₀ (calls.take (i + 1))).seenGers.contains c.globalExitRoot = true) := by
  -- the gate in front of commit `i`: a log under the key of an earlier commit
  have hgate : ∀ i c, calls[i]? = some c →
      (logFiled (Run.final (gerStep P) s₀ (calls.take i)) (gerKey P c) = true ↔
        ∃ j c', j < i ∧ calls[j]? = some c' ∧ gerKey P c' = gerKey P c) := by
    intro i c hc
    rw [Run.gate_final (gerStep P) (gerKey P) logFiled (gerStep_logFiled P)]
    have h₀ : logFiled s₀ (gerKey P c) = false := hfresh c (List.mem_of_getElem? hc)
    rw [h₀]
    simp only [Bool.false_eq_true, false_or, List.mem_map]
    constructor
    · rintro ⟨c', hc', hkey⟩
      obtain ⟨j, hj⟩ := List.mem_iff_getElem?.mp hc'
      rw [List.getElem?_take] at hj
      split at hj
      · exact ⟨j, c', ‹_›, hj, hkey⟩
      · cases hj
    · rintro ⟨j, c', hji, hj, hkey⟩
      refine ⟨c', List.mem_iff_getElem?.mpr ⟨j, ?_⟩, hkey⟩
      rw [List.getElem?_take, if_pos hji, hj]
  -- the state after commit `i` is one `gerStep` past the state before it
  have hsucc : ∀ i c, calls[i]? = some c →
      Run.final (gerStep P) s₀ (calls.take (i + 1)) =
        (gerStep P (Run.final (gerStep P) s₀ (calls.take i)) c).1 := by
    intro i c hc
    obtain ⟨hi, rfl⟩ := List.getElem?_eq_some_iff.mp hc
    exact Run.final_take_succ _ _ _ hi
  refine ⟨hgate, ?_, ?_, ?_, ?_⟩
  · -- the chain is the gate rule's fold, started at the zero word
    have hseen : ∀ c ∈ calls, logFiled s₀ (gerKey P c) = true ↔ gerKey P c ∈ ([] : List String) := by
      intro c hc
      have h : logFiled s₀ (gerKey P c) = false := hfresh c hc
      simp [h]
    rw [Run.final_fresh (gerStep P) (gerKey P) logFiled InMemoryStore.hashChainValue
      (fun acc c => rollHashChain P acc c.globalExitRoot) (gerStep_hashChainValue P)
      (gerStep_logFiled P) calls hseen, hchain, List.foldl_map]
  · intro i c hc hfirst
    have hclosed : logFiled (Run.final (gerStep P) s₀ (calls.take i)) (gerKey P c) = false := by
      refine Bool.eq_false_iff.mpr fun h => ?_
      obtain ⟨j, c', hji, hj, hkey⟩ := (hgate i c hc).mp h
      exact hfirst j c' hji hj hkey
    rw [hsucc i c hc]
    exact gerStep_of_not_logFiled P _ c hclosed
  · intro i j c c' hc hc' hji hkey
    have hopen : logFiled (Run.final (gerStep P) s₀ (calls.take i)) (gerKey P c) = true :=
      (hgate i c hc).mpr ⟨j, c', hji, hc', hkey⟩
    simp only
    rw [hsucc i c hc]
    exact gerStep_of_logFiled P _ c hopen
  · intro i c hc
    rw [hsucc i c hc]
    exact commitGerEventAtomic_injected_seen P _ _ _ _ _ _ _ _

/-- A commit retried under the same hash, on a fresh store, rolls the chain
    once. -/
theorem ger_chain_of_retry :
    let c : GerCall := ⟨1, zeroWord, "0xab", Vector.replicate 32 1, none, none, 0⟩
    InMemoryStore.new.hashChainValue = zeroWord ∧
      (∀ c' ∈ [c, { c with blockNumber := 2 }],
        InMemoryStore.new.logsByTx.contains (Primitives.sample.toLowercase c'.txHash) = false) ∧
      (Run.final (gerStep Primitives.sample) InMemoryStore.new
          [c, { c with blockNumber := 2 }]).hashChainValue =
        rollHashChain Primitives.sample zeroWord (Vector.replicate 32 1) := by
  intro c
  have hnew : ∀ c' ∈ [c, { c with blockNumber := 2 }],
      InMemoryStore.new.logsByTx.contains (Primitives.sample.toLowercase c'.txHash) = false := by
    simp [InMemoryStore.new]
  refine ⟨rfl, hnew, ?_⟩
  rw [(ger_hash_chain_agreement Primitives.sample InMemoryStore.new _ rfl hnew).2.1]
  simp [Run.fresh, gerKey, c]

end Store
