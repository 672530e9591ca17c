import Mathlib.Data.List.Perm.Basic
import MidenAgglayer.Client.TransactionOrder

/-! # Execution-Chain Ordering

    LET deposit numbering and restore both take an account's transactions in
    the order `ordered_account_transactions` gives them. Over every input
    list and account:

    * the blocks are visited in ascending order, each block of the account
      once, with its transactions in input order;
    * the call succeeds exactly when every block of two or more transactions
      forms a single chain (`FormsSingleChain`);
    * on success the output holds each of the account's transactions once,
      block by block, numbered from `0` along the block's chain;
    * the result, success or failure, does not depend on the order of the
      input list;
    * a failure names the account and the first block that fails.

    A block of one transaction is taken as it is, even when the transaction
    starts at the state it ends in and its block so has no head
    (`single_transaction_loop_accepted`).
-/

namespace MidenClient

variable {A C : Type} [DecidableEq A] [DecidableEq C]

/-! ## Section 1: The blocks -/

section Blocks

variable (transactions : List (TransactionRecord A C)) (accountId : A)

omit [DecidableEq C] in
/-- The blocks are ascending, and exactly those of the account's
    transactions. -/
theorem keys_byBlock :
    (Groups.keys (byBlock transactions accountId)).Pairwise (· < ·) ∧
      ∀ block, block ∈ Groups.keys (byBlock transactions accountId) ↔
        ∃ tx ∈ transactions.filter (fun tx => tx.transactionHeader.accountId = accountId),
          tx.blockNum = block := by
  rw [byBlock_eq_groupBy]
  have h := Groups.isGrouping_groupBy TransactionRecord.blockNum
    (transactions.filter fun tx => tx.transactionHeader.accountId = accountId)
  exact ⟨h.ascending, Groups.mem_keys_iff _ h⟩

omit [DecidableEq C] in
/-- Every visited block has a transaction. -/
theorem blockTransactions_ne_nil {block : Nat}
    (hblock : block ∈ Groups.keys (byBlock transactions accountId)) :
    (transactions.filter fun tx => tx.transactionHeader.accountId = accountId).filter
      (fun tx => tx.blockNum == block) ≠ [] := by
  obtain ⟨tx, hmem, hnum⟩ := ((keys_byBlock transactions accountId).2 block).mp hblock
  exact List.ne_nil_of_mem (List.mem_filter.mpr ⟨hmem, by simpa using hnum⟩)

end Blocks

/-! ## Section 2: Success -/

section Success

variable (transactions : List (TransactionRecord A C)) (accountId : A)

/-- A call succeeds exactly when every block of two or more transactions
    forms a single chain. -/
theorem exists_orderedAccountTransactions_eq_ok_iff :
    (∃ out, orderedAccountTransactions transactions accountId = .ok out) ↔
      ∀ block ∈ Groups.keys (byBlock transactions accountId),
        let txs := (transactions.filter fun tx => tx.transactionHeader.accountId = accountId).filter
          fun tx => tx.blockNum == block
        2 ≤ txs.length → FormsSingleChain txs := by
  rw [orderedAccountTransactions_eq_mapM, Groups.exists_map_eq_ok_iff,
    Groups.exists_mapM_eq_ok_iff]
  refine forall₂_congr fun block hblock => ?_
  exact exists_orderBlock_eq_ok_iff accountId block (blockTransactions_ne_nil _ _ hblock)

/-- On success, each block's transactions once, along a chain of the block
    numbered from `0`, in ascending block order; every transaction of the
    account appears exactly once. -/
theorem orderedAccountTransactions_eq_ok {out : List (Nat × Nat × TransactionRecord A C)}
    (h : orderedAccountTransactions transactions accountId = .ok out) :
    (out.map fun entry => entry.2.2).Perm
        (transactions.filter fun tx => tx.transactionHeader.accountId = accountId) ∧
      ∃ chain : Nat → List (TransactionRecord A C),
        (∀ block ∈ Groups.keys (byBlock transactions accountId),
          let txs := (transactions.filter fun tx => tx.transactionHeader.accountId = accountId).filter
            fun tx => tx.blockNum == block
          (chain block).Perm txs ∧
            (2 ≤ txs.length → ∃ head, head ∉ txs.map TransactionRecord.finalState ∧
              ChainFrom head (chain block))) ∧
        out = (Groups.keys (byBlock transactions accountId)).flatMap fun block =>
          (chain block).mapIdx fun order tx => (block, order, tx) := by
  set mine := transactions.filter fun tx => tx.transactionHeader.accountId = accountId
  set blocks := Groups.keys (byBlock transactions accountId)
  rw [orderedAccountTransactions_eq_mapM] at h
  cases hm : blocks.mapM (fun block => orderBlock accountId block
      (mine.filter fun tx => tx.blockNum == block)) with
  | error e => rw [hm] at h; cases h
  | ok outs =>
    rw [hm] at h
    cases h
    -- every block succeeded: choose its chain
    have hblock : ∀ block, ∃ chain : List (TransactionRecord A C), block ∈ blocks →
        ((chain.Perm (mine.filter fun tx => tx.blockNum == block) ∧
          (2 ≤ (mine.filter fun tx => tx.blockNum == block).length →
            ∃ head, head ∉ (mine.filter fun tx => tx.blockNum == block).map
              TransactionRecord.finalState ∧ ChainFrom head chain)) ∧
        orderBlock accountId block (mine.filter fun tx => tx.blockNum == block) =
          .ok (chain.mapIdx fun order tx => (block, order, tx))) := by
      intro block
      by_cases hmem : block ∈ blocks
      · obtain ⟨o, ho⟩ := Groups.ok_of_mapM_eq_ok hm block hmem
        obtain ⟨chain, hperm, hchain, rfl⟩ := (orderBlock_eq_ok_iff accountId block
          (blockTransactions_ne_nil transactions accountId hmem) o).mp ho
        exact ⟨chain, fun _ => ⟨⟨hperm, fun hlen => (hchain hlen).2⟩, ho⟩⟩
      · exact ⟨[], fun h => absurd h hmem⟩
    choose chain hchain using hblock
    have houts : outs = blocks.map fun block => (chain block).mapIdx fun order tx => (block, order, tx) := by
      have := Groups.mapM_eq_ok_of_forall _ _ blocks fun block hmem => (hchain block hmem).2
      rw [hm] at this
      cases this
      rfl
    subst houts
    refine ⟨?_, chain, fun block hmem => (hchain block hmem).1, by rw [List.flatMap_def]⟩
    -- the chains are the blocks rearranged, and the blocks the account's transactions
    have hmap : ∀ block, ((chain block).mapIdx fun order tx => (block, order, tx)).map
        (fun entry => entry.2.2) = chain block := by
      intro block
      apply List.ext_getElem <;> simp
    calc ((blocks.map fun block => (chain block).mapIdx fun order tx => (block, order, tx)).flatten.map
            fun entry => entry.2.2)
        = blocks.flatMap chain := by
          rw [List.map_flatten, List.map_map, ← List.flatMap_def]
          exact List.flatMap_congr fun block _ => hmap block
      List.Perm _ (blocks.flatMap fun block => mine.filter fun tx => tx.blockNum == block) :=
          List.Perm.flatMap_left _ fun block hmem => (hchain block hmem).1.1
      List.Perm _ mine := by
          simp only [blocks, byBlock_eq_groupBy]
          exact Groups.flatMap_keys_groupBy_perm _ _

end Success

/-! ## Section 3: Input order and failures -/

section Order

/-- The result, success or failure, does not depend on the order of the
    input list. -/
theorem orderedAccountTransactions_perm {transactions transactions' : List (TransactionRecord A C)}
    (hp : transactions'.Perm transactions) (accountId : A) :
    orderedAccountTransactions transactions' accountId =
      orderedAccountTransactions transactions accountId := by
  have hmine : (transactions'.filter fun tx => tx.transactionHeader.accountId = accountId).Perm
      (transactions.filter fun tx => tx.transactionHeader.accountId = accountId) := hp.filter _
  rw [orderedAccountTransactions_eq_mapM, orderedAccountTransactions_eq_mapM, byBlock_eq_groupBy,
    byBlock_eq_groupBy, Groups.keys_groupBy_perm _ hmine]
  -- each block is a rearrangement of the same block
  congr 2
  funext block
  exact orderBlock_perm accountId block (hmine.filter _)

/-- A failure names the account, and the first block, in ascending order,
    of two or more transactions that forms no single chain. -/
theorem orderedAccountTransactions_eq_error {transactions : List (TransactionRecord A C)}
    {accountId : A} {e : OrderError A}
    (h : orderedAccountTransactions transactions accountId = .error e) :
    let txs := fun block => (transactions.filter fun tx => tx.transactionHeader.accountId = accountId).filter
      fun tx => tx.blockNum == block
    e.accountId = accountId ∧ e.block ∈ Groups.keys (byBlock transactions accountId) ∧
      2 ≤ (txs e.block).length ∧ ¬FormsSingleChain (txs e.block) ∧
      ∀ block ∈ Groups.keys (byBlock transactions accountId), block < e.block →
        2 ≤ (txs block).length → FormsSingleChain (txs block) := by
  intro txs
  rw [orderedAccountTransactions_eq_mapM] at h
  cases hm : (Groups.keys (byBlock transactions accountId)).mapM
      (fun block => orderBlock accountId block (txs block)) with
  | ok outs => rw [hm] at h; cases h
  | error e' =>
    rw [hm] at h
    cases h
    obtain ⟨before, block, after, hsplit, hok, hfail⟩ := Groups.mapM_eq_error hm
    have hmem : block ∈ Groups.keys (byBlock transactions accountId) := by simp [hsplit]
    obtain ⟨haccount, hblock⟩ := orderBlock_error accountId block _ hfail
    rw [hblock]
    -- the failing block does not succeed, so it is no single chain
    have hnot : ¬(2 ≤ (txs block).length → FormsSingleChain (txs block)) := by
      rw [← exists_orderBlock_eq_ok_iff accountId block (blockTransactions_ne_nil _ _ hmem)]
      rintro ⟨out, hout⟩
      rw [hfail] at hout
      cases hout
    refine ⟨haccount, hmem, (Classical.not_imp.mp hnot).1, (Classical.not_imp.mp hnot).2, ?_⟩
    -- an earlier block comes before the failing one, and succeeded
    intro block' hmem' hlt
    have hasc := (keys_byBlock transactions accountId).1
    rw [hsplit, List.pairwise_append, List.pairwise_cons] at hasc
    have hbefore : block' ∈ before := by
      rw [hsplit, List.mem_append, List.mem_cons] at hmem'
      rcases hmem' with hb | rfl | ha
      · exact hb
      · exact absurd hlt (Nat.lt_irrefl _)
      · exact absurd (hasc.2.1.1 block' ha) (Nat.lt_asymm hlt)
    exact (exists_orderBlock_eq_ok_iff accountId block' (blockTransactions_ne_nil _ _ hmem')).mp
      (hok block' hbefore)

end Order

/-! ## Section 4: The ordering -/

/-- **Execution-chain ordering.** The blocks are ascending and exactly the
    account's; the call succeeds exactly when every block of two or more
    transactions forms a single chain; on success it lists each of the
    account's transactions once, block by block along the block's chain,
    numbered from `0`; and its result does not depend on the order of the
    input. -/
theorem execution_chain_ordering (transactions : List (TransactionRecord A C)) (accountId : A) :
    let mine := transactions.filter fun tx => tx.transactionHeader.accountId = accountId
    let blocks := Groups.keys (byBlock transactions accountId)
    let txs := fun block => mine.filter fun tx => tx.blockNum == block
    (blocks.Pairwise (· < ·) ∧ ∀ block, block ∈ blocks ↔ ∃ tx ∈ mine, tx.blockNum = block) ∧
    ((∃ out, orderedAccountTransactions transactions accountId = .ok out) ↔
      ∀ block ∈ blocks, 2 ≤ (txs block).length → FormsSingleChain (txs block)) ∧
    (∀ out, orderedAccountTransactions transactions accountId = .ok out →
      (out.map fun entry => entry.2.2).Perm mine ∧
      ∃ chain : Nat → List (TransactionRecord A C),
        (∀ block ∈ blocks, (chain block).Perm (txs block) ∧
          (2 ≤ (txs block).length →
            ∃ head, head ∉ (txs block).map TransactionRecord.finalState ∧ ChainFrom head (chain block))) ∧
        out = blocks.flatMap fun block => (chain block).mapIdx fun order tx => (block, order, tx)) ∧
    ∀ transactions' : List (TransactionRecord A C), transactions'.Perm transactions →
      orderedAccountTransactions transactions' accountId =
        orderedAccountTransactions transactions accountId := by
  intro mine blocks txs
  refine ⟨keys_byBlock transactions accountId,
    exists_orderedAccountTransactions_eq_ok_iff transactions accountId,
    fun out h => orderedAccountTransactions_eq_ok transactions accountId h,
    fun transactions' hp => orderedAccountTransactions_perm hp accountId⟩

/-- A block of one transaction that starts at the state it ends in is
    accepted, though it forms no single chain: its one initial state is a
    final state. -/
theorem single_transaction_loop_accepted :
    orderedAccountTransactions [(⟨5, ⟨0, 7, 7⟩⟩ : TransactionRecord Nat Nat)] 0 =
        .ok [(5, 0, ⟨5, ⟨0, 7, 7⟩⟩)] ∧
      ¬FormsSingleChain [(⟨5, ⟨0, 7, 7⟩⟩ : TransactionRecord Nat Nat)] := by
  refine ⟨rfl, ?_⟩
  rintro ⟨-, chain, hperm, head, hhead, hchain⟩
  rw [List.perm_singleton] at hperm
  subst hperm
  have hstart : (7 : Nat) = head := hchain.1
  subst hstart
  exact hhead (List.mem_singleton_self _)

end MidenClient
