import MidenAgglayer.Framework.Groups

/-! # Execution-Chain Order of an Account's Transactions

    `ordered_account_transactions` (`src/miden_client.rs`) orders one
    account's transactions by their on-chain execution chain: grouped by
    ascending block, and within a block of several transactions along the
    chain `previous.final_state_commitment == next.initial_state_commitment`.
    A block of one transaction is taken as it is. An ambiguous or
    incomplete chain fails with one of three errors.

    Account ids and state commitments are arbitrary types with decidable
    equality. `by_initial` is a `BTreeMap`; only its lookups, removals and
    the number of its keys that are no final state are read, so it is an
    association list here, in insertion order.

    The second half is the specification of a block: `ChainFrom next chain`
    says that `chain` is an execution chain from the state `next`. The walk
    of the source is proved to find exactly such a chain (`walkChain_eq_some_iff`),
    and from it `orderChain` is characterised and shown not to depend on the
    order of its input.
-/

namespace MidenClient

/-- The fields of a `TransactionHeader` the ordering reads. -/
structure TransactionHeader (A C : Type) where
  accountId : A
  initialStateCommitment : C
  finalStateCommitment : C
  deriving DecidableEq, Repr

/-- A `TransactionRecord` of the node: the block and the header. -/
structure TransactionRecord (A C : Type) where
  blockNum : Nat
  transactionHeader : TransactionHeader A C
  deriving DecidableEq, Repr

/-- The failures of `ordered_account_transactions`, one per `bail!`. -/
inductive OrderError (A : Type) where
  | duplicateInitialState (accountId : A) (block : Nat)
  | expectedOneHead (accountId : A) (block : Nat) (found : Nat)
  | disconnectedChain (accountId : A) (block : Nat)
  deriving DecidableEq, Repr

variable {A C : Type}

/-! ## The specification of a block -/

section Spec

/-- `transaction_header.initial_state_commitment()`. -/
def TransactionRecord.initialState (tx : TransactionRecord A C) : C :=
  tx.transactionHeader.initialStateCommitment

/-- `transaction_header.final_state_commitment()`. -/
def TransactionRecord.finalState (tx : TransactionRecord A C) : C :=
  tx.transactionHeader.finalStateCommitment

/-- `chain` is an execution chain from the state `next`: each transaction
    starts at the state the one before it ends in. -/
def ChainFrom (next : C) : List (TransactionRecord A C) → Prop
  | [] => True
  | tx :: rest => tx.initialState = next ∧ ChainFrom tx.finalState rest

/-- A block forms a single chain: distinct initial states, and an execution
    chain through all of its transactions from a head that is no
    transaction's final state. -/
def FormsSingleChain (transactions : List (TransactionRecord A C)) : Prop :=
  (transactions.map TransactionRecord.initialState).Nodup ∧
    ∃ chain, chain.Perm transactions ∧
      ∃ head, head ∉ transactions.map TransactionRecord.finalState ∧ ChainFrom head chain

/-- The entry of a transaction in `by_initial`. -/
def initialEntry (tx : TransactionRecord A C) : C × TransactionRecord A C := (tx.initialState, tx)

@[simp] theorem chainFrom_nil (next : C) : ChainFrom next ([] : List (TransactionRecord A C)) :=
  trivial

@[simp] theorem chainFrom_cons (next : C) (tx : TransactionRecord A C) (rest) :
    ChainFrom next (tx :: rest) ↔ tx.initialState = next ∧ ChainFrom tx.finalState rest :=
  Iff.rfl

/-- In a chain, every transaction after the first starts at a final state
    of the chain. -/
theorem ChainFrom.initialState_mem {next : C} {tx : TransactionRecord A C} {rest}
    (h : ChainFrom next (tx :: rest)) :
    ∀ u ∈ rest, u.initialState ∈ (tx :: rest).map TransactionRecord.finalState := by
  induction rest generalizing next tx with
  | nil => simp
  | cons u rest ih =>
    intro v hv
    have hu : u.initialState = tx.finalState := h.2.1
    rcases List.mem_cons.mp hv with rfl | hv
    · rw [hu]
      exact List.mem_map_of_mem List.mem_cons_self
    · have hmem := ih h.2 v hv
      exact List.mem_cons_of_mem _ hmem

end Spec

variable [DecidableEq A] [DecidableEq C]

/-! ## The model -/

section Model

/-- The message of each error, as `anyhow::bail!` formats it. -/
def OrderError.message [ToString A] : OrderError A → String
  | .duplicateInitialState accountId block =>
    s!"transaction order: duplicate initial state for account {accountId} in block {block}"
  | .expectedOneHead accountId block found =>
    s!"transaction order: expected one execution-chain head for account {accountId} in block {block}, found {found}"
  | .disconnectedChain accountId block =>
    s!"transaction order: disconnected execution chain for account {accountId} in block {block}"

/-- The account an error is about. -/
def OrderError.accountId : OrderError A → A
  | .duplicateInitialState accountId _ | .expectedOneHead accountId _ _
  | .disconnectedChain accountId _ => accountId

/-- The block an error is about. -/
def OrderError.block : OrderError A → Nat
  | .duplicateInitialState _ block | .expectedOneHead _ block _ | .disconnectedChain _ block => block

/-- The `by_block` loop: the account's transactions, grouped by ascending
    block. -/
def byBlock (transactions : List (TransactionRecord A C)) (accountId : A) :
    List (Nat × List (TransactionRecord A C)) :=
  transactions.foldl (fun byBlock tx =>
    if tx.transactionHeader.accountId = accountId then Groups.push tx.blockNum tx byBlock
    else byBlock) []

/-- `by_initial.insert(initial, tx)`, failing where it returns `Some`. -/
def insertInitial (byInitial : List (C × TransactionRecord A C)) (tx : TransactionRecord A C) :
    Option (List (C × TransactionRecord A C)) :=
  if byInitial.any (fun entry => entry.1 == tx.initialState) then none
  else some (byInitial ++ [(tx.initialState, tx)])

/-- The `by_initial` loop; `none` on a duplicate initial state. -/
def buildByInitial (transactions : List (TransactionRecord A C)) :
    Option (List (C × TransactionRecord A C)) :=
  transactions.foldlM insertInitial []

/-- The `heads`: the keys of `by_initial` that are no final state. -/
def chainHeads (byInitial : List (C × TransactionRecord A C)) (finalStates : List C) : List C :=
  (byInitial.map Prod.fst).filter fun initial => initial ∉ finalStates

/-- `by_initial.remove(&next)`: the transaction under `next`, and the map
    without it. -/
def removeInitial (next : C) :
    List (C × TransactionRecord A C) → Option (TransactionRecord A C × List (C × TransactionRecord A C))
  | [] => none
  | (initial, tx) :: rest =>
    if initial = next then some (tx, rest)
    else (removeInitial next rest).map fun found => (found.1, (initial, tx) :: found.2)

/-- The `for order in 0..transactions.len()` loop: `steps` removals from
    `by_initial`, each at the final state of the one before; `none` when the
    chain is disconnected. The transactions come in the order they are
    pushed. -/
def walkChain : (steps : Nat) → C → List (C × TransactionRecord A C) →
    Option (List (TransactionRecord A C))
  | 0, _, _ => some []
  | steps + 1, next, byInitial =>
    match removeInitial next byInitial with
    | none => none
    | some (tx, rest) => (walkChain steps tx.finalState rest).map (tx :: ·)

/-- One block of several transactions: distinct initial states, one head,
    then the walk from it, numbering the transactions by their order. -/
def orderChain (accountId : A) (block : Nat) (transactions : List (TransactionRecord A C)) :
    Except (OrderError A) (List (Nat × Nat × TransactionRecord A C)) :=
  let finalStates := transactions.map TransactionRecord.finalState
  match buildByInitial transactions with
  | none => .error (.duplicateInitialState accountId block)
  | some byInitial =>
    match chainHeads byInitial finalStates with
    | [next] =>
      match walkChain transactions.length next byInitial with
      | none => .error (.disconnectedChain accountId block)
      | some chain => .ok (chain.mapIdx fun order tx => (block, order, tx))
    | heads => .error (.expectedOneHead accountId block heads.length)

/-- One block: a single transaction is taken as it is (`len() == 1`), any
    other block goes through the chain. -/
def orderBlock (accountId : A) (block : Nat) (transactions : List (TransactionRecord A C)) :
    Except (OrderError A) (List (Nat × Nat × TransactionRecord A C)) :=
  match transactions with
  | [tx] => .ok [(block, 0, tx)]
  | _ => orderChain accountId block transactions

/-- `ordered_account_transactions`: the blocks in ascending order, each
    block's output appended, the first failure returned. -/
def orderedAccountTransactions (transactions : List (TransactionRecord A C)) (accountId : A) :
    Except (OrderError A) (List (Nat × Nat × TransactionRecord A C)) :=
  (byBlock transactions accountId).foldlM (fun ordered group => do
    let out ← orderBlock accountId group.1 group.2
    pure (ordered ++ out)) []

end Model


/-! ## The model against the specification -/

section Lemmas

omit [DecidableEq A] in
/-- A non-empty chain from a state that is no final state has exactly that
    state as its head: every other initial state is a final state. -/
theorem chainHeads_eq_of_chainFrom {transactions chain : List (TransactionRecord A C)} {head : C}
    (hperm : chain.Perm transactions) (hchain : ChainFrom head chain) (hne : chain ≠ [])
    (hhead : head ∉ transactions.map TransactionRecord.finalState) :
    chainHeads (transactions.map initialEntry) (transactions.map TransactionRecord.finalState) =
      [head] := by
  obtain ⟨tx, rest, rfl⟩ := List.exists_cons_of_ne_nil hne
  have hfinal : ∀ c, c ∈ transactions.map TransactionRecord.finalState ↔
      c ∈ (tx :: rest).map TransactionRecord.finalState :=
    fun c => ((hperm.map _).mem_iff).symm
  -- the filter over `transactions` is a rearrangement of the one over the chain
  have hp : (chainHeads (transactions.map initialEntry)
      (transactions.map TransactionRecord.finalState)).Perm [head] := by
    unfold chainHeads
    rw [List.map_map]
    refine List.Perm.trans ((hperm.map _).symm.filter _) ?_
    rw [List.map_cons, List.filter_cons]
    have hkeep : head ∉ transactions.map TransactionRecord.finalState := hhead
    have htx : tx.initialState = head := hchain.1
    simp only [Function.comp_apply, initialEntry, htx, hkeep, not_false_eq_true, decide_true,
      if_true]
    rw [List.filter_eq_nil_iff.mpr]
    intro c hc
    obtain ⟨u, hu, rfl⟩ := List.mem_map.mp hc
    have hm : u.initialState ∈ transactions.map TransactionRecord.finalState :=
      (hfinal _).mpr (hchain.initialState_mem u hu)
    simpa [initialEntry] using hm
  exact List.perm_singleton.mp hp

omit [DecidableEq C] in
/-- The `by_block` loop groups the account's transactions by block. -/
theorem byBlock_eq_groupBy (transactions : List (TransactionRecord A C)) (accountId : A) :
    byBlock transactions accountId =
      Groups.groupBy TransactionRecord.blockNum
        (transactions.filter fun tx => tx.transactionHeader.accountId = accountId) := by
  unfold byBlock Groups.groupBy
  rw [List.foldl_filter]
  simp only [decide_eq_true_eq]

omit [DecidableEq A] in
/-- The `by_initial` loop fails exactly on a duplicate initial state, and
    otherwise holds every transaction under its initial state. -/
theorem buildByInitial_eq (transactions : List (TransactionRecord A C)) :
    buildByInitial transactions =
      if (transactions.map TransactionRecord.initialState).Nodup then
        some (transactions.map initialEntry)
      else none := by
  -- the loop from the entries of `acc`, whose initial states are distinct
  suffices ∀ acc : List (TransactionRecord A C), (acc.map TransactionRecord.initialState).Nodup →
      transactions.foldlM insertInitial (acc.map initialEntry) =
        if ((acc ++ transactions).map TransactionRecord.initialState).Nodup then
          some ((acc ++ transactions).map initialEntry)
        else none from
    this [] List.nodup_nil
  induction transactions with
  | nil => intro acc hacc; simp [hacc]
  | cons tx rest ih =>
    intro acc hacc
    rw [List.foldlM_cons]
    have hany : ((acc.map initialEntry).any fun entry => entry.1 == tx.initialState) = true ↔
        tx.initialState ∈ acc.map TransactionRecord.initialState := by
      simp [List.any_map, initialEntry, Function.comp_def]
    by_cases hmem : tx.initialState ∈ acc.map TransactionRecord.initialState
    · -- a duplicate: the insert fails, and the whole list is not distinct
      have hdup : ¬((acc ++ tx :: rest).map TransactionRecord.initialState).Nodup := by
        rw [List.map_append, List.map_cons, List.nodup_append]
        exact fun h => h.2.2 _ hmem _ List.mem_cons_self rfl
      have hins : insertInitial (acc.map initialEntry) tx = none := by
        unfold insertInitial
        rw [if_pos (hany.mpr hmem)]
      rw [hins, if_neg hdup]
      rfl
    · have hacc' : ((acc ++ [tx]).map TransactionRecord.initialState).Nodup := by
        rw [List.map_append, List.nodup_append]
        simpa [hacc] using hmem
      have hins : insertInitial (acc.map initialEntry) tx = some ((acc ++ [tx]).map initialEntry) := by
        unfold insertInitial
        rw [if_neg (mt hany.mp hmem)]
        simp [initialEntry]
      rw [hins]
      simpa using ih (acc ++ [tx]) hacc'

/-- `remove` finds the transaction under its initial state, when the
    initial states are distinct. -/
theorem removeInitial_of_mem {R : List (TransactionRecord A C)}
    (hnodup : (R.map TransactionRecord.initialState).Nodup) {tx : TransactionRecord A C}
    (hmem : tx ∈ R) :
    removeInitial tx.initialState (R.map initialEntry) = some (tx, (R.erase tx).map initialEntry) := by
  induction R with
  | nil => cases hmem
  | cons t R ih =>
    have ⟨hnew, hR⟩ := List.nodup_cons.mp hnodup
    simp only [List.map_cons, initialEntry, removeInitial]
    by_cases ht : t.initialState = tx.initialState
    · -- the head is `tx`: no other transaction has its initial state
      have htx : t = tx := by
        rcases List.mem_cons.mp hmem with rfl | hmem
        · rfl
        · exact absurd (ht ▸ List.mem_map_of_mem hmem) hnew
      subst htx
      simp
    · have hne : t ≠ tx := fun h => ht (h ▸ rfl)
      have hmem' : tx ∈ R := (List.mem_cons.mp hmem).resolve_left (Ne.symm hne)
      rw [if_neg ht, ih hR hmem', List.erase_cons_tail (by simpa using hne)]
      rfl

omit [DecidableEq A] in
/-- `remove` finds nothing under a state no transaction starts at. -/
theorem removeInitial_of_forall_ne {R : List (TransactionRecord A C)} {next : C}
    (h : ∀ tx ∈ R, tx.initialState ≠ next) : removeInitial next (R.map initialEntry) = none := by
  induction R with
  | nil => rfl
  | cons t R ih =>
    simp only [List.map_cons, initialEntry, removeInitial]
    rw [if_neg (h t List.mem_cons_self), ih fun tx htx => h tx (List.mem_cons_of_mem _ htx)]
    rfl

/-- **The walk.** With distinct initial states, walking as many steps as
    there are transactions from `next` succeeds exactly with an execution
    chain from `next` through all of them. -/
theorem walkChain_eq_some_iff {R : List (TransactionRecord A C)}
    (hnodup : (R.map TransactionRecord.initialState).Nodup) (next : C)
    (chain : List (TransactionRecord A C)) :
    walkChain R.length next (R.map initialEntry) = some chain ↔
      chain.Perm R ∧ ChainFrom next chain := by
  -- induction on the number of steps left, which is the number of entries left
  induction hlen : R.length generalizing R next chain with
  | zero =>
    have hR : R = [] := List.eq_nil_of_length_eq_zero hlen
    subst hR
    cases chain with
    | nil => simp [walkChain]
    | cons tx chain => simp [walkChain]
  | succ n ih =>
    by_cases hex : ∃ tx ∈ R, tx.initialState = next
    · obtain ⟨tx, hmem, rfl⟩ := hex
      have hlen' : (R.erase tx).length = n := by
        rw [List.length_erase_of_mem hmem, hlen]
        rfl
      have hnodup' : ((R.erase tx).map TransactionRecord.initialState).Nodup :=
        hnodup.sublist ((List.erase_sublist).map _)
      have hwalk : ∀ rest, walkChain n tx.finalState ((R.erase tx).map initialEntry) = some rest ↔
          rest.Perm (R.erase tx) ∧ ChainFrom tx.finalState rest := by
        intro rest
        exact ih hnodup' tx.finalState rest hlen'
      simp only [walkChain, removeInitial_of_mem hnodup hmem]
      constructor
      · intro h
        obtain ⟨rest, hrest, rfl⟩ := Option.map_eq_some_iff.mp h
        obtain ⟨hperm, hchain⟩ := (hwalk rest).mp hrest
        exact ⟨(hperm.cons tx).trans (List.perm_cons_erase hmem).symm, rfl, hchain⟩
      · rintro ⟨hperm, hchain⟩
        -- the chain starts at `tx`, the only transaction starting at its state
        have hne : chain ≠ [] := by
          rintro rfl
          exact absurd (hperm.length_eq.trans hlen) (by simp)
        obtain ⟨t, rest, rfl⟩ := List.exists_cons_of_ne_nil hne
        have ht : t = tx :=
          List.inj_on_of_nodup_map hnodup (hperm.subset List.mem_cons_self) hmem hchain.1
        subst ht
        have hrest : rest.Perm (R.erase t) :=
          (hperm.trans (List.perm_cons_erase hmem)).cons_inv
        exact Option.map_eq_some_iff.mpr ⟨rest, (hwalk rest).mpr ⟨hrest, hchain.2⟩, rfl⟩
    · have hnone : ∀ tx ∈ R, tx.initialState ≠ next := fun tx htx heq => hex ⟨tx, htx, heq⟩
      simp only [walkChain, removeInitial_of_forall_ne hnone, reduceCtorEq, false_iff]
      rintro ⟨hperm, hchain⟩
      -- a chain through a non-empty block starts at some transaction's state
      cases chain with
      | nil => exact absurd (hperm.length_eq.trans hlen) (by simp)
      | cons t rest => exact hnone t (hperm.subset List.mem_cons_self) hchain.1

/-- **A block of several transactions.** `orderChain` succeeds exactly on a
    block that forms a single chain, numbering the chain's transactions from
    `0`. -/
theorem orderChain_eq_ok_iff (accountId : A) (block : Nat)
    {transactions : List (TransactionRecord A C)} (hne : transactions ≠ [])
    (out : List (Nat × Nat × TransactionRecord A C)) :
    orderChain accountId block transactions = .ok out ↔
      (transactions.map TransactionRecord.initialState).Nodup ∧
      ∃ chain, chain.Perm transactions ∧
        (∃ head, head ∉ transactions.map TransactionRecord.finalState ∧ ChainFrom head chain) ∧
        out = chain.mapIdx fun order tx => (block, order, tx) := by
  unfold orderChain
  rw [buildByInitial_eq]
  by_cases hnodup : (transactions.map TransactionRecord.initialState).Nodup
  · rw [if_pos hnodup]
    dsimp only
    constructor
    · intro h
      split at h
      · rename_i next hnext
        -- the only head is no final state
        have hhead : next ∉ transactions.map TransactionRecord.finalState := by
          have hmem : next ∈ chainHeads (transactions.map initialEntry)
              (transactions.map TransactionRecord.finalState) := by
            rw [hnext]
            exact List.mem_singleton_self next
          unfold chainHeads at hmem
          simpa using (List.mem_filter.mp hmem).2
        split at h
        · cases h
        · rename_i chain hwalk
          cases h
          obtain ⟨hperm, hchain⟩ := (walkChain_eq_some_iff hnodup next chain).mp hwalk
          exact ⟨hnodup, chain, hperm, ⟨next, hhead, hchain⟩, rfl⟩
      · cases h
    · -- a chain fixes the one head, and the walk from it finds that chain
      rintro ⟨-, chain, hperm, ⟨head, hhead, hchain⟩, rfl⟩
      have hne' : chain ≠ [] := by
        rintro rfl
        exact hne (List.nil_perm.mp hperm)
      rw [chainHeads_eq_of_chainFrom hperm hchain hne' hhead]
      dsimp only
      rw [(walkChain_eq_some_iff hnodup head chain).mpr ⟨hperm, hchain⟩]
  · rw [if_neg hnodup]
    simp [hnodup]

omit [DecidableEq A] in
/-- Every block other than a single transaction goes through the chain. -/
theorem orderBlock_of_ne_singleton (accountId : A) (block : Nat)
    {transactions : List (TransactionRecord A C)} (h : ∀ tx, transactions ≠ [tx]) :
    orderBlock accountId block transactions = orderChain accountId block transactions := by
  unfold orderBlock
  split
  · rename_i tx
    exact absurd rfl (h tx)
  · rfl

/-- **A block.** A block succeeds exactly with a chain of its transactions,
    numbered from `0`; for a block of several transactions, a chain from a
    head that is no final state, over distinct initial states. -/
theorem orderBlock_eq_ok_iff (accountId : A) (block : Nat)
    {transactions : List (TransactionRecord A C)} (hne : transactions ≠ [])
    (out : List (Nat × Nat × TransactionRecord A C)) :
    orderBlock accountId block transactions = .ok out ↔
      ∃ chain, chain.Perm transactions ∧
        (2 ≤ transactions.length → (transactions.map TransactionRecord.initialState).Nodup ∧
          ∃ head, head ∉ transactions.map TransactionRecord.finalState ∧ ChainFrom head chain) ∧
        out = chain.mapIdx fun order tx => (block, order, tx) := by
  by_cases hsingle : ∃ tx, transactions = [tx]
  · -- the `len() == 1` shortcut: the one chain is the transaction itself
    obtain ⟨tx, rfl⟩ := hsingle
    simp only [orderBlock, Except.ok.injEq, List.perm_singleton, List.length_singleton]
    constructor
    · rintro rfl
      exact ⟨[tx], rfl, by omega, rfl⟩
    · rintro ⟨chain, rfl, -, rfl⟩
      rfl
  · have h : ∀ tx, transactions ≠ [tx] := fun tx htx => hsingle ⟨tx, htx⟩
    have hlen : 2 ≤ transactions.length := by
      match transactions, hne, h with
      | _ :: _ :: _, _, _ => simp
      | [tx], _, h => exact absurd rfl (h tx)
    rw [orderBlock_of_ne_singleton accountId block h, orderChain_eq_ok_iff accountId block hne]
    constructor
    · rintro ⟨hnodup, chain, hperm, hhead, rfl⟩
      exact ⟨chain, hperm, fun _ => ⟨hnodup, hhead⟩, rfl⟩
    · rintro ⟨chain, hperm, hchain, rfl⟩
      exact ⟨(hchain hlen).1, chain, hperm, (hchain hlen).2, rfl⟩

/-- A block succeeds exactly when it is a single transaction or forms a
    single chain. -/
theorem exists_orderBlock_eq_ok_iff (accountId : A) (block : Nat)
    {transactions : List (TransactionRecord A C)} (hne : transactions ≠ []) :
    (∃ out, orderBlock accountId block transactions = .ok out) ↔
      (2 ≤ transactions.length → FormsSingleChain transactions) := by
  simp only [orderBlock_eq_ok_iff accountId block hne]
  constructor
  · rintro ⟨_, chain, hperm, hchain, -⟩ hlen
    exact ⟨(hchain hlen).1, chain, hperm, (hchain hlen).2⟩
  · intro hforms
    by_cases hlen : 2 ≤ transactions.length
    · obtain ⟨hnodup, chain, hperm, hhead⟩ := hforms hlen
      exact ⟨_, chain, hperm, fun _ => ⟨hnodup, hhead⟩, rfl⟩
    · exact ⟨_, transactions, List.Perm.refl _, fun h => absurd h hlen, rfl⟩

omit [DecidableEq A] in
/-- Every error of a block names the account and the block. -/
theorem orderBlock_error (accountId : A) (block : Nat) (transactions : List (TransactionRecord A C))
    {e : OrderError A} (h : orderBlock accountId block transactions = .error e) :
    e.accountId = accountId ∧ e.block = block := by
  unfold orderBlock at h
  split at h
  · cases h
  · -- each `bail!` of the source, in its order
    unfold orderChain at h
    dsimp only at h
    split at h
    · cases h
      exact ⟨rfl, rfl⟩
    · split at h
      · split at h
        · cases h
          exact ⟨rfl, rfl⟩
        · cases h
      · cases h
        exact ⟨rfl, rfl⟩

/-! ### Independence from the input order -/

/-- The walk sees the block as a set: any rearrangement walks alike. -/
theorem walkChain_perm {R R' : List (TransactionRecord A C)} (hp : R.Perm R')
    (hnodup : (R.map TransactionRecord.initialState).Nodup) (next : C) :
    walkChain R.length next (R.map initialEntry) = walkChain R'.length next (R'.map initialEntry) := by
  have hnodup' : (R'.map TransactionRecord.initialState).Nodup := (hp.map _).nodup_iff.mp hnodup
  refine Option.ext fun chain => ?_
  rw [walkChain_eq_some_iff hnodup, walkChain_eq_some_iff hnodup']
  exact and_congr_left' ⟨fun h => h.trans hp, fun h => h.trans hp.symm⟩

omit [DecidableEq A] in
/-- The heads of a rearranged block are a rearrangement of its heads. -/
theorem chainHeads_perm {R R' : List (TransactionRecord A C)} (hp : R.Perm R') :
    (chainHeads (R.map initialEntry) (R.map TransactionRecord.finalState)).Perm
      (chainHeads (R'.map initialEntry) (R'.map TransactionRecord.finalState)) := by
  unfold chainHeads
  have hfinal : ∀ c, c ∈ R.map TransactionRecord.finalState ↔ c ∈ R'.map TransactionRecord.finalState :=
    fun c => (hp.map _).mem_iff
  simp only [hfinal]
  exact ((hp.map _).map _).filter _

/-- A block of several transactions gives the same result in any order:
    the three checks read it as a set. -/
theorem orderChain_perm (accountId : A) (block : Nat) {R R' : List (TransactionRecord A C)}
    (hp : R.Perm R') : orderChain accountId block R = orderChain accountId block R' := by
  unfold orderChain
  rw [buildByInitial_eq, buildByInitial_eq]
  by_cases hnodup : (R.map TransactionRecord.initialState).Nodup
  · rw [if_pos hnodup, if_pos ((hp.map _).nodup_iff.mp hnodup)]
    dsimp only
    have hheads := chainHeads_perm hp
    -- the match on the heads: none, one, or several, alike on both sides
    generalize chainHeads (R.map initialEntry) (R.map TransactionRecord.finalState) = H at hheads ⊢
    generalize chainHeads (R'.map initialEntry) (R'.map TransactionRecord.finalState) = H' at hheads ⊢
    match H, H', hheads with
    | [], _, hH => rw [← hH.nil_eq]
    | [next], _, hH =>
      rw [List.perm_singleton.mp hH.symm]
      dsimp only
      rw [walkChain_perm hp hnodup next]
    | n₁ :: n₂ :: rest, H', hH =>
      match H', hH.length_eq with
      | m₁ :: m₂ :: rest', hlen => simp only [hlen]
  · rw [if_neg hnodup, if_neg (mt (hp.map _).nodup_iff.mpr hnodup)]

/-- A block gives the same result in any order. -/
theorem orderBlock_perm (accountId : A) (block : Nat) {R R' : List (TransactionRecord A C)}
    (hp : R.Perm R') : orderBlock accountId block R = orderBlock accountId block R' := by
  by_cases hsingle : ∃ tx, R = [tx]
  · obtain ⟨tx, rfl⟩ := hsingle
    rw [List.perm_singleton.mp hp.symm]
  · have h : ∀ tx, R ≠ [tx] := fun tx htx => hsingle ⟨tx, htx⟩
    have h' : ∀ tx, R' ≠ [tx] := fun tx htx => h tx (List.perm_singleton.mp (htx ▸ hp))
    rw [orderBlock_of_ne_singleton accountId block h, orderBlock_of_ne_singleton accountId block h',
      orderChain_perm accountId block hp]

/-! ### The whole loop -/

/-- `ordered_account_transactions` orders each block of the account, in
    ascending block order, and concatenates the results; the first failing
    block fails it. -/
theorem orderedAccountTransactions_eq_mapM (transactions : List (TransactionRecord A C))
    (accountId : A) :
    orderedAccountTransactions transactions accountId =
      ((Groups.keys (byBlock transactions accountId)).mapM fun block =>
        orderBlock accountId block
          ((transactions.filter fun tx => tx.transactionHeader.accountId = accountId).filter
            fun tx => tx.blockNum == block)).map List.flatten := by
  unfold orderedAccountTransactions
  rw [byBlock_eq_groupBy]
  conv_lhs => rw [Groups.groupBy_eq_map, List.foldlM_map]
  rw [Groups.foldlM_append_eq_mapM]
  simp only [List.nil_append]

end Lemmas

end MidenClient
