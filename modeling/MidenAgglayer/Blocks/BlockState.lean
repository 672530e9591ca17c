import MidenAgglayer.Store.State
import MidenAgglayer.Framework.Run

/-! # Synthetic Blocks and the Header Cache

    `BlockState` (`src/block_state.rs`) serves the synthetic EVM blocks that
    bridge-service reads. Block `n`'s hash is the RLP hash of a header built
    from `n` and the hash of block `n - 1` (`SyntheticBlock::build_header`),
    so the hashes form a chain from genesis; `compute_hash_for_number` folds
    that chain from block 0. `BlockState` caches the blocks it has built in
    `blocks` and their hashes in `hash_to_number`; `ensure_block_exists`
    resumes the chain from the highest cached block below its target.

    Modelling choices (see also `MODEL_MAP.json`):

    * alloy's `Header::hash_slow` (keccak256 of the header's RLP encoding) is
      a parameter `hashSlow`; every result holds for every such function.
    * Each method takes both locks for its mutation, and the cache never
      evicts or rewrites a hash, so every call is one atomic step.
    * `on_sync` is `set_current_block`; `to_json` is left out.

    The pure chain (`chainParent`, `chainHash`) is the abstract model: the
    cache refines it (`CacheInv`), over every run of calls from `new`.
-/

open Store

namespace Blocks

/-! ## Section 1: Headers and blocks -/

/-- `GENESIS_TIMESTAMP`: 2024-01-01 00:00:00 UTC. -/
def genesisTimestamp : UInt64 := 1704067200

/-- `BLOCK_TIME`, in seconds. -/
def blockTime : UInt64 := 12

/-- `EMPTY_OMMERS_HASH`: keccak256 of the RLP empty list. -/
def emptyOmmersHash : B256 :=
  #v[0x1d, 0xcc, 0x4d, 0xe8, 0xde, 0xc7, 0x5d, 0x7a, 0xab, 0x85, 0xb5, 0x67, 0xb6, 0xcc, 0xd4, 0x1a,
    0xd3, 0x12, 0x45, 0x1b, 0x94, 0x8a, 0x74, 0x13, 0xf0, 0xa1, 0x42, 0xfd, 0x40, 0xd4, 0x93, 0x47]

/-- `EMPTY_ROOT_HASH`: keccak256 of the RLP empty string. -/
def emptyRootHash : B256 :=
  #v[0x56, 0xe8, 0x1f, 0x17, 0x1b, 0xcc, 0x55, 0xa6, 0xff, 0x83, 0x45, 0xe6, 0x92, 0xc0, 0xf8, 0x6e,
    0x5b, 0x48, 0xe0, 0x1b, 0x99, 0x6c, 0xad, 0xc0, 0x01, 0x62, 0x2f, 0xb5, 0xe3, 0x63, 0xb4, 0x21]

/-- An alloy consensus `Header`, every field of it. -/
structure Header where
  parentHash : B256
  ommersHash : B256
  beneficiary : Address
  stateRoot : B256
  transactionsRoot : B256
  receiptsRoot : B256
  logsBloom : Vector UInt8 256
  difficulty : U256
  number : UInt64
  gasLimit : UInt64
  gasUsed : UInt64
  timestamp : UInt64
  extraData : List UInt8
  mixHash : B256
  nonce : Vector UInt8 8
  baseFeePerGas : Option UInt64
  withdrawalsRoot : Option B256
  blobGasUsed : Option UInt64
  excessBlobGas : Option UInt64
  parentBeaconBlockRoot : Option B256
  requestsHash : Option B256
  deriving DecidableEq, Repr

/-- A synthetic block as `BlockState` caches it. -/
structure SyntheticBlock where
  number : UInt64
  hash : B256
  parentHash : B256
  timestamp : UInt64
  stateRoot : B256
  transactions : List String
  deriving DecidableEq, Repr

/-- `SyntheticBlock::build_header`: the header of block `number`. The
    timestamp is computed in `u64` and wraps as release builds do; fields
    the source leaves to `Default::default()` are `None`. -/
def SyntheticBlock.buildHeader (number : UInt64) (parentHash : B256) : Header :=
  let timestamp := genesisTimestamp + number * blockTime
  { parentHash
    ommersHash := emptyOmmersHash
    beneficiary := Vector.replicate 20 0
    stateRoot := zeroWord
    transactionsRoot := emptyRootHash
    receiptsRoot := emptyRootHash
    logsBloom := Vector.replicate 256 0
    difficulty := 0
    number
    gasLimit := 30000000
    gasUsed := 0
    timestamp
    extraData := []
    mixHash := zeroWord
    nonce := Vector.replicate 8 0
    baseFeePerGas := some 0
    withdrawalsRoot := none
    blobGasUsed := none
    excessBlobGas := none
    parentBeaconBlockRoot := none
    requestsHash := none }

@[simp] theorem SyntheticBlock.number_buildHeader (number : UInt64) (parentHash : B256) :
    (SyntheticBlock.buildHeader number parentHash).number = number := rfl

section Chain

variable (hashSlow : Header → B256)

/-- `SyntheticBlock::compute_hash_for_number`: the loop
    `for n in 0..=number { parent_hash = build_header(n, parent_hash).hash_slow() }`
    from `B256::ZERO`. -/
def SyntheticBlock.computeHashForNumber (number : UInt64) : B256 :=
  (List.range (number.toNat + 1)).foldl
    (fun parentHash n => hashSlow (SyntheticBlock.buildHeader (UInt64.ofNat n) parentHash)) zeroWord

/-! ## Section 2: The pure chain

    What the cache is for: block `k` of the chain has the parent hash
    `chainParent k` (zero at genesis) and the hash `chainHash k`, the hash of
    its header. -/

/-- The parent hash of block `k` in the chain from genesis. -/
def chainParent : Nat → B256
  | 0 => zeroWord
  | k + 1 => hashSlow (SyntheticBlock.buildHeader (UInt64.ofNat k) (chainParent k))

/-- The hash of block `k` in the chain from genesis. -/
def chainHash (k : Nat) : B256 := chainParent hashSlow (k + 1)

theorem chainHash_eq (k : Nat) :
    chainHash hashSlow k =
      hashSlow (SyntheticBlock.buildHeader (UInt64.ofNat k) (chainParent hashSlow k)) := rfl

@[simp] theorem chainParent_zero : chainParent hashSlow 0 = zeroWord := rfl

@[simp] theorem chainParent_succ (k : Nat) : chainParent hashSlow (k + 1) = chainHash hashSlow k :=
  rfl

/-- The loop of `compute_hash_for_number` after `k` rounds holds the parent
    hash of block `k`. -/
theorem foldl_range_buildHeader (k : Nat) :
    (List.range k).foldl
      (fun parentHash n => hashSlow (SyntheticBlock.buildHeader (UInt64.ofNat n) parentHash))
      zeroWord = chainParent hashSlow k := by
  induction k with
  | zero => rfl
  | succ k ih => rw [List.range_succ, List.foldl_append, ih]; rfl

/-- `compute_hash_for_number` computes the chain's hash. -/
theorem computeHashForNumber_eq (number : UInt64) :
    SyntheticBlock.computeHashForNumber hashSlow number = chainHash hashSlow number.toNat :=
  foldl_range_buildHeader hashSlow (number.toNat + 1)

end Chain

/-! ## Section 3: The cache -/

/-- The fields of `BlockState`. -/
structure BlockState where
  blocks : Std.HashMap UInt64 SyntheticBlock
  hashToNumber : Std.HashMap B256 UInt64
  currentBlock : UInt64

namespace BlockState

section Operations

variable (hashSlow : Header → B256)

/-- `BlockState::deterministic_timestamp`, in `u64`. -/
def deterministicTimestamp (blockNum : UInt64) : UInt64 := genesisTimestamp + blockNum * blockTime

/-- The first loop of `ensure_block_exists`: scanning `n` from `k - 1` down
    to 0, the `start_from = n + 1` and `parent_hash` of the first cached
    block, or `(0, B256::ZERO)` when none is cached. -/
def resumeFrom (blocks : Std.HashMap UInt64 SyntheticBlock) : Nat → UInt64 × B256
  | 0 => (0, zeroWord)
  | k + 1 =>
    match blocks[UInt64.ofNat k]? with
    | some cached => (UInt64.ofNat k + 1, cached.hash)
    | none => resumeFrom blocks k

/-- The second loop of `ensure_block_exists`, `k` rounds from block `n`:
    a cached block only passes its hash on; a missing one is built on
    `parent_hash` and filed in both maps. -/
def fillBlocks : Nat → UInt64 → B256 → BlockState → BlockState
  | 0, _, _, s => s
  | k + 1, n, parentHash, s =>
    match s.blocks[n]? with
    | some cached => fillBlocks k (n + 1) cached.hash s
    | none =>
      let hash := hashSlow (SyntheticBlock.buildHeader n parentHash)
      let block : SyntheticBlock :=
        { number := n, hash, parentHash, timestamp := deterministicTimestamp n,
          stateRoot := zeroWord, transactions := [] }
      fillBlocks k (n + 1) hash
        { s with hashToNumber := s.hashToNumber.insert hash n, blocks := s.blocks.insert n block }

/-- `BlockState::ensure_block_exists`: nothing when the block is cached;
    otherwise build from the highest cached block below it up to it. -/
def ensureBlockExists (blockNum : UInt64) (s : BlockState) : BlockState :=
  if s.blocks.contains blockNum then s
  else
    let (startFrom, parentHash) := resumeFrom s.blocks blockNum.toNat
    fillBlocks hashSlow (blockNum.toNat + 1 - startFrom.toNat) startFrom parentHash s

/-- `BlockState::new`: genesis built into empty maps. -/
def new : BlockState := ensureBlockExists hashSlow 0 ⟨∅, ∅, 0⟩

/-- `BlockState::set_current_block`. -/
def setCurrentBlock (blockNum : UInt64) (s : BlockState) : BlockState :=
  { ensureBlockExists hashSlow blockNum s with currentBlock := blockNum }

/-- `BlockState::get_block_by_number`. -/
def getBlockByNumber (blockNum : UInt64) (s : BlockState) : BlockState × Option SyntheticBlock :=
  let s := ensureBlockExists hashSlow blockNum s
  (s, s.blocks[blockNum]?)

/-- `BlockState::get_block_by_hash`: the number filed under the hash, then
    its block. -/
def getBlockByHash (s : BlockState) (hash : B256) : Option SyntheticBlock :=
  s.hashToNumber[hash]?.bind fun number => s.blocks[number]?

/-- `BlockState::add_transaction_to_block`: `get_mut` then `push`. -/
def addTransactionToBlock (blockNum : UInt64) (txHash : String) (s : BlockState) : BlockState :=
  let s := ensureBlockExists hashSlow blockNum s
  { s with blocks := s.blocks.modify blockNum fun block =>
      { block with transactions := block.transactions ++ [txHash] } }

/-- `BlockState::get_block_hash`: the cached hash, or the chain computed
    from genesis when the block is missing. -/
def getBlockHash (blockNum : UInt64) (s : BlockState) : BlockState × B256 :=
  let s := ensureBlockExists hashSlow blockNum s
  (s, ((s.blocks[blockNum]?).map (·.hash)).getD
    (SyntheticBlock.computeHashForNumber hashSlow blockNum))

end Operations

/-- The calls that read or change a `BlockState`. -/
inductive Call where
  | getBlockByNumber (blockNum : UInt64)
  | getBlockByHash (hash : B256)
  | addTransactionToBlock (blockNum : UInt64) (txHash : String)
  | getBlockHash (blockNum : UInt64)
  | setCurrentBlock (blockNum : UInt64)

/-- What a call returns. -/
inductive Reply where
  | block (block : Option SyntheticBlock)
  | hash (hash : B256)
  | done

/-- One call, atomically. -/
def step (hashSlow : Header → B256) (s : BlockState) : Call → BlockState × Reply
  | .getBlockByNumber blockNum =>
    let (s, block) := getBlockByNumber hashSlow blockNum s
    (s, .block block)
  | .getBlockByHash hash => (s, .block (getBlockByHash s hash))
  | .addTransactionToBlock blockNum txHash => (addTransactionToBlock hashSlow blockNum txHash s, .done)
  | .getBlockHash blockNum =>
    let (s, hash) := getBlockHash hashSlow blockNum s
    (s, .hash hash)
  | .setCurrentBlock blockNum => (setCurrentBlock hashSlow blockNum s, .done)

/-- The state after a sequence of calls from `BlockState::new`. -/
def run (hashSlow : Header → B256) (calls : List Call) : BlockState :=
  Run.final (step hashSlow) (new hashSlow) calls

/-! ## Section 4: The cache refines the pure chain -/

section Refinement

variable {hashSlow : Header → B256}

theorem toNat_ofNat_of_lt {k : Nat} (hk : k < 2 ^ 64) : (UInt64.ofNat k).toNat = k :=
  UInt64.toNat_ofNat_of_lt' hk

variable (hashSlow) in
/-- Block `k` of the pure chain, before any transaction is added. -/
def chainBlock (k : Nat) : SyntheticBlock where
  number := UInt64.ofNat k
  hash := chainHash hashSlow k
  parentHash := chainParent hashSlow k
  timestamp := deterministicTimestamp (UInt64.ofNat k)
  stateRoot := zeroWord
  transactions := []

variable (hashSlow) in
/-- Block `n` as the pure chain has it, whatever transactions it carries. -/
structure Canonical (n : UInt64) (b : SyntheticBlock) : Prop where
  number_eq : b.number = n
  hash_eq : b.hash = chainHash hashSlow n.toNat
  parentHash_eq : b.parentHash = chainParent hashSlow n.toNat
  timestamp_eq : b.timestamp = deterministicTimestamp n
  stateRoot_eq : b.stateRoot = zeroWord

theorem canonical_chainBlock {k : Nat} (hk : k < 2 ^ 64) :
    Canonical hashSlow (UInt64.ofNat k) (chainBlock hashSlow k) := by
  constructor <;> simp [chainBlock, toNat_ofNat_of_lt hk]

/-- Adding transactions keeps a block canonical. -/
theorem Canonical.withTransactions {n : UInt64} {b : SyntheticBlock} (h : Canonical hashSlow n b)
    (txs : List String) : Canonical hashSlow n { b with transactions := txs } :=
  ⟨h.number_eq, h.hash_eq, h.parentHash_eq, h.timestamp_eq, h.stateRoot_eq⟩

variable (hashSlow) in
/-- The cache holds exactly the blocks `0 .. count - 1`, each as the pure
    chain has it, and files each of their hashes under the highest of them
    that has it. -/
structure CacheInv (count : Nat) (s : BlockState) : Prop where
  count_le : count ≤ 2 ^ 64
  contains_iff : ∀ n : UInt64, s.blocks.contains n = true ↔ n.toNat < count
  canonical : ∀ n b, s.blocks[n]? = some b → Canonical hashSlow n b
  indexed : ∀ h n, s.hashToNumber[h]? = some n →
    n.toNat < count ∧ chainHash hashSlow n.toNat = h ∧
      ∀ m < count, chainHash hashSlow m = h → m ≤ n.toNat
  complete : ∀ m < count, s.hashToNumber.contains (chainHash hashSlow m) = true

variable {count : Nat} {s : BlockState}

theorem cacheInv_empty (currentBlock : UInt64) : CacheInv hashSlow 0 ⟨∅, ∅, currentBlock⟩ where
  count_le := by omega
  contains_iff n := by simp
  canonical n b := by simp
  indexed h n := by simp
  complete m hm := absurd hm (Nat.not_lt_zero m)

theorem CacheInv.getElem?_eq_none (h : CacheInv hashSlow count s) {n : UInt64}
    (hn : count ≤ n.toNat) : s.blocks[n]? = none := by
  have hmiss : s.blocks.contains n = false := by
    rw [← Bool.not_eq_true, h.contains_iff]
    omega
  rw [Std.HashMap.contains_eq_isSome_getElem?, Option.isSome_eq_false_iff, Option.isNone_iff_eq_none]
    at hmiss
  exact hmiss

theorem CacheInv.toNat_lt_of_getElem? (h : CacheInv hashSlow count s) {n : UInt64}
    {b : SyntheticBlock} (hb : s.blocks[n]? = some b) : n.toNat < count := by
  have hhit : s.blocks.contains n = true := by
    rw [Std.HashMap.contains_eq_isSome_getElem?, hb]
    rfl
  exact (h.contains_iff n).mp hhit

theorem CacheInv.exists_getElem? (h : CacheInv hashSlow count s) {n : UInt64}
    (hn : n.toNat < count) : ∃ b, s.blocks[n]? = some b := by
  have hhit := (h.contains_iff n).mpr hn
  rw [Std.HashMap.contains_eq_isSome_getElem?] at hhit
  exact Option.isSome_iff_exists.mp hhit

/-- **Step.** Filing block `count` of the chain extends the cached prefix
    by one. -/
theorem CacheInv.insert_next (h : CacheInv hashSlow count s) (hc : count < 2 ^ 64) :
    CacheInv hashSlow (count + 1)
      { s with hashToNumber := s.hashToNumber.insert (chainHash hashSlow count) (UInt64.ofNat count),
               blocks := s.blocks.insert (UInt64.ofNat count) (chainBlock hashSlow count) } := by
  have hofNat := toNat_ofNat_of_lt hc
  constructor
  · omega
  · intro n
    have heq : UInt64.ofNat count = n ↔ n.toNat = count := by
      constructor
      · rintro rfl
        exact hofNat
      · intro hn
        rw [← hn, UInt64.ofNat_toNat]
    simp only [Std.HashMap.contains_insert, Bool.or_eq_true, beq_iff_eq, heq, h.contains_iff]
    omega
  · intro n b hb
    simp only [Std.HashMap.getElem?_insert, beq_iff_eq] at hb
    split at hb
    · -- the new block
      subst n
      cases hb
      exact canonical_chainBlock hc
    · exact h.canonical n b hb
  · intro hash n hn
    simp only [Std.HashMap.getElem?_insert, beq_iff_eq] at hn
    split at hn
    · -- the new hash names the new block, the highest cached one
      cases hn
      subst hash
      refine ⟨by omega, by rw [hofNat], fun m hm _ => by omega⟩
    · -- an older hash: block `count` does not have it
      rename_i hne
      obtain ⟨hlt, hhash, hhighest⟩ := h.indexed hash n hn
      refine ⟨by omega, hhash, fun m hm hmhash => ?_⟩
      rcases Nat.lt_succ_iff_lt_or_eq.mp hm with hm | rfl
      · exact hhighest m hm hmhash
      · exact absurd hmhash hne
  · intro m hm
    simp only [Std.HashMap.contains_insert, Bool.or_eq_true, beq_iff_eq]
    rcases Nat.lt_succ_iff_lt_or_eq.mp hm with hm | rfl
    · exact .inr (h.complete m hm)
    · exact .inl rfl

/-- **The first loop.** Below a target at or above the cached prefix, the
    highest cached block is `count - 1`: the loop resumes at `count` on its
    hash (on `B256::ZERO` when nothing is cached). -/
theorem CacheInv.resumeFrom_eq (h : CacheInv hashSlow count s) :
    ∀ k, count ≤ k → k ≤ 2 ^ 64 →
      resumeFrom s.blocks k = (UInt64.ofNat count, chainParent hashSlow count)
  | 0, hc, _ => by
    obtain rfl : count = 0 := by omega
    rfl
  | k + 1, hc, hk => by
    have hofNat := toNat_ofNat_of_lt (show k < 2 ^ 64 by omega)
    rcases Nat.lt_or_ge k count with hlt | hge
    · -- block `k = count - 1` is cached: the scan stops there
      obtain rfl : count = k + 1 := by omega
      obtain ⟨b, hb⟩ := h.exists_getElem? (n := UInt64.ofNat k) (by omega)
      have hhash := (h.canonical _ _ hb).hash_eq
      rw [hofNat] at hhash
      simp only [resumeFrom, hb, hhash, chainParent_succ, UInt64.ofNat_add]
      rfl
    · -- block `k` is missing: the scan goes on down
      have hnone := h.getElem?_eq_none (n := UInt64.ofNat k) (by omega)
      rw [resumeFrom, hnone]
      exact h.resumeFrom_eq k hge (by omega)

/-- **The second loop.** From block `count` on the chain's parent hash,
    `k` rounds file blocks `count .. count + k - 1`. -/
theorem CacheInv.fillBlocks (h : CacheInv hashSlow count s) (k : Nat) (hk : count + k ≤ 2 ^ 64) :
    CacheInv hashSlow (count + k)
      (fillBlocks hashSlow k (UInt64.ofNat count) (chainParent hashSlow count) s) := by
  -- one round files block `count`, on whose hash the next round builds
  induction k generalizing count s with
  | zero => exact h
  | succ k ih =>
    have hnone := h.getElem?_eq_none (n := UInt64.ofNat count)
      (by rw [toNat_ofNat_of_lt (by omega)])
    have hfill := ih (h.insert_next (by omega)) (by omega)
    rw [show count + 1 + k = count + (k + 1) by omega, UInt64.ofNat_add, chainParent_succ] at hfill
    rw [BlockState.fillBlocks, hnone]
    exact hfill

/-- **`ensure_block_exists`.** A cached target changes nothing; a missing
    one extends the cached prefix up to it. -/
theorem CacheInv.ensureBlockExists (h : CacheInv hashSlow count s) (blockNum : UInt64) :
    CacheInv hashSlow (max count (blockNum.toNat + 1)) (ensureBlockExists hashSlow blockNum s) := by
  unfold BlockState.ensureBlockExists
  by_cases hcached : s.blocks.contains blockNum = true
  · have hlt := (h.contains_iff blockNum).mp hcached
    rw [if_pos hcached, Nat.max_eq_left (by omega)]
    exact h
  · -- nothing at or above the target is cached: resume at `count`
    have hge : count ≤ blockNum.toNat := by
      rw [h.contains_iff] at hcached
      omega
    have hlt := blockNum.toNat_lt
    rw [if_neg hcached, h.resumeFrom_eq blockNum.toNat hge (by omega)]
    dsimp only
    have hfill := h.fillBlocks (blockNum.toNat + 1 - count) (by omega)
    rw [toNat_ofNat_of_lt (by omega), Nat.max_eq_right (by omega)]
    rwa [show count + (blockNum.toNat + 1 - count) = blockNum.toNat + 1 by omega] at hfill

/-- After `ensure_block_exists`, the target is cached as the chain has it. -/
theorem CacheInv.ensureBlockExists_getElem? (h : CacheInv hashSlow count s) (blockNum : UInt64) :
    ∃ b, (BlockState.ensureBlockExists hashSlow blockNum s).blocks[blockNum]? = some b ∧
      Canonical hashSlow blockNum b := by
  have hinv := h.ensureBlockExists blockNum
  obtain ⟨b, hb⟩ := hinv.exists_getElem? (n := blockNum) (by omega)
  exact ⟨b, hb, hinv.canonical _ _ hb⟩

/-- Pushing a transaction keeps every block canonical. -/
theorem CacheInv.modifyTransactions (h : CacheInv hashSlow count s) (blockNum : UInt64)
    (txHash : String) :
    CacheInv hashSlow count
      { s with blocks := s.blocks.modify blockNum fun block =>
          { block with transactions := block.transactions ++ [txHash] } } where
  count_le := h.count_le
  contains_iff n := by
    rw [Std.HashMap.contains_modify]
    exact h.contains_iff n
  canonical n b hb := by
    simp only [Std.HashMap.getElem?_modify, beq_iff_eq] at hb
    split at hb
    · subst n
      obtain ⟨b₀, hb₀, rfl⟩ := Option.map_eq_some_iff.mp hb
      exact (h.canonical _ _ hb₀).withTransactions _
    · exact h.canonical n b hb
  indexed := h.indexed
  complete := h.complete

/-! ### Replies -/

/-- `get_block_hash` answers the chain's hash, cached or not. -/
theorem CacheInv.getBlockHash_snd (h : CacheInv hashSlow count s) (blockNum : UInt64) :
    (getBlockHash hashSlow blockNum s).2 = SyntheticBlock.computeHashForNumber hashSlow blockNum := by
  obtain ⟨b, hb, hcanon⟩ := h.ensureBlockExists_getElem? blockNum
  simp only [getBlockHash, hb, Option.map_some, Option.getD_some, hcanon.hash_eq,
    computeHashForNumber_eq]

/-- `get_block_by_number` answers the chain's block. -/
theorem CacheInv.getBlockByNumber_snd (h : CacheInv hashSlow count s) (blockNum : UInt64) :
    ∃ b, (getBlockByNumber hashSlow blockNum s).2 = some b ∧ Canonical hashSlow blockNum b :=
  h.ensureBlockExists_getElem? blockNum

/-- What `get_block_by_hash` answers is cached under its number, has the
    hash asked for, and is the highest cached block that has it. -/
theorem CacheInv.getBlockByHash_eq_some (h : CacheInv hashSlow count s) {hash : B256}
    {b : SyntheticBlock} (hget : getBlockByHash s hash = some b) :
    s.blocks[b.number]? = some b ∧ b.hash = hash ∧
      ∀ n b', s.blocks[n]? = some b' → b'.hash = hash → n ≤ b.number := by
  obtain ⟨n, hn, hb⟩ := Option.bind_eq_some_iff.mp hget
  obtain ⟨-, hhash, hhighest⟩ := h.indexed hash n hn
  have hcanon := h.canonical n b hb
  refine ⟨by rw [hcanon.number_eq]; exact hb, by rw [hcanon.hash_eq, hhash], ?_⟩
  intro m b' hb' hb'hash
  have hm : m.toNat < count := h.toNat_lt_of_getElem? hb'
  rw [hcanon.number_eq, UInt64.le_iff_toNat_le]
  exact hhighest m.toNat hm (by rw [← (h.canonical m b' hb').hash_eq, hb'hash])

/-- Every cached block's hash finds a block. -/
theorem CacheInv.getBlockByHash_isSome (h : CacheInv hashSlow count s) {n : UInt64}
    {b : SyntheticBlock} (hb : s.blocks[n]? = some b) : (getBlockByHash s b.hash).isSome := by
  have hn : n.toNat < count := h.toNat_lt_of_getElem? hb
  have hfiled := h.complete n.toNat hn
  rw [Std.HashMap.contains_eq_isSome_getElem?, ← (h.canonical n b hb).hash_eq] at hfiled
  obtain ⟨m, hm⟩ := Option.isSome_iff_exists.mp hfiled
  obtain ⟨b', hb'⟩ := h.exists_getElem? (h.indexed _ m hm).1
  simp [getBlockByHash, hm, hb']

/-- No two cached blocks share a hash. -/
def HashesDistinct (s : BlockState) : Prop :=
  ∀ (m n : UInt64) (bm bn : SyntheticBlock), s.blocks[m]? = some bm → s.blocks[n]? = some bn →
    bm.hash = bn.hash → m = n

/-- With no two cached blocks sharing a hash, `get_block_by_hash` answers a
    block exactly when it is cached and has the hash asked for. -/
theorem CacheInv.getBlockByHash_eq_some_iff (h : CacheInv hashSlow count s)
    (hdistinct : HashesDistinct s) (hash : B256) (b : SyntheticBlock) :
    getBlockByHash s hash = some b ↔ s.blocks[b.number]? = some b ∧ b.hash = hash := by
  constructor
  · intro hget
    obtain ⟨hb, hhash, -⟩ := h.getBlockByHash_eq_some hget
    exact ⟨hb, hhash⟩
  · rintro ⟨hb, rfl⟩
    obtain ⟨b', hget⟩ := Option.isSome_iff_exists.mp (h.getBlockByHash_isSome hb)
    obtain ⟨hb', hhash', -⟩ := h.getBlockByHash_eq_some hget
    have hnumber : b'.number = b.number := hdistinct _ _ _ _ hb' hb hhash'
    rw [hnumber, hb] at hb'
    rw [hget, hb']

/-! ### The chain, read off the cache -/

/-- A canonical block's hash is the hash of its own header. -/
theorem Canonical.hash_eq_hashSlow {n : UInt64} {b : SyntheticBlock} (h : Canonical hashSlow n b) :
    b.hash = hashSlow (SyntheticBlock.buildHeader n b.parentHash) := by
  rw [h.hash_eq, h.parentHash_eq, chainHash_eq, UInt64.ofNat_toNat]

/-- The cached blocks are `0 ..= count - 1`. -/
theorem CacheInv.contains_iff_le (h : CacheInv hashSlow count s) (hpos : 0 < count) (n : UInt64) :
    s.blocks.contains n = true ↔ n ≤ UInt64.ofNat (count - 1) := by
  have hlast := toNat_ofNat_of_lt (show count - 1 < 2 ^ 64 by have := h.count_le; omega)
  rw [h.contains_iff, UInt64.le_iff_toNat_le, hlast]
  omega

/-- A cached block above genesis has its parent cached, and points at its
    hash. -/
theorem CacheInv.parent_cached (h : CacheInv hashSlow count s) {n : UInt64} {b : SyntheticBlock}
    (hb : s.blocks[n]? = some b) (hn : n ≠ 0) :
    ∃ p, s.blocks[n - 1]? = some p ∧ b.parentHash = p.hash := by
  have hpos : 0 < n.toNat := by
    rw [Nat.pos_iff_ne_zero, Ne, ← UInt64.toNat_zero, UInt64.toNat_inj]
    exact hn
  have hpred : (n - 1).toNat = n.toNat - 1 := by
    rw [UInt64.toNat_sub_of_le _ _ (UInt64.le_iff_toNat_le.mpr (by rw [UInt64.toNat_one]; omega)),
      UInt64.toNat_one]
  obtain ⟨p, hp⟩ := h.exists_getElem? (n := n - 1) (by have := h.toNat_lt_of_getElem? hb; omega)
  refine ⟨p, hp, ?_⟩
  -- both are `chainHash (n - 1)`: the parent of block `n` in the chain
  rw [(h.canonical _ _ hb).parentHash_eq, (h.canonical _ _ hp).hash_eq, hpred,
    show n.toNat = n.toNat - 1 + 1 by omega, chainParent_succ, Nat.add_sub_cancel]

/-! ### Every run -/

variable (hashSlow) in
/-- A non-empty cached prefix of the chain. -/
def ChainPrefix (s : BlockState) : Prop := ∃ count, 0 < count ∧ CacheInv hashSlow count s

theorem chainPrefix_new : ChainPrefix hashSlow (new hashSlow) :=
  ⟨1, by omega, (cacheInv_empty 0).ensureBlockExists 0⟩

theorem ChainPrefix.ensureBlockExists (h : ChainPrefix hashSlow s) (blockNum : UInt64) :
    ChainPrefix hashSlow (ensureBlockExists hashSlow blockNum s) := by
  obtain ⟨count, hpos, hinv⟩ := h
  exact ⟨_, by omega, hinv.ensureBlockExists blockNum⟩

/-- **Step.** Every call keeps the cache a non-empty prefix of the chain. -/
theorem ChainPrefix.step (h : ChainPrefix hashSlow s) (call : Call) :
    ChainPrefix hashSlow (step hashSlow s call).1 := by
  cases call with
  | getBlockByNumber blockNum => exact h.ensureBlockExists blockNum
  | getBlockByHash hash => exact h
  | addTransactionToBlock blockNum txHash =>
    obtain ⟨count, hpos, hinv⟩ := h.ensureBlockExists blockNum
    exact ⟨count, hpos, hinv.modifyTransactions blockNum txHash⟩
  | getBlockHash blockNum => exact h.ensureBlockExists blockNum
  | setCurrentBlock blockNum =>
    -- the invariant does not read `current_block`
    obtain ⟨count, hpos, hinv⟩ := h.ensureBlockExists blockNum
    exact ⟨count, hpos, hinv.count_le, hinv.contains_iff, hinv.canonical, hinv.indexed,
      hinv.complete⟩

/-- **Run.** After any calls from `new`, the cache is a non-empty prefix of
    the chain. -/
theorem chainPrefix_run (calls : List Call) : ChainPrefix hashSlow (run hashSlow calls) :=
  Run.final_invariant (step hashSlow) (ChainPrefix hashSlow) (fun _ call h => h.step call)
    chainPrefix_new calls

end Refinement

end BlockState

end Blocks
