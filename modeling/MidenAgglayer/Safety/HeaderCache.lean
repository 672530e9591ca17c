import MidenAgglayer.Blocks.BlockState

/-! # The Header Cache Agrees with the Pure Chain

    bridge-service recomputes every synthetic block's hash from the header
    fields it is served, so `BlockState` must serve exactly the chain that
    `compute_hash_for_number` folds from genesis, whichever blocks its
    callers ask for first. After any sequence of calls from `new`:

    * the cached blocks are `0 ..= M` for some `M`;
    * block `n` has the chain's hash, the hash of its own header, and the
      hash of block `n - 1` as its parent (zero at genesis);
    * `get_block_by_hash` answers only a cached block with the hash asked
      for, and, when no two cached blocks share a hash, every such block;
    * `get_block_hash n` answers the chain's hash of `n`, and
      `get_block_by_number n` a block numbered `n` with that hash, cached
      or built on the spot.

    Without that last condition the answer is the highest cached block with
    the hash (`CacheInv.getBlockByHash_eq_some`): `hash_to_number` keeps the
    block filed last.
-/

open Store

namespace Blocks

open BlockState

/-- **The header cache agrees with the pure chain.** -/
theorem header_cache_agrees_with_chain (hashSlow : Header → B256) (calls : List Call) :
    let s := run hashSlow calls
    (∃ M : UInt64, ∀ n, s.blocks.contains n = true ↔ n ≤ M) ∧
    (∀ n b, s.blocks[n]? = some b →
      b.number = n ∧ b.hash = SyntheticBlock.computeHashForNumber hashSlow n ∧
      (n = 0 → b.parentHash = zeroWord) ∧
      (n ≠ 0 → ∃ p, s.blocks[n - 1]? = some p ∧ b.parentHash = p.hash) ∧
      b.hash = hashSlow (SyntheticBlock.buildHeader n b.parentHash)) ∧
    (∀ hash b, getBlockByHash s hash = some b → s.blocks[b.number]? = some b ∧ b.hash = hash) ∧
    (HashesDistinct s → ∀ hash b,
      getBlockByHash s hash = some b ↔ s.blocks[b.number]? = some b ∧ b.hash = hash) ∧
    (∀ n, (getBlockHash hashSlow n s).2 = SyntheticBlock.computeHashForNumber hashSlow n) ∧
    (∀ n, ∃ b, (getBlockByNumber hashSlow n s).2 = some b ∧ b.number = n ∧
      b.hash = SyntheticBlock.computeHashForNumber hashSlow n) := by
  intro s
  obtain ⟨count, hpos, hinv⟩ := @chainPrefix_run hashSlow calls
  refine ⟨⟨UInt64.ofNat (count - 1), hinv.contains_iff_le hpos⟩, fun n b hb => ?_,
    fun hash b hget => ?_, fun hdistinct => hinv.getBlockByHash_eq_some_iff hdistinct,
    hinv.getBlockHash_snd, fun n => ?_⟩
  · -- a cached block is the chain's block
    have hcanon := hinv.canonical n b hb
    refine ⟨hcanon.number_eq, by rw [hcanon.hash_eq, computeHashForNumber_eq], fun hn => ?_,
      hinv.parent_cached hb, hcanon.hash_eq_hashSlow⟩
    rw [hcanon.parentHash_eq, hn]
    rfl
  · obtain ⟨hb, hhash, -⟩ := hinv.getBlockByHash_eq_some hget
    exact ⟨hb, hhash⟩
  · -- `get_block_by_number` answers the chain's block, extending the cache if needed
    obtain ⟨b, hb, hcanon⟩ := hinv.getBlockByNumber_snd n
    exact ⟨b, hb, hcanon.number_eq, by rw [hcanon.hash_eq, computeHashForNumber_eq]⟩

/-- A header hash that is the header's number as a big-endian word: no two
    blocks of its chain share a hash. -/
def numberHash (header : Header) : B256 :=
  ⟨(Bytes.beBytes 32 header.number.toNat).toArray, by simp⟩

theorem computeHashForNumber_numberHash (n : UInt64) :
    SyntheticBlock.computeHashForNumber numberHash n =
      numberHash (SyntheticBlock.buildHeader n zeroWord) := by
  rw [computeHashForNumber_eq, chainHash_eq, UInt64.ofNat_toNat]
  rfl

theorem computeHashForNumber_numberHash_inj {m n : UInt64}
    (h : SyntheticBlock.computeHashForNumber numberHash m =
      SyntheticBlock.computeHashForNumber numberHash n) : m = n := by
  rw [computeHashForNumber_numberHash, computeHashForNumber_numberHash] at h
  -- read both words back as numbers
  have hm : m.toNat < 256 ^ 32 := by have hm := m.toNat_lt; omega
  have hn : n.toNat < 256 ^ 32 := by have hn := n.toNat_lt; omega
  have hbytes := congrArg (fun v : B256 => Bytes.beValue v.toList) h
  simp only [numberHash, SyntheticBlock.number_buildHeader, Vector.toList_mk,
    Bytes.beValue_beBytes_of_lt hm, Bytes.beValue_beBytes_of_lt hn] at hbytes
  exact UInt64.toNat_inj.mp hbytes

/-- The calls of the source's `test_hashes_identical_across_instances`. -/
def identicalAcrossCalls : List Call := [.getBlockByNumber 50, .getBlockByNumber 100]

/-- With hashes that never collide, `get_block_by_hash` finds every cached
    block by its hash and nothing else. -/
theorem number_hashes_find_cached_blocks :
    HashesDistinct (run numberHash identicalAcrossCalls) ∧
    ∀ hash b, getBlockByHash (run numberHash identicalAcrossCalls) hash = some b ↔
      (run numberHash identicalAcrossCalls).blocks[b.number]? = some b ∧ b.hash = hash := by
  obtain ⟨-, hcached, -, hexact, -⟩ := header_cache_agrees_with_chain numberHash identicalAcrossCalls
  have hdistinct : HashesDistinct (run numberHash identicalAcrossCalls) := by
    intro m n bm bn hbm hbn hhash
    rw [(hcached m bm hbm).2.1, (hcached n bn hbn).2.1] at hhash
    exact computeHashForNumber_numberHash_inj hhash
  exact ⟨hdistinct, hexact hdistinct⟩

end Blocks
