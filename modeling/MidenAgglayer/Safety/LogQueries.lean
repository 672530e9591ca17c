import MidenAgglayer.Store.Logs

/-! # `eth_getLogs` Against Its Oracle

    Two facts about one `eth_getLogs` query.

    * The SQL pushdown of `PgStore` is a safe superset: whatever
      `LogFilter::matches` accepts satisfies the address clause built from
      `address_alternatives_lower` (or is an `UpdateHashChainValue`) and the
      topic0 clause built from `topic0_alternatives_lower`
      (`matches_within_pushdown`).
    * `InMemoryStore::get_logs` agrees with the oracle "every stored log the
      filter matches": on success it returns exactly those logs, as a
      multiset, ordered by `(block_number, log_index)`, and it fails only
      when more than `GETLOGS_SAFETY_CEILING` of them match
      (`get_logs_matches_oracle`). The stores the claim is about are those
      whose logs were written by `insertLogUnder` (every `add_log` and
      every event commit), which keep `LogsFiled`.
-/

open Maps

namespace Store

variable (P : Primitives)

/-! ## Section 1: What a match implies -/

/-- An accepted address is one of the lowercase alternatives, or the log's
    topic0 is `UpdateHashChainValue`. -/
theorem LogFilter.addressMatches_spec {f : LogFilter} {log : SyntheticLog} {af : AddressFilter}
    (haddr : f.address = some af) (h : f.addressMatches P log = true) :
    P.toLowercase log.address ∈ af.alternatives.map P.toLowercase ∨
      log.topics.head?.map P.toLowercase = some (P.toLowercase updateHashChainValueTopic) := by
  unfold LogFilter.addressMatches at h
  rw [haddr] at h
  by_cases hany : (af.alternatives.any fun a => P.toLowercase a == P.toLowercase log.address) = true
  · -- the address itself is listed
    left
    obtain ⟨a, ha, heq⟩ := List.any_eq_true.mp hany
    exact List.mem_map.mpr ⟨a, ha, beq_iff_eq.mp heq⟩
  · -- the passthrough: topic0 is the `UpdateHashChainValue` topic
    right
    simp only [hany, Bool.not_false, if_true, Bool.true_and] at h
    cases htopic : log.topics.head? with
    | none => simp [htopic] at h
    | some t =>
      simp only [htopic, Option.map_some, Option.getD_some, Bool.not_not, Bool.and_eq_true,
        beq_iff_eq] at h
      simp [h.1]

/-- A constrained topic0 names a topic the log has, and its lowercase form is
    one of the alternatives. -/
theorem LogFilter.topicsMatch_head {f : LogFilter} {log : SyntheticLog} {filter : TopicFilter}
    {rest : List (Option TopicFilter)} (htopics : f.topics = some (some filter :: rest))
    (h : f.topicsMatch P log = true) :
    ∃ t, log.topics.head? = some t ∧ P.toLowercase t ∈ filter.alternatives.map P.toLowercase := by
  unfold LogFilter.topicsMatch at h
  simp only [htopics, List.zipIdx_cons, List.all_cons, Bool.and_eq_true] at h
  have hfirst := h.1
  cases ht : log.topics[0]? with
  | none => simp [ht] at hfirst
  | some t =>
    simp only [ht] at hfirst
    obtain ⟨a, ha, heq⟩ := List.any_eq_true.mp hfirst
    refine ⟨t, by simpa [List.head?_eq_getElem?] using ht, ?_⟩
    exact List.mem_map.mpr ⟨a, ha, beq_iff_eq.mp heq⟩

/-- With no block hash, a match lies in the inclusive block range. -/
theorem LogFilter.blockNumber_mem_range {f : LogFilter} {log : SyntheticLog}
    {currentBlock : Nat} (hhash : f.blockHash = none) (h : f.matches P log currentBlock = true) :
    f.fromBlockNumber P currentBlock ≤ log.blockNumber ∧
      log.blockNumber ≤ f.toBlockNumber P currentBlock := by
  unfold LogFilter.matches LogFilter.blockMatches at h
  rw [hhash] at h
  simp only [Bool.and_eq_true, Bool.not_eq_true', Bool.or_eq_false_iff, decide_eq_false_iff_not,
    not_lt, gt_iff_lt] at h
  exact ⟨h.1.1.1, h.1.1.2⟩

/-! ## Section 2: The pushdown is a superset -/

/-- **SAFE-SUPERSET pushdown soundness.** Every log the filter matches
    passes the address clause (`lower(address)` is an alternative, or
    `lower(topics[0])` is `UpdateHashChainValue`) and the topic0 clause
    (the log has a topic0 whose lowercase form is an alternative). -/
theorem matches_within_pushdown (f : LogFilter) (log : SyntheticLog) (currentBlock : Nat)
    (h : f.matches P log currentBlock = true) :
    (∀ alts, f.addressAlternativesLower P = some alts →
      P.toLowercase log.address ∈ alts ∨
        log.topics.head?.map P.toLowercase = some (P.toLowercase updateHashChainValueTopic)) ∧
    (∀ alts, f.topic0AlternativesLower P = some alts →
      ∃ t, log.topics.head? = some t ∧ P.toLowercase t ∈ alts) := by
  unfold LogFilter.matches at h
  simp only [Bool.and_eq_true] at h
  obtain ⟨⟨-, haddr⟩, htopics⟩ := h
  constructor
  · intro alts halts
    cases hf : f.address with
    | none => simp [LogFilter.addressAlternativesLower, hf] at halts
    | some af =>
      simp only [LogFilter.addressAlternativesLower, hf, Option.map_some, Option.some.injEq] at halts
      subst halts
      exact LogFilter.addressMatches_spec P hf haddr
  · intro alts halts
    unfold LogFilter.topic0AlternativesLower at halts
    -- only a topics array whose first entry is given constrains topic0
    rcases hf : f.topics with _ | ⟨_ | ⟨_ | filter, rest⟩⟩
    · simp [hf] at halts
    · simp [hf] at halts
    · simp [hf] at halts
    · simp only [hf, List.head?_cons, Option.some.injEq] at halts
      subst halts
      exact LogFilter.topicsMatch_head P hf htopics

/-- The bridge's query for `UpdateHashChainValue` and `BridgeEvent` logs at
    the GER contract. -/
def gerContractQuery : LogFilter where
  fromBlock := none
  toBlock := none
  address := some (.single l2GlobalExitRootAddress)
  topics := some [some (.multiple [updateHashChainValueTopic, bridgeEventTopic])]
  blockHash := none

/-- An `UpdateHashChainValue` log of block 7. -/
def hashChainLogAt7 : SyntheticLog where
  address := l2GlobalExitRootAddress
  topics := [updateHashChainValueTopic]
  data := "0x"
  blockNumber := 7
  blockHash := zeroWord
  transactionHash := "0x01"
  transactionIndex := 0
  logIndex := 0
  removed := false

theorem gerContractQuery_matches : gerContractQuery.matches P hashChainLogAt7 7 = true := by
  simp [LogFilter.matches, LogFilter.blockMatches, LogFilter.addressMatches,
    LogFilter.topicsMatch, LogFilter.fromBlockNumber, LogFilter.toBlockNumber, gerContractQuery,
    hashChainLogAt7, AddressFilter.alternatives, TopicFilter.alternatives]

theorem hash_chain_log_within_pushdown :
    gerContractQuery.matches Primitives.sample hashChainLogAt7 7 = true ∧
    (∀ alts, gerContractQuery.addressAlternativesLower Primitives.sample = some alts →
      Primitives.sample.toLowercase hashChainLogAt7.address ∈ alts ∨
        hashChainLogAt7.topics.head?.map Primitives.sample.toLowercase =
          some (Primitives.sample.toLowercase updateHashChainValueTopic)) ∧
    (∀ alts, gerContractQuery.topic0AlternativesLower Primitives.sample = some alts →
      ∃ t, hashChainLogAt7.topics.head? = some t ∧ Primitives.sample.toLowercase t ∈ alts) :=
  ⟨gerContractQuery_matches Primitives.sample,
    matches_within_pushdown Primitives.sample gerContractQuery hashChainLogAt7 7
      (gerContractQuery_matches Primitives.sample)⟩

/-! ## Section 3: The candidates of `get_logs` -/

variable {P}

/-- The candidate buckets of the range path hold every matching stored log
    as often as the store does. -/
theorem range_candidates_filter_perm {s : InMemoryStore} (hfiled : LogsFiled s) {f : LogFilter}
    {currentBlock : Nat} (hhash : f.blockHash = none) :
    (((List.range' (f.fromBlockNumber P currentBlock)
        (f.toBlockNumber P currentBlock + 1 - f.fromBlockNumber P currentBlock)).filterMap
          fun b => s.logsByBlock[b]?).flatten.filter fun log => f.matches P log currentBlock).Perm
      ((allValues s.logsByBlock).filter fun log => f.matches P log currentBlock) := by
  rw [List.perm_iff_count]
  intro v
  by_cases hv : f.matches P v currentBlock = true
  · -- a match lies in the range, so its own bucket is among the candidates
    rw [List.count_filter (p := fun log => f.matches P log currentBlock) hv,
      List.count_filter (p := fun log => f.matches P log currentBlock) hv,
      count_flatten_filterMap hfiled (List.nodup_range' 1 (by decide)) v]
    obtain ⟨hlo, hhi⟩ := LogFilter.blockNumber_mem_range P hhash hv
    have hmem : v.blockNumber ∈ List.range' (f.fromBlockNumber P currentBlock)
        (f.toBlockNumber P currentBlock + 1 - f.fromBlockNumber P currentBlock) :=
      List.mem_range'.mpr ⟨v.blockNumber - f.fromBlockNumber P currentBlock, by omega, by omega⟩
    rw [if_pos hmem]
  · have hnone : ∀ l : List SyntheticLog,
        (l.filter fun log => f.matches P log currentBlock).count v = 0 :=
      fun l => List.count_eq_zero.mpr fun hmem => hv (List.mem_filter.mp hmem).2
    rw [hnone, hnone]

/-- Whichever path `get_logs` takes, its matching candidates are the
    matching stored logs. -/
theorem candidates_filter_perm {s : InMemoryStore} (hfiled : LogsFiled s) (f : LogFilter)
    (currentBlock : Nat) :
    ((candidateLogs P f currentBlock s).flatten.filter fun log => f.matches P log currentBlock).Perm
      ((allValues s.logsByBlock).filter fun log => f.matches P log currentBlock) := by
  unfold candidateLogs
  cases hhash : f.blockHash with
  | some h =>
    -- every bucket is a candidate
    simp only [Option.isSome_some, if_true]
    rw [← List.flatMap_def]
    rfl
  | none =>
    simp only [Option.isSome_none, Bool.false_eq_true, if_false]
    exact range_candidates_filter_perm hfiled hhash

/-- `(block_number, log_index)` order, spelled out. -/
theorem logOrder_isLE_iff (a b : SyntheticLog) :
    (logOrder a b).isLE = true ↔
      a.blockNumber < b.blockNumber ∨ (a.blockNumber = b.blockNumber ∧ a.logIndex ≤ b.logIndex) := by
  unfold logOrder compareLex compareOn
  rcases Nat.lt_trichotomy a.blockNumber b.blockNumber with hlt | heq | hgt
  · simp [Nat.compare_eq_lt.mpr hlt, hlt]
  · simp [heq, Ordering.isLE, Nat.le_iff_lt_or_eq]
    rcases Nat.lt_trichotomy a.logIndex b.logIndex with h | h | h
    · simp [Nat.compare_eq_lt.mpr h, h]
    · simp [h]
    · simp [Nat.compare_eq_gt.mpr h, Nat.not_lt.mpr (Nat.le_of_lt h), Nat.ne_of_gt h]
  · simp [Nat.compare_eq_gt.mpr hgt, Nat.not_lt.mpr (Nat.le_of_lt hgt), Nat.ne_of_gt hgt]

/-! ## Section 4: `get_logs` is the oracle -/

/-- **`eth_getLogs` store/oracle equivalence.** On a store whose logs were
    filed by `insertLogUnder`, `get_logs` either returns exactly the stored
    logs that `matches` accepts, as a multiset, ordered by
    `(block_number, log_index)`, or fails, and then more than
    `GETLOGS_SAFETY_CEILING` stored logs match. -/
theorem get_logs_matches_oracle {s : InMemoryStore} (hfiled : LogsFiled s) (f : LogFilter)
    (currentBlock : Nat) :
    match (getLogs P f currentBlock s).2 with
    | .ok result =>
      result.Perm ((allValues s.logsByBlock).filter fun log => f.matches P log currentBlock) ∧
      result.Pairwise fun a b =>
        a.blockNumber < b.blockNumber ∨ (a.blockNumber = b.blockNumber ∧ a.logIndex ≤ b.logIndex)
    | .error _ =>
      getlogsSafetyCeiling <
        ((allValues s.logsByBlock).filter fun log => f.matches P log currentBlock).length := by
  have hcand := candidates_filter_perm (P := P) hfiled f currentBlock
  have hloop := collectMatches_spec (fun log => f.matches P log currentBlock) getlogsSafetyCeiling []
    (candidateLogs P f currentBlock s).flatten (Nat.zero_le _)
  unfold getLogs
  cases hc : collectMatches (fun log => f.matches P log currentBlock) getlogsSafetyCeiling []
      (candidateLogs P f currentBlock s).flatten with
  | none =>
    -- the loop stopped at the ceiling
    rw [hc, List.length_nil, Nat.zero_add, hcand.length_eq] at hloop
    exact hloop
  | some result =>
    -- the loop kept exactly the matching candidates, then sorted them
    rw [hc, List.nil_append] at hloop
    subst hloop
    refine ⟨(sortBy_perm logOrder _).trans hcand, ?_⟩
    exact (pairwise_sortBy logOrder _).imp fun {a b} h => (logOrder_isLE_iff a b).mp h

theorem oracle_after_one_insert :
    LogsFiled (insertLog Primitives.sample hashChainLogAt7 InMemoryStore.new) ∧
    match (getLogs Primitives.sample gerContractQuery 7
        (insertLog Primitives.sample hashChainLogAt7 InMemoryStore.new)).2 with
    | .ok result =>
      result.Perm ((allValues (insertLog Primitives.sample hashChainLogAt7
          InMemoryStore.new).logsByBlock).filter fun log =>
        gerContractQuery.matches Primitives.sample log 7) ∧
      result.Pairwise fun a b =>
        a.blockNumber < b.blockNumber ∨ (a.blockNumber = b.blockNumber ∧ a.logIndex ≤ b.logIndex)
    | .error _ =>
      getlogsSafetyCeiling < ((allValues (insertLog Primitives.sample hashChainLogAt7
          InMemoryStore.new).logsByBlock).filter fun log =>
        gerContractQuery.matches Primitives.sample log 7).length :=
  have hfiled := logsFiled_new.insertLogUnder _ hashChainLogAt7
  ⟨hfiled, get_logs_matches_oracle hfiled gerContractQuery 7⟩

end Store
