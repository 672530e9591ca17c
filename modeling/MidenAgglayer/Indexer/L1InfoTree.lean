import MidenAgglayer.Store.Ger
import MidenAgglayer.Framework.Run

/-! # The L1 InfoTree Indexer

    `L1InfoTreeIndexer` (`src/l1_info_tree_indexer.rs`) scans the GER
    manager's `UpdateL1InfoTree` / `UpdateGlobalExitRoot` logs on one L1
    frontier and writes each log's `(mainnet, rollup)` pair to the store,
    keyed by `combined_ger(mainnet, rollup)`. Its only state is the cursor
    `last_processed`; each tick, `poll_to_head` asks for the logs of the
    window after the cursor, writes their evidence in order, and moves the
    cursor to the window's end only when every write succeeded.

    Everything outside the indexer is the environment of a poll
    (`PollEnv`): the selected head, the provider's answers to `get_logs`
    and to the block-timestamp lookups, and which durable writes fail. The
    store is the in-memory store; a failed write changes nothing, as a
    failed `PgStore` upsert does.

    Besides the model: what one poll can do (`PollOutcome`, proved by
    `pollToHead_outcome`), and the coverage invariant over whole runs
    (`covered_runPolls`): when the provider returns every matching log of
    each requested window, every such log of a block in
    `(initial cursor, last_processed]` has its decomposition in the store.
-/

open Bytes Maps Store

namespace Indexer

/-! ## Section 1: The model -/

/-- `DEFAULT_MAX_RANGE`. -/
def defaultMaxRange : UInt64 := 1000

/-- The fields of `L1InfoTreeIndexer` that the scan reads. -/
structure L1InfoTreeIndexer where
  maxRange : UInt64
  fromBlockOverride : Option UInt64

/-- `L1InfoTreeIndexer::new`. -/
def L1InfoTreeIndexer.new : L1InfoTreeIndexer where
  maxRange := defaultMaxRange
  fromBlockOverride := none

/-- `with_from_block_override`. -/
def L1InfoTreeIndexer.withFromBlockOverride (self : L1InfoTreeIndexer) (fromBlock : UInt64) :
    L1InfoTreeIndexer :=
  { self with fromBlockOverride := some fromBlock }

/-- `initial_cursor`: the operator override's predecessor, else the
    persisted cursor, else (cursor 0 means none recorded) the selected
    head. -/
def L1InfoTreeIndexer.initialCursor (self : L1InfoTreeIndexer) (stored selectedHead : UInt64) :
    UInt64 :=
  match self.fromBlockOverride with
  -- `from.saturating_sub(1)`
  | some fromBlock => if fromBlock = 0 then 0 else fromBlock - 1
  | none => if stored = 0 then selectedHead else stored

example : (L1InfoTreeIndexer.new.withFromBlockOverride 12345).initialCursor 0 20000000 = 12344 ∧
    L1InfoTreeIndexer.new.initialCursor 77 100 = 77 ∧
    L1InfoTreeIndexer.new.initialCursor 0 100 = 100 := by
  decide

/-- An alloy `Log`, as the indexer reads it. -/
structure Log where
  blockNumber : Option UInt64
  topics : List B256

/-- The pair `process_log` reads: `topics[1]` and `topics[2]` of a log with
    at least three topics. -/
def Log.exitRoots (log : Log) : Option (B256 × B256) :=
  match log.topics with
  | _ :: mainnet :: rollup :: _ => some (mainnet, rollup)
  | _ => none

/-- `log.block_number.unwrap_or(0)`. -/
def Log.block (log : Log) : UInt64 := log.blockNumber.getD 0

/-- What the rest of the system answers during one poll. -/
structure PollEnv where
  /-- `scan_head`: the number of the selected `latest`/`safe`/`finalized`
      block, or the provider's error. -/
  scanHead : Except String UInt64
  /-- `get_logs` for the window `[from, to]` of the GER manager's two events. -/
  getLogs : UInt64 → UInt64 → Except String (List Log)
  /-- `get_block_by_number`: a block's timestamp; `none` for a missing
      block or a failed call. -/
  blockTimestamp : UInt64 → Option UInt64
  /-- The error of the evidence write for the batch's `i`-th log, when it
      fails. -/
  evidenceWrite : Nat → Option String
  /-- `set_l1_evidence_cursor` fails (it is logged and ignored). -/
  cursorWriteFails : Bool

/-- The indexer's cursor and what it writes to the store: the GER entries,
    and the store's `l1_evidence_cursor`, kept beside the store record. -/
structure IndexerState where
  lastProcessed : UInt64
  store : InMemoryStore
  evidenceCursor : UInt64

/-- The failures of `poll_once`. -/
inductive PollError where
  | scanHead (e : String)
  | getLogs (e : String)
  | evidenceWrite (blockNumber fromBlock toBlock : UInt64) (e : String)

/-- The text of a poll failure, as `poll_once`'s caller logs it. -/
def PollError.message : PollError → String
  | .scanHead e => e
  | .getLogs e => e
  | .evidenceWrite blockNumber fromBlock toBlock _ =>
    s!"L1InfoTreeIndexer: evidence write failed at block {blockNumber}; batch [{fromBlock}, {toBlock}] left unadvanced (retryable)"

/-- `resolve_block_timestamp`, with the per-poll cache: block 0 has
    timestamp 0, a cached block its cached timestamp, and any other block
    the provider's answer, cached only when there is one. -/
def resolveBlockTimestamp (env : PollEnv) (blockNumber : UInt64)
    (cache : Std.HashMap UInt64 UInt64) : UInt64 × Std.HashMap UInt64 UInt64 :=
  if blockNumber = 0 then (0, cache)
  else
    match cache[blockNumber]? with
    | some ts => (ts, cache)
    | none =>
      match env.blockTimestamp blockNumber with
      | some ts => (ts, cache.insert blockNumber ts)
      | none => (0, cache)

/-- `process_log`: a log with fewer than three topics is skipped
    (`Ok(false)`); otherwise its pair is written under its combined GER. A
    failed write leaves the store as it was. -/
def processLog (P : Primitives) (writeError : Option String) (log : Log)
    (blockNumber timestamp : UInt64) (s : InMemoryStore) : InMemoryStore × Except String Bool :=
  match log.exitRoots with
  | none => (s, .ok false)
  | some (mainnet, rollup) =>
    match writeError with
    | some e => (s, .error e)
    | none =>
      (setGerExitRoots (combinedGer P mainnet rollup) mainnet rollup blockNumber timestamp s,
        .ok true)

/-- The `for log in logs` loop of `poll_to_head`, from the batch's `i`-th
    log: the first failed write ends the poll with the error that names its
    block and the window. -/
def pollLogs (P : Primitives) (env : PollEnv) (fromBlock toBlock : UInt64) :
    Nat → Std.HashMap UInt64 UInt64 → InMemoryStore → List Log →
      InMemoryStore × Except PollError Unit
  | _, _, s, [] => (s, .ok ())
  | i, cache, s, log :: logs =>
    let blockNumber := log.block
    let resolved := resolveBlockTimestamp env blockNumber cache
    match processLog P (env.evidenceWrite i) log blockNumber resolved.1 s with
    | (s', .error e) => (s', .error (.evidenceWrite blockNumber fromBlock toBlock e))
    | (s', .ok _) => pollLogs P env fromBlock toBlock (i + 1) resolved.2 s' logs

/-- `poll_to_head`. -/
def pollToHead (P : Primitives) (self : L1InfoTreeIndexer) (env : PollEnv) (head : UInt64)
    (st : IndexerState) : IndexerState × Except PollError Unit :=
  if head ≤ st.lastProcessed then (st, .ok ())
  else
    let fromBlock := st.lastProcessed + 1
    let toBlock := min head (fromBlock + self.maxRange - 1)
    match env.getLogs fromBlock toBlock with
    | .error e => (st, .error (.getLogs e))
    | .ok logs =>
      match pollLogs P env fromBlock toBlock 0 ∅ st.store logs with
      | (store, .error e) => ({ st with store := store }, .error e)
      | (store, .ok ()) =>
        -- the cursor moves only here, after every write of the batch
        ({ lastProcessed := toBlock, store := store
           evidenceCursor := if env.cursorWriteFails then st.evidenceCursor else toBlock },
          .ok ())

/-- `poll_once`: the selected head, then `poll_to_head` to it. -/
def pollOnce (P : Primitives) (self : L1InfoTreeIndexer) (env : PollEnv) (st : IndexerState) :
    IndexerState × Except PollError Unit :=
  match env.scanHead with
  | .error e => (st, .error (.scanHead e))
  | .ok head => pollToHead P self env head st

/-- The state `spawn` starts its loop from: the initial cursor from the
    persisted cursor and the selected head (0 when that lookup fails). -/
def L1InfoTreeIndexer.start (self : L1InfoTreeIndexer) (scanHead : Except String UInt64)
    (store : InMemoryStore) (evidenceCursor : UInt64) : IndexerState where
  lastProcessed :=
    self.initialCursor evidenceCursor (match scanHead with | .ok head => head | .error _ => 0)
  store := store
  evidenceCursor := evidenceCursor

/-- The loop of `spawn`, one `poll_once` per tick; a failed poll is logged
    and the loop goes on. -/
def runPolls (P : Primitives) (self : L1InfoTreeIndexer) (st : IndexerState)
    (envs : List PollEnv) : IndexerState :=
  Run.final (fun st env => pollOnce P self env st) st envs

/-! ## Section 2: What one poll does -/

/-- The timestamp a poll writes for a block: 0 for block 0 and for a block
    the provider does not answer. -/
def timestampOf (env : PollEnv) (blockNumber : UInt64) : UInt64 :=
  if blockNumber = 0 then 0 else (env.blockTimestamp blockNumber).getD 0

/-- The timestamp cache holds only the provider's own answers. -/
def CacheCoherent (env : PollEnv) (cache : Std.HashMap UInt64 UInt64) : Prop :=
  ∀ blockNumber ts, cache[blockNumber]? = some ts → env.blockTimestamp blockNumber = some ts

/-- The store after a successful `process_log` of a log in a poll. -/
def writeEvidence (P : Primitives) (env : PollEnv) (s : InMemoryStore) (log : Log) :
    InMemoryStore :=
  match log.exitRoots with
  | none => s
  | some (mainnet, rollup) =>
    setGerExitRoots (combinedGer P mainnet rollup) mainnet rollup log.block
      (timestampOf env log.block) s

/-- The end of the window a poll from cursor `c` asks for:
    `min(head, c + max_range)`, in `u64` arithmetic. -/
def L1InfoTreeIndexer.windowEnd (self : L1InfoTreeIndexer) (c head : UInt64) : UInt64 :=
  min head (c + self.maxRange)

/-- `from + max_range - 1` with `from = c + 1` is `c + max_range`, wrapping
    or not. -/
theorem windowStop_eq (c maxRange : UInt64) : c + 1 + maxRange - 1 = c + maxRange := by
  grind

theorem cacheCoherent_empty (env : PollEnv) : CacheCoherent env ∅ := by
  intro blockNumber ts h
  simp at h

/-- With a coherent cache the lookup is the provider's answer, and the
    cache stays coherent. -/
theorem resolveBlockTimestamp_spec {env : PollEnv} {cache : Std.HashMap UInt64 UInt64}
    (hc : CacheCoherent env cache) (blockNumber : UInt64) :
    (resolveBlockTimestamp env blockNumber cache).1 = timestampOf env blockNumber ∧
      CacheCoherent env (resolveBlockTimestamp env blockNumber cache).2 := by
  unfold resolveBlockTimestamp timestampOf
  by_cases hzero : blockNumber = 0
  · rw [if_pos hzero, if_pos hzero]
    exact ⟨rfl, hc⟩
  · rw [if_neg hzero, if_neg hzero]
    cases hcached : cache[blockNumber]? with
    | some ts => exact ⟨by rw [hc blockNumber ts hcached]; rfl, hc⟩
    | none =>
      cases hanswer : env.blockTimestamp blockNumber with
      | none => exact ⟨rfl, hc⟩
      | some ts =>
        -- the one new entry is the provider's answer
        refine ⟨rfl, fun b ts' h => ?_⟩
        rw [Std.HashMap.getElem?_insert] at h
        by_cases hb : blockNumber = b
        · subst hb
          simp only [beq_self_eq_true, if_true, Option.some.injEq] at h
          rw [hanswer, h]
        · simp only [beq_iff_eq, hb, if_false] at h
          exact hc b ts' h

section Loop

variable (P : Primitives) (env : PollEnv) (fromBlock toBlock : UInt64)

/-- A log whose write does not fail is written, and the loop goes on. -/
theorem pollLogs_cons_of_write {i : Nat} {cache : Std.HashMap UInt64 UInt64} {s : InMemoryStore}
    {log : Log} {logs : List Log} (hc : CacheCoherent env cache)
    (hw : log.exitRoots = none ∨ env.evidenceWrite i = none) :
    pollLogs P env fromBlock toBlock i cache s (log :: logs) =
      pollLogs P env fromBlock toBlock (i + 1) (resolveBlockTimestamp env log.block cache).2
        (writeEvidence P env s log) logs := by
  have hts := (resolveBlockTimestamp_spec hc log.block).1
  rcases hw with hroots | hok
  · simp only [pollLogs, processLog, writeEvidence, hroots]
  · cases hroots : log.exitRoots with
    | none => simp only [pollLogs, processLog, writeEvidence, hroots]
    | some roots => simp only [pollLogs, processLog, writeEvidence, hroots, hok, hts]

/-- A log whose write fails ends the poll, with nothing of it written. -/
theorem pollLogs_cons_of_fail {i : Nat} {cache : Std.HashMap UInt64 UInt64} {s : InMemoryStore}
    {log : Log} {logs : List Log} {mainnet rollup : B256} {err : String}
    (hroots : log.exitRoots = some (mainnet, rollup)) (hfail : env.evidenceWrite i = some err) :
    pollLogs P env fromBlock toBlock i cache s (log :: logs) =
      (s, .error (.evidenceWrite log.block fromBlock toBlock err)) := by
  simp only [pollLogs, processLog, hroots, hfail]

/-- The loop writes the evidence of a prefix of the batch, in order; it
    stops early only at a log with a pair whose write failed, and then
    names that log's block and the window. -/
theorem pollLogs_spec (logs : List Log) :
    ∀ (i : Nat) (cache : Std.HashMap UInt64 UInt64) (s : InMemoryStore), CacheCoherent env cache →
      ∃ j ≤ logs.length,
        (pollLogs P env fromBlock toBlock i cache s logs).1 =
          (logs.take j).foldl (writeEvidence P env) s ∧
        match (pollLogs P env fromBlock toBlock i cache s logs).2 with
        | .ok () => j = logs.length
        | .error e => ∃ log mainnet rollup err, logs[j]? = some log ∧
            log.exitRoots = some (mainnet, rollup) ∧ env.evidenceWrite (i + j) = some err ∧
            e = .evidenceWrite log.block fromBlock toBlock err := by
  induction logs with
  | nil => exact fun _ _ _ _ => ⟨0, le_rfl, rfl, rfl⟩
  | cons log logs ih =>
    intro i cache s hc
    by_cases hfails : ∃ mainnet rollup err, log.exitRoots = some (mainnet, rollup) ∧
        env.evidenceWrite i = some err
    · -- the first write fails: nothing is written
      obtain ⟨mainnet, rollup, err, hroots, hfail⟩ := hfails
      rw [pollLogs_cons_of_fail P env fromBlock toBlock hroots hfail]
      exact ⟨0, Nat.zero_le _, rfl, log, mainnet, rollup, err, rfl, hroots, hfail, rfl⟩
    · -- the first log is written; the rest is the loop from the next index
      have hw : log.exitRoots = none ∨ env.evidenceWrite i = none := by
        cases hroots : log.exitRoots with
        | none => exact .inl rfl
        | some roots =>
          cases hwrite : env.evidenceWrite i with
          | none => exact .inr rfl
          | some err => exact absurd ⟨roots.1, roots.2, err, hroots, hwrite⟩ hfails
      rw [pollLogs_cons_of_write P env fromBlock toBlock hc hw]
      obtain ⟨j, hj, hstore, hres⟩ :=
        ih (i + 1) _ (writeEvidence P env s log) (resolveBlockTimestamp_spec hc log.block).2
      refine ⟨j + 1, by simpa using hj, by rw [hstore, List.take_succ_cons, List.foldl_cons], ?_⟩
      split at hres
      · rw [hres, List.length_cons]
      · obtain ⟨log', mainnet, rollup, err, hlog, hroots, hfail, he⟩ := hres
        refine ⟨log', mainnet, rollup, err, by simpa using hlog, hroots, ?_, he⟩
        rwa [Nat.add_right_comm, Nat.add_assoc] at hfail

end Loop

/-- What one `poll_to_head` call towards `head` from `st` can do. -/
inductive PollOutcome (P : Primitives) (self : L1InfoTreeIndexer) (env : PollEnv) (head : UInt64)
    (st : IndexerState) : IndexerState × Except PollError Unit → Prop
  /-- Nothing new: the cursor is at or past the head. -/
  | caughtUp : head ≤ st.lastProcessed → PollOutcome P self env head st (st, .ok ())
  /-- `get_logs` failed: nothing was written. -/
  | getLogsFailed (e : String) : st.lastProcessed < head →
      env.getLogs (st.lastProcessed + 1) (self.windowEnd st.lastProcessed head) = .error e →
      PollOutcome P self env head st (st, .error (.getLogs e))
  /-- The write for the `j`-th log failed: the logs in front of it were
      written, and the cursors did not move. -/
  | writeFailed (logs : List Log) (j : Nat) (log : Log) (mainnet rollup : B256) (err : String) :
      st.lastProcessed < head →
      env.getLogs (st.lastProcessed + 1) (self.windowEnd st.lastProcessed head) = .ok logs →
      logs[j]? = some log → log.exitRoots = some (mainnet, rollup) →
      env.evidenceWrite j = some err →
      PollOutcome P self env head st
        ({ st with store := (logs.take j).foldl (writeEvidence P env) st.store },
          .error (.evidenceWrite log.block (st.lastProcessed + 1)
            (self.windowEnd st.lastProcessed head) err))
  /-- Every log of the window was written; then the cursor moved to the
      window's end, and so did the persisted cursor unless its write
      failed. -/
  | advanced (logs : List Log) : st.lastProcessed < head →
      env.getLogs (st.lastProcessed + 1) (self.windowEnd st.lastProcessed head) = .ok logs →
      PollOutcome P self env head st
        ({ lastProcessed := self.windowEnd st.lastProcessed head
           store := logs.foldl (writeEvidence P env) st.store
           evidenceCursor := if env.cursorWriteFails then st.evidenceCursor
             else self.windowEnd st.lastProcessed head }, .ok ())

/-- **Poll outcome.** Every `poll_to_head` call is one of the four cases. -/
theorem pollToHead_outcome (P : Primitives) (self : L1InfoTreeIndexer) (env : PollEnv)
    (head : UInt64) (st : IndexerState) :
    PollOutcome P self env head st (pollToHead P self env head st) := by
  unfold pollToHead
  by_cases hcaught : head ≤ st.lastProcessed
  · rw [if_pos hcaught]
    exact .caughtUp hcaught
  have hlt : st.lastProcessed < head := UInt64.not_le.mp hcaught
  rw [if_neg hcaught]
  simp only [windowStop_eq]
  cases hlogs : env.getLogs (st.lastProcessed + 1) (min head (st.lastProcessed + self.maxRange)) with
  | error e => exact .getLogsFailed e hlt hlogs
  | ok logs =>
    dsimp only
    obtain ⟨j, hj, hstore, hres⟩ := pollLogs_spec P env (st.lastProcessed + 1)
      (min head (st.lastProcessed + self.maxRange)) logs 0 ∅ st.store (cacheCoherent_empty env)
    rcases hrun : pollLogs P env (st.lastProcessed + 1) (min head (st.lastProcessed + self.maxRange))
      0 ∅ st.store logs with ⟨store, _ | _⟩
    all_goals rw [hrun] at hstore hres
    · -- a write failed
      obtain ⟨log, mainnet, rollup, err, hlog, hroots, hfail, rfl⟩ := hres
      rw [Nat.zero_add] at hfail
      simp only at hstore
      subst hstore
      dsimp only
      exact .writeFailed logs j log mainnet rollup err hlt hlogs hlog hroots hfail
    · -- every write succeeded
      simp only at hstore hres
      subst hstore hres
      dsimp only
      rw [List.take_length]
      exact .advanced logs hlt hlogs

/-- The window arithmetic does not wrap: `c + max_range < 2^64`. -/
def NoWrap (self : L1InfoTreeIndexer) (c : UInt64) : Prop :=
  c.toNat + self.maxRange.toNat < 2 ^ 64

instance decidableNoWrap (self : L1InfoTreeIndexer) (c : UInt64) : Decidable (NoWrap self c) :=
  inferInstanceAs (Decidable (_ < _))

/-- Without wrapping, the window ends at `min(head, c + max_range)`. -/
theorem toNat_windowEnd {self : L1InfoTreeIndexer} {c : UInt64} (h : NoWrap self c) (head : UInt64) :
    (self.windowEnd c head).toNat = min head.toNat (c.toNat + self.maxRange.toNat) := by
  rw [L1InfoTreeIndexer.windowEnd, UInt64.toNat_min, UInt64.toNat_add, Nat.mod_eq_of_lt h]

/-- A poll leaves the cursor where it was, or moves it to the end of the
    window after it, having written every log of that window. -/
theorem PollOutcome.lastProcessed_cases {P : Primitives} {self : L1InfoTreeIndexer}
    {env : PollEnv} {head : UInt64} {st : IndexerState} {r : IndexerState × Except PollError Unit}
    (hout : PollOutcome P self env head st r) :
    r.1.lastProcessed = st.lastProcessed ∨
      r.1.lastProcessed = self.windowEnd st.lastProcessed head ∧ r.2 = .ok () := by
  cases hout with
  | caughtUp => exact .inl rfl
  | getLogsFailed => exact .inl rfl
  | writeFailed => exact .inl rfl
  | advanced => exact .inr ⟨rfl, rfl⟩

/-- The persisted cursor stays, or is written with the cursor. -/
theorem PollOutcome.evidenceCursor_cases {P : Primitives} {self : L1InfoTreeIndexer}
    {env : PollEnv} {head : UInt64} {st : IndexerState} {r : IndexerState × Except PollError Unit}
    (hout : PollOutcome P self env head st r) :
    r.1.evidenceCursor = st.evidenceCursor ∨ r.1.evidenceCursor = r.1.lastProcessed := by
  cases hout with
  | caughtUp => exact .inl rfl
  | getLogsFailed => exact .inl rfl
  | writeFailed => exact .inl rfl
  | advanced =>
    by_cases hfail : env.cursorWriteFails = true
    · exact .inl (if_pos hfail)
    · exact .inr (if_neg hfail)

/-- A failed head lookup changes nothing; otherwise the tick is a poll to
    the head. -/
theorem pollOnce_cases (P : Primitives) (self : L1InfoTreeIndexer) (env : PollEnv)
    (st : IndexerState) :
    (pollOnce P self env st).1 = st ∨
      ∃ head, pollOnce P self env st = pollToHead P self env head st := by
  unfold pollOnce
  cases env.scanHead with
  | error => exact .inl rfl
  | ok head => exact .inr ⟨head, rfl⟩

/-! ## Section 3: Coverage over runs -/

/-- The store holds a decomposition of `ger` written by the scan: a
    verified entry whose two roots hash to it. -/
def Evidenced (P : Primitives) (s : InMemoryStore) (ger : B256) : Prop :=
  ∃ entry mainnet rollup, s.seenGers[ger]? = some entry ∧ entry.evidenceVerified = true ∧
    entry.mainnetExitRoot = some mainnet ∧ entry.rollupExitRoot = some rollup ∧
    combinedGer P mainnet rollup = ger

/-- The provider's `get_logs` answers hold every log of `l1` of a block in
    the window asked for. -/
def Complete (l1 : List Log) (env : PollEnv) : Prop :=
  ∀ fromBlock toBlock logs, env.getLogs fromBlock toBlock = .ok logs →
    ∀ log ∈ l1, ∀ b, log.blockNumber = some b → fromBlock ≤ b → b ≤ toBlock → log ∈ logs

/-- Every log of `l1` of a block in `(c₀, c]` that carries a pair has its
    decomposition in the store. -/
def Covered (P : Primitives) (l1 : List Log) (c₀ c : UInt64) (s : InMemoryStore) : Prop :=
  ∀ log ∈ l1, ∀ b mainnet rollup, log.blockNumber = some b →
    log.exitRoots = some (mainnet, rollup) → c₀ < b → b ≤ c →
      Evidenced P s (combinedGer P mainnet rollup)

section Coverage

variable {P : Primitives} {env : PollEnv}

theorem evidenced_setGerExitRoots_self (mainnet rollup : B256) (b t : UInt64) (s : InMemoryStore) :
    Evidenced P (setGerExitRoots (combinedGer P mainnet rollup) mainnet rollup b t s)
      (combinedGer P mainnet rollup) :=
  ⟨⟨some mainnet, some rollup, b.toNat, t.toNat, true⟩, mainnet, rollup, by simp, rfl, rfl, rfl,
    rfl⟩

/-- A write keeps every decomposition: its own key gets a verified one. -/
theorem evidenced_setGerExitRoots {s : InMemoryStore} {ger : B256} (h : Evidenced P s ger)
    (mainnet rollup : B256) (b t : UInt64) :
    Evidenced P (setGerExitRoots (combinedGer P mainnet rollup) mainnet rollup b t s) ger := by
  by_cases hkey : combinedGer P mainnet rollup = ger
  · subst hkey
    exact evidenced_setGerExitRoots_self mainnet rollup b t s
  · obtain ⟨entry, m, r, hentry, hv, hm, hr, hcomb⟩ := h
    refine ⟨entry, m, r, ?_, hv, hm, hr, hcomb⟩
    rw [seenGers_setGerExitRoots, Std.HashMap.getElem?_insert, if_neg (by simpa using hkey)]
    exact hentry

theorem evidenced_writeEvidence {s : InMemoryStore} {ger : B256} (h : Evidenced P s ger)
    (log : Log) : Evidenced P (writeEvidence P env s log) ger := by
  unfold writeEvidence
  split
  · exact h
  · exact evidenced_setGerExitRoots h _ _ _ _

theorem evidenced_foldl {s : InMemoryStore} {ger : B256} (h : Evidenced P s ger)
    (logs : List Log) : Evidenced P (logs.foldl (writeEvidence P env) s) ger := by
  induction logs generalizing s with
  | nil => exact h
  | cons log logs ih => exact ih (evidenced_writeEvidence h log)

/-- Writing a batch leaves the decomposition of each of its logs. -/
theorem evidenced_foldl_of_mem {logs : List Log} {log : Log} {mainnet rollup : B256}
    (hmem : log ∈ logs) (hroots : log.exitRoots = some (mainnet, rollup)) (s : InMemoryStore) :
    Evidenced P (logs.foldl (writeEvidence P env) s) (combinedGer P mainnet rollup) := by
  induction logs generalizing s with
  | nil => cases hmem
  | cons log' logs ih =>
    rw [List.foldl_cons]
    rcases List.mem_cons.mp hmem with rfl | hmem
    · -- the log's own write, kept by the later ones
      have hself : Evidenced P (writeEvidence P env s log) (combinedGer P mainnet rollup) := by
        rw [writeEvidence, hroots]
        exact evidenced_setGerExitRoots_self mainnet rollup _ _ s
      exact evidenced_foldl hself logs
    · exact ih hmem _

/-- A poll loses no decomposition. -/
theorem PollOutcome.evidenced {self : L1InfoTreeIndexer} {head : UInt64} {st : IndexerState}
    {r : IndexerState × Except PollError Unit} (hout : PollOutcome P self env head st r)
    {ger : B256} (h : Evidenced P st.store ger) : Evidenced P r.1.store ger := by
  cases hout with
  | caughtUp => exact h
  | getLogsFailed => exact h
  | writeFailed => exact evidenced_foldl h _
  | advanced => exact evidenced_foldl h _

theorem Covered.mono {l1 : List Log} {c₀ c : UInt64} {s s' : InMemoryStore}
    (h : Covered P l1 c₀ c s) (hmono : ∀ ger, Evidenced P s ger → Evidenced P s' ger) :
    Covered P l1 c₀ c s' :=
  fun log hlog b mainnet rollup hb hroots h₀ hc => hmono _ (h log hlog b mainnet rollup hb hroots h₀ hc)

/-- Nothing lies in `(c, c]`. -/
theorem covered_self (l1 : List Log) (c : UInt64) (s : InMemoryStore) : Covered P l1 c c s := by
  intro log _ b _ _ _ _ h₀ hc
  have h₀' := UInt64.lt_iff_toNat_lt.mp h₀
  have hc' := UInt64.le_iff_toNat_le.mp hc
  omega

/-- The block after a cursor below another block does not wrap. -/
theorem add_one_le_of_lt {a b : UInt64} (h : a < b) : a + 1 ≤ b := by
  have hab := UInt64.lt_iff_toNat_lt.mp h
  have hb := b.toNat_lt
  rw [UInt64.le_iff_toNat_le, UInt64.toNat_add, UInt64.toNat_one, Nat.mod_eq_of_lt (by omega)]
  omega

/-- **Coverage step.** A poll keeps the coverage of its cursor: a window
    it steps over was answered in full and written in full. -/
theorem covered_pollToHead (self : L1InfoTreeIndexer) (head : UInt64) {l1 : List Log}
    {c₀ : UInt64} {st : IndexerState} (hcomplete : Complete l1 env)
    (hcov : Covered P l1 c₀ st.lastProcessed st.store) :
    Covered P l1 c₀ (pollToHead P self env head st).1.lastProcessed
      (pollToHead P self env head st).1.store := by
  have hout := pollToHead_outcome P self env head st
  generalize pollToHead P self env head st = r at hout ⊢
  cases hout with
  | caughtUp => exact hcov
  | getLogsFailed => exact hcov
  | writeFailed logs j log mainnet rollup err hlt hlogs hlog hroots hfail =>
    exact hcov.mono fun _ => (PollOutcome.writeFailed logs j log mainnet rollup err hlt hlogs hlog
      hroots hfail).evidenced
  | advanced logs hlt hlogs =>
    intro log hlog b mainnet rollup hb hroots h₀ hbto
    by_cases hold : b ≤ st.lastProcessed
    · exact evidenced_foldl (hcov log hlog b mainnet rollup hb hroots h₀ hold) logs
    · -- a block of the new window: the provider returned its log
      have hfrom : st.lastProcessed + 1 ≤ b := add_one_le_of_lt (UInt64.not_le.mp hold)
      exact evidenced_foldl_of_mem (hcomplete _ _ logs hlogs log hlog b hb hfrom hbto) hroots _

theorem covered_pollOnce (self : L1InfoTreeIndexer) {l1 : List Log} {c₀ : UInt64}
    {st : IndexerState} (hcomplete : Complete l1 env)
    (hcov : Covered P l1 c₀ st.lastProcessed st.store) :
    Covered P l1 c₀ (pollOnce P self env st).1.lastProcessed (pollOnce P self env st).1.store := by
  rcases pollOnce_cases P self env st with hsame | ⟨head, hpoll⟩
  · rw [hsame]
    exact hcov
  · rw [hpoll]
    exact covered_pollToHead self head hcomplete hcov

/-- **Coverage.** Over every run whose `get_logs` answers are complete, every
    log of a block between the initial cursor and the cursor has its
    decomposition in the store. -/
theorem covered_runPolls (self : L1InfoTreeIndexer) (l1 : List Log) (st : IndexerState)
    {envs : List PollEnv} (hcomplete : ∀ env ∈ envs, Complete l1 env) :
    Covered P l1 st.lastProcessed (runPolls P self st envs).lastProcessed
      (runPolls P self st envs).store :=
  Run.final_invariant_of_mem _
    (fun st' : IndexerState => Covered P l1 st.lastProcessed st'.lastProcessed st'.store)
    (fun _ env henv hcov => covered_pollOnce self (hcomplete env henv) hcov)
    (covered_self l1 st.lastProcessed st.store)

/-- **Restart.** Over every run whose `get_logs` answers are complete, the
    persisted cursor is the one the run started with, or every log of a
    block between the initial cursor and it has its decomposition in the
    store: a restart that resumes from it skips nothing. -/
theorem covered_evidenceCursor_runPolls (self : L1InfoTreeIndexer) (l1 : List Log)
    (st : IndexerState) {envs : List PollEnv} (hcomplete : ∀ env ∈ envs, Complete l1 env) :
    (runPolls P self st envs).evidenceCursor = st.evidenceCursor ∨
      Covered P l1 st.lastProcessed (runPolls P self st envs).evidenceCursor
        (runPolls P self st envs).store := by
  -- carried together with the coverage of the cursor, which a written
  -- persisted cursor equals
  let inv := fun st' : IndexerState =>
    Covered P l1 st.lastProcessed st'.lastProcessed st'.store ∧
      (st'.evidenceCursor = st.evidenceCursor ∨
        Covered P l1 st.lastProcessed st'.evidenceCursor st'.store)
  have hstep : ∀ st', ∀ env ∈ envs, inv st' → inv (pollOnce P self env st').1 := by
    intro st' env henv ⟨hcov, hec⟩
    rcases pollOnce_cases P self env st' with hsame | ⟨head, hpoll⟩
    · rw [hsame]
      exact ⟨hcov, hec⟩
    · rw [hpoll]
      have hout := pollToHead_outcome P self env head st'
      have hcov' := covered_pollToHead self head (hcomplete env henv) hcov
      refine ⟨hcov', ?_⟩
      rcases hout.evidenceCursor_cases with hkeep | hwritten
      · rw [hkeep]
        exact hec.imp id fun h => h.mono fun _ => hout.evidenced
      · rw [hwritten]
        exact .inr hcov'
  exact (Run.final_invariant_of_mem _ inv hstep
    ⟨covered_self l1 st.lastProcessed st.store, .inl rfl⟩).2

end Coverage

end Indexer
