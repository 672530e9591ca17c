import MidenAgglayer.Synthesis.LogFilter

/-! # Reading Logs Back: `get_logs`

    `InMemoryStore::get_logs` (`src/store/memory.rs`): drain the pending
    events up to the range's end, take the candidate buckets (every bucket
    for a block-hash query, else the buckets of the inclusive block range),
    keep the logs `LogFilter::matches` accepts, fail once more than
    `GETLOGS_SAFETY_CEILING` of them matched, and sort the result by
    `(block_number, log_index)`.

    Every log the store writes goes through `insertLogUnder`, which files it
    in the bucket of its own block; `LogsFiled` is that invariant, kept by
    every insertion.
-/

open Maps

namespace Store

variable (P : Primitives)

/-- `GETLOGS_SAFETY_CEILING`. -/
def getlogsSafetyCeiling : Nat := 500000

/-- The failure of `get_logs`: `getlogs_row_cap_error(from, to)`, which
    suggests half the queried span (at least one) as the maximal range. -/
inductive GetLogsError where
  | rangeTooLarge (suggested fromBlock toBlock : Nat)
  deriving DecidableEq, Repr

/-- `getlogs_row_cap_error`. -/
def getlogsRowCapError (fromBlock toBlock : Nat) : GetLogsError :=
  .rangeTooLarge (max ((toBlock - fromBlock + 1) / 2) 1) fromBlock toBlock

/-- The candidate loop of `get_logs`: push every log `keep` accepts, and
    stop with `none` as soon as more than `ceiling` have been pushed. -/
def collectMatches (keep : SyntheticLog → Bool) (ceiling : Nat) :
    List SyntheticLog → List SyntheticLog → Option (List SyntheticLog)
  | result, [] => some result
  | result, log :: logs =>
    if keep log then
      if ceiling < (result ++ [log]).length then none
      else collectMatches keep ceiling (result ++ [log]) logs
    else collectMatches keep ceiling result logs

/-- The order of the result: `(block_number, log_index)`. -/
def logOrder : SyntheticLog → SyntheticLog → Ordering :=
  compareLex (compareOn SyntheticLog.blockNumber) (compareOn SyntheticLog.logIndex)

instance instTransCmpLogOrder : Std.TransCmp logOrder :=
  inferInstanceAs (Std.TransCmp (compareLex (compareOn SyntheticLog.blockNumber)
    (compareOn SyntheticLog.logIndex)))

/-- The `candidate_logs` of `get_logs`: every bucket, in the map's
    iteration order, for a block-hash query; else the buckets of the blocks
    `from..=to`, in order. -/
def candidateLogs (f : LogFilter) (currentBlock : Nat) (s : InMemoryStore) :
    List (List SyntheticLog) :=
  let fromBlock := f.fromBlockNumber P currentBlock
  let toBlock := f.toBlockNumber P currentBlock
  if f.blockHash.isSome then s.logsByBlock.toList.map Prod.snd
  else (List.range' fromBlock (toBlock + 1 - fromBlock)).filterMap fun b => s.logsByBlock[b]?

/-- `get_logs`. -/
def getLogs (f : LogFilter) (currentBlock : Nat) (s : InMemoryStore) :
    InMemoryStore × Except GetLogsError (List SyntheticLog) :=
  let fromBlock := f.fromBlockNumber P currentBlock
  let toBlock := f.toBlockNumber P currentBlock
  -- drain the pending events up to `to`
  let s' := { s with pendingEvents := s.pendingEvents.filter fun evt => toBlock < evt.blockNumber }
  match collectMatches (fun log => f.matches P log currentBlock) getlogsSafetyCeiling []
      (candidateLogs P f currentBlock s).flatten with
  | none => (s', .error (getlogsRowCapError fromBlock toBlock))
  | some result => (s', .ok (sortBy logOrder result))

/-! ## The candidate loop -/

/-- The loop keeps exactly the accepted logs, or stops because more than
    `ceiling` of them were accepted. -/
theorem collectMatches_spec (keep : SyntheticLog → Bool) (ceiling : Nat)
    (result logs : List SyntheticLog) (hresult : result.length ≤ ceiling) :
    match collectMatches keep ceiling result logs with
    | some out => out = result ++ logs.filter keep
    | none => ceiling < result.length + (logs.filter keep).length := by
  induction logs generalizing result with
  | nil => simp [collectMatches]
  | cons log logs ih =>
    by_cases hkeep : keep log = true
    · by_cases hover : ceiling < (result ++ [log]).length
      · -- the ceiling is crossed at this log
        simp only [collectMatches, hkeep, if_true, hover]
        simp only [List.length_append, List.length_singleton] at hover
        simp only [List.filter_cons, hkeep, if_true, List.length_cons]
        omega
      · have hstep := ih (result ++ [log]) (Nat.le_of_not_lt hover)
        simp only [collectMatches, hkeep, if_true, hover, if_false]
        simp only [List.filter_cons, hkeep, if_true]
        split
        · rename_i out hout
          rw [hout] at hstep
          simpa using hstep
        · rename_i hout
          rw [hout] at hstep
          simp only [List.length_append, List.length_singleton] at hstep
          simp only [List.length_cons]
          omega
    · have hstep := ih result hresult
      simpa [collectMatches, hkeep] using hstep

/-! ## Logs are filed under their block -/

/-- Every stored log sits in the bucket of its own block number. -/
def LogsFiled (s : InMemoryStore) : Prop :=
  Filed SyntheticLog.blockNumber s.logsByBlock

theorem logsFiled_new : LogsFiled InMemoryStore.new := by
  intro k v hv
  simp [InMemoryStore.new] at hv

/-- An insertion files the numbered log under its block and keeps every
    other bucket. -/
theorem LogsFiled.insertLogUnder {s : InMemoryStore} (hs : LogsFiled s) (key : String)
    (log : SyntheticLog) : LogsFiled (insertLogUnder key log s) := by
  intro k v hv
  rw [insertLogUnder_logsByBlock, pushEntry, Std.HashMap.getD_insert] at hv
  by_cases hk : log.blockNumber = k
  · rw [if_pos (by simpa using hk)] at hv
    rcases List.mem_append.mp hv with hv | hv
    · exact hs _ v (hk ▸ hv)
    · rw [List.mem_singleton.mp hv]
      exact hk
  · rw [if_neg (by simpa using hk)] at hv
    exact hs k v hv

end Store
