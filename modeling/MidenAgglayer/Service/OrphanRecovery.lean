import MidenAgglayer.Store.Recovery
import MidenAgglayer.Service.WriterWorker

/-! # Orphan Recovery

    The recovery sweep of `src/orphan_recovery.rs`, beside the writer of
    `Service/WriterWorker.lean` whose handle it shares.

    A sweep scans the store's pending rows (`recoverable_pending_txns`),
    cuts the scan into runs of one signer, and walks each run under the
    signer's lock, row after row, until a row answers `StopSigner`. For one
    row (`recover_one`):

    * a hash in flight, or live work of the signer at the nonce, is left to
      the writer (`Continue`);
    * `repair_commit_gap_nonce` advances the signer's nonce past the row if
      a crash stopped it there;
    * an undecodable call is finalised as a terminal failure;
    * the fresh handoff and row are read: a vanished or terminal row is
      done;
    * Miden is reconciled: an error or our exact note consumed stops the
      signer (the projector finalises that), an effect applied by another
      transaction is finalised as a confirmed duplicate (success for a GER,
      `AlreadyClaimed` for a claim);
    * a `Submitted` handoff or a recorded Miden id stops the signer; a
      `Prepared` handoff is cleared only once expired past the reconcile
      cursor;
    * a row whose backoff is due records its next attempt with the
      eligibility compare-and-set and, only if that succeeded, re-enqueues
      its writer job.

    As in `Service/WriterWorker.lean`, a step is the effect of one call of
    the store or of Miden together with the synchronous code after it, up to
    the next `.await`; any step of any other party may come between two
    steps. The Miden node's answers are the step's input (`MidenNode`),
    as is the `Ulid` of a rebuilt job. One sweep runs at a time; the
    startup pass and the periodic one take the same signer locks. The
    writer handle is always present. Unix time is the writer's clock.
    Metrics, gauges and tracing are left out.
-/

namespace Recovery

open Store Mpsc Bytes Runs

variable (P : Primitives)

/-! ## Section 1: Backoff -/

/-- `RECOVERY_SCAN_LIMIT`. -/
def recoveryScanLimit : Nat := 10000

/-- `BACKOFF_BASE_SECS`. -/
def backoffBaseSecs : Nat := 30

/-- `BACKOFF_CAP_SECS`. -/
def backoffCapSecs : Nat := 3600

/-- The capped exponential delay before jitter. -/
def backoffBase (attempts : Nat) : Nat :=
  -- `BACKOFF_BASE_SECS.saturating_mul(1u64 << attempts.min(20))`
  min (min (backoffBaseSecs * 2 ^ min attempts 20) u64Max) backoffCapSecs

/-- `next_backoff_at(attempts, jitter_seed)` at unix time `now`: the capped
    exponential delay with a ±25% jitter of the seed, never under
    `BACKOFF_BASE_SECS`. -/
def nextBackoffAt (attempts jitterSeed now : Nat) : Nat :=
  let base := backoffBase attempts
  let span := base / 2
  let jitter : Int := if span = 0 then 0 else ((jitterSeed % (span + 1) : Nat) : Int) - ((base / 4 : Nat) : Int)
  let delay := (max ((base : Int) + jitter) (backoffBaseSecs : Int)).toNat
  min (now + delay) u64Max

/-- The jitter seed, `u64::from_le_bytes(tx_hash[..8])`. -/
def jitterSeedOf (txHash : TxHash) : Nat := leValue (txHash.toList.take 8)

/-! ## Section 2: Reconciling against Miden -/

/-- `ExactNoteOutcome`. -/
inductive ExactNoteOutcome where
  | notApplied
  | appliedByExactNote
  | appliedElsewhere
  | uncertain
  deriving DecidableEq, Repr

/-- `NoteObservation`. -/
inductive NoteObservation where
  | notRequested
  | missing
  | unconsumed
  | consumed
  deriving DecidableEq, Repr

/-- `BridgeSnapshot`. -/
structure BridgeSnapshot where
  gerApplied : Option Bool
  claimApplied : Option Bool
  note : NoteObservation

/-- What the Miden node answers: the state sync, and the bridge snapshot
    for a requested GER, global index and note id. -/
structure MidenNode where
  syncState : Except String Unit
  bridgeSnapshot : Option B256 → Option U256 → Option String → Except String BridgeSnapshot

/-- `classify_exact_note`. -/
def classifyExactNote (applied : Bool) (note : NoteObservation) : ExactNoteOutcome :=
  if !applied then .notApplied
  else
    match note with
    | .consumed => .appliedByExactNote
    | .unconsumed => .appliedElsewhere
    | .missing | .notRequested => .uncertain

/-- `reconcile_ger_recovery`: a legacy handoff without a note id stays
    uncertain; the store's projection is read before the node's bridge. -/
def reconcileGerRecovery (node : MidenNode) (ger : B256) (noteId : Option String) (hasHandoff : Bool)
    (s : InMemoryStore) : Except String ExactNoteOutcome :=
  if noteId.isNone && hasHandoff then .ok .uncertain
  else
    match node.syncState with
    | .error e => .error e
    | .ok () =>
      match noteId with
      | some noteId =>
        -- `reconcile_ger_handoff_with_client`
        if isGerInjected ger s then .ok .appliedElsewhere
        else (node.bridgeSnapshot (some ger) none (some noteId)).map fun snapshot =>
          classifyExactNote (snapshot.gerApplied.getD false) snapshot.note
      | none =>
        if isGerInjected ger s then .ok .appliedElsewhere
        else (node.bridgeSnapshot (some ger) none none).map fun snapshot =>
          if snapshot.gerApplied.getD false then .appliedElsewhere else .notApplied

/-- `reconcile_claim_recovery`, the same for a claim's global index. -/
def reconcileClaimRecovery (node : MidenNode) (globalIndex : U256) (noteId : Option String)
    (hasHandoff : Bool) (s : InMemoryStore) : Except String ExactNoteOutcome :=
  if noteId.isNone && hasHandoff then .ok .uncertain
  else
    match node.syncState with
    | .error e => .error e
    | .ok () =>
      match noteId with
      | some noteId =>
        -- `reconcile_claim_handoff_with_client`
        if hasClaimEventForGlobalIndex P (U256.toBeBytes globalIndex) s then .ok .appliedElsewhere
        else (node.bridgeSnapshot none (some globalIndex) (some noteId)).map fun snapshot =>
          classifyExactNote (snapshot.claimApplied.getD false) snapshot.note
      | none =>
        if hasClaimEventForGlobalIndex P (U256.toBeBytes globalIndex) s then .ok .appliedElsewhere
        else (node.bridgeSnapshot none (some globalIndex) none).map fun snapshot =>
          if snapshot.claimApplied.getD false then .appliedElsewhere else .notApplied

/-- The reconcile of a decoded call. -/
def reconcileCall (node : MidenNode) (call : Writer.DecodedWriteCall) (noteId : Option String) (hasHandoff : Bool)
    (s : InMemoryStore) : Except String ExactNoteOutcome :=
  match call with
  | .ger ger => reconcileGerRecovery node ger noteId hasHandoff s
  | .claim params => reconcileClaimRecovery P node params.globalIndex noteId hasHandoff s

/-! ## Section 3: One row -/

/-- `Step`: the row is resolved, or the signer's walk stops. -/
inductive Step where
  | continue
  | stopSigner
  deriving DecidableEq, Repr

/-- What the sweep reads outside the store. -/
structure Config where
  /-- `format!("{signer:#x}")`. -/
  signerKey : Address → String
  /-- `str::parse::<Address>()`. -/
  parseAddress : String → Option Address
  /-- `decode_write_call(envelope_input(&tx.envelope))` of the hash's
      stored envelope. -/
  decodeOf : TxHash → Except String Writer.DecodedWriteCall
  /-- `get_bridge_address()`. -/
  bridgeAddress : String
  /-- `block_state.get_block_hash`. -/
  blockHash : Nat → B256

/-- The three `finalize_*`. -/
inductive Finalization where
  /-- `finalize_ger_duplicate`: a GER applied elsewhere is a success. -/
  | gerDuplicate
  /-- `finalize_already_claimed`: a claim landed by another transaction
      reverts. -/
  | alreadyClaimed (globalIndex : U256)
  /-- `finalize_terminal_failure`. -/
  | terminalFailure (reason : String)

/-- The revert reason of a claim landed elsewhere. -/
def alreadyClaimedReason (globalIndex : U256) : String :=
  let index := globalIndex.toNat
  s!"claim for globalIndex {index} already landed (AlreadyClaimed); reverted"

/-- The terminal failure of an undecodable call. -/
def undecodableReason (err : String) : String := s!"recovery: undecodable write call ({err})"

/-- The commit of a finalisation at `block`: the two duplicates settle the
    row whether linked or not; the terminal failure is a `txn_commit`. -/
def Finalization.commit (cfg : Config) (txHash : TxHash) (block : Nat) :
    Finalization → InMemoryStore → InMemoryStore × Except StoreError Unit
  | .gerDuplicate => txnCommitConfirmedDuplicate txHash (.ok ()) block
  | .alreadyClaimed globalIndex => txnCommitConfirmedDuplicate txHash (.error (alreadyClaimedReason globalIndex)) block
  | .terminalFailure reason => txnCommit P cfg.bridgeAddress txHash (.error reason) block (cfg.blockHash block)

/-- The finalisation of a call applied elsewhere. -/
def duplicateOf : Writer.DecodedWriteCall → Finalization
  | .ger _ => .gerDuplicate
  | .claim params => .alreadyClaimed params.globalIndex

/-- Where `recover_one` is: in front of which call, with the locals it has. -/
inductive RowPhase where
  /-- The live check. -/
  | start
  /-- `repair_commit_gap_nonce`. -/
  | repairing
  /-- `get_note_handoff_for_tx`. -/
  | handoffReading (call : Writer.DecodedWriteCall)
  /-- `txn_get` of the fresh row. -/
  | freshReading (call : Writer.DecodedWriteCall) (handoff : Option NoteHandoffRecord)
  /-- The Miden reconcile. -/
  | reconciling (call : Writer.DecodedWriteCall) (handoff : Option NoteHandoffRecord) (fresh : TxnReceipt)
  /-- `clear_expired_prepared_note_handoff`. -/
  | clearing (call : Writer.DecodedWriteCall) (commitment : String)
  /-- `record_recovery_attempt`, then `try_enqueue`. -/
  | recording (call : Writer.DecodedWriteCall) (nextAt : Nat)
  /-- A `finalize_*`: `get_latest_block_number`. -/
  | finalizing (kind : Finalization)
  /-- Its commit at `block`. -/
  | committing (kind : Finalization) (block : Nat)
  /-- Its `clear_recovery_backoff`. -/
  | clearingBackoff

/-- A signer's run under its lock: the sweep's `pending`, the runs after
    this one, the rows of this run already walked, the row in hand and the
    rows after it. -/
structure Walk where
  scan : List RecoverablePendingTxn
  later : List (RecoverablePendingTxn × List RecoverablePendingTxn)
  signer : Address
  visited : List RecoverablePendingTxn
  tx : RecoverablePendingTxn
  rest : List RecoverablePendingTxn
  row : RowPhase

/-- Where the sweep is. -/
inductive SweepPhase where
  /-- Waiting for its tick: `recoverable_pending_txns`. -/
  | idle
  | walking (walk : Walk)

/-- The writer and the sweep beside it. -/
structure System where
  writer : Writer.WriterSystem
  sweep : SweepPhase

/-- The runs of a scan, by signer. -/
def signerRuns (pending : List RecoverablePendingTxn) :
    List (RecoverablePendingTxn × List RecoverablePendingTxn) :=
  runsBy RecoverablePendingTxn.signer pending

/-- The head of the `while idx < pending.len()` loop: the next run whose
    signer parses, locked; a run whose signer does not parse is skipped. -/
def enterRuns (cfg : Config) (scan : List RecoverablePendingTxn) :
    List (RecoverablePendingTxn × List RecoverablePendingTxn) → SweepPhase
  | [] => .idle
  | (tx, rest) :: later =>
    match cfg.parseAddress tx.signer with
    | none => enterRuns cfg scan later
    | some signer => .walking ⟨scan, later, signer, [], tx, rest, .start⟩

/-- `recover_one` returns `step`: the `for tx in group` loop goes on with
    the next row, or breaks to the next run. -/
def Walk.finish (cfg : Config) (walk : Walk) : Step → SweepPhase
  | .continue =>
    match walk.rest with
    | [] => enterRuns cfg walk.scan walk.later
    | tx :: rest => .walking { walk with visited := walk.visited ++ [walk.tx], tx := tx, rest := rest, row := .start }
  | .stopSigner => enterRuns cfg walk.scan walk.later

/-- The row's backoff is due at `now`. -/
def isDue (tx : RecoverablePendingTxn) (now : Nat) : Bool :=
  tx.nextRecoveryAt.all fun nextAt => decide (nextAt ≤ now)

/-- What a step shows. -/
inductive Event where
  /-- A step of the writer, with what it shows. -/
  | writer (e : Writer.Event)
  /-- The sweep's scan. -/
  | scanned (pending : List RecoverablePendingTxn)
  /-- The Miden reconcile of the row answered `outcome`. -/
  | reconciled (tx : RecoverablePendingTxn) (outcome : Except String ExactNoteOutcome)
  /-- `recover_one` returned `step` for the row. -/
  | resolved (tx : RecoverablePendingTxn) (step : Step)
  /-- `recover_one` re-enqueued `job` for the row and returned `Continue`. -/
  | redriven (tx : RecoverablePendingTxn) (job : Writer.WriteJob)
  | quiet

namespace Walk

variable (cfg : Config) (walk : Walk) (w : Writer.WriterSystem)

/-- The row goes on to `row`. -/
def goto (row : RowPhase) : System × Event := (⟨w, .walking { walk with row := row }⟩, .quiet)

/-- The row ends with `step`. -/
def done (step : Step) : System × Event := (⟨w, walk.finish cfg step⟩, .resolved walk.tx step)

/-- Step 4b: an orphan whose backoff is not due stops the signer; one that
    is due computes its next attempt for `record_recovery_attempt`. -/
def dueCheck (call : Writer.DecodedWriteCall) : System × Event :=
  if isDue walk.tx w.now then
    walk.goto w (.recording call (nextBackoffAt walk.tx.recoveryAttempts (jitterSeedOf walk.tx.txHash) w.now))
  else walk.done cfg w .stopSigner

/-- Steps 3 and 4a, after a reconcile that found the effect not applied or
    could not tell: a confirmed submission stops the signer, a prepared
    handoff must be cleared first. -/
def afterReconcile (call : Writer.DecodedWriteCall) (handoff : Option NoteHandoffRecord) (fresh : TxnReceipt) :
    System × Event :=
  if handoff.map NoteHandoffRecord.state = some .submitted || fresh.id.isSome then walk.done cfg w .stopSigner
  else
    match handoff with
    | some record =>
      if record.state = .prepared then walk.goto w (.clearing call record.noteCommitment)
      else walk.dueCheck cfg w call
    | none => walk.dueCheck cfg w call

end Walk

/-- One step of `recover_one` for the row in hand. -/
def rowStep (cfg : Config) (node : MidenNode) (jobId : Nat) (w : Writer.WriterSystem) (walk : Walk) :
    System × Event :=
  match walk.row with
  | .start =>
    -- 1. live work in the writer owns the hash or the nonce
    if w.handle.isInflight walk.tx.txHash || w.handle.hasNonTerminalNonce walk.signer walk.tx.nonce then
      walk.done cfg w .continue
    else walk.goto w .repairing
  | .repairing =>
    let w := { w with store := (nonceAdvanceCas P (cfg.signerKey walk.signer) walk.tx.nonce w.store).1 }
    match cfg.decodeOf walk.tx.txHash with
    | .error err => walk.goto w (.finalizing (.terminalFailure (undecodableReason err)))
    | .ok call => walk.goto w (.handoffReading call)
  | .handoffReading call =>
    walk.goto w (.freshReading call (getNoteHandoffForTx (P.txKey walk.tx.txHash) w.store).2)
  | .freshReading call handoff =>
    match (txnGet walk.tx.txHash w.store).2 with
    | none => walk.done cfg w .continue
    | some fresh =>
      if fresh.result.isSome then walk.done cfg w .continue
      else walk.goto w (.reconciling call handoff fresh)
  | .reconciling call handoff fresh =>
    -- 2. a fresh, authoritative reconcile with the exact note when known
    let outcome := reconcileCall P node call (handoff.bind NoteHandoffRecord.noteId) handoff.isSome w.store
    let next :=
      match outcome with
      | .error _ => walk.done cfg w .stopSigner
      | .ok .appliedByExactNote => walk.done cfg w .stopSigner
      | .ok .appliedElsewhere => walk.goto w (.finalizing (duplicateOf call))
      | .ok .notApplied => walk.afterReconcile cfg w call handoff fresh
      | .ok .uncertain => walk.afterReconcile cfg w call handoff fresh
    (next.1, .reconciled walk.tx outcome)
  | .clearing call commitment =>
    let r := clearExpiredPreparedNoteHandoff P (P.txKey walk.tx.txHash) commitment w.store
    if r.2 then walk.dueCheck cfg { w with store := r.1 } call
    else walk.done cfg { w with store := r.1 } .stopSigner
  | .recording call nextAt =>
    -- the backoff is persisted before the enqueue, and the enqueue only
    -- follows a confirmed compare-and-set
    let r := recordRecoveryAttempt P walk.tx.txHash nextAt w.store
    let w := { w with store := r.1 }
    match r.2 with
    | .error _ => walk.done cfg w .stopSigner
    | .ok _ =>
      let job := call.intoJob walk.tx.nonce walk.signer walk.tx.txHash jobId
      let e := w.handle.tryEnqueue job w.now
      match e.2 with
      | .ok () => (⟨{ w with handle := e.1 }, walk.finish cfg .continue⟩, .redriven walk.tx job)
      | .error _ => walk.done cfg { w with handle := e.1 } .stopSigner
  | .finalizing kind => walk.goto w (.committing kind (getLatestBlockNumber w.store).2)
  | .committing kind block =>
    let r := kind.commit P cfg walk.tx.txHash block w.store
    match r.2 with
    | .error _ => walk.done cfg { w with store := r.1 } .stopSigner
    | .ok () => walk.goto { w with store := r.1 } .clearingBackoff
  | .clearingBackoff =>
    walk.done cfg { w with store := (clearRecoveryBackoff walk.tx.txHash w.store).1 } .continue

/-- The sweep's next step: the scan when its tick comes, then the rows. -/
def sweepStep (cfg : Config) (node : MidenNode) (jobId : Nat) (sys : System) : System × Event :=
  match sys.sweep with
  | .idle =>
    let pending := (recoverablePendingTxns cfg.signerKey recoveryScanLimit sys.writer.store).2
    (⟨sys.writer, enterRuns cfg pending (signerRuns pending)⟩, .scanned pending)
  | .walking walk => rowStep P cfg node jobId sys.writer walk

/-! ## Section 4: The system -/

/-- What may happen next: a step of the writer or of any other party
    (`Writer.Action`), or the sweep's next step with the node's answers
    and the `Ulid` of a rebuilt job. -/
inductive Action where
  | writer (a : Writer.Action)
  | recovery (node : MidenNode) (jobId : Nat)

/-- One step of the system. -/
def step (wcfg : Writer.Config) (cfg : Config) (sys : System) : Action → System × Event
  | .writer a =>
    let r := Writer.step P wcfg sys.writer a
    (⟨r.1, sys.sweep⟩, .writer r.2)
  | .recovery node jobId => sweepStep P cfg node jobId sys

/-- The writer spawned over `store` at `now`, and the sweep waiting for its
    first tick. -/
def boot (store : InMemoryStore) (queueDepth now : Nat) : System :=
  ⟨Writer.spawn store queueDepth now, .idle⟩

end Recovery
