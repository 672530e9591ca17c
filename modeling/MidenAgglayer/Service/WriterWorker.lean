import MidenAgglayer.Framework.Channel
import MidenAgglayer.Framework.Run
import MidenAgglayer.Service.SendRawTxn
import MidenAgglayer.Notes.ClaimStorage

/-! # The Writer Worker

    The single writer task of `src/writer_worker.rs` and the parties that
    share its in-flight map: the request threads that `try_enqueue`
    admitted writes, the TTL sweeper, and the rest of the process acting on
    the store.

    * `try_enqueue` inserts a `Queued` entry for the job's hash, then
      `try_send`s the job into the bounded channel; a refused send removes
      the entry again.
    * The worker takes the oldest job. A job that waited `tx_ttl` or longer
      is never dispatched: it stays pending if the store holds a note
      handoff for its hash (the entry goes), and is otherwise `Failed`,
      with a failure receipt. Any other job is `Submitting` while
      `dispatch_job` runs, then `Committed` at the latest block, or, after
      an error, handled like an expired job.
    * The sweeper snapshots the map, renews the reservation of every
      `Queued` or `Submitting` entry, then evicts every terminal entry that
      had been terminal for longer than `tx_ttl` at the snapshot.

    As in `Service/SendRawTxn.lean`, a step is the synchronous code between
    two `.await`s of one task, taken atomically, and any step of any other
    party may come between two of them; the sweeper's eviction is a step of
    its own. The dispatch's store writes (`worker_handle_claim_asset`,
    `worker_handle_ger_insert`) and every other writer of the store are the
    `store` action, which may replace the store by any other. Time is one
    clock of natural numbers, in seconds. Metrics, tracing and the block
    monitor's tip mirror are left out.
-/

namespace Writer

open Store Mpsc

variable (P : Primitives)

/-! ## Section 1: Jobs and in-flight entries -/

/-- `JobState`. -/
inductive JobState where
  /-- Sitting in the queue. -/
  | queued
  /-- Taken off the queue, while `dispatch_job` runs. -/
  | submitting
  /-- The worker committed the receipt at `blockNumber`. -/
  | committed (blockNumber : Nat)
  /-- The dispatch failed, or the job expired in the queue. -/
  | failed
  deriving DecidableEq, Repr

/-- `JobState::is_terminal`. -/
def JobState.isTerminal : JobState → Bool
  | .committed _ | .failed => true
  | .queued | .submitting => false

/-- `WriteJobKind`. -/
inductive WriteJobKind where
  | claim
  | gerInsert
  deriving DecidableEq, Repr

/-- `DecodedWriteCall`. -/
inductive DecodedWriteCall where
  | claim (params : Notes.ClaimAssetCall)
  | ger (gerBytes : B256)

/-- `DecodedWriteCall::kind`. -/
def DecodedWriteCall.kind : DecodedWriteCall → WriteJobKind
  | .claim _ => .claim
  | .ger _ => .gerInsert

/-- `WriteJob`. The source's two variants carry the same fields beside
    their decoded call; here the call is one field. Of the envelope only
    its nonce is read. -/
structure WriteJob where
  call : DecodedWriteCall
  envelopeNonce : Nat
  signer : Address
  ethTxHash : TxHash
  jobId : Nat

/-- `WriteJob::kind`. -/
def WriteJob.kind (job : WriteJob) : WriteJobKind := job.call.kind

/-- `DecodedWriteCall::into_job`; the `Ulid::new()` is the caller's `jobId`. -/
def DecodedWriteCall.intoJob (call : DecodedWriteCall) (envelopeNonce : Nat) (signer : Address)
    (ethTxHash : TxHash) (jobId : Nat) : WriteJob :=
  ⟨call, envelopeNonce, signer, ethTxHash, jobId⟩

/-- `InFlightEntry`. -/
structure InFlightEntry where
  state : JobState
  ethTxHash : TxHash
  signer : Address
  kind : WriteJobKind
  jobId : Nat
  envelopeNonce : Nat
  /-- When the entry was inserted. -/
  createdAt : Nat
  /-- When the entry became `Committed` or `Failed`. -/
  terminalAt : Option Nat

/-- `InFlightEntry::from_job`, at `now`. -/
def InFlightEntry.fromJob (job : WriteJob) (now : Nat) : InFlightEntry where
  state := .queued
  ethTxHash := job.ethTxHash
  signer := job.signer
  kind := job.kind
  jobId := job.jobId
  envelopeNonce := job.envelopeNonce
  createdAt := now
  terminalAt := none

/-- `TryEnqueueError`. -/
inductive TryEnqueueError where
  /-- "writer queue saturated; retry" -/
  | queueFull
  /-- "writer worker has shut down" -/
  | shutDown
  deriving DecidableEq, Repr

/-! ## Section 2: The handle -/

/-- `WriterWorkerHandle`: the sending side of the channel, the shared
    in-flight map and the configured depth. -/
structure WriterWorkerHandle where
  sender : Channel WriteJob
  inflight : Std.HashMap TxHash InFlightEntry
  queueDepth : Nat

namespace WriterWorkerHandle

variable (h : WriterWorkerHandle)

/-- `inflight_len`. -/
def inflightLen : Nat := h.inflight.size

/-- `get_inflight`. -/
def getInflight (hash : TxHash) : Option InFlightEntry := h.inflight[hash]?

/-- `is_inflight`. -/
def isInflight (hash : TxHash) : Bool := h.inflight.contains hash

/-- `has_non_terminal_nonce`: live work of the signer at the nonce. -/
def hasNonTerminalNonce (signer : Address) (nonce : Nat) : Bool :=
  h.inflight.toList.any fun p => p.2.signer == signer && !p.2.state.isTerminal && p.2.envelopeNonce == nonce

/-- `available_capacity`. -/
def availableCapacity : Nat := h.sender.capacity

/-- `inflight_non_terminal_count`. -/
def inflightNonTerminalCount : Nat := (h.inflight.toList.filter fun p => !p.2.state.isTerminal).length

/-- `count_non_terminal_for_signer`. -/
def countNonTerminalForSigner (signer : Address) : Nat :=
  (h.inflight.toList.filter fun p => p.2.signer == signer && !p.2.state.isTerminal).length

/-- `try_enqueue`: insert the entry first, then try to send, and roll the
    insert back when the send is refused. -/
def tryEnqueue (job : WriteJob) (now : Nat) : WriterWorkerHandle × Except TryEnqueueError Unit :=
  let inflight := h.inflight.insert job.ethTxHash (InFlightEntry.fromJob job now)
  match h.sender.trySend job with
  | .ok sender => ({ h with sender := sender, inflight := inflight }, .ok ())
  | .error .full => ({ h with inflight := inflight.erase job.ethTxHash }, .error .queueFull)
  | .error .closed => ({ h with inflight := inflight.erase job.ethTxHash }, .error .shutDown)

end WriterWorkerHandle

/-! ## Section 3: The worker and the sweeper -/

/-- The writer's settings and what it reads outside the store. -/
structure Config where
  /-- `tx_ttl`. -/
  txTtl : Nat
  /-- `format!("{signer:#x}")`. -/
  signerKey : Address → String
  /-- `reservation_lease()`. -/
  lease : Nat
  /-- `get_bridge_address()`. -/
  bridgeAddress : String
  /-- `block_state.get_block_hash`. -/
  blockHash : Nat → B256

/-- Where the worker task is: at its `select!`, or inside `process` of one
    job, in front of the call it awaits. -/
inductive WorkerPhase where
  | idle
  /-- The job waited `tx_ttl` or longer: `preserve_pending_after_handoff`. -/
  | expiredHandoffRead (job : WriteJob)
  /-- `dispatch_job` runs. -/
  | dispatching (job : WriteJob)
  /-- The dispatch returned `Ok`: `get_latest_block_number`. -/
  | committedBlockRead (job : WriteJob)
  /-- The dispatch returned `err`: `preserve_pending_after_handoff`. -/
  | failedHandoffRead (job : WriteJob) (err : String)
  /-- `write_failure_receipt`: its own handoff read. -/
  | receiptHandoffRead (job : WriteJob) (err : String)
  /-- `write_failure_receipt`: `get_latest_block_number`. -/
  | receiptBlockRead (job : WriteJob) (err : String)
  /-- `write_failure_receipt`: `txn_commit` of the failure at `blockNum`. -/
  | receiptCommit (job : WriteJob) (err : String) (blockNum : Nat)
  /-- The loop has ended and the receiver is dropped. -/
  | stopped

/-- Where the sweeper task is: waiting for its ticker, or renewing the
    reservations it snapshot and then evicting what it snapshot. -/
inductive SweeperPhase where
  | idle
  | renewing (toRenew : List (TxHash × Address × Nat)) (toEvict : List TxHash)

/-- The writer, its sweeper, the store they share and the clock. -/
structure WriterSystem where
  store : InMemoryStore
  handle : WriterWorkerHandle
  worker : WorkerPhase
  sweeper : SweeperPhase
  /-- The shutdown signal has been sent. -/
  shutdown : Bool
  now : Nat

/-- `WriterWorker::spawn` over `store`, at `now`. -/
def spawn (store : InMemoryStore) (queueDepth now : Nat) : WriterSystem where
  store := store
  handle := ⟨Channel.new queueDepth, ∅, queueDepth⟩
  worker := .idle
  sweeper := .idle
  shutdown := false
  now := now

/-- `preserve_pending_after_handoff`: the store holds a note handoff for
    the hash (a read error counts as one; the in-memory store has none). -/
def preservePendingAfterHandoff (hash : TxHash) (s : InMemoryStore) : Bool :=
  (getNoteHandoffForTx (P.txKey hash) s).2.isSome

/-- The error of a job that expired in the queue. -/
def ttlExpiredError (txTtl : Nat) : String :=
  s!"writer_worker: TTL expired in queue before dispatch (>{txTtl}s)"

/-- The reason `write_failure_receipt` commits. -/
def failureReason (err : String) : String := s!"writer_worker: {err}"

/-- The entry of `hash` moves to the terminal `state` at `now`. -/
def markTerminal (inflight : Std.HashMap TxHash InFlightEntry) (hash : TxHash) (state : JobState)
    (now : Nat) : Std.HashMap TxHash InFlightEntry :=
  inflight.modify hash fun e => { e with state := state, terminalAt := some now }

/-- The entry of `hash` is `Submitting`. -/
def markSubmitting (inflight : Std.HashMap TxHash InFlightEntry) (hash : TxHash) :
    Std.HashMap TxHash InFlightEntry :=
  inflight.modify hash fun e => { e with state := .submitting }

/-- `process` for a job just taken off the queue, up to its first
    `.await`: the queue wait, from the entry's creation (zero without an
    entry), decides between expiry and dispatch. -/
def startProcess (cfg : Config) (job : WriteJob) (w : WriterSystem) : WriterSystem :=
  let queueWait := (w.handle.inflight[job.ethTxHash]?.map fun e => w.now - e.createdAt).getD 0
  if cfg.txTtl ≤ queueWait then { w with worker := .expiredHandoffRead job }
  else
    { w with
      handle := { w.handle with inflight := markSubmitting w.handle.inflight job.ethTxHash }
      worker := .dispatching job }

/-- After a failure: a job with a note handoff stays pending and its entry
    goes; any other is `Failed` and `write_failure_receipt` starts. -/
def settleFailure (job : WriteJob) (err : String) (w : WriterSystem) : WriterSystem :=
  if preservePendingAfterHandoff P job.ethTxHash w.store then
    { w with handle := { w.handle with inflight := w.handle.inflight.erase job.ethTxHash }, worker := .idle }
  else
    { w with
      handle := { w.handle with inflight := markTerminal w.handle.inflight job.ethTxHash .failed w.now }
      worker := .receiptHandoffRead job err }

/-- The worker's next step; a dispatch that finishes returns `outcome`. -/
def workerStep (cfg : Config) (outcome : Except String Unit) (w : WriterSystem) :
    WriterSystem × Option (List WriteJob ⊕ WriteJob) :=
  match w.worker with
  | .idle =>
    -- `select! biased`: the shutdown signal wins over a waiting job
    if w.shutdown then
      ({ w with worker := .stopped, handle := { w.handle with sender := w.handle.sender.close } },
        some (.inl w.handle.sender.items))
    else
      match w.handle.sender.recv with
      | none => (w, none)
      | some (job, sender) =>
        (startProcess cfg job { w with handle := { w.handle with sender := sender } }, some (.inr job))
  | .expiredHandoffRead job => (settleFailure P job (ttlExpiredError cfg.txTtl) w, none)
  | .dispatching job =>
    match outcome with
    | .ok () => ({ w with worker := .committedBlockRead job }, none)
    | .error err => ({ w with worker := .failedHandoffRead job err }, none)
  | .committedBlockRead job =>
    let block := (getLatestBlockNumber w.store).2
    ({ w with
      handle := { w.handle with
        inflight := markTerminal w.handle.inflight job.ethTxHash (.committed block) w.now }
      worker := .idle }, none)
  | .failedHandoffRead job err => (settleFailure P job err w, none)
  | .receiptHandoffRead job err =>
    if preservePendingAfterHandoff P job.ethTxHash w.store then ({ w with worker := .idle }, none)
    else ({ w with worker := .receiptBlockRead job err }, none)
  | .receiptBlockRead job err =>
    ({ w with worker := .receiptCommit job err (getLatestBlockNumber w.store).2 }, none)
  | .receiptCommit job err block =>
    ({ w with
      store := (txnCommit P cfg.bridgeAddress job.ethTxHash (.error (failureReason err)) block
        (cfg.blockHash block) w.store).1
      worker := .idle }, none)
  | .stopped => (w, none)

/-- The sweeper's snapshot: the reservations of live work, and the
    terminal entries older than `ttl`. -/
def sweepSnapshot (inflight : Std.HashMap TxHash InFlightEntry) (ttl now : Nat) :
    List (TxHash × Address × Nat) × List TxHash :=
  (inflight.toList.filterMap fun p =>
      if p.2.state.isTerminal then none else some (p.1, p.2.signer, p.2.envelopeNonce),
    inflight.toList.filterMap fun p =>
      if p.2.state.isTerminal && (p.2.terminalAt.any fun t => decide (ttl < now - t)) then some p.1
      else none)

/-- The sweeper's next step: the snapshot when the ticker fires, then one
    renewal after another, then the eviction. -/
def sweeperStep (cfg : Config) (w : WriterSystem) : WriterSystem :=
  match w.sweeper with
  | .idle =>
    let snap := sweepSnapshot w.handle.inflight cfg.txTtl w.now
    { w with sweeper := .renewing snap.1 snap.2 }
  | .renewing ((hash, signer, nonce) :: rest) toEvict =>
    { w with
      store := (renewReservation P (cfg.signerKey signer) nonce hash cfg.lease w.now w.store).1
      sweeper := .renewing rest toEvict }
  | .renewing [] toEvict =>
    { w with
      handle := { w.handle with inflight := toEvict.foldl (fun m hash => m.erase hash) w.handle.inflight }
      sweeper := .idle }

/-! ## Section 4: The system -/

/-- What may happen next. -/
inductive Action where
  /-- A request thread calls `try_enqueue`. -/
  | enqueue (job : WriteJob)
  /-- The worker's next step; a dispatch that finishes returns `outcome`. -/
  | worker (outcome : Except String Unit)
  /-- The sweeper's next step. -/
  | sweeper
  /-- Another party writes the store. -/
  | store (s : InMemoryStore)
  /-- Time passes. -/
  | tick (elapsed : Nat)
  /-- The shutdown signal is sent. -/
  | shutdown

/-- What a step shows: the reply of `try_enqueue` to its job, the job the
    worker took, or the jobs dropped with the receiver. -/
inductive Event where
  | accepted (job : WriteJob)
  | refused (job : WriteJob) (err : TryEnqueueError)
  | received (job : WriteJob)
  | dropped (jobs : List WriteJob)
  | quiet

/-- One step of the system. -/
def step (cfg : Config) (w : WriterSystem) : Action → WriterSystem × Event
  | .enqueue job =>
    let r := w.handle.tryEnqueue job w.now
    ({ w with handle := r.1 },
      match r.2 with
      | .ok () => .accepted job
      | .error err => .refused job err)
  | .worker outcome =>
    let r := workerStep P cfg outcome w
    (r.1,
      match r.2 with
      | some (.inl jobs) => .dropped jobs
      | some (.inr job) => .received job
      | none => .quiet)
  | .sweeper => (sweeperStep P cfg w, .quiet)
  | .store s => ({ w with store := s }, .quiet)
  | .tick elapsed => ({ w with now := w.now + elapsed }, .quiet)
  | .shutdown => ({ w with shutdown := true }, .quiet)

end Writer

namespace Writer

open Store Mpsc

variable (P : Primitives)

/-! ## Section 5: What each operation does to the map -/

section MapLemmas

variable (m : Std.HashMap TxHash InFlightEntry) (hash k : TxHash)

@[simp] theorem isTerminal_queued : JobState.queued.isTerminal = false := rfl
@[simp] theorem isTerminal_submitting : JobState.submitting.isTerminal = false := rfl
@[simp] theorem isTerminal_committed (b : Nat) : (JobState.committed b).isTerminal = true := rfl
@[simp] theorem isTerminal_failed : JobState.failed.isTerminal = true := rfl

theorem getElem?_markTerminal (st : JobState) (now : Nat) :
    (markTerminal m hash st now)[k]? =
      if hash = k then m[hash]?.map (fun e => { e with state := st, terminalAt := some now }) else m[k]? := by
  simp [markTerminal, Std.HashMap.getElem?_modify]

theorem getElem?_markSubmitting :
    (markSubmitting m hash)[k]? =
      if hash = k then m[hash]?.map (fun e => { e with state := .submitting }) else m[k]? := by
  simp [markSubmitting, Std.HashMap.getElem?_modify]

/-- An insert rolled back leaves no entry at its hash and every other as
    it was. -/
theorem getElem?_erase_insert (e : InFlightEntry) :
    ((m.insert hash e).erase hash)[k]? = if hash = k then none else m[k]? := by
  by_cases hk : hash = k
  · simp [hk]
  · simp [Std.HashMap.getElem?_erase, Std.HashMap.getElem?_insert, hk]

/-- Evicting a list of hashes keeps every other entry and removes theirs. -/
theorem getElem?_foldl_erase (hs : List TxHash) :
    (hs.foldl (fun m hash => m.erase hash) m)[k]? = if k ∈ hs then none else m[k]? := by
  induction hs generalizing m with
  | nil => simp
  | cons hash hs ih =>
    rw [List.foldl_cons, ih, Std.HashMap.getElem?_erase]
    by_cases hk : k = hash
    · simp [hk]
    · simp [hk, Ne.symm hk]

end MapLemmas

namespace WriterWorkerHandle

variable (h : WriterWorkerHandle) (job : WriteJob) (now : Nat)

/-- **Enqueue rule.** An accepted job goes to the back of the queue with a
    fresh `Queued` entry; a refused one leaves the queue, and leaves the map
    as it was at every other hash and without an entry at its own. -/
theorem tryEnqueue_cases :
    (∃ sender, h.sender.trySend job = .ok sender ∧ (h.tryEnqueue job now).2 = .ok () ∧
      (h.tryEnqueue job now).1 =
        { h with
          sender := sender
          inflight := h.inflight.insert job.ethTxHash (InFlightEntry.fromJob job now) }) ∨
    (∃ err, (h.tryEnqueue job now).2 = .error err ∧
      (h.tryEnqueue job now).1 =
        { h with
          inflight := (h.inflight.insert job.ethTxHash (InFlightEntry.fromJob job now)).erase
            job.ethTxHash }) := by
  unfold tryEnqueue
  rcases Channel.trySend_cases h.sender job with ⟨sender, hsend⟩ | hsend | hsend
  · exact .inl ⟨sender, hsend, by simp [hsend], by simp [hsend]⟩
  · exact .inr ⟨.queueFull, by simp [hsend], by simp [hsend]⟩
  · exact .inr ⟨.shutDown, by simp [hsend], by simp [hsend]⟩

end WriterWorkerHandle

/-! ## Section 6: What each task's step does -/

section Steps

variable (cfg : Config) (outcome : Except String Unit) (w : WriterSystem)

@[simp] theorem startProcess_sender (job : WriteJob) :
    (startProcess cfg job w).handle.sender = w.handle.sender := by
  unfold startProcess
  dsimp only
  split <;> rfl

@[simp] theorem settleFailure_sender (job : WriteJob) (err : String) :
    (settleFailure P job err w).handle.sender = w.handle.sender := by
  unfold settleFailure
  split <;> rfl

@[simp] theorem sweeperStep_sender : (sweeperStep P cfg w).handle.sender = w.handle.sender := by
  unfold sweeperStep
  split <;> rfl

/-- A job taken off the queue expires, or is dispatched with its entry
    `Submitting`. -/
theorem startProcess_cases (job : WriteJob) :
    startProcess cfg job w = { w with worker := .expiredHandoffRead job } ∨
      startProcess cfg job w =
        { w with
          handle := { w.handle with inflight := markSubmitting w.handle.inflight job.ethTxHash }
          worker := .dispatching job } := by
  unfold startProcess
  dsimp only
  split
  · exact .inl rfl
  · exact .inr rfl

/-- After a failure the entry goes, or is `Failed`; either way the worker
    settles nothing more. -/
theorem settleFailure_cases (job : WriteJob) (err : String) :
    (preservePendingAfterHandoff P job.ethTxHash w.store = true ∧ settleFailure P job err w =
      { w with handle := { w.handle with inflight := w.handle.inflight.erase job.ethTxHash }, worker := .idle }) ∨
    (preservePendingAfterHandoff P job.ethTxHash w.store = false ∧ settleFailure P job err w =
      { w with
        handle := { w.handle with inflight := markTerminal w.handle.inflight job.ethTxHash .failed w.now }
        worker := .receiptHandoffRead job err }) := by
  unfold settleFailure
  by_cases hpre : preservePendingAfterHandoff P job.ethTxHash w.store = true
  · exact .inl ⟨hpre, by simp [hpre]⟩
  · have hnot : preservePendingAfterHandoff P job.ethTxHash w.store = false := Bool.eq_false_iff.mpr hpre
    exact .inr ⟨hnot, by simp [hnot]⟩

/-- What the sweeper snapshots for eviction is terminal, for longer than
    the TTL. -/
theorem mem_sweepSnapshot_evict {m : Std.HashMap TxHash InFlightEntry} {ttl now : Nat} {hash : TxHash}
    (h : hash ∈ (sweepSnapshot m ttl now).2) :
    ∃ e t, m[hash]? = some e ∧ e.state.isTerminal = true ∧ e.terminalAt = some t ∧ ttl < now - t := by
  simp only [sweepSnapshot, List.mem_filterMap] at h
  obtain ⟨⟨k, e⟩, hmem, hsome⟩ := h
  split at hsome
  · rename_i hcond
    cases hsome
    simp only [Bool.and_eq_true, Option.any_eq_true, decide_eq_true_eq] at hcond
    obtain ⟨hterm, t, ht, hage⟩ := hcond
    exact ⟨e, t, Std.HashMap.mem_toList_iff_getElem?_eq_some.mp hmem, hterm, ht, hage⟩
  · cases hsome

/-- **Worker rule at the `select!`.** The shutdown signal stops the loop
    and drops the receiver; otherwise the worker takes the oldest job, if
    there is one. -/
theorem workerStep_idle (hw : w.worker = .idle) :
    (w.shutdown = true ∧ workerStep P cfg outcome w =
      ({ w with worker := .stopped, handle := { w.handle with sender := w.handle.sender.close } },
        some (.inl w.handle.sender.items))) ∨
    (w.shutdown = false ∧ w.handle.sender.recv = none ∧ workerStep P cfg outcome w = (w, none)) ∨
    (∃ job sender, w.shutdown = false ∧ w.handle.sender.recv = some (job, sender) ∧
      workerStep P cfg outcome w =
        (startProcess cfg job { w with handle := { w.handle with sender := sender } }, some (.inr job))) := by
  unfold workerStep
  rw [hw]
  by_cases hshut : w.shutdown = true
  · exact .inl ⟨hshut, by simp [hshut]⟩
  · have hopen : w.shutdown = false := Bool.eq_false_iff.mpr hshut
    cases hrecv : w.handle.sender.recv with
    | none => exact .inr (.inl ⟨hopen, rfl, by simp [hopen]⟩)
    | some p => exact .inr (.inr ⟨p.1, p.2, hopen, rfl, by simp [hopen]⟩)

/-- Inside `process` the worker does not touch the channel. -/
theorem workerStep_sender (hw : w.worker ≠ .idle) :
    (workerStep P cfg outcome w).1.handle.sender = w.handle.sender ∧ (workerStep P cfg outcome w).2 = none := by
  unfold workerStep
  cases hphase : w.worker with
  | idle => exact absurd hphase hw
  | expiredHandoffRead job => exact ⟨settleFailure_sender P w job _, rfl⟩
  | failedHandoffRead job err => exact ⟨settleFailure_sender P w job err, rfl⟩
  | dispatching job => cases outcome <;> exact ⟨rfl, rfl⟩
  | receiptHandoffRead job err =>
    dsimp only
    split <;> exact ⟨rfl, rfl⟩
  | committedBlockRead job => exact ⟨rfl, rfl⟩
  | receiptBlockRead job err => exact ⟨rfl, rfl⟩
  | receiptCommit job err block => exact ⟨rfl, rfl⟩
  | stopped => exact ⟨rfl, rfl⟩

@[simp] theorem startProcess_now (job : WriteJob) : (startProcess cfg job w).now = w.now := by
  unfold startProcess
  dsimp only
  split <;> rfl

@[simp] theorem settleFailure_now (job : WriteJob) (err : String) : (settleFailure P job err w).now = w.now := by
  unfold settleFailure
  split <;> rfl

@[simp] theorem workerStep_now : (workerStep P cfg outcome w).1.now = w.now := by
  unfold workerStep
  cases hphase : w.worker with
  | idle =>
    dsimp only
    split
    · rfl
    · split
      · rfl
      · exact startProcess_now cfg _ _
  | expiredHandoffRead job => exact settleFailure_now P w job _
  | failedHandoffRead job err => exact settleFailure_now P w job err
  | dispatching job => cases outcome <;> rfl
  | receiptHandoffRead job err =>
    dsimp only
    split <;> rfl
  | committedBlockRead job => rfl
  | receiptBlockRead job err => rfl
  | receiptCommit job err block => rfl
  | stopped => rfl

@[simp] theorem sweeperStep_now : (sweeperStep P cfg w).now = w.now := by
  unfold sweeperStep
  split <;> rfl

/-- Only time passing moves the clock, and only forward. -/
theorem now_le_step (a : Action) : w.now ≤ (step P cfg w a).1.now := by
  cases a with
  | worker outcome => exact (workerStep_now P cfg outcome w).ge
  | sweeper => exact (sweeperStep_now P cfg w).ge
  | tick elapsed => exact Nat.le_add_right _ _
  | enqueue job => exact le_rfl
  | store s => exact le_rfl
  | shutdown => exact le_rfl

end Steps

end Writer
