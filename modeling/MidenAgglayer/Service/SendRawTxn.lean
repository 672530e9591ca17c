import MidenAgglayer.Store.Receipts
import MidenAgglayer.Store.Claims

/-! # Admission of a Signed Write

    `service_send_raw_txn` (`src/service_send_raw_txn.rs`) admits one signed
    `claimAsset` or `insertGlobalExitRoot` of one signer. The handler is a
    sequence of store calls with synchronous code between them; here each
    store call is one step of the request, taken atomically, and any step of
    any other party may come between two of them.

    * The dedup read: the writer's in-flight set, `txn_get`,
      `get_note_handoff_for_tx`, the clearing of an expired prepared
      handoff, and `repair_commit_gap_nonce` for a known hash.
    * The checks before the lock, the GER preflight, the per-signer lock
      with its own dedup re-read, the R4 check against `nonce_get` and
      `pending_nonce_frontier`, and the future-nonce wait.
    * `reserve_nonce`, and for a won fence `dispatch_after_reservation`: the
      accept-and-revert of a landed claim, or the durable admission
      (`durably_admit_and_advance_nonce`) followed by the immediate receipt
      of an applied GER or by the writer's enqueue.
    * `release_reservation` of the fence with the outcome.

    The rest of the process acts between the steps (`Action`): the
    reservation heartbeat, the writer worker, which commits or hands off
    what it has in flight, the reconciler's cursor, time, the cancellation
    of one request, and a crash, after which only the store remains.

    What the model does not compute is the step's input (`Env`): the reply
    of each store call (success, a failure before its effect, or a failure
    after it), the checks that read state outside the admission (decoding,
    validation, the writer's capacity, the GER L1 wait, the landed-claim
    and applied-GER gates, whether a lower nonce is live in the writer),
    whether the future-nonce wait is inside its bound, and whether the
    writer takes the job.
-/

namespace Store

variable (P : Primitives)

/-! ## Section 1: The store reads of the admission -/

/-- `txn_get`. -/
def txnGet (txHash : TxHash) (s : InMemoryStore) : InMemoryStore × Option TxnReceipt :=
  (s, s.transactions[txHash]?)

/-- `get_note_handoff_for_tx`. -/
def getNoteHandoffForTx (txKey : String) (s : InMemoryStore) :
    InMemoryStore × Option NoteHandoffRecord :=
  (s, s.txNoteLinks[txKey]?)

/-- `get_latest_block_number`. -/
def getLatestBlockNumber (s : InMemoryStore) : InMemoryStore × Nat :=
  (s, s.latestBlockNumber)

/-- The `lowest_unlinked` of `pending_nonce_frontier`: the least nonce of
    the signer's pending rows whose handoff is not `submitted`. -/
def lowestUnlinked (signer : Address) (s : InMemoryStore) : Option Nat :=
  ((s.transactions.toList.filter fun p =>
      p.2.result.isNone && p.2.signer == signer &&
        !(s.txNoteLinks[P.txKey p.1]?).any fun link => link.state == NoteHandoffState.submitted).map
    fun p => p.2.envelopeNonce).min?

end Store

namespace Service

open Store

variable (P : Primitives)

/-! ## Section 2: Requests -/

/-- The writes the proxy accepts, as `decode_write_call` tells them apart. -/
inductive WriteCall where
  | claim
  | ger
  deriving DecidableEq, Repr

/-- The signer, its signed envelopes, and the settings the handler reads.
    A hash determines its envelope, hence its nonce and its call. -/
structure Config where
  signer : Address
  /-- The signer formatted as `{signer:#x}`. -/
  signerStr : String
  nonceOf : TxHash → Nat
  callOf : TxHash → WriteCall
  /-- The `globalIndex` of a claim's parameters. -/
  globalIndexOf : TxHash → U256
  /-- `reservation_lease()`. -/
  lease : Nat
  rejectUnverifiedGer : Bool
  /-- `get_bridge_address()`. -/
  bridgeAddress : String
  /-- `block_state.get_block_hash`. -/
  blockHash : Nat → B256

/-- The `TxnEntry` of a hash's envelope, with no id, expiry or logs. -/
def Config.entry (c : Config) (txHash : TxHash) : TxnEntry where
  id := none
  envelopeNonce := c.nonceOf txHash
  signer := c.signer
  expiresAt := none
  logs := []

/-- The reason of the reverted receipt of a landed claim. -/
def Config.revertReason (c : Config) (txHash : TxHash) : String :=
  let index := (c.globalIndexOf txHash).toNat
  s!"claim for globalIndex {index} already landed (AlreadyClaimed); reverted (#55)"

/-- How a store call ends: with its reply, failed before its effect, or
    failed after it with the reply lost. -/
inductive Reply where
  | ok
  | failed
  | lost
  deriving DecidableEq, Repr

/-- The store and the reply of the call `op` as `reply` ends it. -/
def Reply.call {α : Type} (reply : Reply) (op : InMemoryStore → InMemoryStore × α)
    (s : InMemoryStore) : InMemoryStore × Option α :=
  match reply with
  | .ok => ((op s).1, some (op s).2)
  | .failed => (s, none)
  | .lost => ((op s).1, none)

/-- The input of a request's step: the store call's reply and the outcome
    of what the model does not compute. -/
structure Env where
  reply : Reply
  /-- Decoding, validation and the writer's capacity before the lock; the
      GER L1 wait; the dispatch gate and the capacity after the
      reservation. -/
  checks : Bool
  /-- `claim_state_gate` (the claim already landed) or `ger_applied`. -/
  applied : Bool
  /-- `has_non_terminal_nonce` of the lower durable nonce. -/
  lowerLive : Bool
  /-- The future-nonce wait is inside its 30 s bound. -/
  mayWait : Bool
  /-- `try_enqueue` takes the job. -/
  enqueued : Bool

/-- Where a request is: before which store call, with the local variables
    the handler has at that point. -/
inductive Phase where
  /-- Before the writer's in-flight read. -/
  | received
  /-- The dedup `txn_get`. -/
  | dedupTxnGet (knownInflight : Bool)
  /-- The dedup `get_note_handoff_for_tx`. -/
  | dedupHandoff (knownInflight : Bool) (entry : Option TxnReceipt)
  /-- `clear_expired_prepared_note_handoff` of a prepared handoff. -/
  | clearPrepared (knownInflight : Bool) (noteCommitment : String)
  /-- The `txn_get` after the handoff was cleared. -/
  | dedupReread (knownInflight : Bool)
  /-- `repair_commit_gap_nonce`, then `Ok`; `locked` under the signer lock. -/
  | repair (locked : Bool)
  /-- Decoding, validation and the writer's capacity. -/
  | validate (durable : Bool)
  /-- The stale-nonce read of the GER preflight. -/
  | preflightNonce
  /-- The L1 wait of the GER preflight. -/
  | preflightWait (durable : Bool)
  /-- Waiting for the signer lock. -/
  | acquire (durable : Bool)
  /-- The `txn_get` under the lock. -/
  | lockedTxnGet
  /-- The `get_note_handoff_for_tx` under the lock. -/
  | lockedHandoff (entry : TxnReceipt)
  /-- The R4 `nonce_get`. -/
  | nonceGet (durable : Bool)
  /-- `pending_nonce_frontier`. -/
  | frontier (durable : Bool) (expected : Nat)
  /-- `reserve_nonce`. -/
  | reserve
  /-- The dispatch gates of a won fence. -/
  | dispatch (fence : Nat)
  /-- The block of the reverted receipt. -/
  | revertTip (fence : Nat)
  /-- `commit_reverted_receipt_and_advance_nonce`. -/
  | revertCommit (fence : Nat) (blockNum : Nat)
  /-- The `txn_begin_if_absent` of the durable admission. -/
  | admitBegin (fence : Nat) (ger : Bool)
  /-- The nonce compare-and-set of the durable admission. -/
  | admitCas (fence : Nat) (ger : Bool)
  /-- The `nonce_get` after a lost compare-and-set. -/
  | admitCheck (fence : Nat) (ger : Bool)
  /-- The block of an applied GER's receipt. -/
  | gerTip (fence : Nat)
  /-- The `txn_begin_if_absent` of an applied GER's receipt. -/
  | gerBegin (fence : Nat) (blockNum : Nat)
  /-- The `txn_commit` of an applied GER's receipt. -/
  | gerCommit (fence : Nat) (blockNum : Nat)
  /-- `release_reservation` with the admission's outcome. -/
  | release (fence : Nat) (ok : Bool)
  /-- Returned, `Ok` or an error. -/
  | done (ok : Bool)

/-- The phases between a won fence and its release, while the heartbeat
    renews the lease. -/
def Phase.heartbeat : Phase → Bool
  | .dispatch _ | .revertTip _ | .revertCommit _ _ | .admitBegin _ _ | .admitCas _ _
  | .admitCheck _ _ | .gerTip _ | .gerBegin _ _ | .gerCommit _ _ => true
  | _ => false

/-- A live request: the hash of its envelope and where it is. -/
structure Request where
  txHash : TxHash
  phase : Phase

/-- The process and its store: the writer's in-flight hashes, the holder
    of the signer's lock, and the live requests by id. -/
structure Admission where
  store : InMemoryStore
  now : Nat
  inflight : List TxHash
  lockHolder : Option Nat
  requests : Nat → Option Request

/-- A process with no request and nothing in flight over `store`. -/
def Admission.start (store : InMemoryStore) : Admission where
  store := store
  now := 0
  inflight := []
  lockHolder := none
  requests := fun _ => none

/-- Request `id` is now `r`. -/
def Admission.setRequest (a : Admission) (id : Nat) (r : Option Request) : Admission :=
  { a with requests := fun id' => if id' = id then r else a.requests id' }

/-- Request `id` of hash `txHash` moves to `phase`. -/
def Admission.next (a : Admission) (id : Nat) (txHash : TxHash) (phase : Phase) : Admission :=
  a.setRequest id (some ⟨txHash, phase⟩)

/-- Request `id` drops the signer lock if it holds it. -/
def Admission.unlock (a : Admission) (id : Nat) : Admission :=
  { a with lockHolder := if a.lockHolder = some id then none else a.lockHolder }

/-- Request `id` returns, dropping the lock. -/
def Admission.finish (a : Admission) (id : Nat) (txHash : TxHash) (ok : Bool) : Admission :=
  (a.unlock id).next id txHash (.done ok)

/-- A store call: the store as the reply leaves it, then `next` of the
    reply. -/
def Admission.call {α : Type} (a : Admission) (reply : Reply)
    (op : InMemoryStore → InMemoryStore × α) (next : Admission → Option α → Admission) :
    Admission :=
  let r := reply.call op a.store
  next { a with store := r.1 } r.2

section Updates

variable (a : Admission) (id : Nat) (txHash : TxHash) (phase : Phase)

@[simp] theorem Admission.setRequest_store (r : Option Request) :
    (a.setRequest id r).store = a.store := rfl

@[simp] theorem Admission.setRequest_now (r : Option Request) : (a.setRequest id r).now = a.now :=
  rfl

@[simp] theorem Admission.setRequest_inflight (r : Option Request) :
    (a.setRequest id r).inflight = a.inflight := rfl

@[simp] theorem Admission.setRequest_lockHolder (r : Option Request) :
    (a.setRequest id r).lockHolder = a.lockHolder := rfl

@[simp] theorem Admission.setRequest_requests (r : Option Request) (id' : Nat) :
    (a.setRequest id r).requests id' = if id' = id then r else a.requests id' := rfl

@[simp] theorem Admission.unlock_store : (a.unlock id).store = a.store := rfl

@[simp] theorem Admission.unlock_now : (a.unlock id).now = a.now := rfl

@[simp] theorem Admission.unlock_inflight : (a.unlock id).inflight = a.inflight := rfl

@[simp] theorem Admission.unlock_requests : (a.unlock id).requests = a.requests := rfl

@[simp] theorem Admission.unlock_lockHolder :
    (a.unlock id).lockHolder = if a.lockHolder = some id then none else a.lockHolder := rfl

/-- A store call as its continuation applied to the reply. -/
theorem Admission.call_eq {α : Type} (reply : Reply) (op : InMemoryStore → InMemoryStore × α)
    (next : Admission → Option α → Admission) :
    a.call reply op next = next { a with store := (reply.call op a.store).1 } (reply.call op a.store).2 :=
  rfl

/-- Every reply leaves the store as it was or as the call leaves it. -/
theorem Reply.call_fst {α : Type} (reply : Reply) (op : InMemoryStore → InMemoryStore × α)
    (s : InMemoryStore) : (reply.call op s).1 = s ∨ (reply.call op s).1 = (op s).1 := by
  cases reply
  · exact .inr rfl
  · exact .inl rfl
  · exact .inr rfl

/-- A reply comes only from a call that took effect, and is its result. -/
theorem Reply.call_snd {α : Type} {reply : Reply} {op : InMemoryStore → InMemoryStore × α}
    {s : InMemoryStore} {v : α} (h : (reply.call op s).2 = some v) :
    (reply.call op s).1 = (op s).1 ∧ v = (op s).2 := by
  cases reply
  · cases h
    exact ⟨rfl, rfl⟩
  · cases h
  · cases h

/-- A read leaves the store as it is, whatever the reply. -/
theorem Reply.call_fst_of_read {α : Type} (reply : Reply) {op : InMemoryStore → InMemoryStore × α}
    (hop : ∀ s, (op s).1 = s) (s : InMemoryStore) : (reply.call op s).1 = s := by
  rcases reply.call_fst op s with h | h
  · exact h
  · rw [h, hop]

end Updates

/-! ## Section 3: One step of a request -/

/-- What the dedup read decides from the in-flight flag, the row and the
    handoff: `Ok` for a hash in flight, the nonce repair for a row that is
    no durable intent, and otherwise the admission, resuming a durable
    intent. -/
def dedupDecide (knownInflight : Bool) (entry : Option TxnReceipt)
    (handoff : Option NoteHandoffRecord) : Phase :=
  let linked := handoff.any fun link => link.state == NoteHandoffState.submitted
  let durable := entry.any fun receipt => receipt.result.isNone && !linked
  if knownInflight then .done true
  else if entry.isSome && !durable then .repair false
  else .validate durable

variable (c : Config)

/-- After the durable admission: an applied GER's receipt, or the writer's
    `try_enqueue`. -/
def admitted (id : Nat) (txHash : TxHash) (env : Env) (fence : Nat) (ger : Bool)
    (a : Admission) : Admission :=
  if ger then a.next id txHash (.gerTip fence)
  else if env.enqueued then
    { a with inflight := a.inflight.insert txHash }.next id txHash (.release fence true)
  else a.next id txHash (.release fence false)

/-- The next step of request `id` of hash `h` from its phase. -/
def runRequest (id : Nat) (h : TxHash) (env : Env) (a : Admission) : Phase → Admission
  | .received => a.next id h (.dedupTxnGet (decide (h ∈ a.inflight)))
  | .dedupTxnGet ki => a.call env.reply (txnGet h) fun a entry? =>
      match entry? with
      | none => a.finish id h false
      | some entry => a.next id h (.dedupHandoff ki entry)
  | .dedupHandoff ki entry => a.call env.reply (getNoteHandoffForTx (P.txKey h)) fun a handoff? =>
      match handoff? with
      | none => a.finish id h false
      | some (some link) =>
        if link.state = .prepared then a.next id h (.clearPrepared ki link.noteCommitment)
        else a.next id h (dedupDecide ki entry (some link))
      | some none => a.next id h (dedupDecide ki entry none)
  | .clearPrepared ki noteCommitment =>
      a.call env.reply (clearExpiredPreparedNoteHandoff P (P.txKey h) noteCommitment)
        fun a cleared? =>
      match cleared? with
      | none => a.finish id h false
      | some true => a.next id h (.dedupReread ki)
      | some false => a.next id h (.repair false)
  | .dedupReread ki => a.call env.reply (txnGet h) fun a entry? =>
      match entry? with
      | none => a.finish id h false
      | some entry => a.next id h (dedupDecide ki entry none)
  | .repair _ => a.call env.reply (nonceAdvanceCas P c.signerStr (c.nonceOf h)) fun a advanced? =>
      a.finish id h advanced?.isSome
  -- the checks before the lock, and the GER preflight
  | .validate durable =>
      if !env.checks then a.finish id h false
      else if c.rejectUnverifiedGer = true ∧ c.callOf h = .ger then
        a.next id h (if durable then .preflightWait durable else .preflightNonce)
      else a.next id h (.acquire durable)
  | .preflightNonce => a.call env.reply (fun s => (s, nonceGet P c.signerStr s)) fun a expected? =>
      match expected? with
      | none => a.finish id h false
      | some expected =>
        if c.nonceOf h < expected then a.finish id h false else a.next id h (.preflightWait false)
  | .preflightWait durable =>
      if env.checks then a.next id h (.acquire durable) else a.finish id h false
  -- the signer lock and the R4 check under it
  | .acquire durable =>
      match a.lockHolder with
      | some _ => a
      | none =>
        let a := { a with lockHolder := some id }
        if h ∈ a.inflight then a.finish id h true
        else if durable then a.next id h (.nonceGet true)
        else a.next id h .lockedTxnGet
  | .lockedTxnGet => a.call env.reply (txnGet h) fun a entry? =>
      match entry? with
      | none => a.finish id h false
      | some none => a.next id h (.nonceGet false)
      | some (some entry) => a.next id h (.lockedHandoff entry)
  | .lockedHandoff entry => a.call env.reply (getNoteHandoffForTx (P.txKey h)) fun a handoff? =>
      match handoff? with
      | none => a.finish id h false
      | some handoff =>
        if entry.result.isSome ∨ handoff.isSome then a.next id h (.repair true)
        else a.next id h (.nonceGet true)
  | .nonceGet durable => a.call env.reply (fun s => (s, nonceGet P c.signerStr s)) fun a expected? =>
      match expected? with
      | none => a.finish id h false
      | some expected => a.next id h (.frontier durable expected)
  | .frontier durable expected => a.call env.reply (fun s => (s, lowestUnlinked P c.signer s))
        fun a lower? =>
      match lower? with
      | none => a.finish id h false
      | some lower =>
        let n := c.nonceOf h
        -- a lower durable intent not yet handed off, and not live in the writer
        if (lower.any fun lower => decide (lower < n)) ∧ env.lowerLive = false then
          a.finish id h false
        else if n = expected ∨ (durable = true ∧ expected = n + 1) then a.next id h .reserve
        else if expected < n ∧ env.mayWait = true then (a.unlock id).next id h (.acquire durable)
        else a.finish id h false
  -- the reservation, and the admission under a won fence
  | .reserve => a.call env.reply (reserveNonce P c.signerStr (c.nonceOf h) h c.lease a.now)
        fun a reservation? =>
      match reservation? with
      | some (.won fence) => a.next id h (.dispatch fence)
      | some .ownedBySame => a.finish id h true
      | some (.heldByOther _) | none => a.finish id h false
  | .dispatch fence =>
      if !env.checks then a.next id h (.release fence false)
      else
        match c.callOf h with
        | .claim =>
          if env.applied then a.next id h (.revertTip fence)
          else a.next id h (.admitBegin fence false)
        | .ger => a.next id h (.admitBegin fence env.applied)
  | .revertTip fence => a.call env.reply getLatestBlockNumber fun a blockNum? =>
      match blockNum? with
      | none => a.next id h (.release fence false)
      | some blockNum => a.next id h (.revertCommit fence blockNum)
  | .revertCommit fence blockNum =>
      a.call env.reply (commitRevertedReceiptAndAdvanceNonce P h (c.entry h) (c.revertReason h)
        blockNum c.signerStr (c.nonceOf h)) fun a advanced? =>
      a.next id h (.release fence advanced?.isSome)
  | .admitBegin fence ger => a.call env.reply (txnBeginIfAbsent h (c.entry h)) fun a begun? =>
      match begun? with
      | none => a.next id h (.release fence false)
      | some _ => a.next id h (.admitCas fence ger)
  | .admitCas fence ger => a.call env.reply (nonceAdvanceCas P c.signerStr (c.nonceOf h))
        fun a advanced? =>
      match advanced? with
      | none => a.next id h (.release fence false)
      | some true => admitted id h env fence ger a
      | some false => a.next id h (.admitCheck fence ger)
  | .admitCheck fence ger => a.call env.reply (fun s => (s, nonceGet P c.signerStr s))
        fun a current? =>
      match current? with
      | some current =>
        -- `lost nonce CAS` unless the nonce is exactly past this one
        if current = c.nonceOf h + 1 then admitted id h env fence ger a
        else a.next id h (.release fence false)
      | none => a.next id h (.release fence false)
  | .gerTip fence => a.call env.reply getLatestBlockNumber fun a blockNum? =>
      match blockNum? with
      | none => a.next id h (.release fence false)
      | some blockNum => a.next id h (.gerBegin fence blockNum)
  | .gerBegin fence blockNum => a.call env.reply (txnBeginIfAbsent h (c.entry h)) fun a begun? =>
      match begun? with
      | none => a.next id h (.release fence false)
      | some _ => a.next id h (.gerCommit fence blockNum)
  | .gerCommit fence blockNum =>
      a.call env.reply (txnCommit P c.bridgeAddress h (.ok ()) blockNum (c.blockHash blockNum))
        fun a committed? =>
      match committed? with
      | some (.ok _) => a.next id h (.release fence true)
      | some (.error _) | none => a.next id h (.release fence false)
  -- a failed release is only logged: the request returns its admission
  | .release fence ok =>
      a.call env.reply (fun s => (releaseReservation P c.signerStr (c.nonceOf h) h fence ok a.now s, ()))
        fun a _ => a.finish id h ok
  | .done _ => a

/-! ## Section 4: The process -/

/-- What can happen next: a request arrives or takes its next step, the
    heartbeat renews a lease, the writer worker commits or hands off a job
    in flight, the sweeper drops one, the reconciler moves its cursor, time
    passes, a request is cancelled, or the process crashes. -/
inductive Action where
  | arrive (id : Nat) (txHash : TxHash)
  | run (id : Nat) (env : Env)
  | renew (id : Nat) (reply : Reply)
  | workerCommit (txHash : TxHash) (result : Except String Unit) (blockNum : Nat)
  | workerHandoff (txHash : TxHash) (noteCommitment noteId : String) (expirationBlock : Nat)
  | workerConfirm (txHash : TxHash) (noteCommitment : String)
  | sweep (txHash : TxHash)
  | reconcile (cursor : Nat)
  | tick (elapsed : Nat)
  | cancel (id : Nat)
  | crash

/-- One step of the process. -/
def admissionStep (a : Admission) : Action → Admission × Unit
  | .arrive id txHash =>
    match a.requests id with
    | none => (a.next id txHash .received, ())
    | some _ => (a, ())
  | .run id env =>
    match a.requests id with
    | some r => (runRequest P c id r.txHash env a r.phase, ())
    | none => (a, ())
  | .renew id reply =>
    match a.requests id with
    | some r =>
      if r.phase.heartbeat then
        ({ a with store := (reply.call (renewReservation P c.signerStr (c.nonceOf r.txHash)
            r.txHash c.lease a.now) a.store).1 }, ())
      else (a, ())
    | none => (a, ())
  | .workerCommit txHash result blockNum =>
    if txHash ∈ a.inflight then
      ({ a with
          store := (txnCommit P c.bridgeAddress txHash result blockNum (c.blockHash blockNum)
            a.store).1
          inflight := a.inflight.filter (· ≠ txHash) }, ())
    else (a, ())
  | .workerHandoff txHash noteCommitment noteId expirationBlock =>
    if txHash ∈ a.inflight then
      ({ a with
          store := (prepareNoteHandoff (P.txKey txHash) noteCommitment noteId expirationBlock
            a.store).1 }, ())
    else (a, ())
  | .workerConfirm txHash noteCommitment =>
    ({ a with store := (confirmNoteHandoff P (P.txKey txHash) noteCommitment a.store).1 }, ())
  | .sweep txHash => ({ a with inflight := a.inflight.filter (· ≠ txHash) }, ())
  | .reconcile cursor => ({ a with store := { a.store with reconcileCursor := cursor } }, ())
  | .tick elapsed => ({ a with now := a.now + elapsed }, ())
  | .cancel id => ((a.unlock id).setRequest id none, ())
  | .crash => ({ a with inflight := [], lockHolder := none, requests := fun _ => none }, ())

end Service
