import MidenAgglayer.Synthesis.Events

/-! # Claim Submission Locks and Note Handoffs

    The per-global-index claim lock of `InMemoryStore` and the durable
    transaction-to-note handoff links (`src/store/memory.rs`), and the
    service's `acquire_claim_lock` (`src/service_send_raw_txn.rs`) built
    from them.

    A claim record moves `executing → prepared → submitted → landed`:

    * `tryClaimFenced` creates an `executing` record with fence `1`;
      `tryReclaimClaimFenced` re-owns an `executing` record (same owner, or an
      expired lease) and bumps its fence;
    * `prepareClaimSubmissionFenced` turns the owner's current `executing`
      fence into `prepared` and writes the `prepared` note link;
    * `confirmNoteHandoff` turns the link `submitted` and the owner's
      `prepared` claims `submitted`;
    * `commitManualClaimEventAtomic` lands the index whatever its state;
    * `unclaimFenced` deletes only the caller's own `executing` fence, and
      `clearExpiredPreparedNoteHandoff` deletes a `prepared` record once the
      reconcile cursor has passed its note's expiration block.
-/

open Bytes

namespace Store

variable (P : Primitives)

/-! ## Claim locks -/

/-- `try_claim_fenced`: insert an `executing` record with fence `1` if the
    index has none. -/
def tryClaimFenced (gi : U256) (owner : TxHash) (lease now : Nat) (s : InMemoryStore) :
    InMemoryStore × Option Nat :=
  if s.claimed.contains gi then (s, none)
  else
    ({ s with
      claimed := s.claimed.insert gi
        { ownerTxHash := some owner, state := .executing, acquiredAt := now,
          leaseExpiresAt := some (now + lease), fence := 1 } }, some 1)

/-- The `expired` test of `try_reclaim_claim_fenced`: the lease deadline has
    passed, or a record without one is older than `lease`. -/
def ClaimRecord.expired (r : ClaimRecord) (lease now : Nat) : Bool :=
  match r.leaseExpiresAt with
  | some deadline => decide (deadline ≤ now)
  | none => decide (lease ≤ now - r.acquiredAt)

/-- `try_reclaim_claim_fenced`: re-own an `executing` record held by the same
    owner or with an expired lease, under the next fence. -/
def tryReclaimClaimFenced (gi : U256) (owner : TxHash) (lease now : Nat) (s : InMemoryStore) :
    InMemoryStore × Option Nat :=
  match s.claimed[gi]? with
  | none => (s, none)
  | some r =>
    if r.state ≠ .executing ∨ (r.ownerTxHash ≠ some owner ∧ r.expired lease now = false) then
      (s, none)
    else
      ({ s with
        claimed := s.claimed.insert gi
          { r with ownerTxHash := some owner, acquiredAt := now,
                   leaseExpiresAt := some (now + lease), fence := r.fence + 1 } },
        some (r.fence + 1))

/-- The lease test of `prepare_claim_submission_fenced`: no deadline, or a
    passed one. -/
def ClaimRecord.leaseLapsed (r : ClaimRecord) (now : Nat) : Bool :=
  match r.leaseExpiresAt with
  | some deadline => decide (deadline ≤ now)
  | none => true

/-- `prepare_claim_submission_fenced`: with no link yet for `txHash`, turn
    the caller's live `executing` fence into `prepared` and record the
    `prepared` note link. -/
def prepareClaimSubmissionFenced (gi : U256) (owner : TxHash) (fence : Nat) (txHash : TxHash)
    (noteCommitment noteId : String) (expirationBlock now : Nat) (s : InMemoryStore) :
    InMemoryStore × Except StoreError Bool :=
  match s.txNoteLinks[P.txKey txHash]? with
  | some existing =>
    if existing.noteCommitment ≠ noteCommitment ∨ existing.noteId ≠ some noteId then
      (s, .error (.linkedToDifferentClaimNote (P.txKey txHash)))
    else (s, .ok false)
  | none =>
    match s.claimed[gi]? with
    | none => (s, .ok false)
    | some r =>
      if r.ownerTxHash ≠ some owner ∨ r.fence ≠ fence ∨ r.state ≠ .executing
          ∨ r.leaseLapsed now then
        (s, .ok false)
      else
        ({ s with
          txNoteLinks := s.txNoteLinks.insert (P.txKey txHash)
            { noteCommitment := noteCommitment, noteId := some noteId, state := .prepared,
              expirationBlock := some expirationBlock }
          claimed := s.claimed.insert gi { r with state := .prepared, leaseExpiresAt := none }
          noteTxLinks := s.noteTxLinks.insertIfNew noteCommitment (P.txKey txHash) }, .ok true)

/-- `unclaim_fenced`: delete the record only if it is the caller's own
    `executing` fence. -/
def unclaimFenced (gi : U256) (owner : TxHash) (fence : Nat) (s : InMemoryStore) :
    InMemoryStore × Bool :=
  match s.claimed[gi]? with
  | some r =>
    if r.ownerTxHash = some owner ∧ r.fence = fence ∧ r.state = .executing then
      ({ s with claimed := s.claimed.erase gi }, true)
    else (s, false)
  | none => (s, false)

/-! ## Note handoffs -/

/-- `prepare_note_handoff`: record a `prepared` link for an unlinked
    transaction; a re-prepare of the same note is a no-op. -/
def prepareNoteHandoff (txHash noteCommitment noteId : String) (expirationBlock : Nat)
    (s : InMemoryStore) : InMemoryStore × Except StoreError Unit :=
  match s.txNoteLinks[txHash]? with
  | some existing =>
    if existing.noteCommitment ≠ noteCommitment ∨ existing.noteId ≠ some noteId then
      (s, .error (.linkedToDifferentNote txHash))
    else (s, .ok ())
  | none =>
    ({ s with
      txNoteLinks := s.txNoteLinks.insert txHash
        { noteCommitment := noteCommitment, noteId := some noteId, state := .prepared,
          expirationBlock := some expirationBlock }
      noteTxLinks := s.noteTxLinks.insertIfNew noteCommitment txHash }, .ok ())

/-- The claim update of a confirmed handoff: the owner's `prepared` claims
    become `submitted` with no lease. -/
def submitOwnedClaims (owner : TxHash) (claimed : Std.HashMap U256 ClaimRecord) :
    Std.HashMap U256 ClaimRecord :=
  claimed.map fun _ c =>
    if c.ownerTxHash = some owner ∧ c.state = .prepared then
      { c with state := .submitted, leaseExpiresAt := none }
    else c

/-- `confirm_note_handoff`: the link of `txHash` to exactly this note becomes
    `submitted`, and so do the transaction's `prepared` claims. -/
def confirmNoteHandoff (txHash noteCommitment : String) (s : InMemoryStore) :
    InMemoryStore × Bool :=
  match s.txNoteLinks[txHash]? with
  | none => (s, false)
  | some record =>
    if record.noteCommitment ≠ noteCommitment then (s, false)
    else
      ({ s with
        txNoteLinks := s.txNoteLinks.insert txHash
          { record with state := .submitted, expirationBlock := none }
        claimed := match P.parseTxHash txHash with
          | some owner => submitOwnedClaims owner s.claimed
          | none => s.claimed }, true)

/-- Whether a link is a `prepared` link to `noteCommitment` whose expiration
    block the reconcile cursor has passed. -/
def NoteHandoffRecord.expiredPrepared (record : NoteHandoffRecord) (noteCommitment : String)
    (cursor : Nat) : Bool :=
  record.state == .prepared && record.noteCommitment == noteCommitment &&
    match record.expirationBlock with
    | some expiration => decide (expiration < cursor)
    | none => false

/-- The claim a transaction owns, as `find_map` meets it while iterating the
    claim map. -/
def ownedClaim (owner : TxHash) (claimed : Std.HashMap U256 ClaimRecord) :
    Option (U256 × ClaimRecord) :=
  claimed.toList.find? fun p => p.2.ownerTxHash == some owner

/-- The rest of `clear_expired_prepared_note_handoff` once the claim check
    has passed: drop the link and its reverse entry, and turn a failed
    receipt of the transaction back to pending. -/
def clearHandoff (txHash noteCommitment : String) (claimed : Std.HashMap U256 ClaimRecord)
    (s : InMemoryStore) : InMemoryStore :=
  { s with
    claimed := claimed
    txNoteLinks := s.txNoteLinks.erase txHash
    noteTxLinks :=
      if s.noteTxLinks[noteCommitment]? = some txHash then s.noteTxLinks.erase noteCommitment
      else s.noteTxLinks
    transactions :=
      match P.parseTxHash txHash with
      | some h =>
        match s.transactions[h]? with
        | some receipt =>
          match receipt.result with
          | some (.error _) => s.transactions.insert h { receipt with result := none, blockNum := 0 }
          | _ => s.transactions
        | none => s.transactions
      | none => s.transactions }

/-- `clear_expired_prepared_note_handoff`: once the reconcile cursor has
    passed a `prepared` link's expiration block, delete the link and the
    transaction's `prepared` claim so the exact transaction can retry; a
    claim of the transaction in any other state keeps everything. -/
def clearExpiredPreparedNoteHandoff (txHash noteCommitment : String) (s : InMemoryStore) :
    InMemoryStore × Bool :=
  match s.txNoteLinks[txHash]? with
  | none => (s, false)
  | some record =>
    if record.expiredPrepared noteCommitment s.reconcileCursor = false then (s, false)
    else
      match P.parseTxHash txHash with
      | none => (clearHandoff P txHash noteCommitment s.claimed s, true)
      | some owner =>
        match ownedClaim owner s.claimed with
        | none => (clearHandoff P txHash noteCommitment s.claimed s, true)
        | some (gi, c) =>
          if c.state = .prepared then
            (clearHandoff P txHash noteCommitment (s.claimed.erase gi) s, true)
          else (s, false)

/-! ## Landing a claim -/

/-- Observing the exact note confirms the handoff link stored under `key`. -/
def confirmLink (key : String) (links : Std.HashMap String NoteHandoffRecord) :
    Std.HashMap String NoteHandoffRecord :=
  match links[key]? with
  | some link => links.insert key { link with state := .submitted, expirationBlock := none }
  | none => links

/-- A landing finalises the receipt of a real transaction hash, if the hash
    parses and has a row; derived hashes have none. -/
def finaliseReceipt (txHash : String) (blockNumber : Nat)
    (transactions : Std.HashMap TxHash TxnReceipt) : Std.HashMap TxHash TxnReceipt :=
  match P.parseTxHash txHash with
  | some h =>
    match transactions[h]? with
    | some receipt =>
      transactions.insert h { receipt with result := some (.ok ()), blockNum := blockNumber }
    | none => transactions
  | none => transactions

/-- The claim update of a `ClaimEvent`: the index lands, bumping the fence of
    an existing record. -/
def landClaim (gi : U256) (now : Nat) (claimed : Std.HashMap U256 ClaimRecord) :
    Std.HashMap U256 ClaimRecord :=
  match claimed[gi]? with
  | some c => claimed.insert gi { c with state := .landed, leaseExpiresAt := none, fence := c.fence + 1 }
  | none => claimed.insert gi
      { ownerTxHash := none, state := .landed, acquiredAt := now, leaseExpiresAt := none, fence := 1 }

/-- `commit_manual_claim_event_atomic`: confirm the link, land the index,
    record the watcher row, finalise a real receipt, and emit the
    `ClaimEvent` only for a note not seen before. -/
def commitManualClaimEventAtomic (noteId bridgeAddress : String) (blockNumber : Nat)
    (blockHash : B256) (txHash : String) (globalIndex : B256) (originNetwork : Nat)
    (originAddress destinationAddress : Address) (amount now : Nat) (s : InMemoryStore) :
    InMemoryStore :=
  let s' := { s with
    txNoteLinks := confirmLink (P.toLowercase txHash) s.txNoteLinks
    claimed := landClaim (U256.fromBeBytes globalIndex) now s.claimed
    claimWatcherProcessed := s.claimWatcherProcessed.insertIfNew noteId globalIndex
    transactions := finaliseReceipt P txHash blockNumber s.transactions }
  if s.claimWatcherProcessed.contains noteId then s'
  else
    insertLogUnder (P.toLowercase txHash)
      { address := bridgeAddress, topics := [claimEventTopic],
        data := encodeClaimEventDataU64 P globalIndex originNetwork originAddress
          destinationAddress amount,
        blockNumber := blockNumber, blockHash := blockHash,
        transactionHash := P.toLowercase txHash,
        transactionIndex := 0, logIndex := 0, removed := false } s'

/-- `has_claim_event_for_global_index`: a watcher row for the index, or a
    stored `ClaimEvent` whose data starts with the index's word. -/
def hasClaimEventForGlobalIndex (globalIndex : B256) (s : InMemoryStore) : Bool :=
  let prefixChars := (hexText P globalIndex.toList).toList
  s.claimWatcherProcessed.toList.any (fun p => p.2 == globalIndex) ||
    s.logsByBlock.toList.any fun p => p.2.any fun log =>
      log.topics.head? == some claimEventTopic && prefixChars.length ≤ log.data.length &&
        eqIgnoreAsciiCase (log.data.toList.take prefixChars.length) prefixChars

/-! ## `acquire_claim_lock` -/

/-- `ClaimLockOutcome`. -/
inductive ClaimLockOutcome where
  | acquired (fence : Nat)
  | inFlight
  | landed
  deriving DecidableEq, Repr

/-- `acquire_claim_lock`, run without interference. Its two lock calls read
    the clock at `now₁` and `now₂`; between any two store calls other
    callers may run (the runs of `ClaimOp` below). -/
def acquireClaimLock (gi : U256) (owner : TxHash) (ttl now₁ now₂ : Nat) (s : InMemoryStore) :
    InMemoryStore × ClaimLockOutcome :=
  let giBytes := U256.toBeBytes gi
  match tryClaimFenced gi owner ttl now₁ s with
  | (s₁, some fence) =>
    if hasClaimEventForGlobalIndex P giBytes s₁ then ((unclaimFenced gi owner fence s₁).1, .landed)
    else (s₁, .acquired fence)
  | (s₁, none) =>
    if hasClaimEventForGlobalIndex P giBytes s₁ then (s₁, .landed)
    else
      match tryReclaimClaimFenced gi owner ttl now₂ s₁ with
      | (s₂, none) =>
        if hasClaimEventForGlobalIndex P giBytes s₂ then (s₂, .landed) else (s₂, .inFlight)
      | (s₂, some fence) =>
        if hasClaimEventForGlobalIndex P giBytes s₂ then
          ((unclaimFenced gi owner fence s₂).1, .landed)
        else (s₂, .acquired fence)

end Store

namespace Store

variable (P : Primitives) (s : InMemoryStore) {gi : U256} {r : ClaimRecord}

/-! ## The claim map after each operation

    Every operation except `clearExpiredPreparedNoteHandoff` leaves a record
    that is past `executing` in place, possibly moving it further along. -/

theorem ownedClaim_spec {owner : TxHash} {m : Std.HashMap U256 ClaimRecord} {gi : U256}
    {c : ClaimRecord} (h : ownedClaim owner m = some (gi, c)) :
    m[gi]? = some c ∧ c.ownerTxHash = some owner := by
  have hmem := List.mem_of_find?_eq_some h
  have hown := List.find?_some h
  exact ⟨Std.HashMap.mem_toList_iff_getElem?_eq_some.mp hmem, by simpa using hown⟩

theorem tryClaimFenced_claimed_of_some (h : s.claimed[gi]? = some r) (gi' : U256)
    (owner : TxHash) (lease now : Nat) :
    (tryClaimFenced gi' owner lease now s).1.claimed[gi]? = some r := by
  unfold tryClaimFenced
  split
  · exact h
  · rename_i hc
    have hne : gi' ≠ gi := by
      rintro rfl
      exact hc (Std.HashMap.contains_eq_isSome_getElem?.trans (by simp [h]))
    simp [Std.HashMap.getElem?_insert, hne, h]

theorem tryReclaimClaimFenced_claimed_of_handedOff (h : s.claimed[gi]? = some r)
    (hr : r.state ≠ .executing) (gi' : U256) (owner : TxHash) (lease now : Nat) :
    (tryReclaimClaimFenced gi' owner lease now s).1.claimed[gi]? = some r := by
  unfold tryReclaimClaimFenced
  split
  · exact h
  · rename_i r' hr'
    split
    · exact h
    · rename_i hcond
      -- only an `executing` record is re-owned, so the touched index is not `gi`
      have hne : gi' ≠ gi := by
        rintro rfl
        rw [h] at hr'
        cases hr'
        exact hcond (Or.inl hr)
      simp [Std.HashMap.getElem?_insert, hne, h]

theorem prepareClaimSubmissionFenced_claimed_of_handedOff (h : s.claimed[gi]? = some r)
    (hr : r.state ≠ .executing) (gi' : U256) (owner : TxHash) (fence : Nat) (txHash : TxHash)
    (noteCommitment noteId : String) (expirationBlock now : Nat) :
    (prepareClaimSubmissionFenced P gi' owner fence txHash noteCommitment noteId
      expirationBlock now s).1.claimed[gi]? = some r := by
  unfold prepareClaimSubmissionFenced
  split
  · split <;> exact h
  · split
    · exact h
    · rename_i r' hr'
      split
      · exact h
      · rename_i hcond
        have hne : gi' ≠ gi := by
          rintro rfl
          rw [h] at hr'
          cases hr'
          exact hcond (Or.inr (Or.inr (Or.inl hr)))
        simp [Std.HashMap.getElem?_insert, hne, h]

theorem unclaimFenced_claimed_of_handedOff (h : s.claimed[gi]? = some r)
    (hr : r.state ≠ .executing) (gi' : U256) (owner : TxHash) (fence : Nat) :
    (unclaimFenced gi' owner fence s).1.claimed[gi]? = some r := by
  unfold unclaimFenced
  split
  · rename_i r' hr'
    split
    · rename_i hcond
      have hne : gi' ≠ gi := by
        rintro rfl
        rw [h] at hr'
        cases hr'
        exact hr hcond.2.2
      simp [Std.HashMap.getElem?_erase, hne, h]
    · exact h
  · exact h

theorem confirmNoteHandoff_claimed (gi : U256) (txHash noteCommitment : String) :
    (confirmNoteHandoff P txHash noteCommitment s).1.claimed[gi]? = s.claimed[gi]? ∨
      ∃ owner, (confirmNoteHandoff P txHash noteCommitment s).1.claimed[gi]? =
        (submitOwnedClaims owner s.claimed)[gi]? := by
  unfold confirmNoteHandoff
  split
  · exact Or.inl rfl
  · split
    · exact Or.inl rfl
    · split
      · rename_i owner _
        exact Or.inr ⟨owner, rfl⟩
      · exact Or.inl rfl

theorem submitOwnedClaims_getElem? (owner : TxHash) (m : Std.HashMap U256 ClaimRecord) :
    (submitOwnedClaims owner m)[gi]? = m[gi]?.map fun c =>
      if c.ownerTxHash = some owner ∧ c.state = .prepared then
        { c with state := .submitted, leaseExpiresAt := none }
      else c := by
  simp [submitOwnedClaims, Std.HashMap.getElem?_map]

theorem commitManualClaimEventAtomic_claimed (noteId bridgeAddress : String) (blockNumber : Nat)
    (blockHash : B256) (txHash : String) (globalIndex : B256) (originNetwork : Nat)
    (originAddress destinationAddress : Address) (amount now : Nat) :
    (commitManualClaimEventAtomic P noteId bridgeAddress blockNumber blockHash txHash globalIndex
      originNetwork originAddress destinationAddress amount now s).claimed =
      landClaim (U256.fromBeBytes globalIndex) now s.claimed := by
  unfold commitManualClaimEventAtomic
  split <;> rfl

theorem landClaim_getElem? (gi' : U256) (now : Nat) (m : Std.HashMap U256 ClaimRecord) :
    (landClaim gi' now m)[gi]? =
      if gi' = gi then
        some (match m[gi]? with
          | some c => { c with state := .landed, leaseExpiresAt := none, fence := c.fence + 1 }
          | none => { ownerTxHash := none, state := .landed, acquiredAt := now,
                      leaseExpiresAt := none, fence := 1 })
      else m[gi]? := by
  unfold landClaim
  by_cases hgi : gi' = gi
  · subst hgi
    split <;> simp_all
  · split <;> simp [Std.HashMap.getElem?_insert, hgi]

theorem clearHandoff_claimed (txHash noteCommitment : String) (m : Std.HashMap U256 ClaimRecord) :
    (clearHandoff P txHash noteCommitment m s).claimed = m := rfl

theorem clearExpiredPreparedNoteHandoff_claimed (gi : U256) (txHash noteCommitment : String) :
    (clearExpiredPreparedNoteHandoff P txHash noteCommitment s).1.claimed[gi]? = s.claimed[gi]? ∨
      ((clearExpiredPreparedNoteHandoff P txHash noteCommitment s).1.claimed[gi]? = none ∧
        ∃ link owner r e, s.txNoteLinks[txHash]? = some link ∧ link.state = .prepared ∧
          link.expirationBlock = some e ∧ e < s.reconcileCursor ∧
          P.parseTxHash txHash = some owner ∧ s.claimed[gi]? = some r ∧
          r.ownerTxHash = some owner ∧ r.state = .prepared) := by
  unfold clearExpiredPreparedNoteHandoff
  split
  · exact Or.inl rfl
  · rename_i link hlink
    split
    · exact Or.inl rfl
    · rename_i hexp
      split
      · exact Or.inl rfl
      · rename_i owner howner
        split
        · exact Or.inl rfl
        · rename_i gi' c hown
          split
          · rename_i hprep
            obtain ⟨hgi', hc⟩ := ownedClaim_spec hown
            by_cases hne : gi' = gi
            · subst hne
              -- the erased claim is `gi` itself: the exit this lemma reports
              right
              refine ⟨by simp [clearHandoff_claimed], ?_⟩
              simp only [NoteHandoffRecord.expiredPrepared,
                Bool.and_eq_false_iff, beq_eq_false_iff_ne, ne_eq] at hexp
              cases he : link.expirationBlock with
              | none => simp [he] at hexp
              | some e =>
                simp only [he, decide_eq_false_iff_not, not_lt, not_or] at hexp
                refine ⟨link, owner, c, e, hlink, ?_, he, ?_, howner, hgi', hc, hprep⟩
                · by_contra hs
                  exact hs (Decidable.not_not.mp fun h' => hexp.1.1 h')
                · omega
            · left
              simp [clearHandoff_claimed, Std.HashMap.getElem?_erase, hne]
          · exact Or.inl rfl

/-! ## The transaction rows after each operation

    Of the handoff operations only the clearing of an expired handoff writes
    a row, and a landing only finalises one. -/

theorem prepareNoteHandoff_transactions (txHash noteCommitment noteId : String)
    (expirationBlock : Nat) :
    (prepareNoteHandoff txHash noteCommitment noteId expirationBlock s).1.transactions =
      s.transactions := by
  unfold prepareNoteHandoff
  split
  · split <;> rfl
  · rfl

theorem prepareClaimSubmissionFenced_transactions (gi : U256) (owner : TxHash) (fence : Nat)
    (txHash : TxHash) (noteCommitment noteId : String) (expirationBlock now : Nat) :
    (prepareClaimSubmissionFenced P gi owner fence txHash noteCommitment noteId expirationBlock
      now s).1.transactions = s.transactions := by
  unfold prepareClaimSubmissionFenced
  split
  · split <;> rfl
  · split
    · rfl
    · split <;> rfl

theorem commitManualClaimEventAtomic_transactions (noteId bridgeAddress : String)
    (blockNumber : Nat) (blockHash : B256) (txHash : String) (globalIndex : B256)
    (originNetwork : Nat) (originAddress destinationAddress : Address) (amount now : Nat) :
    (commitManualClaimEventAtomic P noteId bridgeAddress blockNumber blockHash txHash globalIndex
      originNetwork originAddress destinationAddress amount now s).transactions =
      finaliseReceipt P txHash blockNumber s.transactions := by
  unfold commitManualClaimEventAtomic
  split <;> rfl

/-- Clearing an expired handoff writes the rows as `clearHandoff` does, or
    writes none. -/
theorem clearExpiredPreparedNoteHandoff_transactions (txHash noteCommitment : String) :
    (clearExpiredPreparedNoteHandoff P txHash noteCommitment s).1.transactions = s.transactions ∨
      (clearExpiredPreparedNoteHandoff P txHash noteCommitment s).1.transactions =
        (clearHandoff P txHash noteCommitment s.claimed s).transactions := by
  unfold clearExpiredPreparedNoteHandoff
  split
  · exact .inl rfl
  · split
    · exact .inl rfl
    · split
      · exact .inr rfl
      · split
        · exact .inr rfl
        · split
          · exact .inr rfl
          · exact .inl rfl

/-- Clearing an expired handoff changes nothing, or is `clearHandoff`. -/
theorem clearExpiredPreparedNoteHandoff_cases (txHash noteCommitment : String) :
    (clearExpiredPreparedNoteHandoff P txHash noteCommitment s).1 = s ∨
      ∃ claimed, (clearExpiredPreparedNoteHandoff P txHash noteCommitment s).1 =
        clearHandoff P txHash noteCommitment claimed s := by
  unfold clearExpiredPreparedNoteHandoff
  split
  · exact .inl rfl
  · split
    · exact .inl rfl
    · split
      · exact .inr ⟨_, rfl⟩
      · split
        · exact .inr ⟨_, rfl⟩
        · split
          · exact .inr ⟨_, rfl⟩
          · exact .inl rfl

/-- `clearHandoff` writes at most the failed row of its hash back to
    pending. -/
theorem clearHandoff_transactions (txHash noteCommitment : String)
    (claimed : Std.HashMap U256 ClaimRecord) :
    (clearHandoff P txHash noteCommitment claimed s).transactions = s.transactions ∨
      ∃ h receipt, s.transactions[h]? = some receipt ∧
        (clearHandoff P txHash noteCommitment claimed s).transactions =
          s.transactions.insert h { receipt with result := none, blockNum := 0 } := by
  unfold clearHandoff
  dsimp only
  split
  · rename_i h _
    split
    · rename_i receipt hrow
      split
      · exact .inr ⟨h, receipt, hrow, rfl⟩
      · exact .inl rfl
    · exact .inl rfl
  · exact .inl rfl

end Store
