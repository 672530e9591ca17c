import MidenAgglayer.Service.SendRawTxn
import MidenAgglayer.Framework.Run

/-! # One Row per Nonce Across Every Admission

    The invariant of `service_send_raw_txn` over every interleaving of its
    requests with the writer, the heartbeat, time, cancellations and
    crashes (`admissionStep`), from any store that meets it.

    * Every durable row is the signer's, at its envelope's nonce, and that
      nonce's reservation slot is bound to the row's hash (`RowsBound`).
      Two rows at one nonce therefore have one hash: a slot binds one hash,
      and `reserve_nonce` rebinds a slot to another hash only when the bound
      hash has no row (`reserveNonce_storeStep`).
    * A request writes a row only under a won fence of the row's slot, and
      holds a won fence only under the signer lock, so no other request
      rebinds the slot in between (`RequestInv`).
    * The stored nonce moves by one, and only past a nonce that has a row
      (`admissionStep_nonce`); a request returns `Ok` for a hash with a
      row, a hash in flight, or a hash whose slot is executing under a live
      lease (`admissionStep_ok`). The last case is needed: after a crash the
      slot of a reserved hash stays executing, and a rebroadcast returns
      `Ok` on `OwnedBySame` with nothing written and nothing in flight
      (`owned_by_same_ok_without_row`).
-/

namespace Service

open Store

variable (P : Primitives) (c : Config)

/-! ## Section 1: What the admission keeps -/

/-- The reservation slot of a hash's envelope. -/
def Config.slot (h : TxHash) : String × Nat :=
  (P.toLowercase c.signerStr, c.nonceOf h)

/-- The hash a slot is bound to. -/
def boundHash (s : InMemoryStore) (slot : String × Nat) : Option TxHash :=
  (s.nonceReservations[slot]?).map Reservation.txHash

/-- A row of `h` is the signer's, at the nonce of `h`'s envelope, and the
    slot of that nonce is bound to `h`. -/
structure RowBound (s : InMemoryStore) (h : TxHash) (row : TxnReceipt) : Prop where
  signer : row.signer = c.signer
  nonce : row.envelopeNonce = c.nonceOf h
  bound : boundHash s (Config.slot P c h) = some h

/-- Every row is bound. -/
def RowsBound (s : InMemoryStore) : Prop :=
  ∀ h row, s.transactions[h]? = some row → RowBound P c s h row

/-- A hash with a handoff link has a row: the writer links only what it
    has in flight. -/
def LinksKnown (s : InMemoryStore) : Prop :=
  ∀ h, s.txNoteLinks.contains (P.txKey h) = true → s.transactions.contains h = true

/-- What the admission keeps of the store. -/
structure StoreInv (s : InMemoryStore) : Prop where
  rowsBound : RowsBound P c s
  linksKnown : LinksKnown P s

/-- The phases under the signer lock. -/
def Phase.locked : Phase → Bool
  | .repair locked => locked
  | .lockedTxnGet | .lockedHandoff _ | .nonceGet _ | .frontier _ _ | .reserve | .release _ _ => true
  | p => p.heartbeat

/-- The phases that hold a won fence of the hash's slot. -/
def Phase.won : Phase → Bool
  | .release _ _ => true
  | p => p.heartbeat

/-- The phases at which the handler has seen, or written, the hash's row. -/
def Phase.rowKnown : Phase → Bool
  | .dedupTxnGet knownInflight | .dedupReread knownInflight => knownInflight
  | .dedupHandoff knownInflight entry => knownInflight || entry.isSome
  | .clearPrepared _ _ | .repair _ | .lockedHandoff _ => true
  | .admitCas _ _ | .admitCheck _ _ | .gerTip _ | .gerBegin _ _ | .gerCommit _ _ => true
  | .release _ ok => ok
  | _ => false

/-- What a live request knows: it holds the lock where its phase is under
    it, its slot is bound to its hash while it holds a won fence, and its
    hash has a row where the handler has seen one. -/
structure RequestInv (a : Admission) (id : Nat) (r : Request) : Prop where
  locked : r.phase.locked = true → a.lockHolder = some id
  bound : r.phase.won = true → boundHash a.store (Config.slot P c r.txHash) = some r.txHash
  row : r.phase.rowKnown = true → a.store.transactions.contains r.txHash = true

/-- The invariant of the admission: the store's, the writer's in-flight
    hashes have rows, and every live request's. -/
structure AdmissionInv (a : Admission) : Prop where
  store : StoreInv P c a.store
  inflight : ∀ h ∈ a.inflight, a.store.transactions.contains h = true
  requests : ∀ id r, a.requests id = some r → RequestInv P c a id r

/-- A store change that keeps the store invariant and every row. -/
structure StoreStep (s s' : InMemoryStore) : Prop where
  inv : StoreInv P c s'
  stay : ∀ h, s.transactions.contains h = true → s'.transactions.contains h = true

/-- No slot changes its hash. -/
def BoundKept (s s' : InMemoryStore) : Prop :=
  ∀ slot, boundHash s' slot = boundHash s slot

/-- A store change that keeps the store invariant and every row, rebinds no
    slot and leaves the nonces. -/
structure Quiet (s s' : InMemoryStore) : Prop where
  step : StoreStep P c s s'
  kept : BoundKept s s'
  nonces : s'.nonces = s.nonces

/-- The signer's stored nonce stays, or moves by one past a nonce that has a
    row of the signer. -/
def NonceMoves (s s' : InMemoryStore) : Prop :=
  nonceGet P c.signerStr s' = nonceGet P c.signerStr s ∨
    nonceGet P c.signerStr s' = nonceGet P c.signerStr s + 1 ∧
      ∃ (h : TxHash) (row : TxnReceipt), s'.transactions[h]? = some row ∧
        row.signer = c.signer ∧ row.envelopeNonce = nonceGet P c.signerStr s

/-- What covers an `Ok` for `h`: a row, the writer's in-flight set, or the
    slot of `h` bound to it, executing under a live lease. -/
def OkCovered (a : Admission) (h : TxHash) : Prop :=
  a.store.transactions.contains h = true ∨ h ∈ a.inflight ∨
    ∃ r, a.store.nonceReservations[Config.slot P c h]? = some r ∧ r.txHash = h ∧
      r.state = .executing ∧ a.now < r.leaseExpiresAt

/-- Whether a request has returned. -/
def Phase.returned : Phase → Bool
  | .done _ => true
  | _ => false

/-- What one step of request `id` keeps and guarantees: the invariant, the
    other requests, the nonce rule, and the cover of an `Ok` it returns. -/
structure StepSafe (id : Nat) (a a' : Admission) : Prop where
  inv : AdmissionInv P c a'
  others : ∀ id', id' ≠ id → a'.requests id' = a.requests id'
  nonce : NonceMoves P c a.store a'.store
  ok : ∀ h, a'.requests id = some ⟨h, .done true⟩ → OkCovered P c a' h

/-- What one step of the process keeps and guarantees: the invariant, the
    nonce rule, and the cover of every `Ok` returned in it. -/
structure ProcessSafe (a a' : Admission) : Prop where
  inv : AdmissionInv P c a'
  nonce : NonceMoves P c a.store a'.store
  ok : ∀ id h p h', a.requests id = some ⟨h, p⟩ → p.returned = false →
    a'.requests id = some ⟨h', .done true⟩ → OkCovered P c a' h'

/-! ## Section 2: What each store call keeps -/

section Calls

variable {P c} {s s' : InMemoryStore}

theorem RowBound.of_bound {h : TxHash} {row : TxnReceipt} (hb : RowBound P c s h row)
    (hkept : BoundKept s s') : RowBound P c s' h row :=
  ⟨hb.signer, hb.nonce, (hkept _).trans hb.bound⟩

/-- A row rewritten with its envelope kept stays bound. -/
theorem RowBound.update {h : TxHash} {row row' : TxnReceipt} (hb : RowBound P c s h row)
    (hsigner : row'.signer = row.signer) (hnonce : row'.envelopeNonce = row.envelopeNonce) :
    RowBound P c s h row' :=
  ⟨hsigner.trans hb.signer, hnonce.trans hb.nonce, hb.bound⟩

theorem StoreInv.row_of_contains (hs : StoreInv P c s) {h : TxHash}
    (hc : s.transactions.contains h = true) :
    ∃ row, s.transactions[h]? = some row ∧ RowBound P c s h row := by
  rw [Std.HashMap.contains_eq_isSome_getElem?] at hc
  obtain ⟨row, hrow⟩ := Option.isSome_iff_exists.mp hc
  exact ⟨row, hrow, hs.rowsBound h row hrow⟩

theorem BoundKept.refl : BoundKept s s := fun _ => rfl

theorem BoundKept.of_eq (hres : s'.nonceReservations = s.nonceReservations) : BoundKept s s' := by
  intro slot
  simp only [boundHash, hres]

/-- Rewriting a reservation with its hash kept rebinds no slot. -/
theorem BoundKept.insert {slot : String × Nat} {r r' : Reservation}
    (hr : s.nonceReservations[slot]? = some r) (hhash : r'.txHash = r.txHash) :
    BoundKept s { s with nonceReservations := s.nonceReservations.insert slot r' } := by
  intro slot'
  simp only [boundHash, Std.HashMap.getElem?_insert, beq_iff_eq]
  split
  · rename_i heq
    subst heq
    simp [hr, hhash]
  · rfl

theorem BoundKept.call {α : Type} {op : InMemoryStore → InMemoryStore × α}
    (hop : BoundKept s (op s).1) (reply : Reply) : BoundKept s (reply.call op s).1 := by
  rcases reply.call_fst op s with h | h
  · rw [h]
    exact BoundKept.refl
  · rw [h]
    exact hop

theorem StoreStep.refl (hs : StoreInv P c s) : StoreStep P c s s :=
  ⟨hs, fun _ h => h⟩

/-- A reply leaves the store as it was or as the call leaves it, so what
    the call keeps the reply keeps. -/
theorem StoreStep.call {α : Type} {op : InMemoryStore → InMemoryStore × α} (hs : StoreInv P c s)
    (hop : StoreStep P c s (op s).1) (reply : Reply) : StoreStep P c s (reply.call op s).1 := by
  rcases reply.call_fst op s with h | h
  · rw [h]
    exact StoreStep.refl hs
  · rw [h]
    exact hop

/-- A store change that writes at most one row, bound, rebinds no slot and
    links only hashes with rows keeps the store invariant and every row. -/
theorem StoreStep.of_write (hs : StoreInv P c s) (hkept : BoundKept s s')
    (hlinks : ∀ h, s'.txNoteLinks.contains (P.txKey h) = true →
      s.txNoteLinks.contains (P.txKey h) = true ∨ s.transactions.contains h = true)
    (htx : s'.transactions = s.transactions ∨
      ∃ h row, RowBound P c s h row ∧ s'.transactions = s.transactions.insert h row) :
    StoreStep P c s s' := by
  have hstay : ∀ h, s.transactions.contains h = true → s'.transactions.contains h = true := by
    intro h hh
    rcases htx with htx | ⟨h', row, -, htx⟩
    · rw [htx]
      exact hh
    · simp [htx, Std.HashMap.contains_insert, hh]
  refine ⟨⟨?_, ?_⟩, hstay⟩
  · intro h row hrow
    rcases htx with htx | ⟨h', row', hb, htx⟩
    · rw [htx] at hrow
      exact (hs.rowsBound h row hrow).of_bound hkept
    · rw [htx, Std.HashMap.getElem?_insert] at hrow
      split at hrow
      · rename_i heq
        cases hrow
        rw [beq_iff_eq] at heq
        subst heq
        exact hb.of_bound hkept
      · exact (hs.rowsBound h row hrow).of_bound hkept
  · intro h hlink
    rcases hlinks h hlink with hold | hrow
    · exact hstay h (hs.linksKnown h hold)
    · exact hstay h hrow

theorem Quiet.refl (hs : StoreInv P c s) : Quiet P c s s :=
  ⟨StoreStep.refl hs, BoundKept.refl, rfl⟩

/-- A store change that touches no row, slot, link or nonce. -/
theorem Quiet.of_eq (hs : StoreInv P c s) (htx : s'.transactions = s.transactions)
    (hres : s'.nonceReservations = s.nonceReservations) (hlinks : s'.txNoteLinks = s.txNoteLinks)
    (hnonces : s'.nonces = s.nonces) : Quiet P c s s' :=
  ⟨StoreStep.of_write hs (BoundKept.of_eq hres) (fun _ hl => .inl (hlinks ▸ hl)) (.inl htx),
    BoundKept.of_eq hres, hnonces⟩

theorem Quiet.call {α : Type} {op : InMemoryStore → InMemoryStore × α} (hs : StoreInv P c s)
    (hop : Quiet P c s (op s).1) (reply : Reply) : Quiet P c s (reply.call op s).1 := by
  rcases reply.call_fst op s with h | h
  · rw [h]
    exact Quiet.refl hs
  · rw [h]
    exact hop

/-- Clearing an expired handoff drops a link and turns a failed row back to
    pending. -/
theorem clearExpiredPreparedNoteHandoff_quiet (hs : StoreInv P c s)
    (txHash noteCommitment : String) :
    Quiet P c s (clearExpiredPreparedNoteHandoff P txHash noteCommitment s).1 := by
  rcases clearExpiredPreparedNoteHandoff_cases P s txHash noteCommitment with h | ⟨claimed, h⟩
  · rw [h]
    exact Quiet.refl hs
  · rw [h]
    refine ⟨StoreStep.of_write hs (BoundKept.of_eq rfl) ?_ ?_, BoundKept.of_eq rfl, rfl⟩
    · intro h hlink
      simp only [clearHandoff, Std.HashMap.contains_erase, Bool.and_eq_true] at hlink
      exact .inl hlink.2
    · rcases clearHandoff_transactions P s txHash noteCommitment claimed with htx | ⟨h, receipt, hrow, htx⟩
      · exact .inl htx
      · exact .inr ⟨h, { receipt with result := none, blockNum := 0 },
          (hs.rowsBound h receipt hrow).update rfl rfl, htx⟩

/-- `txn_begin_if_absent` of the envelope's entry, for a hash its slot is
    bound to. -/
theorem txnBeginIfAbsent_quiet (hs : StoreInv P c s) {h : TxHash}
    (hb : boundHash s (Config.slot P c h) = some h) :
    Quiet P c s (txnBeginIfAbsent h (c.entry h) s).1 := by
  unfold txnBeginIfAbsent
  split
  · rename_i receipt hrow
    refine ⟨StoreStep.of_write hs (BoundKept.of_eq rfl) (fun _ hl => .inl hl)
      (.inr ⟨h, _, ?_, rfl⟩), BoundKept.of_eq rfl, rfl⟩
    exact (hs.rowsBound h receipt hrow).update (by simp) (by simp)
  · exact ⟨StoreStep.of_write hs (BoundKept.of_eq rfl) (fun _ hl => .inl hl)
      (.inr ⟨h, _, ⟨rfl, rfl, hb⟩, rfl⟩), BoundKept.of_eq rfl, rfl⟩

theorem txnBeginIfAbsent_contains (h : TxHash) (entry : TxnEntry) (s : InMemoryStore) :
    (txnBeginIfAbsent h entry s).1.transactions.contains h = true := by
  unfold txnBeginIfAbsent
  split <;> simp [Std.HashMap.contains_insert]

/-- `txn_commit` settles an existing row. -/
theorem txnCommit_quiet (hs : StoreInv P c s) (bridgeAddress : String) (h : TxHash)
    (result : Except String Unit) (blockNum : Nat) (blockHash : B256) :
    Quiet P c s (txnCommit P bridgeAddress h result blockNum blockHash s).1 := by
  obtain ⟨hnonces, hres, hlinks⟩ := txnCommit_frame P s bridgeAddress h result blockNum blockHash
  refine ⟨StoreStep.of_write hs (BoundKept.of_eq hres) (fun _ hl => .inl (hlinks ▸ hl)) ?_,
    BoundKept.of_eq hres, hnonces⟩
  rcases txnCommit_transactions P s bridgeAddress h result blockNum blockHash with
    htx | ⟨receipt, hrow, -, -, htx⟩
  · exact .inl htx
  · exact .inr ⟨h, { receipt with result := some result, blockNum := blockNum },
      (hs.rowsBound h receipt hrow).update rfl rfl, htx⟩

/-- A release moves only the state and lease of the bound hash's slot. -/
theorem releaseReservation_quiet (hs : StoreInv P c s) (addr : String) (nonce : Nat)
    (h : TxHash) (fence : Nat) (success : Bool) (now : Nat) :
    Quiet P c s (releaseReservation P addr nonce h fence success now s) := by
  have hkept : BoundKept s (releaseReservation P addr nonce h fence success now s) := by
    rcases releaseReservation_cases P s addr nonce h fence success now with
      heq | ⟨r, hr, -, -, -, heq⟩
    · rw [heq]
      exact BoundKept.refl
    · rw [heq]
      exact BoundKept.insert hr (by split <;> rfl)
  have hframe : (releaseReservation P addr nonce h fence success now s).transactions =
      s.transactions ∧ (releaseReservation P addr nonce h fence success now s).txNoteLinks =
      s.txNoteLinks ∧ (releaseReservation P addr nonce h fence success now s).nonces = s.nonces := by
    rcases releaseReservation_cases P s addr nonce h fence success now with
      heq | ⟨r, -, -, -, -, heq⟩ <;> rw [heq] <;> exact ⟨rfl, rfl, rfl⟩
  exact ⟨StoreStep.of_write hs hkept (fun _ hl => .inl (hframe.2.1 ▸ hl)) (.inl hframe.1), hkept,
    hframe.2.2⟩

/-- A renewal moves only the lease of the bound hash's slot. -/
theorem renewReservation_quiet (hs : StoreInv P c s) (addr : String) (nonce : Nat)
    (h : TxHash) (lease now : Nat) :
    Quiet P c s (renewReservation P addr nonce h lease now s).1 := by
  rcases renewReservation_cases P s addr nonce h lease now with heq | ⟨r, hr, -, heq⟩
  · rw [heq]
    exact Quiet.refl hs
  · rw [heq]
    have hkept : BoundKept s { s with
        nonceReservations := s.nonceReservations.insert (P.toLowercase addr, nonce)
          { r with leaseExpiresAt := now + lease } } := BoundKept.insert hr rfl
    exact ⟨StoreStep.of_write hs hkept (fun _ hl => .inl hl) (.inl rfl), hkept, rfl⟩

/-- The writer links a hash it has in flight, hence one with a row. -/
theorem prepareNoteHandoff_quiet (hs : StoreInv P c s) {h : TxHash}
    (hrow : s.transactions.contains h = true) (noteCommitment noteId : String)
    (expirationBlock : Nat) :
    Quiet P c s (prepareNoteHandoff (P.txKey h) noteCommitment noteId expirationBlock s).1 := by
  unfold prepareNoteHandoff
  split
  · split
    · exact Quiet.refl hs
    · exact Quiet.refl hs
  · refine ⟨StoreStep.of_write hs (BoundKept.of_eq rfl) ?_ (.inl rfl), BoundKept.of_eq rfl, rfl⟩
    intro h' hlink
    simp only [Std.HashMap.contains_insert, Bool.or_eq_true, beq_iff_eq] at hlink
    rcases hlink with hkey | hold
    · -- the new link is of `h` itself
      rw [P.txKey_injective hkey] at hrow
      exact .inr hrow
    · exact .inl hold

/-- A confirmation rewrites an existing link. -/
theorem confirmNoteHandoff_quiet (hs : StoreInv P c s) (txHash noteCommitment : String) :
    Quiet P c s (confirmNoteHandoff P txHash noteCommitment s).1 := by
  unfold confirmNoteHandoff
  split
  · exact Quiet.refl hs
  · rename_i record hrecord
    split
    · exact Quiet.refl hs
    · refine ⟨StoreStep.of_write hs (BoundKept.of_eq rfl) ?_ (.inl rfl), BoundKept.of_eq rfl, rfl⟩
      intro h hlink
      simp only [Std.HashMap.contains_insert, Bool.or_eq_true, beq_iff_eq] at hlink
      rcases hlink with hkey | hold
      · -- the link was there
        left
        rw [← hkey, Std.HashMap.contains_eq_isSome_getElem?, hrecord]
        rfl
      · exact .inl hold

/-- Binding a slot keeps every row bound if every row at that slot is of
    the new hash. -/
theorem StoreStep.rebind (hs : StoreInv P c s) {slot : String × Nat} {r' : Reservation}
    (hslot : ∀ h row, s.transactions[h]? = some row → Config.slot P c h = slot → h = r'.txHash) :
    StoreStep P c s { s with nonceReservations := s.nonceReservations.insert slot r' } := by
  refine ⟨⟨?_, hs.linksKnown⟩, fun _ hh => hh⟩
  intro h row hrow
  have hb := hs.rowsBound h row hrow
  refine ⟨hb.signer, hb.nonce, ?_⟩
  simp only [boundHash, Std.HashMap.getElem?_insert, beq_iff_eq]
  split
  · rename_i heq
    simp [hslot h row hrow heq.symm]
  · exact hb.bound

/-- `reserve_nonce` keeps every row bound: it rebinds a slot only from
    nothing, from the same hash, or from an abandoned hash, which has no
    row. -/
theorem reserveNonce_storeStep (hs : StoreInv P c s) (addr : String) (nonce : Nat) (h : TxHash)
    (lease now : Nat) : StoreStep P c s (reserveNonce P addr nonce h lease now s).1 := by
  rcases reserveNonce_cases P s addr nonce h lease now with
    ⟨hnone, heq⟩ | ⟨r, hr, hwin, heq⟩ | ⟨r, -, -, heq⟩
  · -- a fresh slot: no row is at its nonce, since a row's slot is bound
    rw [heq]
    refine StoreStep.rebind hs fun h' row hrow hslot => ?_
    have hb := (hs.rowsBound h' row hrow).bound
    rw [boundHash, hslot, hnone] at hb
    cases hb
  · rw [heq]
    refine StoreStep.rebind hs fun h' row hrow hslot => ?_
    have hb := (hs.rowsBound h' row hrow).bound
    rw [boundHash, hslot, hr, Option.map_some, Option.some.injEq] at hb
    simp only [Bool.or_eq_true] at hwin
    rcases hwin with htake | habandon
    · -- the same hash takes its slot over
      simp only [Reservation.takeover, Bool.and_eq_true, beq_iff_eq] at htake
      exact hb.symm.trans htake.1
    · -- an abandoned hash has no row, but `h'` has one
      simp only [Reservation.abandoned, Bool.and_eq_true, Bool.not_eq_true'] at habandon
      have hcontains : s.transactions.contains h' = true := by
        rw [Std.HashMap.contains_eq_isSome_getElem?, hrow]
        rfl
      rw [hb, hcontains] at habandon
      cases habandon.2
  · rw [heq]
    exact StoreStep.refl hs

theorem reserveNonce_nonces (addr : String) (nonce : Nat) (h : TxHash) (lease now : Nat) :
    (reserveNonce P addr nonce h lease now s).1.nonces = s.nonces := by
  rcases reserveNonce_cases P s addr nonce h lease now with
    ⟨-, heq⟩ | ⟨r, -, -, heq⟩ | ⟨r, -, -, heq⟩ <;> rw [heq]

/-- A won reservation binds the slot to the reserving hash. -/
theorem reserveNonce_won_bound {addr : String} {nonce : Nat} {h : TxHash} {lease now fence : Nat}
    (hwon : (reserveNonce P addr nonce h lease now s).2 = .won fence) :
    boundHash (reserveNonce P addr nonce h lease now s).1 (P.toLowercase addr, nonce) = some h := by
  rcases reserveNonce_cases P s addr nonce h lease now with
    ⟨-, heq⟩ | ⟨r, -, -, heq⟩ | ⟨r, -, -, heq⟩ <;> rw [heq] at hwon ⊢
  · simp [boundHash]
  · simp [boundHash]
  · split at hwon <;> cases hwon

/-- `OwnedBySame` changes nothing, and the slot is the hash's own, executing
    under a live lease. -/
theorem reserveNonce_ownedBySame {addr : String} {nonce : Nat} {h : TxHash} {lease now : Nat}
    (hsame : (reserveNonce P addr nonce h lease now s).2 = .ownedBySame) :
    (reserveNonce P addr nonce h lease now s).1 = s ∧
      ∃ r, s.nonceReservations[(P.toLowercase addr, nonce)]? = some r ∧ r.txHash = h ∧
        r.state = .executing ∧ now < r.leaseExpiresAt := by
  rcases reserveNonce_cases P s addr nonce h lease now with
    ⟨-, heq⟩ | ⟨r, -, -, heq⟩ | ⟨r, hr, hlose, heq⟩ <;> rw [heq] at hsame ⊢
  · cases hsame
  · cases hsame
  · split at hsame
    · rename_i hh
      -- no takeover of the hash's own slot: neither released nor expired
      simp only [Reservation.takeover, hh, beq_self_eq_true, Bool.true_and, Bool.or_eq_false_iff,
        decide_eq_false_iff_not, not_le] at hlose
      refine ⟨rfl, r, hr, hh, ?_, hlose.1.2⟩
      obtain ⟨⟨hfail, hsucc⟩, -⟩ := hlose.1
      cases hstate : r.state <;> simp_all
    · cases hsame

theorem nonceAdvanceCas_storeStep (hs : StoreInv P c s) (addr : String) (expected : Nat) :
    StoreStep P c s (nonceAdvanceCas P addr expected s).1 :=
  StoreStep.of_write hs (BoundKept.of_eq rfl) (fun _ hl => .inl hl) (.inl rfl)

/-- The reverted receipt of the envelope's entry, for a hash its slot is
    bound to. -/
theorem commitRevertedReceiptAndAdvanceNonce_storeStep (hs : StoreInv P c s) {h : TxHash}
    (hb : boundHash s (Config.slot P c h) = some h) (reason : String) (blockNum : Nat)
    (addr : String) (expected : Nat) :
    StoreStep P c s
      (commitRevertedReceiptAndAdvanceNonce P h (c.entry h) reason blockNum addr expected s).1 := by
  refine StoreStep.of_write hs (BoundKept.of_eq rfl) (fun _ hl => .inl hl) ?_
  unfold commitRevertedReceiptAndAdvanceNonce
  dsimp only
  split
  · exact .inr ⟨h, _, ⟨rfl, rfl, hb⟩, rfl⟩
  · exact .inl rfl

/-- The reverted receipt is written unless the hash already has a row. -/
theorem commitRevertedReceiptAndAdvanceNonce_row (hs : StoreInv P c s) (h : TxHash)
    (reason : String) (blockNum : Nat) (addr : String) (expected : Nat) :
    ∃ row, (commitRevertedReceiptAndAdvanceNonce P h (c.entry h) reason blockNum addr expected
      s).1.transactions[h]? = some row ∧ row.signer = c.signer ∧ row.envelopeNonce = c.nonceOf h := by
  unfold commitRevertedReceiptAndAdvanceNonce
  dsimp only
  split
  · exact ⟨_, Std.HashMap.getElem?_insert_self, rfl, rfl⟩
  · rename_i hkeep
    -- only an existing row is kept
    have hsome : (s.transactions[h]?).isSome = true := by
      cases hrow : s.transactions[h]? with
      | none => simp [hrow, mayWriteReverted] at hkeep
      | some row => rfl
    obtain ⟨row, hrow⟩ := Option.isSome_iff_exists.mp hsome
    have hb := hs.rowsBound h row hrow
    exact ⟨row, hrow, hb.signer, hb.nonce⟩

/-! ### The nonce rule of each call -/

theorem NonceMoves.refl : NonceMoves P c s s := Or.inl rfl

theorem NonceMoves.of_nonces (hn : s'.nonces = s.nonces) : NonceMoves P c s s' := by
  left
  simp only [nonceGet, hn]

theorem NonceMoves.call {α : Type} {op : InMemoryStore → InMemoryStore × α}
    (hop : NonceMoves P c s (op s).1) (reply : Reply) : NonceMoves P c s (reply.call op s).1 := by
  rcases reply.call_fst op s with h | h
  · rw [h]
    exact NonceMoves.refl
  · rw [h]
    exact hop

/-- The compare-and-set past the nonce of a row of the signer. -/
theorem nonceAdvanceCas_nonceMoves {h : TxHash} {row : TxnReceipt}
    (hrow : s.transactions[h]? = some row) (hsigner : row.signer = c.signer) (expected : Nat)
    (hnonce : row.envelopeNonce = expected) :
    NonceMoves P c s (nonceAdvanceCas P c.signerStr expected s).1 := by
  rcases advanceNonce_getD (P.toLowercase c.signerStr) expected s.nonces with hsame | ⟨hold, hnew⟩
  · exact Or.inl hsame
  · refine Or.inr ⟨?_, h, row, hrow, hsigner, ?_⟩
    · show (advanceNonce _ expected s.nonces).1.getD _ 0 = s.nonces.getD _ 0 + 1
      rw [hnew, hold]
    · show row.envelopeNonce = s.nonces.getD _ 0
      rw [hold, hnonce]

/-- The reverted receipt's compare-and-set, past the nonce of the row it
    writes or keeps. -/
theorem commitRevertedReceiptAndAdvanceNonce_nonceMoves (hs : StoreInv P c s) (h : TxHash)
    (reason : String) (blockNum : Nat) :
    NonceMoves P c s (commitRevertedReceiptAndAdvanceNonce P h (c.entry h) reason blockNum
      c.signerStr (c.nonceOf h) s).1 := by
  obtain ⟨row, hrow, hsigner, hnonce⟩ :=
    commitRevertedReceiptAndAdvanceNonce_row hs h reason blockNum c.signerStr (c.nonceOf h)
  rcases advanceNonce_getD (P.toLowercase c.signerStr) (c.nonceOf h) s.nonces with
    hsame | ⟨hold, hnew⟩
  · exact Or.inl hsame
  · refine Or.inr ⟨?_, h, row, hrow, hsigner, ?_⟩
    · show (advanceNonce _ (c.nonceOf h) s.nonces).1.getD _ 0 = s.nonces.getD _ 0 + 1
      rw [hnew, hold]
    · show row.envelopeNonce = s.nonces.getD _ 0
      rw [hold, hnonce]

end Calls

/-! ## Section 3: The moves of a request -/

section Moves

variable {P c} {a a₁ : Admission} {id : Nat} {h : TxHash}

theorem Phase.locked_of_won {p : Phase} (hw : p.won = true) : p.locked = true := by
  cases p <;> simp_all [Phase.won, Phase.locked, Phase.heartbeat]

theorem RequestInv.of_eq {r : Request} (hold : RequestInv P c a id r)
    (hlock : a₁.lockHolder = a.lockHolder) (hstore : a₁.store = a.store) :
    RequestInv P c a₁ id r := by
  refine ⟨fun hl => hlock.trans (hold.locked hl), fun hw => ?_, fun hk => ?_⟩
  · rw [hstore]
    exact hold.bound hw
  · rw [hstore]
    exact hold.row hk

/-- A store change that keeps the store's part and rebinds no slot keeps
    the invariant, every request where it was. -/
theorem AdmissionInv.of_step (hinv : AdmissionInv P c a) {s' : InMemoryStore}
    (hstore : StoreStep P c a.store s') (hkept : BoundKept a.store s') :
    AdmissionInv P c { a with store := s' } := by
  refine ⟨hstore.inv, fun h' hh => hstore.stay h' (hinv.inflight h' hh), fun id' r hr => ?_⟩
  have hold := hinv.requests id' r hr
  exact ⟨hold.locked, fun hw => (hkept _).trans (hold.bound hw), fun hk => hstore.stay _ (hold.row hk)⟩

theorem AdmissionInv.of_quiet (hinv : AdmissionInv P c a) {s' : InMemoryStore}
    (hq : Quiet P c a.store s') : AdmissionInv P c { a with store := s' } :=
  hinv.of_step hq.step hq.kept

/-- A request that rebinds a slot holds the lock, and so does every request
    with a won fence: no other request's slot moves. -/
theorem AdmissionInv.of_rebind (hinv : AdmissionInv P c a) {p : Phase}
    (hr : a.requests id = some ⟨h, p⟩) (hlocked : p.locked = true) (hwon : p.won = false)
    {s' : InMemoryStore} (hstore : StoreStep P c a.store s') :
    AdmissionInv P c { a with store := s' } := by
  refine ⟨hstore.inv, fun h' hh => hstore.stay h' (hinv.inflight h' hh), fun id' r hr' => ?_⟩
  have hold := hinv.requests id' r hr'
  refine ⟨hold.locked, fun hw => ?_, fun hk => hstore.stay _ (hold.row hk)⟩
  have hid : id' = id := Option.some.inj
    ((hold.locked (Phase.locked_of_won hw)).symm.trans ((hinv.requests id _ hr).locked hlocked))
  subst hid
  rw [hr] at hr'
  cases hr'
  simp [hwon] at hw

/-- Taking a free lock: no request held it. -/
theorem AdmissionInv.take_lock (hinv : AdmissionInv P c a) (hfree : a.lockHolder = none)
    (id : Nat) : AdmissionInv P c { a with lockHolder := some id } := by
  refine ⟨hinv.store, hinv.inflight, fun id' r hr => ?_⟩
  have hold := hinv.requests id' r hr
  refine ⟨fun hl => ?_, hold.bound, hold.row⟩
  have hheld := hold.locked hl
  rw [hfree] at hheld
  cases hheld

/-- The writer takes a hash with a row. -/
theorem AdmissionInv.enqueue (hinv : AdmissionInv P c a) (hrow : a.store.transactions.contains h = true) :
    AdmissionInv P c { a with inflight := a.inflight.insert h } := by
  refine ⟨hinv.store, fun h' hh => ?_, fun id r hr => (hinv.requests id r hr).of_eq rfl rfl⟩
  rcases List.mem_insert_iff.mp hh with rfl | hh
  · exact hrow
  · exact hinv.inflight h' hh

/-- The writer drops hashes. -/
theorem AdmissionInv.drop (hinv : AdmissionInv P c a) {l : List TxHash}
    (hsub : ∀ h ∈ l, h ∈ a.inflight) : AdmissionInv P c { a with inflight := l } :=
  ⟨hinv.store, fun h hh => hinv.inflight h (hsub h hh),
    fun id r hr => (hinv.requests id r hr).of_eq rfl rfl⟩

/-- A request that takes no step. -/
theorem StepSafe.refl (hinv : AdmissionInv P c a) {p : Phase} (hr : a.requests id = some ⟨h, p⟩)
    (hlive : p.returned = false) : StepSafe P c id a a := by
  refine ⟨hinv, fun _ _ => rfl, NonceMoves.refl, fun h' hdone => ?_⟩
  rw [hr, Option.some.injEq, Request.mk.injEq] at hdone
  rw [hdone.2] at hlive
  cases hlive

/-- Request `id` moves on, from `a` through the call's state `a₁`, to `p'`,
    whose facts hold in `a₁`. -/
theorem StepSafe.next (hinv : AdmissionInv P c a₁) (hnonce : NonceMoves P c a.store a₁.store)
    (hreq : a₁.requests = a.requests) {p' : Phase}
    (hlocked : p'.locked = true → a₁.lockHolder = some id)
    (hbound : p'.won = true → boundHash a₁.store (Config.slot P c h) = some h)
    (hrow : p'.rowKnown = true → a₁.store.transactions.contains h = true)
    (hok : p' = .done true → OkCovered P c a₁ h) :
    StepSafe P c id a (a₁.next id h p') := by
  refine ⟨⟨hinv.store, hinv.inflight, fun id' r hr => ?_⟩, fun id' hne => ?_, hnonce, fun h' hr => ?_⟩
  · simp only [Admission.next, Admission.setRequest_requests] at hr
    split at hr
    · rename_i hid
      subst hid
      cases hr
      exact ⟨hlocked, hbound, hrow⟩
    · exact (hinv.requests id' r hr).of_eq rfl rfl
  · simp [Admission.next, hne, hreq]
  · have hself : (a₁.next id h p').requests id = some ⟨h, p'⟩ := by
      simp [Admission.next]
    rw [hself, Option.some.injEq, Request.mk.injEq] at hr
    obtain ⟨rfl, hp⟩ := hr
    exact hok hp

/-- Request `id` drops the lock and moves to a phase with no facts: it
    returns, or waits for the lock again. -/
theorem StepSafe.unlock_next (hinv : AdmissionInv P c a₁)
    (hnonce : NonceMoves P c a.store a₁.store) (hreq : a₁.requests = a.requests) {p' : Phase} (hl : p'.locked = false)
    (hw : p'.won = false) (hk : p'.rowKnown = false) (hok : p' = .done true → OkCovered P c a₁ h) :
    StepSafe P c id a ((a₁.unlock id).next id h p') := by
  refine ⟨⟨hinv.store, hinv.inflight, fun id' r hr => ?_⟩, fun id' hne => ?_, hnonce, fun h' hr => ?_⟩
  · simp only [Admission.next, Admission.setRequest_requests, Admission.unlock_requests] at hr
    split at hr
    · rename_i hid
      subst hid
      cases hr
      refine ⟨fun h' => ?_, fun h' => ?_, fun h' => ?_⟩
      · simp [hl] at h'
      · simp [hw] at h'
      · simp [hk] at h'
    · rename_i hne
      have hold := hinv.requests id' r hr
      refine ⟨fun hlk => ?_, hold.bound, hold.row⟩
      simp [Admission.next, hold.locked hlk, hne]
  · simp [Admission.next, hne, hreq]
  · have hself : ((a₁.unlock id).next id h p').requests id = some ⟨h, p'⟩ := by
      simp [Admission.next]
    rw [hself, Option.some.injEq, Request.mk.injEq] at hr
    obtain ⟨rfl, hp⟩ := hr
    exact hok hp

/-- Request `id` returns. -/
theorem StepSafe.finish (hinv : AdmissionInv P c a₁) (hnonce : NonceMoves P c a.store a₁.store)
    (hreq : a₁.requests = a.requests) {ok : Bool}
    (hok : ok = true → OkCovered P c a₁ h) : StepSafe P c id a (a₁.finish id h ok) :=
  StepSafe.unlock_next hinv hnonce hreq rfl rfl rfl fun hp => hok (Phase.done.inj hp)

/-- After the durable admission: the GER receipt, or the writer's job. -/
theorem StepSafe.admitted (hinv : AdmissionInv P c a₁) (hnonce : NonceMoves P c a.store a₁.store)
    (hreq : a₁.requests = a.requests) (hlocked : a₁.lockHolder = some id)
    (hbound : boundHash a₁.store (Config.slot P c h) = some h)
    (hrow : a₁.store.transactions.contains h = true) (env : Env) (fence : Nat) (ger : Bool) :
    StepSafe P c id a (admitted id h env fence ger a₁) := by
  unfold Service.admitted
  split
  · exact StepSafe.next hinv hnonce hreq (fun _ => hlocked) (fun _ => hbound) (fun _ => hrow) nofun
  · split
    · exact StepSafe.next (hinv.enqueue hrow) hnonce hreq (fun _ => hlocked) (fun _ => hbound)
        (fun _ => hrow) nofun
    · exact StepSafe.next hinv hnonce hreq (fun _ => hlocked) (fun _ => hbound) (fun _ => hrow) nofun

/-- What the dedup read decides: `Ok` for a hash in flight, which has a
    row; the repair of a seen row; or the admission. -/
theorem StepSafe.dedupDecide (hinv : AdmissionInv P c a₁)
    (hnonce : NonceMoves P c a.store a₁.store) (hreq : a₁.requests = a.requests) {knownInflight : Bool} {entry : Option TxnReceipt}
    (hseen : knownInflight = true ∨ entry.isSome = true → a₁.store.transactions.contains h = true)
    (handoff : Option NoteHandoffRecord) :
    StepSafe P c id a (a₁.next id h (dedupDecide knownInflight entry handoff)) := by
  unfold Service.dedupDecide
  dsimp only
  split
  · rename_i hki
    exact StepSafe.next hinv hnonce hreq nofun nofun nofun fun _ => Or.inl (hseen (.inl hki))
  · split
    · rename_i hrepair
      refine StepSafe.next hinv hnonce hreq nofun nofun (fun _ => hseen (.inr ?_)) nofun
      simp only [Bool.and_eq_true] at hrepair
      exact hrepair.1
    · exact StepSafe.next hinv hnonce hreq nofun nofun nofun nofun

end Moves

/-! ## Section 4: Every phase of a request -/

section Phases

variable {P c} {a : Admission} {id : Nat} {h : TxHash}

/-- **Step lemma.** Every step of a live request keeps the invariant and the
    other requests, moves the nonce by the rule, and covers an `Ok` it
    returns. One case per phase: the handler's code from one store call to
    the next. -/
theorem runRequest_safe (hinv : AdmissionInv P c a) {p : Phase} (hr : a.requests id = some ⟨h, p⟩)
    (hlive : p.returned = false) (env : Env) :
    StepSafe P c id a (runRequest P c id h env a p) := by
  have hold := hinv.requests id _ hr
  -- the state after a call that touches no slot and no nonce
  have hquiet : ∀ {α : Type} (op : InMemoryStore → InMemoryStore × α),
      Quiet P c a.store (op a.store).1 →
      AdmissionInv P c { a with store := (env.reply.call op a.store).1 } ∧
        NonceMoves P c a.store (env.reply.call op a.store).1 := fun _ hop =>
    ⟨hinv.of_quiet (Quiet.call hinv.store hop env.reply),
      NonceMoves.of_nonces (Quiet.call hinv.store hop env.reply).nonces⟩
  -- the state after a call that keeps the store's part and rebinds no slot
  have hcall : ∀ {α : Type} (op : InMemoryStore → InMemoryStore × α),
      StoreStep P c a.store (op a.store).1 → BoundKept a.store (op a.store).1 →
      AdmissionInv P c { a with store := (env.reply.call op a.store).1 } := fun _ hstep hkept =>
    hinv.of_step (StoreStep.call hinv.store hstep env.reply) (BoundKept.call hkept env.reply)
  cases p with
  | received =>
    -- a hash in the writer's set has a row
    exact StepSafe.next hinv NonceMoves.refl rfl nofun nofun
      (fun hk => hinv.inflight h (of_decide_eq_true hk)) nofun
  | dedupTxnGet ki =>
    dsimp only [runRequest, Admission.call]
    obtain ⟨hinv', hnonce⟩ := hquiet (txnGet h) (Quiet.refl hinv.store)
    split
    · exact StepSafe.finish hinv' hnonce rfl nofun
    · rename_i entry heq
      obtain ⟨hs, rfl⟩ := Reply.call_snd heq
      refine StepSafe.next hinv' hnonce rfl nofun nofun (fun hk => ?_) nofun
      rw [hs]
      simp only [Phase.rowKnown, Bool.or_eq_true] at hk
      rcases hk with hki | hsome
      · exact hold.row hki
      · rw [Std.HashMap.contains_eq_isSome_getElem?]
        exact hsome
  | dedupHandoff ki entry =>
    dsimp only [runRequest, Admission.call]
    obtain ⟨hinv', hnonce⟩ := hquiet (getNoteHandoffForTx (P.txKey h)) (Quiet.refl hinv.store)
    have hold' := hinv'.requests id _ hr
    have hseen : ki = true ∨ entry.isSome = true →
        (env.reply.call (getNoteHandoffForTx (P.txKey h)) a.store).1.transactions.contains h =
          true := fun hk => hold'.row (by simpa [Phase.rowKnown] using hk)
    split
    · exact StepSafe.finish hinv' hnonce rfl nofun
    · rename_i link heq
      obtain ⟨hs, hlink⟩ := Reply.call_snd heq
      split
      · -- a linked hash has a row
        refine StepSafe.next hinv' hnonce rfl nofun nofun (fun _ => ?_) nofun
        rw [hs]
        apply hinv.store.linksKnown h
        have hget : a.store.txNoteLinks[P.txKey h]? = some link := hlink.symm
        rw [Std.HashMap.contains_eq_isSome_getElem?, hget]
        rfl
      · exact StepSafe.dedupDecide hinv' hnonce rfl hseen _
    · exact StepSafe.dedupDecide hinv' hnonce rfl hseen _
  | clearPrepared ki noteCommitment =>
    dsimp only [runRequest, Admission.call]
    obtain ⟨hinv', hnonce⟩ :=
      hquiet _ (clearExpiredPreparedNoteHandoff_quiet hinv.store (P.txKey h) noteCommitment)
    have hold' := hinv'.requests id _ hr
    split
    · exact StepSafe.finish hinv' hnonce rfl nofun
    · exact StepSafe.next hinv' hnonce rfl nofun nofun (fun _ => hold'.row rfl) nofun
    · exact StepSafe.next hinv' hnonce rfl nofun nofun (fun _ => hold'.row rfl) nofun
  | dedupReread ki =>
    dsimp only [runRequest, Admission.call]
    obtain ⟨hinv', hnonce⟩ := hquiet (txnGet h) (Quiet.refl hinv.store)
    have hold' := hinv'.requests id _ hr
    split
    · exact StepSafe.finish hinv' hnonce rfl nofun
    · rename_i entry heq
      obtain ⟨hs, rfl⟩ := Reply.call_snd heq
      refine StepSafe.dedupDecide hinv' hnonce rfl (fun hk => ?_) none
      rcases hk with hki | hsome
      · exact hold'.row hki
      · rw [hs, Std.HashMap.contains_eq_isSome_getElem?]
        exact hsome
  | repair locked =>
    dsimp only [runRequest, Admission.call]
    -- the repair moves the nonce past the row it found
    obtain ⟨row, hrow, hb⟩ := hinv.store.row_of_contains (hold.row rfl)
    have hinv' := hcall (nonceAdvanceCas P c.signerStr (c.nonceOf h))
      (nonceAdvanceCas_storeStep hinv.store _ _) (BoundKept.of_eq rfl)
    have hnonce := NonceMoves.call (nonceAdvanceCas_nonceMoves (P := P) hrow hb.signer _ hb.nonce) env.reply
    exact StepSafe.finish hinv' hnonce rfl fun _ => Or.inl ((hinv'.requests id _ hr).row rfl)
  | validate durable =>
    dsimp only [runRequest]
    split
    · exact StepSafe.finish hinv NonceMoves.refl rfl nofun
    · split
      · split
        · exact StepSafe.next hinv NonceMoves.refl rfl nofun nofun nofun nofun
        · exact StepSafe.next hinv NonceMoves.refl rfl nofun nofun nofun nofun
      · exact StepSafe.next hinv NonceMoves.refl rfl nofun nofun nofun nofun
  | preflightNonce =>
    dsimp only [runRequest, Admission.call]
    obtain ⟨hinv', hnonce⟩ :=
      hquiet (fun s => (s, nonceGet P c.signerStr s)) (Quiet.refl hinv.store)
    split
    · exact StepSafe.finish hinv' hnonce rfl nofun
    · split
      · exact StepSafe.finish hinv' hnonce rfl nofun
      · exact StepSafe.next hinv' hnonce rfl nofun nofun nofun nofun
  | preflightWait durable =>
    dsimp only [runRequest]
    split
    · exact StepSafe.next hinv NonceMoves.refl rfl nofun nofun nofun nofun
    · exact StepSafe.finish hinv NonceMoves.refl rfl nofun
  | acquire durable =>
    dsimp only [runRequest]
    split
    · -- the lock is held: the request waits
      exact StepSafe.refl hinv hr hlive
    · rename_i hfree
      have hinv' := hinv.take_lock hfree id
      split
      · rename_i hin
        exact StepSafe.finish (a := a) hinv' NonceMoves.refl rfl fun _ => Or.inr (Or.inl hin)
      · split
        · exact StepSafe.next (a := a) hinv' NonceMoves.refl rfl (fun _ => rfl) nofun nofun nofun
        · exact StepSafe.next (a := a) hinv' NonceMoves.refl rfl (fun _ => rfl) nofun nofun nofun
  | lockedTxnGet =>
    dsimp only [runRequest, Admission.call]
    obtain ⟨hinv', hnonce⟩ := hquiet (txnGet h) (Quiet.refl hinv.store)
    split
    · exact StepSafe.finish hinv' hnonce rfl nofun
    · exact StepSafe.next hinv' hnonce rfl (fun _ => hold.locked rfl) nofun nofun nofun
    · rename_i entry heq
      obtain ⟨hs, hentry⟩ := Reply.call_snd heq
      refine StepSafe.next hinv' hnonce rfl (fun _ => hold.locked rfl) nofun (fun _ => ?_) nofun
      rw [hs]
      have hget : a.store.transactions[h]? = some entry := hentry.symm
      show a.store.transactions.contains h = true
      rw [Std.HashMap.contains_eq_isSome_getElem?, hget]
      rfl
  | lockedHandoff entry =>
    dsimp only [runRequest, Admission.call]
    obtain ⟨hinv', hnonce⟩ := hquiet (getNoteHandoffForTx (P.txKey h)) (Quiet.refl hinv.store)
    have hold' := hinv'.requests id _ hr
    split
    · exact StepSafe.finish hinv' hnonce rfl nofun
    · split
      · exact StepSafe.next hinv' hnonce rfl (fun _ => hold'.locked rfl) nofun
          (fun _ => hold'.row rfl) nofun
      · exact StepSafe.next hinv' hnonce rfl (fun _ => hold'.locked rfl) nofun nofun nofun
  | nonceGet durable =>
    dsimp only [runRequest, Admission.call]
    obtain ⟨hinv', hnonce⟩ :=
      hquiet (fun s => (s, nonceGet P c.signerStr s)) (Quiet.refl hinv.store)
    split
    · exact StepSafe.finish hinv' hnonce rfl nofun
    · exact StepSafe.next hinv' hnonce rfl (fun _ => hold.locked rfl) nofun nofun nofun
  | frontier durable expected =>
    dsimp only [runRequest, Admission.call]
    obtain ⟨hinv', hnonce⟩ :=
      hquiet (fun s => (s, lowestUnlinked P c.signer s)) (Quiet.refl hinv.store)
    split
    · exact StepSafe.finish hinv' hnonce rfl nofun
    · split
      · exact StepSafe.finish hinv' hnonce rfl nofun
      · split
        · exact StepSafe.next hinv' hnonce rfl (fun _ => hold.locked rfl) nofun nofun nofun
        · split
          · -- the future-nonce wait drops the lock
            exact StepSafe.unlock_next hinv' hnonce rfl rfl rfl rfl nofun
          · exact StepSafe.finish hinv' hnonce rfl nofun
  | reserve =>
    dsimp only [runRequest, Admission.call]
    have hinv' := hinv.of_rebind hr rfl rfl (StoreStep.call hinv.store
      (reserveNonce_storeStep hinv.store c.signerStr (c.nonceOf h) h c.lease a.now) env.reply)
    have hnonce : NonceMoves P c a.store
        (env.reply.call (reserveNonce P c.signerStr (c.nonceOf h) h c.lease a.now) a.store).1 :=
      NonceMoves.call (NonceMoves.of_nonces (reserveNonce_nonces _ _ _ _ _)) env.reply
    split
    · -- a won fence binds the slot to the hash
      rename_i fence heq
      obtain ⟨hs, hwon⟩ := Reply.call_snd heq
      refine StepSafe.next hinv' hnonce rfl (fun _ => hold.locked rfl) (fun _ => ?_) nofun nofun
      rw [hs]
      exact reserveNonce_won_bound hwon.symm
    · -- `OwnedBySame` returns `Ok` on the hash's live lease
      rename_i heq
      obtain ⟨hs, hsame⟩ := Reply.call_snd heq
      obtain ⟨hs', r, hslot, hhash, hexec, hlease⟩ := reserveNonce_ownedBySame hsame.symm
      refine StepSafe.finish hinv' hnonce rfl fun _ => Or.inr (Or.inr ⟨r, ?_, hhash, hexec, hlease⟩)
      rw [hs, hs']
      exact hslot
    · exact StepSafe.finish hinv' hnonce rfl nofun
    · exact StepSafe.finish hinv' hnonce rfl nofun
  | dispatch fence =>
    dsimp only [runRequest]
    split
    · exact StepSafe.next hinv NonceMoves.refl rfl (fun _ => hold.locked rfl)
        (fun _ => hold.bound rfl) nofun nofun
    · split
      · split
        · exact StepSafe.next hinv NonceMoves.refl rfl (fun _ => hold.locked rfl)
            (fun _ => hold.bound rfl) nofun nofun
        · exact StepSafe.next hinv NonceMoves.refl rfl (fun _ => hold.locked rfl)
            (fun _ => hold.bound rfl) nofun nofun
      · exact StepSafe.next hinv NonceMoves.refl rfl (fun _ => hold.locked rfl)
          (fun _ => hold.bound rfl) nofun nofun
  | revertTip fence =>
    dsimp only [runRequest, Admission.call]
    obtain ⟨hinv', hnonce⟩ := hquiet getLatestBlockNumber (Quiet.refl hinv.store)
    have hold' := hinv'.requests id _ hr
    split
    · exact StepSafe.next hinv' hnonce rfl (fun _ => hold'.locked rfl) (fun _ => hold'.bound rfl)
        nofun nofun
    · exact StepSafe.next hinv' hnonce rfl (fun _ => hold'.locked rfl) (fun _ => hold'.bound rfl)
        nofun nofun
  | revertCommit fence blockNum =>
    dsimp only [runRequest, Admission.call]
    have hinv' := hcall (commitRevertedReceiptAndAdvanceNonce P h (c.entry h) (c.revertReason h)
        blockNum c.signerStr (c.nonceOf h))
      (commitRevertedReceiptAndAdvanceNonce_storeStep hinv.store (hold.bound rfl) _ _ _ _)
      (BoundKept.of_eq rfl)
    have hnonce := NonceMoves.call (commitRevertedReceiptAndAdvanceNonce_nonceMoves hinv.store h
      (c.revertReason h) blockNum) env.reply
    have hold' := hinv'.requests id _ hr
    refine StepSafe.next hinv' hnonce rfl (fun _ => hold'.locked rfl) (fun _ => hold'.bound rfl)
      (fun hk => ?_) nofun
    -- a reply comes from the call, which leaves a row for the hash
    obtain ⟨v, hv⟩ := Option.isSome_iff_exists.mp hk
    rw [(Reply.call_snd hv).1]
    obtain ⟨row, hrow, -⟩ := commitRevertedReceiptAndAdvanceNonce_row hinv.store h (c.revertReason h)
      blockNum c.signerStr (c.nonceOf h)
    rw [Std.HashMap.contains_eq_isSome_getElem?, hrow]
    rfl
  | admitBegin fence ger =>
    dsimp only [runRequest, Admission.call]
    obtain ⟨hinv', hnonce⟩ := hquiet _ (txnBeginIfAbsent_quiet hinv.store (hold.bound rfl))
    have hold' := hinv'.requests id _ hr
    split
    · exact StepSafe.next hinv' hnonce rfl (fun _ => hold'.locked rfl) (fun _ => hold'.bound rfl)
        nofun nofun
    · rename_i begun heq
      refine StepSafe.next hinv' hnonce rfl (fun _ => hold'.locked rfl) (fun _ => hold'.bound rfl)
        (fun _ => ?_) nofun
      rw [(Reply.call_snd heq).1]
      exact txnBeginIfAbsent_contains h (c.entry h) a.store
  | admitCas fence ger =>
    dsimp only [runRequest, Admission.call]
    -- the compare-and-set moves the nonce past the row just written
    obtain ⟨row, hrow, hb⟩ := hinv.store.row_of_contains (hold.row rfl)
    have hinv' := hcall (nonceAdvanceCas P c.signerStr (c.nonceOf h))
      (nonceAdvanceCas_storeStep hinv.store _ _) (BoundKept.of_eq rfl)
    have hnonce := NonceMoves.call (nonceAdvanceCas_nonceMoves (P := P) hrow hb.signer _ hb.nonce) env.reply
    have hold' := hinv'.requests id _ hr
    split
    · exact StepSafe.next hinv' hnonce rfl (fun _ => hold'.locked rfl) (fun _ => hold'.bound rfl)
        nofun nofun
    · exact StepSafe.admitted hinv' hnonce rfl (hold'.locked rfl) (hold'.bound rfl) (hold'.row rfl)
        env fence ger
    · exact StepSafe.next hinv' hnonce rfl (fun _ => hold'.locked rfl) (fun _ => hold'.bound rfl)
        (fun _ => hold'.row rfl) nofun
  | admitCheck fence ger =>
    dsimp only [runRequest, Admission.call]
    obtain ⟨hinv', hnonce⟩ :=
      hquiet (fun s => (s, nonceGet P c.signerStr s)) (Quiet.refl hinv.store)
    have hold' := hinv'.requests id _ hr
    split
    · split
      · exact StepSafe.admitted hinv' hnonce rfl (hold'.locked rfl) (hold'.bound rfl)
          (hold'.row rfl) env fence ger
      · exact StepSafe.next hinv' hnonce rfl (fun _ => hold'.locked rfl) (fun _ => hold'.bound rfl)
          nofun nofun
    · exact StepSafe.next hinv' hnonce rfl (fun _ => hold'.locked rfl) (fun _ => hold'.bound rfl)
        nofun nofun
  | gerTip fence =>
    dsimp only [runRequest, Admission.call]
    obtain ⟨hinv', hnonce⟩ := hquiet getLatestBlockNumber (Quiet.refl hinv.store)
    have hold' := hinv'.requests id _ hr
    split
    · exact StepSafe.next hinv' hnonce rfl (fun _ => hold'.locked rfl) (fun _ => hold'.bound rfl)
        nofun nofun
    · exact StepSafe.next hinv' hnonce rfl (fun _ => hold'.locked rfl) (fun _ => hold'.bound rfl)
        (fun _ => hold'.row rfl) nofun
  | gerBegin fence blockNum =>
    dsimp only [runRequest, Admission.call]
    obtain ⟨hinv', hnonce⟩ := hquiet _ (txnBeginIfAbsent_quiet hinv.store (hold.bound rfl))
    have hold' := hinv'.requests id _ hr
    split
    · exact StepSafe.next hinv' hnonce rfl (fun _ => hold'.locked rfl) (fun _ => hold'.bound rfl)
        nofun nofun
    · exact StepSafe.next hinv' hnonce rfl (fun _ => hold'.locked rfl) (fun _ => hold'.bound rfl)
        (fun _ => hold'.row rfl) nofun
  | gerCommit fence blockNum =>
    dsimp only [runRequest, Admission.call]
    obtain ⟨hinv', hnonce⟩ := hquiet _ (txnCommit_quiet hinv.store c.bridgeAddress h (.ok ()) blockNum
      (c.blockHash blockNum))
    have hold' := hinv'.requests id _ hr
    split
    · exact StepSafe.next hinv' hnonce rfl (fun _ => hold'.locked rfl) (fun _ => hold'.bound rfl)
        (fun _ => hold'.row rfl) nofun
    · exact StepSafe.next hinv' hnonce rfl (fun _ => hold'.locked rfl) (fun _ => hold'.bound rfl)
        nofun nofun
    · exact StepSafe.next hinv' hnonce rfl (fun _ => hold'.locked rfl) (fun _ => hold'.bound rfl)
        nofun nofun
  | release fence ok =>
    dsimp only [runRequest, Admission.call]
    obtain ⟨hinv', hnonce⟩ := hquiet
      (fun s => (releaseReservation P c.signerStr (c.nonceOf h) h fence ok a.now s, ()))
      (releaseReservation_quiet hinv.store _ _ _ _ _ _)
    have hold' := hinv'.requests id _ hr
    -- a success release returns `Ok` for the row it stands on
    exact StepSafe.finish hinv' hnonce rfl fun hok => Or.inl (hold'.row hok)
  | done ok => cases hlive

end Phases

/-! ## Section 5: Every step of the process -/

section Process

variable {P c} {a : Admission}

/-- A step of one request is a step of the process. -/
theorem StepSafe.process {id : Nat} {a' : Admission} (hs : StepSafe P c id a a') :
    ProcessSafe P c a a' := by
  refine ⟨hs.inv, hs.nonce, fun id' h p h' hr hlive hdone => ?_⟩
  by_cases hid : id' = id
  · subst hid
    exact hs.ok h' hdone
  · rw [hs.others id' hid, hr, Option.some.injEq, Request.mk.injEq] at hdone
    rw [hdone.2] at hlive
    cases hlive

/-- A step that moves no request on returns nothing. -/
theorem ProcessSafe.of_requests {a' : Admission} (hinv : AdmissionInv P c a')
    (hnonce : NonceMoves P c a.store a'.store)
    (hreq : ∀ id, a'.requests id = a.requests id ∨ a'.requests id = none) :
    ProcessSafe P c a a' := by
  refine ⟨hinv, hnonce, fun id h p h' hr hlive hdone => ?_⟩
  rcases hreq id with heq | hnone
  · rw [heq, hr, Option.some.injEq, Request.mk.injEq] at hdone
    rw [hdone.2] at hlive
    cases hlive
  · rw [hnone] at hdone
    cases hdone

theorem ProcessSafe.of_quiet (hinv : AdmissionInv P c a) {s' : InMemoryStore}
    (hq : Quiet P c a.store s') : ProcessSafe P c a { a with store := s' } :=
  ProcessSafe.of_requests (hinv.of_quiet hq) (NonceMoves.of_nonces hq.nonces) fun _ => .inl rfl

theorem ProcessSafe.refl (hinv : AdmissionInv P c a) : ProcessSafe P c a a :=
  ProcessSafe.of_requests hinv NonceMoves.refl fun _ => .inl rfl

/-- A cancelled request drops the lock and leaves. -/
theorem AdmissionInv.cancel (hinv : AdmissionInv P c a) (id : Nat) :
    AdmissionInv P c ((a.unlock id).setRequest id none) := by
  refine ⟨hinv.store, hinv.inflight, fun id' r hr => ?_⟩
  simp only [Admission.setRequest_requests, Admission.unlock_requests] at hr
  split at hr
  · cases hr
  · rename_i hne
    have hold := hinv.requests id' r hr
    refine ⟨fun hl => ?_, hold.bound, hold.row⟩
    simp [hold.locked hl, hne]

/-- A returned request takes no step. -/
theorem runRequest_of_returned {id : Nat} {h : TxHash} {env : Env} {p : Phase}
    (hret : p.returned = true) : runRequest P c id h env a p = a := by
  unfold Phase.returned at hret
  split at hret
  · rfl
  · cases hret

/-- **Step lemma.** Every step of the process, whatever acts, keeps the
    invariant, moves the nonce by the rule, and covers every `Ok` returned
    in it. -/
theorem admissionStep_safe (hinv : AdmissionInv P c a) (op : Action) :
    ProcessSafe P c a (admissionStep P c a op).1 := by
  cases op with
  | arrive id h =>
    dsimp only [admissionStep]
    split
    · have hs : StepSafe P c id a (a.next id h .received) :=
        StepSafe.next hinv NonceMoves.refl rfl nofun nofun nofun nofun
      exact hs.process
    · exact ProcessSafe.refl hinv
  | run id env =>
    dsimp only [admissionStep]
    split
    · rename_i r hr
      cases hret : r.phase.returned
      · exact (runRequest_safe hinv hr hret env).process
      · rw [runRequest_of_returned hret]
        exact ProcessSafe.refl hinv
    · exact ProcessSafe.refl hinv
  | renew id reply =>
    -- the heartbeat moves only the lease of a slot
    dsimp only [admissionStep]
    split
    · rename_i r _
      split
      · exact ProcessSafe.of_quiet hinv (Quiet.call hinv.store
          (renewReservation_quiet hinv.store _ _ r.txHash _ _) reply)
      · exact ProcessSafe.refl hinv
    · exact ProcessSafe.refl hinv
  | workerCommit h result blockNum =>
    dsimp only [admissionStep]
    split
    · have hq := txnCommit_quiet hinv.store c.bridgeAddress h result blockNum (c.blockHash blockNum)
      exact ProcessSafe.of_requests ((hinv.of_quiet hq).drop fun _ hx => (List.mem_filter.mp hx).1)
        (NonceMoves.of_nonces hq.nonces) fun _ => .inl rfl
    · exact ProcessSafe.refl hinv
  | workerHandoff h noteCommitment noteId expirationBlock =>
    -- the writer links only what it has in flight
    dsimp only [admissionStep]
    split
    · rename_i hin
      exact ProcessSafe.of_quiet hinv
        (prepareNoteHandoff_quiet hinv.store (hinv.inflight h hin) noteCommitment noteId expirationBlock)
    · exact ProcessSafe.refl hinv
  | workerConfirm h noteCommitment =>
    exact ProcessSafe.of_quiet hinv (confirmNoteHandoff_quiet hinv.store (P.txKey h) noteCommitment)
  | sweep h =>
    exact ProcessSafe.of_requests (hinv.drop fun _ hx => (List.mem_filter.mp hx).1)
      NonceMoves.refl fun _ => .inl rfl
  | reconcile cursor =>
    exact ProcessSafe.of_quiet hinv (Quiet.of_eq hinv.store rfl rfl rfl rfl)
  | tick elapsed =>
    exact ProcessSafe.of_requests
      ⟨hinv.store, hinv.inflight, fun id r hr => (hinv.requests id r hr).of_eq rfl rfl⟩
      NonceMoves.refl fun _ => .inl rfl
  | cancel id =>
    refine ProcessSafe.of_requests (hinv.cancel id) NonceMoves.refl fun id' => ?_
    by_cases hid : id' = id
    · right
      simp [admissionStep, hid]
    · left
      simp [admissionStep, hid]
  | crash =>
    -- only the store survives
    exact ProcessSafe.of_requests ⟨hinv.store, nofun, nofun⟩ NonceMoves.refl fun _ => .inr rfl

end Process

/-! ## Section 6: Every run -/

section Runs

variable {P c} {a₀ : Admission}

theorem storeInv_new : StoreInv P c InMemoryStore.new := by
  refine ⟨fun h row hrow => ?_, fun h hlink => ?_⟩
  · simp [InMemoryStore.new] at hrow
  · simp [InMemoryStore.new] at hlink

/-- A process starts with no request over a store that meets the store's
    part. -/
theorem admissionInv_start {s : InMemoryStore} (hs : StoreInv P c s) :
    AdmissionInv P c (Admission.start s) :=
  ⟨hs, nofun, nofun⟩

/-- **Run lemma.** The invariant holds at every point of a run. -/
theorem admissionInv_along (h₀ : AdmissionInv P c a₀) (ops : List Action) (i : Nat) :
    AdmissionInv P c (Run.final (admissionStep P c) a₀ (ops.take i)) :=
  Run.final_invariant _ (AdmissionInv P c) (fun _ op hinv => (admissionStep_safe hinv op).inv) h₀ _

/-- Step `i` of a run, from the state in front of it. -/
theorem processSafe_along (h₀ : AdmissionInv P c a₀) (ops : List Action) {i : Nat}
    (hi : i < ops.length) :
    ProcessSafe P c (Run.final (admissionStep P c) a₀ (ops.take i))
      (Run.final (admissionStep P c) a₀ (ops.take (i + 1))) := by
  rw [Run.final_take_succ _ _ _ hi]
  exact admissionStep_safe (admissionInv_along h₀ ops i) _

/-- Two rows at one nonce are of one hash: both are bound to its slot. -/
theorem RowsBound.unique {s : InMemoryStore} (hs : RowsBound P c s) {h₁ h₂ : TxHash}
    {row₁ row₂ : TxnReceipt} (h1 : s.transactions[h₁]? = some row₁)
    (h2 : s.transactions[h₂]? = some row₂) (hnonce : row₁.envelopeNonce = row₂.envelopeNonce) :
    h₁ = h₂ := by
  have hb₁ := hs h₁ row₁ h1
  have hb₂ := hs h₂ row₂ h2
  have hslot : Config.slot P c h₁ = Config.slot P c h₂ := by
    unfold Config.slot
    rw [← hb₁.nonce, ← hb₂.nonce, hnonce]
  have hbound := hb₁.bound
  rw [hslot, hb₂.bound] at hbound
  exact (Option.some.inj hbound).symm

theorem Phase.returned_eq_false {p : Phase} (hlive : ∀ ok, p ≠ .done ok) : p.returned = false := by
  unfold Phase.returned
  split
  · rename_i ok
    exact absurd rfl (hlive ok)
  · rfl

end Runs

/-! ## Section 7: One hash per nonce -/

/-- **Admission nonce-slot uniqueness.** For one signer and every run of
    `service_send_raw_txn` requests interleaved with the writer, the
    heartbeat, time, cancellations and crashes, from any state that meets
    the invariant: (a) at every point, two rows of the signer at one nonce
    are of one hash; (b) at every step the stored nonce stays, or moves by
    one past a nonce that has a row of the signer after the step; (c) a
    request that returns `Ok` in a step does so for a hash with a row, in
    the writer's in-flight set, or whose slot is bound to it, executing,
    under a live lease. -/
theorem admission_nonce_slot_uniqueness (a₀ : Admission) (h₀ : AdmissionInv P c a₀)
    (ops : List Action) :
    (∀ (i : Nat) (h₁ h₂ : TxHash) (row₁ row₂ : TxnReceipt),
      (Run.final (admissionStep P c) a₀ (ops.take i)).store.transactions[h₁]? = some row₁ →
      (Run.final (admissionStep P c) a₀ (ops.take i)).store.transactions[h₂]? = some row₂ →
      row₁.signer = row₂.signer → row₁.envelopeNonce = row₂.envelopeNonce → h₁ = h₂) ∧
    (∀ i, i < ops.length →
      let s := (Run.final (admissionStep P c) a₀ (ops.take i)).store
      let s' := (Run.final (admissionStep P c) a₀ (ops.take (i + 1))).store
      nonceGet P c.signerStr s' = nonceGet P c.signerStr s ∨
        nonceGet P c.signerStr s' = nonceGet P c.signerStr s + 1 ∧
          ∃ (h : TxHash) (row : TxnReceipt), s'.transactions[h]? = some row ∧
            row.signer = c.signer ∧ row.envelopeNonce = nonceGet P c.signerStr s) ∧
    (∀ (i id : Nat) (h h' : TxHash) (p : Phase), i < ops.length →
      (Run.final (admissionStep P c) a₀ (ops.take i)).requests id = some ⟨h, p⟩ →
      (∀ ok, p ≠ .done ok) →
      let a := Run.final (admissionStep P c) a₀ (ops.take (i + 1))
      a.requests id = some ⟨h', .done true⟩ →
      a.store.transactions.contains h' = true ∨ h' ∈ a.inflight ∨
        ∃ r, a.store.nonceReservations[(P.toLowercase c.signerStr, c.nonceOf h')]? = some r ∧
          r.txHash = h' ∧ r.state = .executing ∧ a.now < r.leaseExpiresAt) := by
  refine ⟨fun i h₁ h₂ row₁ row₂ h1 h2 _ hnonce =>
      (admissionInv_along h₀ ops i).store.rowsBound.unique h1 h2 hnonce,
    fun i hi => (processSafe_along h₀ ops hi).nonce, fun i id h h' p hi hr hlive hdone => ?_⟩
  exact (processSafe_along h₀ ops hi).ok id h p h' hr (Phase.returned_eq_false hlive) hdone

/-- A signer whose every envelope is a claim at nonce `0`, with a lease of
    ten. -/
def zeroNonceClaims : Config where
  signer := Vector.replicate 20 1
  signerStr := "0x01"
  nonceOf _ := 0
  callOf _ := .claim
  globalIndexOf _ := 0
  lease := 10
  rejectUnverifiedGer := false
  bridgeAddress := "0x"
  blockHash _ := zeroWord

/-- Every call replies and every check passes. -/
def Env.pass : Env := ⟨.ok, true, false, false, true, true⟩

/-- Request `0` of `H` runs up to its dispatch, the process crashes, and
    request `1` rebroadcasts `H` and runs to its return. -/
def rebroadcastAfterCrash (H : TxHash) : List Action :=
  [.arrive 0 H] ++ List.replicate 9 (.run 0 Env.pass) ++ [.crash, .arrive 1 H] ++
    List.replicate 9 (.run 1 Env.pass)

/-- The run: request `0` wins the slot and dispatches, the process crashes,
    and request `1` of the same hash finds the slot executing under its live
    lease and returns `Ok`, with no row written and nothing in flight. -/
theorem rebroadcastAfterCrash_final (H : TxHash) :
    let run := Run.final (admissionStep Primitives.sample zeroNonceClaims)
      (Admission.start InMemoryStore.new)
    (run ((rebroadcastAfterCrash H).take 20)).requests 1 = some ⟨H, .reserve⟩ ∧
      (run (rebroadcastAfterCrash H)).requests 1 = some ⟨H, .done true⟩ ∧
      (run (rebroadcastAfterCrash H)).store.transactions = ∅ ∧
      (run (rebroadcastAfterCrash H)).inflight = [] := by
  intro run
  simp [run, rebroadcastAfterCrash, List.replicate, admissionStep, runRequest, Admission.start,
    Admission.next, Admission.finish, Admission.unlock, Admission.setRequest, Admission.call,
    Reply.call, Env.pass, txnGet, getNoteHandoffForTx, dedupDecide, InMemoryStore.new, nonceGet,
    lowestUnlinked, reserveNonce, zeroNonceClaims, Reservation.takeover, Reservation.abandoned]

/-- From the empty store, the `Ok` of the rebroadcast is covered, by the
    live lease of its slot. -/
theorem rebroadcast_ok_on_live_lease :
    let H : TxHash := Vector.replicate 32 7
    let a := Run.final (admissionStep Primitives.sample zeroNonceClaims)
      (Admission.start InMemoryStore.new) (rebroadcastAfterCrash H)
    AdmissionInv Primitives.sample zeroNonceClaims (Admission.start InMemoryStore.new) ∧
      (a.store.transactions.contains H = true ∨ H ∈ a.inflight ∨
        ∃ r, a.store.nonceReservations[(Primitives.sample.toLowercase zeroNonceClaims.signerStr,
            zeroNonceClaims.nonceOf H)]? = some r ∧
          r.txHash = H ∧ r.state = .executing ∧ a.now < r.leaseExpiresAt) := by
  intro H a
  have h₀ : AdmissionInv Primitives.sample zeroNonceClaims (Admission.start InMemoryStore.new) :=
    admissionInv_start storeInv_new
  obtain ⟨hbefore, hafter, -, -⟩ := rebroadcastAfterCrash_final H
  have hlen : (rebroadcastAfterCrash H).length = 21 := rfl
  have hall : (rebroadcastAfterCrash H).take (20 + 1) = rebroadcastAfterCrash H :=
    List.take_of_length_le (by rw [hlen])
  have hok := (admission_nonce_slot_uniqueness Primitives.sample zeroNonceClaims _ h₀
    (rebroadcastAfterCrash H)).2.2 20 1 H H .reserve (by rw [hlen]; decide) hbefore nofun
  rw [hall] at hok
  -- read the run under its name, so that it is not unfolded step by step
  simp only [a]
  exact ⟨h₀, hok hafter⟩

/-- The rebroadcast returns `Ok` while its hash has no row and is not in
    flight. -/
theorem owned_by_same_ok_without_row :
    let H : TxHash := Vector.replicate 32 7
    let a := Run.final (admissionStep Primitives.sample zeroNonceClaims)
      (Admission.start InMemoryStore.new) (rebroadcastAfterCrash H)
    a.requests 1 = some ⟨H, .done true⟩ ∧ a.store.transactions.contains H = false ∧
      H ∉ a.inflight := by
  intro H a
  obtain ⟨-, hdone, hrows, hinflight⟩ := rebroadcastAfterCrash_final H
  refine ⟨hdone, ?_, ?_⟩
  · simp [a, hrows]
  · simp [a, hinflight]

end Service
