import MidenAgglayer.Store.State

/-! # Nonces and Fenced Nonce-Slot Reservations

    The nonce side of `InMemoryStore` (`src/store/memory.rs`): the stored
    next nonce of each signer, and the fenced admission lease of each
    `(signer, nonce)` slot.

    A slot is created `executing` with fence `1` by its first
    `reserve_nonce`; afterwards a `reserve_nonce` wins it, bumping the fence,
    either as a *takeover* by the bound hash itself (after a release or a
    lease expiry) or as the reclamation of an *abandoned* slot by another
    hash (an expired `executing` lease or a `released_failure`, with no
    durable `transactions` row for the bound hash). `renew_reservation`
    extends the bound hash's lease, and `release_reservation` ends the
    current fence's `executing` lease as a success or a failure.

    Instants are `Nat`s and durations are added to them; `Instant::now()` is
    an argument of each call.
-/

namespace Store

variable (P : Primitives)

/-! ## Stored nonces -/

/-- `nonce_get`: the stored next nonce, `0` for a fresh signer. -/
def nonceGet (addr : String) (s : InMemoryStore) : Nat :=
  s.nonces.getD (P.toLowercase addr) 0

/-- `nonce_increment`: advance the stored nonce, returning the old one. -/
def nonceIncrement (addr : String) (s : InMemoryStore) : InMemoryStore × Nat :=
  let key := P.toLowercase addr
  let prev := s.nonces.getD key 0
  ({ s with nonces := s.nonces.insert key (prev + 1) }, prev)

/-- The nonce compare-and-swap on the map: advance to `expected + 1` iff the
    stored value, `0` if absent, is `expected`; an absent entry is created
    either way (`entry().or_insert(0)`). -/
def advanceNonce (key : String) (expected : Nat) (nonces : Std.HashMap String Nat) :
    Std.HashMap String Nat × Bool :=
  if nonces.getD key 0 = expected then (nonces.insert key (expected + 1), true)
  else (nonces.insertIfNew key 0, false)

/-- `nonce_advance_cas`. -/
def nonceAdvanceCas (addr : String) (expected : Nat) (s : InMemoryStore) : InMemoryStore × Bool :=
  let r := advanceNonce (P.toLowercase addr) expected s.nonces
  ({ s with nonces := r.1 }, r.2)

/-! ## Reservations -/

/-- `NonceReservation`. -/
inductive NonceReservation where
  | won (fence : Nat)
  | ownedBySame
  | heldByOther (txHash : TxHash)
  deriving DecidableEq

/-- The takeover rule of `reserve_nonce`: the bound hash itself, after a
    release or once its lease has expired. -/
def Reservation.takeover (r : Reservation) (txHash : TxHash) (now : Nat) : Bool :=
  r.txHash == txHash &&
    ((r.state == .releasedFailure || r.state == .releasedSuccess) || decide (r.leaseExpiresAt ≤ now))

/-- The abandoned-slot rule of `reserve_nonce` (wedge #5): another hash, on
    an expired `executing` lease or a `released_failure`, whose bound hash
    has no durable row. -/
def Reservation.abandoned (r : Reservation) (txHash : TxHash) (now : Nat)
    (transactions : Std.HashMap TxHash TxnReceipt) : Bool :=
  r.txHash != txHash &&
    ((r.state == .executing && decide (r.leaseExpiresAt ≤ now)) || r.state == .releasedFailure) &&
    !transactions.contains r.txHash

/-- `reserve_nonce`. -/
def reserveNonce (addr : String) (nonce : Nat) (txHash : TxHash) (lease now : Nat)
    (s : InMemoryStore) : InMemoryStore × NonceReservation :=
  let key := (P.toLowercase addr, nonce)
  match s.nonceReservations[key]? with
  | none =>
    ({ s with
         nonceReservations := s.nonceReservations.insert key
           { txHash := txHash, state := .executing, leaseExpiresAt := now + lease, fence := 1 } },
      .won 1)
  | some r =>
    if r.takeover txHash now || r.abandoned txHash now s.transactions then
      ({ s with
           nonceReservations := s.nonceReservations.insert key
             { txHash := txHash, state := .executing, leaseExpiresAt := now + lease,
               fence := r.fence + 1 } },
        .won (r.fence + 1))
    else if r.txHash == txHash then (s, .ownedBySame)
    else (s, .heldByOther r.txHash)

/-- `renew_reservation`: extend the bound hash's lease unless it was
    released as a failure. -/
def renewReservation (addr : String) (nonce : Nat) (txHash : TxHash) (lease now : Nat)
    (s : InMemoryStore) : InMemoryStore × Bool :=
  let key := (P.toLowercase addr, nonce)
  match s.nonceReservations[key]? with
  | some r =>
    if r.txHash == txHash && r.state != .releasedFailure then
      ({ s with
           nonceReservations := s.nonceReservations.insert key
             { r with leaseExpiresAt := now + lease } }, true)
    else (s, false)
  | none => (s, false)

/-- `release_reservation`: only the current fence of the bound hash, while
    `executing`, ends its lease; a failure expires it at once. -/
def releaseReservation (addr : String) (nonce : Nat) (txHash : TxHash) (fence : Nat)
    (success : Bool) (now : Nat) (s : InMemoryStore) : InMemoryStore :=
  let key := (P.toLowercase addr, nonce)
  match s.nonceReservations[key]? with
  | some r =>
    if r.txHash == txHash && r.fence == fence && r.state == .executing then
      { s with
          nonceReservations := s.nonceReservations.insert key
            (if success then { r with state := .releasedSuccess }
             else { r with state := .releasedFailure, leaseExpiresAt := now }) }
    else s
  | none => s

/-! ## What each reservation call can do -/

section Cases

variable (s : InMemoryStore) (addr : String) (nonce : Nat) (txHash : TxHash)

/-- The compare-and-set leaves the stored value, `0` if absent, or moves it
    from `expected` to `expected + 1`. -/
theorem advanceNonce_getD (key : String) (expected : Nat) (nonces : Std.HashMap String Nat) :
    (advanceNonce key expected nonces).1.getD key 0 = nonces.getD key 0 ∨
      nonces.getD key 0 = expected ∧ (advanceNonce key expected nonces).1.getD key 0 = expected + 1 := by
  unfold advanceNonce
  split
  · rename_i heq
    exact .inr ⟨heq, Std.HashMap.getD_insert_self⟩
  · left
    rw [Std.HashMap.getD_insertIfNew]
    split
    · rename_i hnew
      rw [Std.HashMap.getD_eq_fallback hnew.2]
    · rfl

/-- `reserve_nonce` creates the slot with fence `1`, wins it with the next
    fence, or changes nothing and reports the bound hash. -/
theorem reserveNonce_cases (lease now : Nat) :
    (s.nonceReservations[(P.toLowercase addr, nonce)]? = none ∧
      reserveNonce P addr nonce txHash lease now s =
        ({ s with
             nonceReservations := s.nonceReservations.insert (P.toLowercase addr, nonce)
               { txHash := txHash, state := .executing, leaseExpiresAt := now + lease, fence := 1 } },
          .won 1)) ∨
    (∃ r, s.nonceReservations[(P.toLowercase addr, nonce)]? = some r ∧
      (r.takeover txHash now || r.abandoned txHash now s.transactions) = true ∧
      reserveNonce P addr nonce txHash lease now s =
        ({ s with
             nonceReservations := s.nonceReservations.insert (P.toLowercase addr, nonce)
               { txHash := txHash, state := .executing, leaseExpiresAt := now + lease,
                 fence := r.fence + 1 } },
          .won (r.fence + 1))) ∨
    (∃ r, s.nonceReservations[(P.toLowercase addr, nonce)]? = some r ∧
      (r.takeover txHash now || r.abandoned txHash now s.transactions) = false ∧
      reserveNonce P addr nonce txHash lease now s =
        (s, if r.txHash = txHash then .ownedBySame else .heldByOther r.txHash)) := by
  unfold reserveNonce
  dsimp only
  rcases h : s.nonceReservations[(P.toLowercase addr, nonce)]? with _ | r
  · exact .inl ⟨rfl, rfl⟩
  · simp only
    by_cases hwin : (r.takeover txHash now || r.abandoned txHash now s.transactions) = true
    · exact .inr (.inl ⟨r, rfl, hwin, by rw [if_pos hwin]⟩)
    · refine .inr (.inr ⟨r, rfl, by simpa using hwin, ?_⟩)
      rw [if_neg hwin]
      by_cases hsame : r.txHash = txHash
      · simp [hsame]
      · simp [hsame]

/-- `renew_reservation` only moves the bound hash's lease. -/
theorem renewReservation_cases (lease now : Nat) :
    (renewReservation P addr nonce txHash lease now s).1 = s ∨
    ∃ r, s.nonceReservations[(P.toLowercase addr, nonce)]? = some r ∧ r.txHash = txHash ∧
      (renewReservation P addr nonce txHash lease now s).1 =
        { s with
            nonceReservations := s.nonceReservations.insert (P.toLowercase addr, nonce)
              { r with leaseExpiresAt := now + lease } } := by
  unfold renewReservation
  dsimp only
  rcases h : s.nonceReservations[(P.toLowercase addr, nonce)]? with _ | r
  · exact .inl rfl
  · simp only
    split
    · rename_i hcond
      simp only [Bool.and_eq_true, beq_iff_eq] at hcond
      exact .inr ⟨r, rfl, hcond.1, rfl⟩
    · exact .inl rfl

/-- `release_reservation` changes nothing unless it names the bound hash and
    its current fence while `executing`; then it ends that lease. -/
theorem releaseReservation_cases (fence : Nat) (success : Bool) (now : Nat) :
    releaseReservation P addr nonce txHash fence success now s = s ∨
    ∃ r, s.nonceReservations[(P.toLowercase addr, nonce)]? = some r ∧ r.txHash = txHash ∧
      r.fence = fence ∧ r.state = .executing ∧
      releaseReservation P addr nonce txHash fence success now s =
        { s with
            nonceReservations := s.nonceReservations.insert (P.toLowercase addr, nonce)
              (if success then { r with state := .releasedSuccess }
               else { r with state := .releasedFailure, leaseExpiresAt := now }) } := by
  unfold releaseReservation
  dsimp only
  rcases h : s.nonceReservations[(P.toLowercase addr, nonce)]? with _ | r
  · exact .inl rfl
  · simp only
    split
    · rename_i hcond
      simp only [Bool.and_eq_true, beq_iff_eq] at hcond
      exact .inr ⟨r, rfl, hcond.1.1, hcond.1.2, hcond.2, rfl⟩
    · exact .inl rfl

end Cases

end Store
