import MidenAgglayer.Framework.Run
import MidenAgglayer.Store.Nonces

/-! # Fenced Nonce-Slot Admission

    Two replicas that both pass their process-local checks for the same
    `(signer, nonce)` are resolved by the store's slot reservation: exactly
    one admission executes at a time, and a slot whose hash may have crossed
    an external side-effect boundary is never handed to another hash.

    Every reservation call is one atomic step. Any other store call that
    writes the durable `transactions` row the admission rule reads is one
    more kind of step, `writeTransaction`, so the results below hold under
    every interleaving with those writers too. For one slot:

    * the fences returned as `Won` strictly increase (`won_fence_lt`);
    * a hash bound with a durable row, or released as a success, refuses
      every other hash and stays bound;
    * a success release keeps the slot bound to its hash, `released_success`,
      until that same hash wins it again;
    * a stale release, with another hash or an old fence, changes nothing;
    * another hash wins only an abandoned slot.

    The document contract of `Store::reserve_nonce` says that a
    `released_success` slot stays bound to its first hash forever. The code
    breaks it: `released_success_slot_reclaimed` runs the same-hash
    takeover, which opens the slot again, and once that hash's new lease
    expires with no durable row, another hash wins the slot.
-/

namespace Store

variable (P : Primitives)

/-! ## Section 1: Slot operations as one transition system -/

/-- The reservation calls, and any other writer of a durable row. -/
inductive NonceOp where
  | reserveNonce (addr : String) (nonce : Nat) (txHash : TxHash) (lease now : Nat)
  | renewReservation (addr : String) (nonce : Nat) (txHash : TxHash) (lease now : Nat)
  | releaseReservation (addr : String) (nonce : Nat) (txHash : TxHash) (fence : Nat)
      (success : Bool) (now : Nat)
  | writeTransaction (txHash : TxHash) (row : Option TxnReceipt)

/-- The replies of the slot calls. -/
inductive NonceReply where
  | reservation (r : NonceReservation)
  | renewed (b : Bool)
  | done

/-- One call on the store. -/
def nonceStep (s : InMemoryStore) : NonceOp → InMemoryStore × NonceReply
  | .reserveNonce addr nonce txHash lease now =>
    let r := reserveNonce P addr nonce txHash lease now s
    (r.1, .reservation r.2)
  | .renewReservation addr nonce txHash lease now =>
    let r := renewReservation P addr nonce txHash lease now s
    (r.1, .renewed r.2)
  | .releaseReservation addr nonce txHash fence success now =>
    (releaseReservation P addr nonce txHash fence success now s, .done)
  | .writeTransaction txHash row =>
    ({ s with
        transactions := match row with
          | some receipt => s.transactions.insert txHash receipt
          | none => s.transactions.erase txHash },
      .done)

/-- The slot a call addresses. -/
def NonceOp.slot : NonceOp → Option (String × Nat)
  | .reserveNonce addr nonce _ _ _ => some (P.toLowercase addr, nonce)
  | .renewReservation addr nonce _ _ _ => some (P.toLowercase addr, nonce)
  | .releaseReservation addr nonce _ _ _ _ => some (P.toLowercase addr, nonce)
  | .writeTransaction _ _ => none

/-! ## Section 2: One step on one slot -/

section Step

variable {P} {s : InMemoryStore} {k : String × Nat}

/-- An insert at another key leaves the slot alone. -/
theorem getElem?_insert_of_ne {m : Std.HashMap (String × Nat) Reservation} {k' : String × Nat}
    (hne : k' ≠ k) (r : Reservation) : (m.insert k' r)[k]? = m[k]? := by
  rw [Std.HashMap.getElem?_insert, if_neg (by simpa using hne)]

/-- A call on another slot, or no slot, leaves the slot alone. -/
theorem nonceStep_of_slot_ne (op : NonceOp) (hop : op.slot P ≠ some k) :
    (nonceStep P s op).1.nonceReservations[k]? = s.nonceReservations[k]? := by
  cases op with
  | reserveNonce addr nonce txHash lease now =>
    have hne : (P.toLowercase addr, nonce) ≠ k := fun h => hop (by rw [← h]; rfl)
    rcases reserveNonce_cases P s addr nonce txHash lease now with
      ⟨-, hr⟩ | ⟨r, -, -, hr⟩ | ⟨r, -, -, hr⟩
    · simp [nonceStep, hr, getElem?_insert_of_ne hne]
    · simp [nonceStep, hr, getElem?_insert_of_ne hne]
    · simp [nonceStep, hr]
  | renewReservation addr nonce txHash lease now =>
    have hne : (P.toLowercase addr, nonce) ≠ k := fun h => hop (by rw [← h]; rfl)
    rcases renewReservation_cases P s addr nonce txHash lease now with hr | ⟨r, -, -, hr⟩
    · simp [nonceStep, hr]
    · simp [nonceStep, hr, getElem?_insert_of_ne hne]
  | releaseReservation addr nonce txHash fence success now =>
    have hne : (P.toLowercase addr, nonce) ≠ k := fun h => hop (by rw [← h]; rfl)
    rcases releaseReservation_cases P s addr nonce txHash fence success now with
      hr | ⟨r, -, -, -, -, hr⟩
    · simp [nonceStep, hr]
    · simp [nonceStep, hr, getElem?_insert_of_ne hne]
  | writeTransaction txHash row => rfl

/-- **Step lemma.** A slot, once created, is never removed, and its fence
    never decreases. -/
theorem nonceStep_fence_le (op : NonceOp) {r : Reservation}
    (hk : s.nonceReservations[k]? = some r) :
    ∃ r', (nonceStep P s op).1.nonceReservations[k]? = some r' ∧ r.fence ≤ r'.fence := by
  by_cases hop : op.slot P = some k
  · cases op with
    | reserveNonce addr nonce txHash lease now =>
      cases hop
      rcases reserveNonce_cases P s addr nonce txHash lease now with
        ⟨hnone, -⟩ | ⟨r₀, h₀, -, hr⟩ | ⟨r₀, -, -, hr⟩
      · rw [hk] at hnone
        cases hnone
      · rw [hk] at h₀
        cases h₀
        exact ⟨⟨txHash, .executing, now + lease, r.fence + 1⟩, by simp [nonceStep, hr],
          Nat.le_succ _⟩
      · exact ⟨r, by simp [nonceStep, hr, hk], le_rfl⟩
    | renewReservation addr nonce txHash lease now =>
      cases hop
      rcases renewReservation_cases P s addr nonce txHash lease now with hr | ⟨r₀, h₀, -, hr⟩
      · exact ⟨r, by simp [nonceStep, hr, hk], le_rfl⟩
      · rw [hk] at h₀
        cases h₀
        exact ⟨{ r with leaseExpiresAt := now + lease }, by simp [nonceStep, hr], le_rfl⟩
    | releaseReservation addr nonce txHash fence success now =>
      cases hop
      rcases releaseReservation_cases P s addr nonce txHash fence success now with
        hr | ⟨r₀, h₀, -, -, -, hr⟩
      · exact ⟨r, by simp [nonceStep, hr, hk], le_rfl⟩
      · rw [hk] at h₀
        cases h₀
        refine ⟨if success then { r with state := .releasedSuccess }
          else { r with state := .releasedFailure, leaseExpiresAt := now },
          by simp [nonceStep, hr], ?_⟩
        cases success <;> exact le_rfl
    | writeTransaction txHash row => cases hop
  · exact ⟨r, (nonceStep_of_slot_ne op hop).trans hk, le_rfl⟩

/-- A `Won f` leaves the slot at fence `f`, one past the fence it had, or
    `1` for a new slot. -/
theorem nonceStep_won (op : NonceOp) (hop : op.slot P = some k) {f : Nat}
    (hwon : (nonceStep P s op).2 = .reservation (.won f)) :
    ∃ r', (nonceStep P s op).1.nonceReservations[k]? = some r' ∧ r'.fence = f ∧
      (s.nonceReservations[k]? = none → f = 1) ∧
      (∀ r, s.nonceReservations[k]? = some r → f = r.fence + 1) := by
  cases op with
  | reserveNonce addr nonce txHash lease now =>
    cases hop
    rcases reserveNonce_cases P s addr nonce txHash lease now with
      ⟨hnone, hr⟩ | ⟨r₀, h₀, -, hr⟩ | ⟨r₀, -, -, hr⟩
    · simp only [nonceStep, hr, NonceReply.reservation.injEq, NonceReservation.won.injEq] at hwon
      subst hwon
      refine ⟨⟨txHash, .executing, now + lease, 1⟩, by simp [nonceStep, hr], rfl, fun _ => rfl, ?_⟩
      intro r h
      rw [hnone] at h
      cases h
    · simp only [nonceStep, hr, NonceReply.reservation.injEq, NonceReservation.won.injEq] at hwon
      subst hwon
      refine ⟨⟨txHash, .executing, now + lease, r₀.fence + 1⟩, by simp [nonceStep, hr], rfl,
        fun h => ?_, ?_⟩
      · rw [h₀] at h
        cases h
      · intro r h
        rw [h₀] at h
        cases h
        rfl
    · simp only [nonceStep, hr] at hwon
      split at hwon <;> cases hwon
  | renewReservation => cases hwon
  | releaseReservation => cases hwon
  | writeTransaction => cases hwon

/-- A slot bound to `H` with a durable row for `H`, or released as a success,
    refuses every other hash and stays as it is. -/
theorem reserveNonce_heldByOther {addr : String} {nonce : Nat} {G : TxHash} (lease now : Nat)
    {r : Reservation} (hk : s.nonceReservations[(P.toLowercase addr, nonce)]? = some r)
    (hG : r.txHash ≠ G) (hbound : s.transactions.contains r.txHash = true ∨ r.state = .releasedSuccess) :
    reserveNonce P addr nonce G lease now s = (s, .heldByOther r.txHash) := by
  have htake : r.takeover G now = false := by
    simp [Reservation.takeover, hG]
  have haband : r.abandoned G now s.transactions = false := by
    rcases hbound with hrow | hsucc
    · simp [Reservation.abandoned, hrow]
    · simp [Reservation.abandoned, hsucc]
  rcases reserveNonce_cases P s addr nonce G lease now with
    ⟨hnone, -⟩ | ⟨r₀, h₀, hwin, -⟩ | ⟨r₀, h₀, -, hr⟩
  · rw [hk] at hnone
    cases hnone
  · rw [hk] at h₀
    cases h₀
    rw [htake, haband] at hwin
    cases hwin
  · rw [hk] at h₀
    cases h₀
    rw [hr, if_neg hG]

/-- Another hash wins a slot only if it was abandoned: an expired
    `executing` lease or a `released_failure`, with no durable row for the
    bound hash. -/
theorem reserveNonce_won_other {addr : String} {nonce : Nat} {G : TxHash} {lease now f : Nat}
    {r : Reservation} (hk : s.nonceReservations[(P.toLowercase addr, nonce)]? = some r)
    (hG : r.txHash ≠ G) (hwon : (reserveNonce P addr nonce G lease now s).2 = .won f) :
    ((r.state = .executing ∧ r.leaseExpiresAt ≤ now) ∨ r.state = .releasedFailure) ∧
      s.transactions.contains r.txHash = false := by
  rcases reserveNonce_cases P s addr nonce G lease now with
    ⟨hnone, -⟩ | ⟨r₀, h₀, hwin, -⟩ | ⟨r₀, h₀, -, hr⟩
  · rw [hk] at hnone
    cases hnone
  · rw [hk] at h₀
    cases h₀
    -- the takeover rule needs the bound hash itself, so the win is the
    -- abandoned-slot rule
    have htake : r.takeover G now = false := by
      simp [Reservation.takeover, hG]
    rw [htake, Bool.false_or] at hwin
    simp only [Reservation.abandoned, Bool.and_eq_true, Bool.or_eq_true, beq_iff_eq,
      decide_eq_true_eq, Bool.not_eq_true'] at hwin
    exact ⟨hwin.1.2, hwin.2⟩
  · rw [hk] at h₀
    cases h₀
    rw [hr] at hwon
    by_cases hsame : r.txHash = G
    · exact absurd hsame hG
    · simp [hsame] at hwon

/-- A release naming another hash or an old fence changes nothing. -/
theorem releaseReservation_stale {addr : String} {nonce : Nat} {h : TxHash} {fence : Nat}
    (success : Bool) (now : Nat) {r : Reservation}
    (hk : s.nonceReservations[(P.toLowercase addr, nonce)]? = some r)
    (hstale : h ≠ r.txHash ∨ fence ≠ r.fence) :
    releaseReservation P addr nonce h fence success now s = s := by
  rcases releaseReservation_cases P s addr nonce h fence success now with
    hr | ⟨r₀, h₀, hh, hf, -, -⟩
  · exact hr
  · rw [hk] at h₀
    cases h₀
    rcases hstale with hne | hne
    · exact absurd hh.symm hne
    · exact absurd hf.symm hne

/-- **Step lemma.** A slot bound to `H` and released as a success stays so
    under every call but a reservation of that slot by `H` itself. -/
theorem nonceStep_releasedSuccess (op : NonceOp) {H : TxHash} {r : Reservation}
    (hk : s.nonceReservations[k]? = some r) (hH : r.txHash = H) (hsucc : r.state = .releasedSuccess)
    (hop : ∀ addr nonce lease now, (P.toLowercase addr, nonce) = k →
      op ≠ .reserveNonce addr nonce H lease now) :
    ∃ r', (nonceStep P s op).1.nonceReservations[k]? = some r' ∧ r'.txHash = H ∧
      r'.state = .releasedSuccess := by
  by_cases hslot : op.slot P = some k
  · cases op with
    | reserveNonce addr nonce G lease now =>
      cases hslot
      have hG : r.txHash ≠ G := by
        rintro rfl
        exact hop addr nonce lease now rfl (by rw [hH])
      refine ⟨r, ?_, hH, hsucc⟩
      simp [nonceStep, reserveNonce_heldByOther lease now hk hG (.inr hsucc), hk]
    | renewReservation addr nonce txHash lease now =>
      cases hslot
      rcases renewReservation_cases P s addr nonce txHash lease now with hr | ⟨r₀, h₀, -, hr⟩
      · exact ⟨r, by simp [nonceStep, hr, hk], hH, hsucc⟩
      · rw [hk] at h₀
        cases h₀
        exact ⟨{ r with leaseExpiresAt := now + lease }, by simp [nonceStep, hr], hH, hsucc⟩
    | releaseReservation addr nonce txHash fence success now =>
      cases hslot
      rcases releaseReservation_cases P s addr nonce txHash fence success now with
        hr | ⟨r₀, h₀, -, -, hexec, -⟩
      · exact ⟨r, by simp [nonceStep, hr, hk], hH, hsucc⟩
      · rw [hk] at h₀
        cases h₀
        rw [hsucc] at hexec
        cases hexec
    | writeTransaction => cases hslot
  · exact ⟨r, (nonceStep_of_slot_ne op hslot).trans hk, hH, hsucc⟩

/-- A success release of the current fence binds the slot to its hash as
    `released_success`. -/
theorem nonceStep_release_success (now : Nat) {addr : String} {nonce : Nat} {H : TxHash}
    {fence : Nat} {r : Reservation} (hk : s.nonceReservations[(P.toLowercase addr, nonce)]? = some r)
    (hH : r.txHash = H) (hf : r.fence = fence) (hexec : r.state = .executing) :
    (nonceStep P s (.releaseReservation addr nonce H fence true now)).1.nonceReservations[
        (P.toLowercase addr, nonce)]? = some { r with state := .releasedSuccess } := by
  have hr : releaseReservation P addr nonce H fence true now s =
      { s with
        nonceReservations := s.nonceReservations.insert (P.toLowercase addr, nonce)
          { r with state := .releasedSuccess } } := by
    unfold releaseReservation
    dsimp only
    rw [hk]
    simp [hH, hf, hexec]
  simp [nonceStep, hr]

end Step

/-! ## Section 3: Every run on one slot -/

section Runs

variable {P} (s₀ : InMemoryStore) (ops : List NonceOp) (k : String × Nat)

/-- The state one step past position `i` of the run. -/
theorem final_take_succ_of_getElem? {i : Nat} {op : NonceOp} (hi : ops[i]? = some op) :
    Run.final (nonceStep P) s₀ (ops.take (i + 1)) =
      (nonceStep P (Run.final (nonceStep P) s₀ (ops.take i)) op).1 := by
  obtain ⟨hlt, rfl⟩ := List.getElem?_eq_some_iff.mp hi
  exact Run.final_take_succ _ _ _ hlt

/-- The reply at position `i` of the run. -/
theorem outputs_of_getElem? {i : Nat} {op : NonceOp} (hi : ops[i]? = some op) :
    (Run.outputs (nonceStep P) s₀ ops)[i]? =
      some (nonceStep P (Run.final (nonceStep P) s₀ (ops.take i)) op).2 := by
  obtain ⟨hlt, rfl⟩ := List.getElem?_eq_some_iff.mp hi
  exact Run.getElem?_outputs _ _ _ hlt

/-- A property of the slot that every step keeps holds from position `i`
    on: the run lemma behind the two below. -/
theorem slot_along (Q : Reservation → Prop)
    (hstep : ∀ (s : InMemoryStore) (op : NonceOp) (r : Reservation), s.nonceReservations[k]? = some r →
      Q r → ∃ r', (nonceStep P s op).1.nonceReservations[k]? = some r' ∧ Q r')
    {i : Nat} {r : Reservation}
    (hk : (Run.final (nonceStep P) s₀ (ops.take i)).nonceReservations[k]? = some r) (hq : Q r) :
    ∀ j, i ≤ j → ∃ r', (Run.final (nonceStep P) s₀ (ops.take j)).nonceReservations[k]? = some r' ∧
      Q r' := by
  intro j hij
  induction j, hij using Nat.le_induction with
  | base => exact ⟨r, hk, hq⟩
  | succ n _ ih =>
    obtain ⟨r', hn, hq'⟩ := ih
    by_cases hlt : n < ops.length
    · rw [Run.final_take_succ _ _ _ hlt]
      exact hstep _ _ r' hn hq'
    · -- past the end of the run the state no longer changes
      rw [List.take_of_length_le (by omega)] at hn ⊢
      exact ⟨r', hn, hq'⟩

/-- **Run lemma.** The fences returned as `Won` for a slot strictly
    increase along the run. -/
theorem won_fence_lt {i j : Nat} {op op' : NonceOp} {f₁ f₂ : Nat} (hij : i < j)
    (hi : ops[i]? = some op) (hop : op.slot P = some k)
    (hout : (Run.outputs (nonceStep P) s₀ ops)[i]? = some (.reservation (.won f₁)))
    (hj : ops[j]? = some op') (hop' : op'.slot P = some k)
    (hout' : (Run.outputs (nonceStep P) s₀ ops)[j]? = some (.reservation (.won f₂))) :
    f₁ < f₂ := by
  rw [outputs_of_getElem? s₀ ops hi, Option.some.injEq] at hout
  rw [outputs_of_getElem? s₀ ops hj, Option.some.injEq] at hout'
  -- after the first win the slot holds fence `f₁` ...
  obtain ⟨r₁, h₁, hf₁, -, -⟩ := nonceStep_won op hop hout
  rw [← final_take_succ_of_getElem? s₀ ops hi] at h₁
  -- ... and in front of the second it holds a fence at least `f₁`
  obtain ⟨r₂, h₂, hle⟩ := slot_along s₀ ops k (fun r' => f₁ ≤ r'.fence)
    (fun s op r hr hq => by
      obtain ⟨r', h', hle'⟩ := nonceStep_fence_le op hr
      exact ⟨r', h', le_trans hq hle'⟩)
    h₁ (le_of_eq hf₁.symm) j (by omega)
  obtain ⟨-, -, -, -, hnext⟩ := nonceStep_won op' hop' hout'
  have := hnext r₂ h₂
  omega

/-- **Run lemma.** A slot bound to `H` and released as a success stays so
    until a reservation of the slot by `H` itself. -/
theorem releasedSuccess_along {i : Nat} {H : TxHash} {r : Reservation}
    (hk : (Run.final (nonceStep P) s₀ (ops.take i)).nonceReservations[k]? = some r)
    (hH : r.txHash = H) (hsucc : r.state = .releasedSuccess) (j : Nat) (hij : i ≤ j)
    (hnone : ∀ m, i ≤ m → m < j → ∀ addr nonce lease now, (P.toLowercase addr, nonce) = k →
      ops[m]? ≠ some (.reserveNonce addr nonce H lease now)) :
    ∃ r', (Run.final (nonceStep P) s₀ (ops.take j)).nonceReservations[k]? = some r' ∧
      r'.txHash = H ∧ r'.state = .releasedSuccess := by
  induction j, hij using Nat.le_induction with
  | base => exact ⟨r, hk, hH, hsucc⟩
  | succ n hin ih =>
    obtain ⟨r', hn, hH', hsucc'⟩ := ih fun m him hmn => hnone m him (by omega)
    rcases hop : ops[n]? with _ | op
    · rw [List.getElem?_eq_none_iff] at hop
      rw [List.take_of_length_le (by omega)] at hn ⊢
      exact ⟨r', hn, hH', hsucc'⟩
    · rw [final_take_succ_of_getElem? s₀ ops hop]
      refine nonceStep_releasedSuccess op hn hH' hsucc' ?_
      rintro addr nonce lease now hkey rfl
      exact hnone n hin (by omega) addr nonce lease now hkey hop

end Runs

/-! ## Section 4: Fenced admission -/

/-- **Fenced nonce-slot admission.** For every slot `k` and every run of
    reservation calls and row writes from any store: the fences returned as
    `Won` strictly increase; from any state, while the slot is bound to `H`
    and `H` has a durable row or the slot is `released_success`, a
    reservation by another hash is refused with `HeldByOther(H)` and changes
    nothing; along the run, a success release of the current fence keeps
    the slot bound to `H`, `released_success`, until `H` itself reserves it
    again; a release naming another hash or fence changes nothing; and
    another hash wins only an abandoned slot. -/
theorem nonce_slot_admission (s₀ : InMemoryStore) (ops : List NonceOp) (k : String × Nat) :
    (∀ (i j : Nat) (op op' : NonceOp) (f₁ f₂ : Nat), i < j → ops[i]? = some op →
      op.slot P = some k → (Run.outputs (nonceStep P) s₀ ops)[i]? = some (.reservation (.won f₁)) →
      ops[j]? = some op' → op'.slot P = some k →
      (Run.outputs (nonceStep P) s₀ ops)[j]? = some (.reservation (.won f₂)) → f₁ < f₂) ∧
    (∀ (s : InMemoryStore) (r : Reservation) (addr : String) (nonce : Nat) (G : TxHash)
      (lease now : Nat), (P.toLowercase addr, nonce) = k → s.nonceReservations[k]? = some r →
      r.txHash ≠ G → (s.transactions.contains r.txHash = true ∨ r.state = .releasedSuccess) →
      reserveNonce P addr nonce G lease now s = (s, .heldByOther r.txHash)) ∧
    (∀ (i j : Nat) (addr : String) (nonce : Nat) (H : TxHash) (fence now : Nat) (r : Reservation),
      i < j → (P.toLowercase addr, nonce) = k →
      ops[i]? = some (.releaseReservation addr nonce H fence true now) →
      (Run.final (nonceStep P) s₀ (ops.take i)).nonceReservations[k]? = some r →
      r.txHash = H → r.fence = fence → r.state = .executing →
      (∀ m, i < m → m < j → ∀ addr' nonce' lease' now', (P.toLowercase addr', nonce') = k →
        ops[m]? ≠ some (.reserveNonce addr' nonce' H lease' now')) →
      ∃ r', (Run.final (nonceStep P) s₀ (ops.take j)).nonceReservations[k]? = some r' ∧
        r'.txHash = H ∧ r'.state = .releasedSuccess) ∧
    (∀ (s : InMemoryStore) (r : Reservation) (addr : String) (nonce : Nat) (h : TxHash)
      (fence : Nat) (success : Bool) (now : Nat), (P.toLowercase addr, nonce) = k →
      s.nonceReservations[k]? = some r → (h ≠ r.txHash ∨ fence ≠ r.fence) →
      releaseReservation P addr nonce h fence success now s = s) ∧
    (∀ (s : InMemoryStore) (r : Reservation) (addr : String) (nonce : Nat) (G : TxHash)
      (lease now f : Nat), (P.toLowercase addr, nonce) = k → s.nonceReservations[k]? = some r →
      r.txHash ≠ G → (reserveNonce P addr nonce G lease now s).2 = .won f →
      ((r.state = .executing ∧ r.leaseExpiresAt ≤ now) ∨ r.state = .releasedFailure) ∧
        s.transactions.contains r.txHash = false) := by
  refine ⟨fun i j op op' f₁ f₂ hij hi hop hout hj hop' hout' =>
      won_fence_lt s₀ ops k hij hi hop hout hj hop' hout', ?_, ?_, ?_, ?_⟩
  · rintro s r addr nonce G lease now rfl hk hG hbound
    exact reserveNonce_heldByOther lease now hk hG hbound
  · rintro i j addr nonce H fence now r hij rfl hi hk hH hf hexec hnone
    -- the release binds the slot as `released_success` one step later
    have hrel := nonceStep_release_success now hk hH hf hexec
    rw [← final_take_succ_of_getElem? s₀ ops hi] at hrel
    exact releasedSuccess_along s₀ ops _ hrel hH rfl j hij hnone
  · rintro s r addr nonce h fence success now rfl hk hstale
    exact releaseReservation_stale success now hk hstale
  · rintro s r addr nonce G lease now f rfl hk hG hwon
    exact reserveNonce_won_other hk hG hwon

/-! ## Section 5: A released success is not bound forever -/

/-- Hash `H` wins the slot and releases it as a success; `H` retries and
    wins it back (the same-hash takeover of a `released_success` slot); its
    new lease expires with no durable row for `H`, and another hash `G`
    wins the slot. -/
theorem released_success_slot_reclaimed :
    let H : TxHash := Vector.replicate 32 1
    let G : TxHash := Vector.replicate 32 2
    let ops : List NonceOp := [.reserveNonce "0xa" 0 H 10 0, .releaseReservation "0xa" 0 H 1 true 1,
      .reserveNonce "0xa" 0 H 10 2, .reserveNonce "0xa" 0 G 10 20]
    H ≠ G ∧
      (Run.final (nonceStep Primitives.sample) InMemoryStore.new (ops.take 2)).nonceReservations[
        (Primitives.sample.toLowercase "0xa", 0)]? = some ⟨H, .releasedSuccess, 10, 1⟩ ∧
      Run.outputs (nonceStep Primitives.sample) InMemoryStore.new ops =
        [.reservation (.won 1), .done, .reservation (.won 2), .reservation (.won 3)] := by
  intro H G ops
  have hHG : H ≠ G := by decide
  refine ⟨hHG, ?_, ?_⟩
  · simp [ops, nonceStep, reserveNonce, releaseReservation, InMemoryStore.new]
  · simp [ops, nonceStep, reserveNonce, releaseReservation, InMemoryStore.new, Reservation.takeover,
      Reservation.abandoned, hHG]

end Store
