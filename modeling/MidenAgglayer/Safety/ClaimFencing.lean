import MidenAgglayer.Framework.Run
import MidenAgglayer.Store.Claims

/-! # Claim Submission Fencing

    Every store call of the claim-submission path is one atomic step on the
    store, so any interleaving of `acquire_claim_lock`s, guard drops,
    publishers, the projector's landings and expiration recovery, by any
    number of owners, is a list of `ClaimOp`s run by `claimStep`.

    Over every such run, from any store state, for every global index:

    * at most one owner holds a `prepared` or `submitted` record;
    * once the index has landed it stays landed and no prepare succeeds;
    * `unclaimFenced` and `prepareClaimSubmissionFenced` with a stale
      `(owner, fence)` change nothing;
    * a second successful prepare follows a `clearExpiredPreparedNoteHandoff`
      that removed the first prepared record after the reconcile cursor
      passed its note's expiration block.

    The engine is one step lemma, `claimStep_handedOff`: a record past
    `executing` only moves along `HandoffSucc`, or is removed by exactly that
    clearing.
-/

open Bytes

namespace Store

variable (P : Primitives)

/-! ## Section 1: The claim-submission operations as one transition system -/

/-- The store calls of the claim-submission path, with their arguments. -/
inductive ClaimOp where
  | tryClaimFenced (gi : U256) (owner : TxHash) (lease now : Nat)
  | tryReclaimClaimFenced (gi : U256) (owner : TxHash) (lease now : Nat)
  | prepareClaimSubmissionFenced (gi : U256) (owner : TxHash) (fence : Nat) (txHash : TxHash)
      (noteCommitment noteId : String) (expirationBlock now : Nat)
  | unclaimFenced (gi : U256) (owner : TxHash) (fence : Nat)
  | confirmNoteHandoff (txHash noteCommitment : String)
  | commitManualClaimEventAtomic (noteId bridgeAddress : String) (blockNumber : Nat)
      (blockHash : B256) (txHash : String) (globalIndex : B256) (originNetwork : Nat)
      (originAddress destinationAddress : Address) (amount now : Nat)
  | clearExpiredPreparedNoteHandoff (txHash noteCommitment : String)
  | setReconcileCursor (block : Nat)

/-- The replies of the claim-submission calls. -/
inductive ClaimReply where
  | fence (f : Option Nat)
  | flag (b : Bool)
  | failed (e : StoreError)
  | done

/-- A fallible boolean reply. -/
def ClaimReply.ofExcept : Except StoreError Bool → ClaimReply
  | .ok b => .flag b
  | .error e => .failed e

/-- One claim-submission call on the store. -/
def claimStep (s : InMemoryStore) : ClaimOp → InMemoryStore × ClaimReply
  | .tryClaimFenced gi owner lease now =>
    let r := tryClaimFenced gi owner lease now s
    (r.1, .fence r.2)
  | .tryReclaimClaimFenced gi owner lease now =>
    let r := tryReclaimClaimFenced gi owner lease now s
    (r.1, .fence r.2)
  | .prepareClaimSubmissionFenced gi owner fence txHash noteCommitment noteId expirationBlock now =>
    let r := prepareClaimSubmissionFenced P gi owner fence txHash noteCommitment noteId
      expirationBlock now s
    (r.1, .ofExcept r.2)
  | .unclaimFenced gi owner fence =>
    let r := unclaimFenced gi owner fence s
    (r.1, .flag r.2)
  | .confirmNoteHandoff txHash noteCommitment =>
    let r := confirmNoteHandoff P txHash noteCommitment s
    (r.1, .flag r.2)
  | .commitManualClaimEventAtomic noteId bridgeAddress blockNumber blockHash txHash globalIndex
      originNetwork originAddress destinationAddress amount now =>
    (commitManualClaimEventAtomic P noteId bridgeAddress blockNumber blockHash txHash globalIndex
      originNetwork originAddress destinationAddress amount now s, .done)
  | .clearExpiredPreparedNoteHandoff txHash noteCommitment =>
    let r := clearExpiredPreparedNoteHandoff P txHash noteCommitment s
    (r.1, .flag r.2)
  | .setReconcileCursor block => ({ s with reconcileCursor := block }, .done)

/-- `acquire_claim_lock` is a run of claim-submission calls: its effect on
    the store is that of a list of `ClaimOp`s (the landed-event reads change
    nothing). -/
theorem acquireClaimLock_run (gi : U256) (owner : TxHash) (ttl now₁ now₂ : Nat)
    (s : InMemoryStore) :
    ∃ ops, (acquireClaimLock P gi owner ttl now₁ now₂ s).1 = Run.final (claimStep P) s ops := by
  unfold acquireClaimLock
  rcases h₁ : tryClaimFenced gi owner ttl now₁ s with ⟨s₁, _ | fence₁⟩
  · -- the index was already locked: an event read, then possibly a reclaim
    by_cases hev₁ : hasClaimEventForGlobalIndex P (U256.toBeBytes gi) s₁
    · exact ⟨[.tryClaimFenced gi owner ttl now₁], by simp [claimStep, h₁, hev₁]⟩
    · rcases h₂ : tryReclaimClaimFenced gi owner ttl now₂ s₁ with ⟨s₂, _ | fence₂⟩
      · refine ⟨[.tryClaimFenced gi owner ttl now₁, .tryReclaimClaimFenced gi owner ttl now₂], ?_⟩
        by_cases hev₂ : hasClaimEventForGlobalIndex P (U256.toBeBytes gi) s₂ <;>
          simp [claimStep, h₁, h₂, hev₁, hev₂]
      · by_cases hev₂ : hasClaimEventForGlobalIndex P (U256.toBeBytes gi) s₂
        · refine ⟨[.tryClaimFenced gi owner ttl now₁, .tryReclaimClaimFenced gi owner ttl now₂,
            .unclaimFenced gi owner fence₂], ?_⟩
          simp [claimStep, h₁, h₂, hev₁, hev₂]
        · refine ⟨[.tryClaimFenced gi owner ttl now₁, .tryReclaimClaimFenced gi owner ttl now₂], ?_⟩
          simp [claimStep, h₁, h₂, hev₁, hev₂]
  · by_cases hev₁ : hasClaimEventForGlobalIndex P (U256.toBeBytes gi) s₁
    · exact ⟨[.tryClaimFenced gi owner ttl now₁, .unclaimFenced gi owner fence₁],
        by simp [claimStep, h₁, hev₁]⟩
    · exact ⟨[.tryClaimFenced gi owner ttl now₁], by simp [claimStep, h₁, hev₁]⟩

/-! ## Section 2: What one step does to a record past `executing` -/

/-- The moves a step can make on a claim record past `executing`: none, the
    confirmation of a `prepared` record, or a landing. -/
def HandoffSucc (r r' : ClaimRecord) : Prop :=
  r' = r ∨ (r.state = .prepared ∧ r'.state = .submitted) ∨ r'.state = .landed

/-- The only removal of a record past `executing`: the clearing of its
    owner's `prepared` link after the reconcile cursor passed the link's
    expiration block. -/
def ClearedBy (s : InMemoryStore) (op : ClaimOp) (r : ClaimRecord) : Prop :=
  ∃ txHash noteCommitment link e,
    op = .clearExpiredPreparedNoteHandoff txHash noteCommitment ∧
    s.txNoteLinks[txHash]? = some link ∧ link.state = .prepared ∧
    link.expirationBlock = some e ∧ e < s.reconcileCursor ∧
    P.parseTxHash txHash = r.ownerTxHash ∧ r.state = .prepared

theorem HandoffSucc.state_ne_executing {r r' : ClaimRecord} (h : HandoffSucc r r')
    (hr : r.state ≠ .executing) : r'.state ≠ .executing := by
  rcases h with rfl | ⟨-, h'⟩ | h' <;> simp_all

theorem HandoffSucc.landed {r r' : ClaimRecord} (h : HandoffSucc r r') (hr : r.state = .landed) :
    r'.state = .landed := by
  rcases h with rfl | ⟨h', -⟩ | h'
  · exact hr
  · rw [hr] at h'; cases h'
  · exact h'

/-- A record that is `prepared` after a move was the same record before it. -/
theorem HandoffSucc.eq_of_prepared {r r' : ClaimRecord} (h : HandoffSucc r r')
    (hr' : r'.state = .prepared) : r' = r := by
  rcases h with rfl | ⟨-, h'⟩ | h'
  · rfl
  · rw [hr'] at h'; cases h'
  · rw [hr'] at h'; cases h'

/-- **The step lemma.** From any state, any claim-submission call either
    moves a record past `executing` along `HandoffSucc`, or is the clearing
    that removes it. -/
theorem claimStep_handedOff (s : InMemoryStore) (op : ClaimOp) {gi : U256} {r : ClaimRecord}
    (h : s.claimed[gi]? = some r) (hr : r.state ≠ .executing) :
    (∃ r', (claimStep P s op).1.claimed[gi]? = some r' ∧ HandoffSucc r r') ∨
      ((claimStep P s op).1.claimed[gi]? = none ∧ ClearedBy P s op r) := by
  cases op with
  | tryClaimFenced gi' owner lease now =>
    exact .inl ⟨r, tryClaimFenced_claimed_of_some s h gi' owner lease now, .inl rfl⟩
  | tryReclaimClaimFenced gi' owner lease now =>
    exact .inl ⟨r, tryReclaimClaimFenced_claimed_of_handedOff s h hr gi' owner lease now, .inl rfl⟩
  | prepareClaimSubmissionFenced gi' owner fence txHash noteCommitment noteId expirationBlock now =>
    exact .inl ⟨r, prepareClaimSubmissionFenced_claimed_of_handedOff P s h hr gi' owner fence
      txHash noteCommitment noteId expirationBlock now, .inl rfl⟩
  | unclaimFenced gi' owner fence =>
    exact .inl ⟨r, unclaimFenced_claimed_of_handedOff s h hr gi' owner fence, .inl rfl⟩
  | confirmNoteHandoff txHash noteCommitment =>
    left
    rcases confirmNoteHandoff_claimed P s gi txHash noteCommitment with heq | ⟨owner, heq⟩
    · exact ⟨r, heq.trans h, .inl rfl⟩
    · -- the owner's `prepared` record becomes `submitted`, every other stays
      rw [submitOwnedClaims_getElem?, h] at heq
      by_cases hown : r.ownerTxHash = some owner ∧ r.state = .prepared
      · exact ⟨_, by simpa [claimStep, hown] using heq, .inr (.inl ⟨hown.2, rfl⟩)⟩
      · exact ⟨r, by simpa [claimStep, hown] using heq, .inl rfl⟩
  | commitManualClaimEventAtomic noteId bridgeAddress blockNumber blockHash txHash globalIndex
      originNetwork originAddress destinationAddress amount now =>
    left
    simp only [claimStep, commitManualClaimEventAtomic_claimed, landClaim_getElem?, h]
    split
    · exact ⟨_, rfl, .inr (.inr rfl)⟩
    · exact ⟨r, rfl, .inl rfl⟩
  | clearExpiredPreparedNoteHandoff txHash noteCommitment =>
    rcases clearExpiredPreparedNoteHandoff_claimed P s gi txHash noteCommitment with
      heq | ⟨hnone, link, owner, r', e, hlink, hprep, he, hlt, howner, hr', hown, hstate⟩
    · exact .inl ⟨r, heq.trans h, .inl rfl⟩
    · rw [h] at hr'
      cases hr'
      exact .inr ⟨hnone, txHash, noteCommitment, link, e, rfl, hlink, hprep, he, hlt,
        howner.trans hown.symm, hstate⟩
  | setReconcileCursor block =>
    exact .inl ⟨r, h, .inl rfl⟩

/-! ## Section 3: Landing, successful prepares and stale pairs -/

/-- The index an operation lands, if it is a `ClaimEvent` commit. -/
def ClaimOp.landedIndex : ClaimOp → Option U256
  | .commitManualClaimEventAtomic _ _ _ _ _ globalIndex _ _ _ _ _ => some (U256.fromBeBytes globalIndex)
  | _ => none

/-- The index an operation prepares, if it is a fenced prepare. -/
def ClaimOp.preparedIndex : ClaimOp → Option U256
  | .prepareClaimSubmissionFenced gi _ _ _ _ _ _ _ => some gi
  | _ => none

/-- Index `gi` has a `landed` record. -/
def LandedAt (s : InMemoryStore) (gi : U256) : Prop :=
  ∃ r, s.claimed[gi]? = some r ∧ r.state = .landed

/-- Index `gi` has a record past `executing`. -/
def HandedOffAt (s : InMemoryStore) (gi : U256) : Prop :=
  ∃ r, s.claimed[gi]? = some r ∧ r.state ≠ .executing

/-- `owner` holds a `prepared` or `submitted` record for `gi`. -/
def HoldsHandoff (s : InMemoryStore) (gi : U256) (owner : TxHash) : Prop :=
  ∃ r, s.claimed[gi]? = some r ∧ r.ownerTxHash = some owner ∧
    (r.state = .prepared ∨ r.state = .submitted)

/-- `(owner, fence)` is stale for `gi`: the record there, if any, carries
    another owner or another fence. -/
def StalePair (s : InMemoryStore) (gi : U256) (owner : TxHash) (fence : Nat) : Prop :=
  ∀ r, s.claimed[gi]? = some r → r.ownerTxHash ≠ some owner ∨ r.fence ≠ fence

theorem claimStep_landedIndex (s : InMemoryStore) {op : ClaimOp} {gi : U256}
    (hop : op.landedIndex = some gi) : LandedAt (claimStep P s op).1 gi := by
  cases op <;> simp only [ClaimOp.landedIndex, reduceCtorEq, Option.some.injEq] at hop
  subst hop
  show LandedAt (commitManualClaimEventAtomic P _ _ _ _ _ _ _ _ _ _ _ s) _
  unfold LandedAt
  rw [commitManualClaimEventAtomic_claimed, landClaim_getElem?, if_pos rfl]
  exact ⟨_, rfl, by split <;> rfl⟩

/-- A prepare that succeeds found the caller's `executing` record and left
    it `prepared`. -/
theorem prepareClaimSubmissionFenced_true {s : InMemoryStore} {gi : U256} {owner : TxHash}
    {fence : Nat} {txHash : TxHash} {noteCommitment noteId : String} {expirationBlock now : Nat}
    (h : (prepareClaimSubmissionFenced P gi owner fence txHash noteCommitment noteId
      expirationBlock now s).2 = .ok true) :
    ∃ r, s.claimed[gi]? = some r ∧ r.state = .executing ∧
      (prepareClaimSubmissionFenced P gi owner fence txHash noteCommitment noteId
        expirationBlock now s).1.claimed[gi]? =
        some { r with state := .prepared, leaseExpiresAt := none } := by
  unfold prepareClaimSubmissionFenced at h ⊢
  rcases hlink : s.txNoteLinks[P.txKey txHash]? with _ | existing
  · rcases hr : s.claimed[gi]? with _ | r
    · simp [hlink, hr] at h
    · -- the guard passed: the record is the caller's live `executing` fence
      have hcond : ¬ (r.ownerTxHash ≠ some owner ∨ r.fence ≠ fence ∨ r.state ≠ .executing ∨
          r.leaseLapsed now = true) := by
        intro hc
        simp [hlink, hr, hc] at h
      refine ⟨r, rfl, ?_, ?_⟩
      · by_contra hne
        exact hcond (Or.inr (Or.inr (Or.inl hne)))
      · simp [hcond]
  · simp only [hlink] at h
    split at h <;> cases h

theorem claimStep_prepare_true {s : InMemoryStore} {op : ClaimOp} {gi : U256}
    (hop : op.preparedIndex = some gi) (h : (claimStep P s op).2 = .flag true) :
    ∃ r, s.claimed[gi]? = some r ∧ r.state = .executing ∧
      (claimStep P s op).1.claimed[gi]? = some { r with state := .prepared, leaseExpiresAt := none } := by
  cases op <;> simp only [ClaimOp.preparedIndex, reduceCtorEq, Option.some.injEq] at hop
  subst hop
  simp only [claimStep] at h ⊢
  apply prepareClaimSubmissionFenced_true P
  revert h
  generalize (prepareClaimSubmissionFenced P _ _ _ _ _ _ _ _ s).2 = e
  cases e with
  | ok b => intro h; cases h; rfl
  | error e => intro h; cases h

theorem unclaimFenced_stale {s : InMemoryStore} {gi : U256} {owner : TxHash} {fence : Nat}
    (h : StalePair s gi owner fence) : unclaimFenced gi owner fence s = (s, false) := by
  unfold unclaimFenced
  split
  · rename_i r hr
    rw [if_neg]
    rintro ⟨howner, hfence, -⟩
    rcases h r hr with h' | h' <;> contradiction
  · rfl

theorem prepareClaimSubmissionFenced_stale {s : InMemoryStore} {gi : U256} {owner : TxHash}
    {fence : Nat} (h : StalePair s gi owner fence) (txHash : TxHash)
    (noteCommitment noteId : String) (expirationBlock now : Nat) :
    (prepareClaimSubmissionFenced P gi owner fence txHash noteCommitment noteId
      expirationBlock now s).1 = s := by
  unfold prepareClaimSubmissionFenced
  split
  · split <;> rfl
  · split
    · rfl
    · rename_i r hr
      rw [if_pos]
      rcases h r hr with h' | h'
      · exact Or.inl h'
      · exact Or.inr (Or.inl h')

/-! ## Section 4: Runs -/

section Runs

variable (s₀ : InMemoryStore) (ops : List ClaimOp) {gi : U256}

/-- A landed index stays landed for the rest of the run. -/
theorem landedAt_persists {i j : Nat} (hij : i ≤ j) (hj : j ≤ ops.length)
    (hi : LandedAt (Run.final (claimStep P) s₀ (ops.take i)) gi) :
    LandedAt (Run.final (claimStep P) s₀ (ops.take j)) gi := by
  induction j, hij using Nat.le_induction with
  | base => exact hi
  | succ j hij ih =>
    obtain ⟨r, hr, hland⟩ := ih (by omega)
    rw [Run.final_take_succ _ _ _ (by omega : j < ops.length)]
    rcases claimStep_handedOff P _ ops[j] hr (by simp [hland]) with
      ⟨r', hr', hsucc⟩ | ⟨-, cleared⟩
    · exact ⟨r', hr', hsucc.landed hland⟩
    · -- only a `prepared` record is ever cleared
      obtain ⟨-, -, -, -, -, -, -, -, -, -, hprep⟩ := cleared
      rw [hland] at hprep
      cases hprep

/-- While index `gi` stays past `executing`, its record is the `prepared`
    record it started as, or has moved on to `submitted` or `landed`. -/
theorem prepared_or_beyond {a b : Nat} {r₁ : ClaimRecord} (hab : a ≤ b) (hb : b ≤ ops.length)
    (ha : (Run.final (claimStep P) s₀ (ops.take a)).claimed[gi]? = some r₁)
    (hr₁ : r₁.state = .prepared)
    (hall : ∀ m, a ≤ m → m ≤ b → HandedOffAt (Run.final (claimStep P) s₀ (ops.take m)) gi) :
    (Run.final (claimStep P) s₀ (ops.take b)).claimed[gi]? = some r₁ ∨
      ∃ r, (Run.final (claimStep P) s₀ (ops.take b)).claimed[gi]? = some r ∧
        (r.state = .submitted ∨ r.state = .landed) := by
  induction b, hab using Nat.le_induction with
  | base => exact .inl ha
  | succ m ham ih =>
    have hm : m < ops.length := by omega
    have hnext := hall (m + 1) (by omega) le_rfl
    rw [Run.final_take_succ _ _ _ hm] at hnext ⊢
    -- the record at `m`, and the move the step makes on it
    have hcur : ∃ r, (Run.final (claimStep P) s₀ (ops.take m)).claimed[gi]? = some r ∧
        (r = r₁ ∨ r.state = .submitted ∨ r.state = .landed) := by
      rcases ih (by omega) (fun m' h1 h2 => hall m' h1 (by omega)) with h | ⟨r, h, hs⟩
      · exact ⟨r₁, h, .inl rfl⟩
      · exact ⟨r, h, .inr hs⟩
    obtain ⟨r, hr, hcases⟩ := hcur
    have hne : r.state ≠ .executing := by
      rcases hcases with rfl | h | h
      · rw [hr₁]; decide
      · rw [h]; decide
      · rw [h]; decide
    rcases claimStep_handedOff P _ ops[m] hr hne with ⟨r', hr', hsucc⟩ | ⟨hnone, -⟩
    · rcases hsucc with rfl | ⟨-, hsub⟩ | hland
      · rcases hcases with rfl | h | h
        · exact .inl hr'
        · exact .inr ⟨r', hr', .inl h⟩
        · exact .inr ⟨r', hr', .inr h⟩
      · exact .inr ⟨r', hr', .inl hsub⟩
      · exact .inr ⟨r', hr', .inr hland⟩
    · obtain ⟨_, h, -⟩ := hnext
      rw [hnone] at h
      cases h

/-- The call at `k` of a run takes the state in front of it to the state
    after it, and its reply is computed there. -/
theorem claim_run_step {k : Nat} (hk : k < ops.length) :
    Run.final (claimStep P) s₀ (ops.take (k + 1)) =
        (claimStep P (Run.final (claimStep P) s₀ (ops.take k)) ops[k]).1 ∧
      (Run.outputs (claimStep P) s₀ ops)[k]? =
        some (claimStep P (Run.final (claimStep P) s₀ (ops.take k)) ops[k]).2 :=
  ⟨Run.final_take_succ _ _ _ hk, Run.getElem?_outputs _ _ _ hk⟩

/-- **Claim submission fencing.** For every run of claim-submission calls
    from any store state and every global index `gi`:
    (a) at most one owner holds a `prepared` or `submitted` record;
    (b) after a `ClaimEvent` commit for `gi` the index stays landed and no
    later prepare for it succeeds;
    (c) `unclaimFenced` and `prepareClaimSubmissionFenced` with a stale
    `(owner, fence)` change nothing;
    (d) between two successful prepares for `gi` a
    `clearExpiredPreparedNoteHandoff` removed the first prepared record,
    unchanged since it was prepared, after the reconcile cursor passed the
    expiration block of its owner's `prepared` link. -/
theorem claim_submission_fencing (s₀ : InMemoryStore) (ops : List ClaimOp) (gi : U256) :
    (∀ k owner₁ owner₂, HoldsHandoff (Run.final (claimStep P) s₀ (ops.take k)) gi owner₁ →
      HoldsHandoff (Run.final (claimStep P) s₀ (ops.take k)) gi owner₂ → owner₁ = owner₂) ∧
    (∀ (i j : Nat) (op : ClaimOp), i < j → j ≤ ops.length → ops[i]? = some op →
      op.landedIndex = some gi → LandedAt (Run.final (claimStep P) s₀ (ops.take j)) gi) ∧
    (∀ (i j : Nat) (op op' : ClaimOp), i < j → ops[i]? = some op → op.landedIndex = some gi →
      ops[j]? = some op' → op'.preparedIndex = some gi →
      (Run.outputs (claimStep P) s₀ ops)[j]? ≠ some (ClaimReply.flag true)) ∧
    (∀ s owner fence, StalePair s gi owner fence →
      unclaimFenced gi owner fence s = (s, false) ∧
      ∀ txHash noteCommitment noteId expirationBlock now,
        (prepareClaimSubmissionFenced P gi owner fence txHash noteCommitment noteId
          expirationBlock now s).1 = s) ∧
    (∀ (i j : Nat) (op op' : ClaimOp), i < j → ops[i]? = some op → op.preparedIndex = some gi →
      (Run.outputs (claimStep P) s₀ ops)[i]? = some (ClaimReply.flag true) →
      ops[j]? = some op' → op'.preparedIndex = some gi →
      (Run.outputs (claimStep P) s₀ ops)[j]? = some (ClaimReply.flag true) →
      ∃ k clear r, i < k ∧ k < j ∧ ops[k]? = some clear ∧
        (Run.final (claimStep P) s₀ (ops.take (i + 1))).claimed[gi]? = some r ∧
        (Run.final (claimStep P) s₀ (ops.take k)).claimed[gi]? = some r ∧
        (Run.final (claimStep P) s₀ (ops.take (k + 1))).claimed[gi]? = none ∧
        ClearedBy P (Run.final (claimStep P) s₀ (ops.take k)) clear r) := by
  -- the states of the run, and the landing of a commit
  have landed_after : ∀ (i j : Nat) (op : ClaimOp), i < j → j ≤ ops.length → ops[i]? = some op →
      op.landedIndex = some gi → LandedAt (Run.final (claimStep P) s₀ (ops.take j)) gi := by
    intro i j op hij hj hop hidx
    obtain ⟨hi, rfl⟩ := List.getElem?_eq_some_iff.mp hop
    have hstep := (claim_run_step P s₀ ops hi).1
    have hland : LandedAt (Run.final (claimStep P) s₀ (ops.take (i + 1))) gi := by
      rw [hstep]
      exact claimStep_landedIndex P _ hidx
    exact landedAt_persists P s₀ ops (by omega) hj hland
  refine ⟨?_, landed_after, ?_, ?_, ?_⟩
  · -- (a) one record per index, so one owner
    rintro k owner₁ owner₂ ⟨r₁, h₁, ho₁, -⟩ ⟨r₂, h₂, ho₂, -⟩
    rw [h₁] at h₂
    cases h₂
    exact Option.some.inj (ho₁.symm.trans ho₂)
  · -- (b) a prepare needs an `executing` record, and a landed index has none
    intro i j op op' hij hop hidx hop' hidx' hreply
    obtain ⟨hj, rfl⟩ := List.getElem?_eq_some_iff.mp hop'
    obtain ⟨r, hr, hland⟩ := landed_after i j op hij hj.le hop hidx
    rw [(claim_run_step P s₀ ops hj).2] at hreply
    obtain ⟨r', hr', hexec, -⟩ := claimStep_prepare_true P hidx' (Option.some.inj hreply)
    rw [hr] at hr'
    cases hr'
    rw [hland] at hexec
    cases hexec
  · -- (c)
    intro s owner fence hstale
    exact ⟨unclaimFenced_stale hstale, prepareClaimSubmissionFenced_stale P hstale⟩
  · -- (d) the record leaves "past executing" only through the clearing
    intro i j op op' hij hop hidx hreply hop' hidx' hreply'
    obtain ⟨hi, rfl⟩ := List.getElem?_eq_some_iff.mp hop
    obtain ⟨hj, rfl⟩ := List.getElem?_eq_some_iff.mp hop'
    rw [(claim_run_step P s₀ ops hi).2] at hreply
    rw [(claim_run_step P s₀ ops hj).2] at hreply'
    obtain ⟨r₀, -, -, hprep⟩ := claimStep_prepare_true P hidx (Option.some.inj hreply)
    obtain ⟨rj, hrj, hexec, -⟩ := claimStep_prepare_true P hidx' (Option.some.inj hreply')
    rw [← (claim_run_step P s₀ ops hi).1] at hprep
    set r₁ : ClaimRecord := { r₀ with state := .prepared, leaseExpiresAt := none } with hr₁def
    have hstart : HandedOffAt (Run.final (claimStep P) s₀ (ops.take (i + 1))) gi :=
      ⟨r₁, hprep, by simp [r₁]⟩
    have hend : ¬ HandedOffAt (Run.final (claimStep P) s₀ (ops.take j)) gi := by
      rintro ⟨r, hr, hne⟩
      rw [hrj] at hr
      cases hr
      exact hne hexec
    obtain ⟨k, hik, hkj, hall, hexit⟩ :=
      Run.exists_exit (fun m => HandedOffAt (Run.final (claimStep P) s₀ (ops.take m)) gi)
        (show i + 1 ≤ j by omega) hstart hend
    have hk : k < ops.length := by omega
    obtain ⟨rk, hrk, hnek⟩ := hall k hik le_rfl
    rw [(claim_run_step P s₀ ops hk).1] at hexit
    rcases claimStep_handedOff P _ ops[k] hrk hnek with ⟨r', hr', hsucc⟩ | ⟨hnone, hcleared⟩
    · exact absurd ⟨r', hr', hsucc.state_ne_executing hnek⟩ hexit
    · -- the cleared record is `prepared`, hence still the first prepared record
      have hkprep : rk.state = .prepared := by
        obtain ⟨-, -, -, -, -, -, -, -, -, -, h⟩ := hcleared
        exact h
      have hsame : rk = r₁ := by
        rcases prepared_or_beyond P s₀ ops hik hk.le hprep rfl hall with h | ⟨r, h, hs⟩
        · rw [hrk] at h
          exact Option.some.inj h
        · rw [hrk] at h
          cases h
          rcases hs with hs | hs <;> rw [hkprep] at hs <;> cases hs
      subst hsame
      refine ⟨k, ops[k], _, by omega, hkj, List.getElem?_eq_getElem hk, hprep, hrk, ?_, hcleared⟩
      rw [(claim_run_step P s₀ ops hk).1]
      exact hnone

end Runs

end Store
