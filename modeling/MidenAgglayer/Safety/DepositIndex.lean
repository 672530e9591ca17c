import MidenAgglayer.Framework.Run
import MidenAgglayer.Store.Deposits

/-! # Exactly-Once LET Deposit Indices

    The bridge-out path reserves a local-exit-tree index for every consumed
    B2AGG leaf (`reserve_deposit_index`), emits the leaf's `BridgeEvent`
    under that index (`commit_b2agg_event_atomic`) and renames
    commitment-keyed legacy reservations to note keys
    (`migrate_legacy_deposit_key`). Every call is one atomic step, so any
    interleaving is a list of `DepositOp`s run by `depositStep`.

    From a fresh store whose LET gate baseline is `B`, over every run:

    * distinct keys hold distinct indices, and the reserved indices are
      exactly `B, …, B + deposit_counter - 1`;
    * for every reservation, the stored `BridgeEvent`s carrying its index
      number one if it is emitted and none otherwise;
    * the accounted deposit count is `B + deposit_counter`, and
      `first_unemitted_reservation` finds the least unemitted index;
    * a step keeps every key's index, except that a migration moves it, with
      its emitted flag, to the new key.

    The invariant is `DepositInv`; the decoding of an event's deposit count
    (`bridgeEventDepositCount_encodeBridgeEventData`) needs the index to fit
    in `u32`, which the counter bound of the invariant supplies.
-/

open Bytes Maps

namespace Store

variable (P : Primitives)

/-! ## Section 1: The deposit operations as one transition system -/

/-- The store calls of the bridge-out path, with their arguments. -/
inductive DepositOp where
  | reserveDepositIndex (noteKey : String)
  | commitB2aggEventAtomic (noteId bridgeAddress : String) (blockNumber : Nat)
      (blockHash : B256) (txHash : String) (leafType : UInt8) (originNetwork : Nat)
      (originAddress : Address) (destinationNetwork : Nat) (destinationAddress : Address)
      (amount : Nat) (metadata : List UInt8)
  | migrateLegacyDepositKey (legacyKey noteKey : String) (blockNumber : Nat) (txHash : String)

/-- The replies of the bridge-out calls. -/
inductive DepositReply where
  | index (r : Except StoreError Nat)
  | done

/-- One bridge-out call on the store. -/
def depositStep (s : InMemoryStore) : DepositOp → InMemoryStore × DepositReply
  | .reserveDepositIndex noteKey =>
    let r := reserveDepositIndex noteKey s
    (r.1, .index r.2)
  | .commitB2aggEventAtomic noteId bridgeAddress blockNumber blockHash txHash leafType
      originNetwork originAddress destinationNetwork destinationAddress amount metadata =>
    let r := commitB2aggEventAtomic P noteId bridgeAddress blockNumber blockHash txHash leafType
      originNetwork originAddress destinationNetwork destinationAddress amount metadata s
    (r.1, .index r.2)
  | .migrateLegacyDepositKey legacyKey noteKey blockNumber txHash =>
    (migrateLegacyDepositKey P legacyKey noteKey blockNumber txHash s, .done)

/-! ## Section 2: Counting stored `BridgeEvent`s -/

/-- The stored logs that are `BridgeEvent`s whose data decodes to deposit
    count `i`. -/
def bridgeEventCount (s : InMemoryStore) (i : Nat) : Nat :=
  (allValues s.logsByBlock).countP fun log =>
    log.topics.head? == some bridgeEventTopic && bridgeEventDepositCount P log.data == some i

theorem bridgeEventCount_withBaseline (B : UInt64) (i : Nat) :
    bridgeEventCount P (InMemoryStore.withBaseline B) i = 0 := by
  simp [bridgeEventCount, allValues, InMemoryStore.withBaseline, InMemoryStore.new]

/-- An emitted event of index `depositCount` counts once for that index and
    for no other. -/
theorem bridgeEventCount_addBridgeEvent (s : InMemoryStore) (bridgeAddress : String)
    (blockNumber : Nat) (blockHash : B256) (txHash : String) (leafType : UInt8)
    (originNetwork : Nat) (originAddress : Address) (destinationNetwork : Nat)
    (destinationAddress : Address) (amount : Nat) (metadata : List UInt8) {depositCount : Nat}
    (h : depositCount < u32Bound) (i : Nat) :
    bridgeEventCount P (addBridgeEvent P bridgeAddress blockNumber blockHash txHash leafType
      originNetwork originAddress destinationNetwork destinationAddress amount metadata
      depositCount s) i = bridgeEventCount P s i + if depositCount = i then 1 else 0 := by
  obtain ⟨log, htopics, hdata, hperm⟩ := addBridgeEvent_allValues P s bridgeAddress blockNumber
    blockHash txHash leafType originNetwork originAddress destinationNetwork destinationAddress
    amount metadata depositCount
  have hdecode : bridgeEventDepositCount P log.data = some depositCount := by
    rw [hdata]
    exact bridgeEventDepositCount_encodeBridgeEventData P _ _ _ _ _ _ _ h
  unfold bridgeEventCount
  rw [hperm.countP_eq, List.countP_cons, htopics, hdecode]
  by_cases hi : depositCount = i <;> simp [hi, bridgeEventTopic]

/-! ## Section 3: The reservation invariant -/

/-- What holds of the bridge-out state of a store with baseline `B`. -/
structure DepositInv (B : UInt64) (s : InMemoryStore) : Prop where
  baseline : s.letGateBaseline = B
  injective : ∀ (k₁ k₂ : String) (i : Nat) (e₁ e₂ : Bool), s.processedNotes[k₁]? = some (i, e₁) →
    s.processedNotes[k₂]? = some (i, e₂) → k₁ = k₂
  reserved : ∀ i, (∃ (k : String) (e : Bool), s.processedNotes[k]? = some (i, e)) ↔
    B.toNat ≤ i ∧ i < B.toNat + s.depositCounter
  /-- Every reserved index fits in `u32`. -/
  inRange : s.depositCounter = 0 ∨ B.toNat + s.depositCounter ≤ u32Bound
  emitted : ∀ (k : String) (i : Nat) (e : Bool), s.processedNotes[k]? = some (i, e) →
    bridgeEventCount P s i = if e then 1 else 0
  /-- No `BridgeEvent` carries an index that is not reserved. -/
  noStray : ∀ i, 0 < bridgeEventCount P s i →
    ∃ (k : String) (e : Bool), s.processedNotes[k]? = some (i, e)

variable {P}

theorem DepositInv.index_lt {B : UInt64} {s : InMemoryStore} (hinv : DepositInv P B s)
    {k : String} {i : Nat} {e : Bool} (hk : s.processedNotes[k]? = some (i, e)) :
    i < u32Bound := by
  have hi := (hinv.reserved i).mp ⟨k, e, hk⟩
  rcases hinv.inRange with h0 | hle <;> omega

theorem depositInv_withBaseline (B : UInt64) : DepositInv P B (InMemoryStore.withBaseline B) where
  baseline := rfl
  injective := by simp [InMemoryStore.withBaseline, InMemoryStore.new]
  reserved := by simp [InMemoryStore.withBaseline, InMemoryStore.new]
  inRange := .inl rfl
  emitted := by simp [InMemoryStore.withBaseline, InMemoryStore.new]
  noStray := by simp [bridgeEventCount_withBaseline]

section Preservation

variable {B : UInt64} {s s' : InMemoryStore}

/-- Counting reads only the logs. -/
theorem bridgeEventCount_congr (hlogs : s'.logsByBlock = s.logsByBlock) (i : Nat) :
    bridgeEventCount P s' i = bridgeEventCount P s i := by
  unfold bridgeEventCount
  rw [hlogs]

/-- A fresh reservation of the next index keeps the invariant: the new
    state has the old logs and baseline, one more reservation, and the new
    key holds `B + deposit_counter`, unemitted. -/
theorem DepositInv.reserve (hinv : DepositInv P B s) {noteKey : String}
    (hnone : s.processedNotes[noteKey]? = none)
    (hnext : B.toNat + s.depositCounter < u32Bound)
    (hbase : s'.letGateBaseline = s.letGateBaseline) (hlogs : s'.logsByBlock = s.logsByBlock)
    (hctr : s'.depositCounter = s.depositCounter + 1)
    (hpn : s'.processedNotes = s.processedNotes.insert noteKey (B.toNat + s.depositCounter, false)) :
    DepositInv P B s' := by
  -- the new index is past every reserved one, so no key and no event has it
  have hfresh : ∀ (k : String) (e : Bool),
      s.processedNotes[k]? ≠ some (B.toNat + s.depositCounter, e) := by
    intro k e hk
    have := (hinv.reserved _).mp ⟨k, e, hk⟩
    omega
  have hcount : bridgeEventCount P s (B.toNat + s.depositCounter) = 0 := by
    by_contra hne
    obtain ⟨k, e, hk⟩ := hinv.noStray _ (Nat.pos_of_ne_zero hne)
    exact hfresh k e hk
  have hold : ∀ (k : String) (x : Nat × Bool), s.processedNotes[k]? = some x →
      s'.processedNotes[k]? = some x := by
    intro k x hk
    have hne : noteKey ≠ k := by
      rintro rfl
      rw [hnone] at hk
      cases hk
    rw [hpn, Std.HashMap.getElem?_insert, if_neg (by simpa using hne), hk]
  have hentry : ∀ (k : String) (x : Nat × Bool), s'.processedNotes[k]? = some x →
      (k = noteKey ∧ x = (B.toNat + s.depositCounter, false)) ∨ s.processedNotes[k]? = some x := by
    intro k x hk
    rw [hpn, Std.HashMap.getElem?_insert] at hk
    by_cases hkn : noteKey = k
    · subst hkn
      simp only [BEq.rfl, if_true, Option.some.injEq] at hk
      exact .inl ⟨rfl, hk.symm⟩
    · rw [if_neg (by simpa using hkn)] at hk
      exact .inr hk
  refine ⟨hbase.trans hinv.baseline, ?_, ?_, .inr (by omega), ?_, ?_⟩
  · intro k₁ k₂ i e₁ e₂ h₁ h₂
    rcases hentry k₁ _ h₁ with ⟨hk₁, hx₁⟩ | h₁ <;> rcases hentry k₂ _ h₂ with ⟨hk₂, hx₂⟩ | h₂
    · rw [hk₁, hk₂]
    · cases hx₁
      exact absurd h₂ (hfresh _ _)
    · cases hx₂
      exact absurd h₁ (hfresh _ _)
    · exact hinv.injective k₁ k₂ i e₁ e₂ h₁ h₂
  · intro i
    rw [hctr]
    constructor
    · rintro ⟨k, e, hk⟩
      rcases hentry k _ hk with ⟨-, hx⟩ | hk
      · cases hx
        omega
      · have := (hinv.reserved i).mp ⟨k, e, hk⟩
        omega
    · rintro ⟨hlo, hhi⟩
      by_cases hlast : i = B.toNat + s.depositCounter
      · refine ⟨noteKey, false, ?_⟩
        rw [hpn, Std.HashMap.getElem?_insert_self, hlast]
      · obtain ⟨k, e, hk⟩ := (hinv.reserved i).mpr ⟨hlo, by omega⟩
        exact ⟨k, e, hold k _ hk⟩
  · intro k i e hk
    rw [bridgeEventCount_congr hlogs]
    rcases hentry k _ hk with ⟨-, hx⟩ | hk
    · cases hx
      exact hcount
    · exact hinv.emitted k i e hk
  · intro i hi
    rw [bridgeEventCount_congr hlogs] at hi
    obtain ⟨k, e, hk⟩ := hinv.noStray i hi
    exact ⟨k, e, hold k _ hk⟩

/-- Emitting the event of an unemitted reservation `noteId ↦ (i, false)`
    keeps the invariant: the new state marks it emitted, keeps the baseline
    and counter, and stores exactly one more event, of index `i`. -/
theorem DepositInv.commit (hinv : DepositInv P B s) {noteId : String} {i : Nat}
    (hk : s.processedNotes[noteId]? = some (i, false))
    (hbase : s'.letGateBaseline = s.letGateBaseline) (hctr : s'.depositCounter = s.depositCounter)
    (hpn : s'.processedNotes = s.processedNotes.insert noteId (i, true))
    (hcount : ∀ j, bridgeEventCount P s' j = bridgeEventCount P s j + if i = j then 1 else 0) :
    DepositInv P B s' := by
  -- the new flag changes no key's index, so indices are read off the old map
  have hentry : ∀ (k : String) (j : Nat) (e : Bool), s'.processedNotes[k]? = some (j, e) →
      (k = noteId ∧ j = i) ∨ (k ≠ noteId ∧ s.processedNotes[k]? = some (j, e)) := by
    intro k j e h
    rw [hpn, Std.HashMap.getElem?_insert] at h
    by_cases hkn : noteId = k
    · subst hkn
      simp only [BEq.rfl, if_true, Option.some.injEq, Prod.mk.injEq] at h
      exact .inl ⟨rfl, h.1.symm⟩
    · rw [if_neg (by simpa using hkn)] at h
      exact .inr ⟨Ne.symm hkn, h⟩
  have hold : ∀ (k : String) (j : Nat) (e : Bool), s'.processedNotes[k]? = some (j, e) →
      ∃ e', s.processedNotes[k]? = some (j, e') := by
    intro k j e h
    rcases hentry k j e h with ⟨rfl, rfl⟩ | ⟨-, h⟩
    · exact ⟨false, hk⟩
    · exact ⟨e, h⟩
  have hnew : ∀ (k : String) (j : Nat) (e : Bool), s.processedNotes[k]? = some (j, e) →
      ∃ e', s'.processedNotes[k]? = some (j, e') := by
    intro k j e h
    by_cases hkn : noteId = k
    · subst hkn
      rw [hk] at h
      cases h
      exact ⟨true, by rw [hpn, Std.HashMap.getElem?_insert_self]⟩
    · refine ⟨e, ?_⟩
      rw [hpn, Std.HashMap.getElem?_insert, if_neg (by simpa using hkn), h]
  refine ⟨hbase.trans hinv.baseline, ?_, ?_, hctr ▸ hinv.inRange, ?_, ?_⟩
  · intro k₁ k₂ j e₁ e₂ h₁ h₂
    obtain ⟨e₁', h₁⟩ := hold k₁ j e₁ h₁
    obtain ⟨e₂', h₂⟩ := hold k₂ j e₂ h₂
    exact hinv.injective k₁ k₂ j e₁' e₂' h₁ h₂
  · intro j
    rw [hctr, ← hinv.reserved j]
    constructor
    · rintro ⟨k, e, h⟩
      obtain ⟨e', h⟩ := hold k j e h
      exact ⟨k, e', h⟩
    · rintro ⟨k, e, h⟩
      obtain ⟨e', h⟩ := hnew k j e h
      exact ⟨k, e', h⟩
  · intro k j e h
    rw [hcount]
    rcases hentry k j e h with ⟨rfl, rfl⟩ | ⟨hkn, h⟩
    · have he : e = true := by
        rw [hpn, Std.HashMap.getElem?_insert_self] at h
        cases h
        rfl
      simp [hinv.emitted _ _ _ hk, he]
    · have hij : i ≠ j := by
        rintro rfl
        exact hkn (hinv.injective k noteId i e false h hk)
      simp [hinv.emitted k j e h, hij]
  · intro j hj
    rw [hcount] at hj
    by_cases hij : i = j
    · subst hij
      exact ⟨noteId, true, by rw [hpn, Std.HashMap.getElem?_insert_self]⟩
    · rw [if_neg hij, Nat.add_zero] at hj
      obtain ⟨k, e, h⟩ := hinv.noStray j hj
      obtain ⟨e', h⟩ := hnew k j e h
      exact ⟨k, e', h⟩

/-- Moving a reservation, flag and all, from `legacyKey` to a key that has
    none keeps the invariant. -/
theorem DepositInv.move (hinv : DepositInv P B s) {legacyKey noteKey : String}
    {reservation : Nat × Bool} (hlegacy : s.processedNotes[legacyKey]? = some reservation)
    (hnote : s.processedNotes[noteKey]? = none)
    (hbase : s'.letGateBaseline = s.letGateBaseline) (hlogs : s'.logsByBlock = s.logsByBlock)
    (hctr : s'.depositCounter = s.depositCounter)
    (hpn : s'.processedNotes = (s.processedNotes.erase legacyKey).insert noteKey reservation) :
    DepositInv P B s' := by
  have hentry : ∀ (k : String) (x : Nat × Bool), s'.processedNotes[k]? = some x ↔
      (k = noteKey ∧ s.processedNotes[legacyKey]? = some x) ∨
        (k ≠ noteKey ∧ k ≠ legacyKey ∧ s.processedNotes[k]? = some x) := by
    intro k x
    rw [hpn]
    exact getElem?_move hlegacy
  -- every new entry is an old one, and every old entry has a new holder
  have hold : ∀ (k : String) (x : Nat × Bool), s'.processedNotes[k]? = some x →
      ∃ k₀ : String, s.processedNotes[k₀]? = some x := by
    intro k x h
    rcases (hentry k x).mp h with ⟨-, h⟩ | ⟨-, -, h⟩
    · exact ⟨legacyKey, h⟩
    · exact ⟨k, h⟩
  have hnew : ∀ (k : String) (x : Nat × Bool), s.processedNotes[k]? = some x →
      ∃ k' : String, s'.processedNotes[k']? = some x := by
    intro k x h
    by_cases hkl : k = legacyKey
    · subst hkl
      exact ⟨noteKey, (hentry _ _).mpr (.inl ⟨rfl, h⟩)⟩
    · have hkn : k ≠ noteKey := by
        rintro rfl
        rw [hnote] at h
        cases h
      exact ⟨k, (hentry _ _).mpr (.inr ⟨hkn, hkl, h⟩)⟩
  refine ⟨hbase.trans hinv.baseline, ?_, ?_, hctr ▸ hinv.inRange, ?_, ?_⟩
  · intro k₁ k₂ i e₁ e₂ h₁ h₂
    rcases (hentry k₁ _).mp h₁ with ⟨hn₁, h₁⟩ | ⟨hn₁, hl₁, h₁⟩ <;>
      rcases (hentry k₂ _).mp h₂ with ⟨hn₂, h₂⟩ | ⟨hn₂, hl₂, h₂⟩
    · rw [hn₁, hn₂]
    · exact absurd (hinv.injective _ _ _ _ _ h₁ h₂).symm hl₂
    · exact absurd (hinv.injective _ _ _ _ _ h₁ h₂) hl₁
    · exact hinv.injective _ _ _ _ _ h₁ h₂
  · intro i
    rw [hctr, ← hinv.reserved i]
    constructor
    · rintro ⟨k, e, h⟩
      obtain ⟨k₀, h⟩ := hold k _ h
      exact ⟨k₀, e, h⟩
    · rintro ⟨k, e, h⟩
      obtain ⟨k', h⟩ := hnew k _ h
      exact ⟨k', e, h⟩
  · intro k i e h
    obtain ⟨k₀, h⟩ := hold k _ h
    rw [bridgeEventCount_congr hlogs]
    exact hinv.emitted k₀ i e h
  · intro i hi
    rw [bridgeEventCount_congr hlogs] at hi
    obtain ⟨k, e, h⟩ := hinv.noStray i hi
    obtain ⟨k', h⟩ := hnew k _ h
    exact ⟨k', e, h⟩

/-- **Step lemma.** Every bridge-out call keeps the invariant. -/
theorem DepositInv.step (hinv : DepositInv P B s) (op : DepositOp) :
    DepositInv P B (depositStep P s op).1 := by
  cases op with
  | reserveDepositIndex noteKey =>
    rcases reserveDepositIndex_cases s noteKey with
      ⟨i, e, -, hr⟩ | ⟨-, hr, -⟩ | ⟨hnone, -, hnext, hr⟩
    · simpa [depositStep, hr] using hinv
    · simpa [depositStep, hr] using hinv
    · simp only [depositStep, hr]
      rw [hinv.baseline] at hnext ⊢
      exact hinv.reserve hnone hnext (hinv.baseline ▸ rfl) rfl rfl rfl
  | commitB2aggEventAtomic noteId bridgeAddress blockNumber blockHash txHash leafType
      originNetwork originAddress destinationNetwork destinationAddress amount metadata =>
    rcases commitB2aggEventAtomic_cases P s noteId bridgeAddress blockNumber blockHash txHash
      leafType originNetwork originAddress destinationNetwork destinationAddress amount
      metadata with hr | ⟨i, hk, hr⟩
    · simpa [depositStep, hr] using hinv
    · simp only [depositStep, hr]
      exact hinv.commit hk rfl rfl rfl fun j =>
        bridgeEventCount_addBridgeEvent P _ bridgeAddress blockNumber blockHash txHash leafType
          originNetwork originAddress destinationNetwork destinationAddress amount metadata
          (hinv.index_lt hk) j
  | migrateLegacyDepositKey legacyKey noteKey blockNumber txHash =>
    rcases migrateLegacyDepositKey_cases P s legacyKey noteKey blockNumber txHash with
      hr | ⟨reservation, hlegacy, hnote, hr⟩
    · simpa [depositStep, hr] using hinv
    · simp only [depositStep, hr]
      exact hinv.move hlegacy hnote rfl rfl rfl rfl

end Preservation

/-- The accounted deposit count never overflows `u64`. -/
theorem DepositInv.accounted {B : UInt64} {s : InMemoryStore} (hinv : DepositInv P B s) :
    getAccountedDepositCount s = .ok (B.toNat + s.depositCounter) := by
  have hB : B.toNat < 2 ^ 64 := B.toNat_lt
  have hsum : B.toNat + s.depositCounter < 2 ^ 64 := by
    rcases hinv.inRange with h0 | hle
    · omega
    · unfold u32Bound at hle
      omega
  unfold getAccountedDepositCount
  rw [hinv.baseline, if_pos hsum]

/-! ## Section 4: Indices never change -/

/-- **Step lemma.** A key keeps its index, and an emitted key stays
    emitted, unless the step is a migration away from it, which leaves the
    reservation unchanged under the new key. -/
theorem depositStep_keeps_index (s : InMemoryStore) (op : DepositOp) {k : String} {i : Nat}
    {e : Bool} (hk : s.processedNotes[k]? = some (i, e)) :
    (∃ e', (depositStep P s op).1.processedNotes[k]? = some (i, e') ∧ (e = true → e' = true)) ∨
    (∃ noteKey blockNumber txHash, op = .migrateLegacyDepositKey k noteKey blockNumber txHash ∧
      (depositStep P s op).1.processedNotes[k]? = none ∧
      (depositStep P s op).1.processedNotes[noteKey]? = some (i, e)) := by
  cases op with
  | reserveDepositIndex noteKey =>
    refine .inl ⟨e, ?_, id⟩
    rcases reserveDepositIndex_cases s noteKey with
      ⟨j, e', -, hr⟩ | ⟨-, hr, -⟩ | ⟨hnone, -, -, hr⟩
    · simp [depositStep, hr, hk]
    · simp [depositStep, hr, hk]
    · have hne : noteKey ≠ k := by
        rintro rfl
        rw [hnone] at hk
        cases hk
      simp [depositStep, hr, Std.HashMap.getElem?_insert, hne, hk]
  | commitB2aggEventAtomic noteId bridgeAddress blockNumber blockHash txHash leafType
      originNetwork originAddress destinationNetwork destinationAddress amount metadata =>
    refine .inl ?_
    rcases commitB2aggEventAtomic_cases P s noteId bridgeAddress blockNumber blockHash txHash
      leafType originNetwork originAddress destinationNetwork destinationAddress amount
      metadata with hr | ⟨j, hj, hr⟩
    · exact ⟨e, by simp [depositStep, hr, hk], id⟩
    · by_cases hkn : noteId = k
      · subst hkn
        rw [hk] at hj
        cases hj
        exact ⟨true, by simp [depositStep, hr], fun _ => rfl⟩
      · exact ⟨e, by simp [depositStep, hr, Std.HashMap.getElem?_insert, hkn, hk], id⟩
  | migrateLegacyDepositKey legacyKey noteKey blockNumber txHash =>
    rcases migrateLegacyDepositKey_cases P s legacyKey noteKey blockNumber txHash with
      hr | ⟨reservation, hlegacy, hnote, hr⟩
    · exact .inl ⟨e, by simp [depositStep, hr, hk], id⟩
    · have hentry := fun k' x => getElem?_move (k := k') (x := x) (b := noteKey) hlegacy
      by_cases hkl : k = legacyKey
      · subst hkl
        refine .inr ⟨noteKey, blockNumber, txHash, rfl, ?_, ?_⟩
        · simp [depositStep, hr, Std.HashMap.getElem?_insert]
          rintro rfl
          rw [hnote] at hk
          cases hk
        · simpa [depositStep, hr] using (hentry noteKey (i, e)).mpr (.inl ⟨rfl, hk⟩)
      · have hkn : k ≠ noteKey := by
          rintro rfl
          rw [hnote] at hk
          cases hk
        refine .inl ⟨e, ?_, id⟩
        simpa [depositStep, hr] using (hentry k (i, e)).mpr (.inr ⟨hkn, hkl, hk⟩)

/-- **Run lemma.** Along a run, a key keeps its index from the moment it
    holds one until a migration away from it. -/
theorem keeps_index_along (s₀ : InMemoryStore) (ops : List DepositOp) {j : Nat} {k : String}
    {i : Nat} {e : Bool}
    (hk : (Run.final (depositStep P) s₀ (ops.take j)).processedNotes[k]? = some (i, e)) :
    ∀ j', j ≤ j' → j' ≤ ops.length →
      (∀ m noteKey blockNumber txHash, j ≤ m → m < j' →
        ops[m]? ≠ some (.migrateLegacyDepositKey k noteKey blockNumber txHash)) →
      ∃ e', (Run.final (depositStep P) s₀ (ops.take j')).processedNotes[k]? = some (i, e') ∧
        (e = true → e' = true) := by
  intro j' hjj'
  induction j', hjj' using Nat.le_induction with
  | base => exact fun _ _ => ⟨e, hk, id⟩
  | succ n hjn ih =>
    intro hlen hnomove
    obtain ⟨e', hn, hee'⟩ := ih (by omega) fun m nk b t hm hmn => hnomove m nk b t hm (by omega)
    have hlt : n < ops.length := by omega
    rw [Run.final_take_succ _ _ _ hlt]
    rcases depositStep_keeps_index _ ops[n] hn with ⟨e'', h, he⟩ | ⟨nk, b, t, hop, -, -⟩
    · exact ⟨e'', h, fun h' => he (hee' h')⟩
    · exact absurd (by rw [List.getElem?_eq_getElem hlt, hop]) (hnomove n nk b t hjn (by omega))

/-! ## Section 5: The reservation invariant over every run -/

/-- **LET deposit-index reservation.** Over every run of bridge-out calls
    from a fresh store with baseline `B`: indices are injective and exactly
    `B, …, B + deposit_counter - 1` are reserved; each reservation's index
    is carried by one stored `BridgeEvent` if it is emitted and by none
    otherwise; the accounted count is `B + deposit_counter`;
    `first_unemitted_reservation` finds the least unemitted index; a key
    keeps its index until a migration moves it, unchanged, to the new key,
    and re-reserving returns it; a failing reservation writes nothing. -/
theorem deposit_index_reservation (B : UInt64) (ops : List DepositOp) :
    let s := Run.final (depositStep P) (InMemoryStore.withBaseline B) ops
    (∀ (k₁ k₂ : String) (i : Nat) (e₁ e₂ : Bool), s.processedNotes[k₁]? = some (i, e₁) →
      s.processedNotes[k₂]? = some (i, e₂) → k₁ = k₂) ∧
    (∀ i, (∃ (k : String) (e : Bool), s.processedNotes[k]? = some (i, e)) ↔
      B.toNat ≤ i ∧ i < B.toNat + s.depositCounter) ∧
    (∀ (k : String) (i : Nat) (e : Bool), s.processedNotes[k]? = some (i, e) →
      bridgeEventCount P s i = if e then 1 else 0) ∧
    getAccountedDepositCount s = .ok (B.toNat + s.depositCounter) ∧
    (∀ i key, firstUnemittedReservation s = some (i, key) →
      s.processedNotes[key]? = some (i, false) ∧
      ∀ (k : String) (j : Nat), s.processedNotes[k]? = some (j, false) → i ≤ j) ∧
    (firstUnemittedReservation s = none ↔
      ∀ (k : String) (i : Nat), s.processedNotes[k]? ≠ some (i, false)) ∧
    (∀ (j j' : Nat) (k : String) (i : Nat) (e : Bool), j ≤ j' → j' ≤ ops.length →
      (Run.final (depositStep P) (InMemoryStore.withBaseline B) (ops.take j)).processedNotes[k]? =
        some (i, e) →
      (∀ m noteKey blockNumber txHash, j ≤ m → m < j' →
        ops[m]? ≠ some (.migrateLegacyDepositKey k noteKey blockNumber txHash)) →
      ∃ e', (Run.final (depositStep P) (InMemoryStore.withBaseline B)
        (ops.take j')).processedNotes[k]? = some (i, e') ∧ (e = true → e' = true)) ∧
    (∀ (k : String) (i : Nat) (e : Bool), s.processedNotes[k]? = some (i, e) →
      reserveDepositIndex k s = (s, .ok i) ∧
      ∀ op, (∃ e', (depositStep P s op).1.processedNotes[k]? = some (i, e') ∧
          (e = true → e' = true)) ∨
        (∃ noteKey blockNumber txHash, op = .migrateLegacyDepositKey k noteKey blockNumber txHash ∧
          (depositStep P s op).1.processedNotes[k]? = none ∧
          (depositStep P s op).1.processedNotes[noteKey]? = some (i, e))) ∧
    (∀ noteKey err, (reserveDepositIndex noteKey s).2 = .error err →
      (reserveDepositIndex noteKey s).1 = s) := by
  intro s
  have hinv : DepositInv P B s :=
    Run.final_invariant _ (DepositInv P B) (fun _ op h => h.step op) (depositInv_withBaseline B) ops
  refine ⟨hinv.injective, hinv.reserved, hinv.emitted, hinv.accounted,
    (firstUnemittedReservation_spec s).2, (firstUnemittedReservation_spec s).1, ?_, ?_, ?_⟩
  · intro j j' k i e hjj' hj' hk hnomove
    exact keeps_index_along _ ops hk j' hjj' hj' hnomove
  · intro k i e hk
    exact ⟨reserveDepositIndex_of_reserved s hk, fun op => depositStep_keeps_index s op hk⟩
  · intro noteKey err h
    exact reserveDepositIndex_of_error s h

end Store
