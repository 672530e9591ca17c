import MidenAgglayer.Projector.Consumptions

/-! # LET Positions of Bridge-Outs

    The projector numbers bridge-outs by their local-exit-tree leaf: a
    B2AGG note the bridge consumed takes, as its `deposit_count`, the index
    of the leaf the bridge appended for it. This module proves that a tick
    of `Projector/Tick.lean` does so.

    * Section 1 says once what one projection step can do to the
      reservations (`Reserves`): nothing, or reserve the next index for the
      note it projects.
    * Section 2 carries an assignment of consecutive indices along the
      window's keys (`Assigned`) through the note loop (Section 3), the
      block and the cursor loop (Section 4).
    * Section 5 reads the LET cardinality gate: when it passes, the window's
      first keys hold consecutive indices that end at the accounted count,
      and the bridge's leaves are the first of them plus the window's size.
    * Section 6 puts the tick together with the gate's records
      (`Projector/Consumptions.lean`): the block loop projects the gate's
      keys in the gate's order, so the `k`-th bridge-out in execution order
      takes the leaf `onChain - n + k` (`let_indices_follow_execution_order`).
-/

open Bytes Maps Store MidenClient

namespace Projector

variable {P : Primitives} {A C : Type}

/-! ## Section 1: What a projection step does to the reservations -/

/-- The LET index reserved under a key. -/
def reservedIndex (s : InMemoryStore) (key : String) : Option Nat :=
  (s.processedNotes[key]?).map Prod.fst

/-- The accounted deposit count: the audited baseline and the reservations
    made here. -/
def accountedCount (s : InMemoryStore) : Nat := s.letGateBaseline.toNat + s.depositCounter

/-- Every key keeps its index, and the count stays. -/
structure SameIndices (s s' : InMemoryStore) : Prop where
  index : ∀ key, reservedIndex s' key = reservedIndex s key
  count : accountedCount s' = accountedCount s

/-- What a projection step may do to the reservations: nothing, or give
    `key`, which had no index, the next one. -/
def Reserves (key : String) (s s' : InMemoryStore) : Prop :=
  SameIndices s s' ∨
    (reservedIndex s key = none ∧ reservedIndex s' key = some (accountedCount s) ∧
      (∀ k, k ≠ key → reservedIndex s' k = reservedIndex s k) ∧
      accountedCount s' = accountedCount s + 1)

theorem SameIndices.refl (s : InMemoryStore) : SameIndices s s := ⟨fun _ => rfl, rfl⟩

theorem SameIndices.trans {s₁ s₂ s₃ : InMemoryStore} (h₁ : SameIndices s₁ s₂) (h₂ : SameIndices s₂ s₃) :
    SameIndices s₁ s₃ :=
  ⟨fun key => (h₂.index key).trans (h₁.index key), h₂.count.trans h₁.count⟩

theorem SameIndices.of_eq {s s' : InMemoryStore} (hpn : s'.processedNotes = s.processedNotes)
    (hctr : s'.depositCounter = s.depositCounter) (hbase : s'.letGateBaseline = s.letGateBaseline) :
    SameIndices s s' :=
  ⟨fun key => by rw [reservedIndex, hpn, reservedIndex], by rw [accountedCount, hctr, hbase, accountedCount]⟩

theorem KeepsProjection.sameIndices {s s' : InMemoryStore} (h : KeepsProjection P s s') :
    SameIndices s s' :=
  .of_eq h.processedNotes h.depositCounter h.letGateBaseline

/-- A committed `BridgeEvent` keeps every index: it only marks its
    reservation emitted. -/
theorem commitB2aggEventAtomic_sameIndices (s : InMemoryStore) (noteId bridgeAddress : String)
    (blockNumber : Nat) (blockHash : B256) (txHash : String) (leafType : UInt8) (originNetwork : Nat)
    (originAddress : Address) (destinationNetwork : Nat) (destinationAddress : Address) (amount : Nat)
    (metadata : List UInt8) :
    SameIndices s (commitB2aggEventAtomic P noteId bridgeAddress blockNumber blockHash txHash leafType
      originNetwork originAddress destinationNetwork destinationAddress amount metadata s).1 := by
  rcases commitB2aggEventAtomic_cases P s noteId bridgeAddress blockNumber blockHash txHash leafType
    originNetwork originAddress destinationNetwork destinationAddress amount metadata with hr | ⟨i, hk, hr⟩
  · rw [hr]
    exact .refl s
  · rw [hr]
    refine ⟨fun key => ?_, rfl⟩
    simp only [reservedIndex, addBridgeEvent_processedNotes, Std.HashMap.getElem?_insert]
    split
    · rename_i heq
      rw [← beq_iff_eq.mp heq, hk]
      rfl
    · rfl

/-- A reservation that succeeds reserves, and leaves the key reserved. -/
theorem reserveDepositIndex_reserves (s : InMemoryStore) (key : String) {i : Nat}
    (hr : (reserveDepositIndex key s).2 = .ok i) :
    Reserves key s (reserveDepositIndex key s).1 ∧ reservedIndex (reserveDepositIndex key s).1 key = some i := by
  rcases reserveDepositIndex_cases s key with ⟨j, e, hk, heq⟩ | ⟨-, -, err, herr⟩ | ⟨hnone, -, -, heq⟩
  · rw [heq] at hr ⊢
    cases hr
    exact ⟨.inl (.refl s), by simp [reservedIndex, hk]⟩
  · rw [herr] at hr
    cases hr
  · rw [heq] at hr ⊢
    cases hr
    have hins : ∀ k, reservedIndex { s with
        depositCounter := s.depositCounter + 1
        processedNotes := s.processedNotes.insert key (s.letGateBaseline.toNat + s.depositCounter, false) } k =
          if key = k then some (accountedCount s) else reservedIndex s k := by
      intro k
      simp only [reservedIndex, Std.HashMap.getElem?_insert, beq_iff_eq]
      split <;> rfl
    refine ⟨.inr ⟨by simp [reservedIndex, hnone], by rw [hins, if_pos rfl], fun k hk => ?_, ?_⟩, ?_⟩
    · rw [hins, if_neg (Ne.symm hk)]
    · simp only [accountedCount]
      omega
    · rw [hins, if_pos rfl]
      rfl

theorem Reserves.same {key : String} {s₁ s₂ s₃ : InMemoryStore} (h₁ : Reserves key s₁ s₂) (h₂ : SameIndices s₂ s₃) :
    Reserves key s₁ s₃ := by
  rcases h₁ with h₁ | ⟨hnone, hkey, hother, hcount⟩
  · exact .inl (h₁.trans h₂)
  · refine .inr ⟨hnone, (h₂.index key).trans hkey, fun k hk => (h₂.index k).trans (hother k hk), ?_⟩
    rw [h₂.count, hcount]

section Step

variable [DecidableEq A] (cfg : Config A C) (emission : Emission) (block : Nat) (blockHash : B256)
  (note : InputNote A) (noteId : NoteId) (s : InMemoryStore)

/-- **Inversion.** A bridge-out projection writes nothing, and then it
    succeeds only for a note that is no B2AGG, already processed or not
    consumed by the bridge; or its reservation succeeds, and it then
    writes that reservation and perhaps a `BridgeEvent` under it. -/
theorem projectB2aggNote_cases :
    ((projectB2aggNote P cfg emission block blockHash note noteId s).1 = s ∧
      ∀ o, (projectB2aggNote P cfg emission block blockHash note noteId s).2 = .ok o →
        note.details.isB2agg = false ∨ isNoteProcessed (cfg.noteKey noteId) s = true ∨
          classifyB2aggConsumer note.consumer cfg.bridgeId ≠ .emit) ∨
    ∃ i, (reserveDepositIndex (cfg.noteKey noteId) s).2 = .ok i ∧
      ((projectB2aggNote P cfg emission block blockHash note noteId s).1 =
          (reserveDepositIndex (cfg.noteKey noteId) s).1 ∨
        ∃ bridgeAddress blockNumber blockHash' txHash leafType originNetwork originAddress
          destinationNetwork destinationAddress amount metadata,
          (projectB2aggNote P cfg emission block blockHash note noteId s).1 =
            (commitB2aggEventAtomic P (cfg.noteKey noteId) bridgeAddress blockNumber blockHash' txHash
              leafType originNetwork originAddress destinationNetwork destinationAddress amount metadata
              (reserveDepositIndex (cfg.noteKey noteId) s).1).1) := by
  unfold projectB2aggNote
  split
  · rename_i hb2agg
    exact .inl ⟨rfl, fun _ _ => .inl (by simpa using hb2agg)⟩
  dsimp only
  split
  · rename_i hproc
    exact .inl ⟨rfl, fun _ _ => .inr (.inl hproc)⟩
  cases hclass : classifyB2aggConsumer note.consumer cfg.bridgeId with
  | reclaimed => exact .inl ⟨rfl, fun _ _ => .inr (.inr (by simp))⟩
  | untrackedConsumer => exact .inl ⟨rfl, fun _ _ => .inr (.inr (by simp))⟩
  | emit =>
    simp only
    rcases hr : reserveDepositIndex (cfg.noteKey noteId) s with ⟨s₁, err | i⟩
    · -- a failed reservation writes nothing
      have hs₁ : s₁ = s := by
        have := reserveDepositIndex_of_error s (by rw [hr])
        rwa [hr] at this
      subst hs₁
      exact .inl ⟨rfl, fun _ h => by cases h⟩
    · refine .inr ⟨i, rfl, ?_⟩
      simp only
      split
      · exact .inl rfl
      · split
        · exact .inl rfl
        · split
          · exact .inl rfl
          · exact .inl rfl
          · split
            · exact .inl rfl
            · split
              · exact .inr ⟨_, _, _, _, _, _, _, _, _, _, _, by rename_i h; rw [h]⟩
              · exact .inr ⟨_, _, _, _, _, _, _, _, _, _, _, by rename_i h; rw [h]⟩

/-- A bridge-out projection reserves at most its own key. -/
theorem projectB2aggNote_reserves :
    Reserves (cfg.noteKey noteId) s (projectB2aggNote P cfg emission block blockHash note noteId s).1 := by
  rcases projectB2aggNote_cases cfg emission block blockHash note noteId s with
    ⟨hs, -⟩ | ⟨i, hok, hr | ⟨_, _, _, _, _, _, _, _, _, _, _, hr⟩⟩
  · rw [hs]
    exact .inl (.refl s)
  · rw [hr]
    exact (reserveDepositIndex_reserves s _ hok).1
  · rw [hr]
    exact (reserveDepositIndex_reserves s _ hok).1.same (commitB2aggEventAtomic_sameIndices _ _ _ _ _ _ _ _ _ _ _ _ _)

/-- A bridge-out the bridge consumed holds a reservation once its
    projection succeeds. -/
theorem projectB2aggNote_reserved {o : B2AggRestoreOutcome}
    (hok : (projectB2aggNote P cfg emission block blockHash note noteId s).2 = .ok o)
    (hb2agg : note.details.isB2agg = true) (hbridge : note.consumer = some cfg.bridgeId) :
    (reservedIndex (projectB2aggNote P cfg emission block blockHash note noteId s).1 (cfg.noteKey noteId)).isSome := by
  have hclass : classifyB2aggConsumer note.consumer cfg.bridgeId = .emit := by
    simp [classifyB2aggConsumer, hbridge]
  rcases projectB2aggNote_cases cfg emission block blockHash note noteId s with
    ⟨hs, hwhy⟩ | ⟨i, hres, hr | ⟨_, _, _, _, _, _, _, _, _, _, _, hr⟩⟩
  · rcases hwhy o hok with hno | hproc | hno
    · rw [hb2agg] at hno
      cases hno
    · -- a processed note is reserved and emitted
      rw [hs]
      obtain ⟨i, hk⟩ : ∃ i, s.processedNotes[cfg.noteKey noteId]? = some (i, true) := by
        simpa [isNoteProcessed, Option.any_eq_true] using hproc
      simp [reservedIndex, hk]
    · exact absurd hclass hno
  · rw [hr, (reserveDepositIndex_reserves s _ hres).2]
    rfl
  · rw [hr, (commitB2aggEventAtomic_sameIndices _ _ _ _ _ _ _ _ _ _ _ _ _).index,
      (reserveDepositIndex_reserves s _ hres).2]
    rfl

/-- A bridge-out projection keeps the reservation invariant: it is at
    most a reservation and a commit. -/
theorem DepositInv.projectB2aggNote {B : UInt64} (hinv : DepositInv P B s) :
    DepositInv P B (projectB2aggNote P cfg emission block blockHash note noteId s).1 := by
  rcases projectB2aggNote_cases cfg emission block blockHash note noteId s with
    ⟨hs, -⟩ | ⟨i, -, hr | ⟨ba, bn, bh, th, lt, on, oa, dn, da, am, md, hr⟩⟩
  · rwa [hs]
  · rw [hr]
    exact hinv.step (.reserveDepositIndex _)
  · rw [hr]
    exact (hinv.step (.reserveDepositIndex _)).step (.commitB2aggEventAtomic _ ba bn bh th lt on oa dn da am md)

end Step

/-! ## Section 2: Consecutive indices along the window -/

/-- The window's keys before `k` hold the indices `b`, `b + 1`, … in order,
    those from `k` on hold none, and `b + k` are accounted. -/
structure Assigned (ks : List String) (b k : Nat) (s : InMemoryStore) : Prop where
  le : k ≤ ks.length
  done : ∀ i (h : i < ks.length), i < k → reservedIndex s ks[i] = some (b + i)
  todo : ∀ i (h : i < ks.length), k ≤ i → reservedIndex s ks[i] = none
  count : accountedCount s = b + k

section Assignment

variable {ks : List String} {b k : Nat} {s s' : InMemoryStore}

theorem Assigned.same (h : Assigned ks b k s) (hs : SameIndices s s') : Assigned ks b k s' where
  le := h.le
  done i hi hik := (hs.index _).trans (h.done i hi hik)
  todo i hi hki := (hs.index _).trans (h.todo i hi hki)
  count := hs.count.trans h.count

/-- **Step lemma.** Projecting the window's `j`-th key, at or before the
    first unreserved one, keeps the assignment, and takes it past `j`. -/
theorem Assigned.reserve (hnd : ks.Nodup) (h : Assigned ks b k s) {j : Nat} (hj : j < ks.length)
    (hjk : j ≤ k) (hr : Reserves ks[j] s s') (hsome : (reservedIndex s' ks[j]).isSome) :
    ∃ k', Assigned ks b k' s' ∧ j + 1 ≤ k' := by
  rcases Nat.lt_or_eq_of_le hjk with hlt | rfl
  · -- an earlier key is reserved already, so the step reserves nothing
    rcases hr with hsame | ⟨hnone, -⟩
    · exact ⟨k, h.same hsame, hlt⟩
    · rw [h.done j hj hlt] at hnone
      cases hnone
  · rcases hr with hsame | ⟨-, hkey, hother, hcount⟩
    · rw [hsame.index, h.todo j hj le_rfl] at hsome
      cases hsome
    · -- the first unreserved key takes the next index
      have hne : ∀ i (hi : i < ks.length), i ≠ j → ks[i] ≠ ks[j] := fun i hi hij heq =>
        hij ((hnd.getElem_inj_iff).mp heq)
      refine ⟨j + 1, ⟨hj, fun i hi hij => ?_, fun i hi hji => ?_, ?_⟩, le_rfl⟩
      · rcases Nat.lt_or_eq_of_le (Nat.le_of_lt_succ hij) with hlt | rfl
        · rw [hother _ (hne i hi (Nat.ne_of_lt hlt)), h.done i hi hlt]
        · rw [hkey, h.count]
      · rw [hother _ (hne i hi (by omega)), h.todo i hi (by omega)]
      · rw [hcount, h.count]
        rfl

end Assignment

/-! ## Section 3: The note loop -/

/-- The keys of a list's B2AGG notes, in order. -/
def b2aggKeys (noteKey : NoteId → String) (notes : List (Option NoteId × InputNote A)) : List String :=
  notes.filterMap fun n => if n.2.details.isB2agg then n.1.map noteKey else none

@[simp] theorem b2aggKeys_nil (noteKey : NoteId → String) : b2aggKeys noteKey ([] : List (Option NoteId × InputNote A)) = [] :=
  rfl

theorem prefix_drop_cons {ks : List String} {j : Nat} {key : String} {rest : List String}
    (h : key :: rest <+: ks.drop j) : ∃ hj : j < ks.length, ks[j] = key ∧ rest <+: ks.drop (j + 1) := by
  have hj : j < ks.length := by
    by_contra hge
    rw [List.drop_eq_nil_of_le (Nat.le_of_not_lt hge)] at h
    exact List.cons_ne_nil _ _ (List.prefix_nil.mp h)
  rw [List.drop_eq_getElem_cons hj, List.cons_prefix_cons] at h
  exact ⟨hj, h.1.symm, h.2⟩

section Notes

variable [DecidableEq A] (cfg : Config A C) (env : TickEnv P A C) (block : Nat) (blockHash : B256)

/-- **Run lemma of the note loop.** When the loop succeeds, every B2AGG it
    projects, the bridge consumed, and their keys come next in the window,
    the assignment goes on past them. -/
theorem projectNotes_assigned {ks : List String} {b : Nat} (hnd : ks.Nodup) :
    ∀ (notes : List (Option NoteId × InputNote A)) (logs : Nat) (s s' : InMemoryStore) (j k c : Nat),
      projectNotes P cfg env block blockHash notes logs s = (s', .ok c) →
      Assigned ks b k s → j ≤ k →
      (∀ n ∈ notes, n.2.details.isB2agg = true → n.2.consumer = some cfg.bridgeId) →
      b2aggKeys cfg.noteKey notes <+: ks.drop j →
      ∃ k', Assigned ks b k' s' ∧ j + (b2aggKeys cfg.noteKey notes).length ≤ k'
  | [], logs, s, s', j, k, c, h, hs, hjk, _, _ => by
    simp only [projectNotes, Prod.mk.injEq] at h
    rw [← h.1]
    exact ⟨k, hs, by simpa using hjk⟩
  | (noteId, note) :: rest, logs, s, s', j, k, c, h, hs, hjk, hbridge, hkeys => by
    have hbridge' : ∀ n ∈ rest, n.2.details.isB2agg = true → n.2.consumer = some cfg.bridgeId :=
      fun n hn => hbridge n (List.mem_cons_of_mem _ hn)
    by_cases hb2agg : note.details.isB2agg = true
    · cases noteId with
      | none => simp [projectNotes, hb2agg] at h
      | some noteId =>
        -- the note's key is the window's `j`-th, and its projection reserves it
        have hcons : b2aggKeys cfg.noteKey ((some noteId, note) :: rest) =
            cfg.noteKey noteId :: b2aggKeys cfg.noteKey rest := by
          simp [b2aggKeys, hb2agg]
        rw [hcons] at hkeys ⊢
        obtain ⟨hj, hkey, hrest⟩ := prefix_drop_cons hkeys
        simp only [projectNotes, hb2agg, if_true] at h
        rcases hp : projectB2aggNote P cfg (env.emission note) block blockHash note noteId s with ⟨s₁, e | o⟩
        · rw [hp] at h
          cases h
        · rw [hp] at h
          dsimp only at h
          have hres := projectB2aggNote_reserves (P := P) cfg (env.emission note) block blockHash note noteId s
          have hsome := projectB2aggNote_reserved cfg (env.emission note) block blockHash note noteId s
            (by rw [hp]) hb2agg (hbridge _ List.mem_cons_self hb2agg)
          rw [hp, ← hkey] at hres hsome
          obtain ⟨k₁, hs₁, hjk₁⟩ := hs.reserve hnd hj hjk hres hsome
          obtain ⟨k', hs', hk'⟩ := projectNotes_assigned hnd rest _ s₁ s' (j + 1) k₁ c h hs₁ hjk₁ hbridge' hrest
          exact ⟨k', hs', by simp only [List.length_cons]; omega⟩
    · -- a CLAIM or GER note keeps every reservation
      have hcons : b2aggKeys cfg.noteKey ((noteId, note) :: rest) = b2aggKeys cfg.noteKey rest := by
        simp [b2aggKeys, hb2agg]
      rw [hcons] at hkeys ⊢
      simp only [projectNotes, hb2agg, Bool.false_eq_true, if_false] at h
      rcases hc : env.others.claim block note s with ⟨s₁, e | _ | _⟩
      · rw [hc] at h
        cases h
      · rw [hc] at h
        dsimp only at h
        have hsame := (env.others.claim_keeps block note s).sameIndices
        rw [hc] at hsame
        rcases hg : env.others.ger block note s₁ with ⟨s₂, e | emitted⟩
        · rw [hg] at h
          cases h
        · rw [hg] at h
          dsimp only at h
          have hsame₂ := (env.others.ger_keeps block note s₁).sameIndices
          rw [hg] at hsame₂
          exact projectNotes_assigned hnd rest _ s₂ s' j k c h ((hs.same hsame).same hsame₂) hjk hbridge' hkeys
      · rw [hc] at h
        dsimp only at h
        have hsame := (env.others.claim_keeps block note s).sameIndices
        rw [hc] at hsame
        exact projectNotes_assigned hnd rest _ s₁ s' j k c h (hs.same hsame) hjk hbridge' hkeys

end Notes

theorem prefix_drop_append {ks l₁ l₂ : List String} {j : Nat} (h : l₁ ++ l₂ <+: ks.drop j) :
    l₁ <+: ks.drop j ∧ l₂ <+: ks.drop (j + l₁.length) := by
  obtain ⟨t, ht⟩ := h
  refine ⟨⟨l₂ ++ t, by rw [← List.append_assoc, ht]⟩, ⟨t, ?_⟩⟩
  rw [← List.drop_drop, ← ht, List.append_assoc, List.drop_left]

/-! ## Section 4: One block and the cursor loop -/

section Blocks

variable [DecidableEq A] (cfg : Config A C) (env : TickEnv P A C)

/-- The keys of a block's B2AGG notes in the order `project_block_notes`
    projects them. -/
def blockKeys (pos : Std.HashMap NoteId Nat) (byBlock : Std.HashMap Nat (List (Option NoteId × InputNote A)))
    (block : Nat) : List String :=
  b2aggKeys cfg.noteKey (sortBy (blockOrder pos) (byBlock.getD block []))

/-- **Inversion.** A block that seals ran the note loop over its sorted
    notes, found every reservation emitted, and then set the tip. -/
theorem projectBlockNotes_ok {blockNotes : List (Option NoteId × InputNote A)} {block : Nat}
    {pos : Std.HashMap NoteId Nat} {s s' : InMemoryStore} {c : Nat}
    (h : projectBlockNotes P cfg env blockNotes block pos s = (s', .ok c)) :
    ∃ s₁, projectNotes P cfg env block (cfg.blockHash block) (sortBy (blockOrder pos) blockNotes) 0 s = (s₁, .ok c) ∧
      firstUnemittedReservation s₁ = none ∧ s' = { s₁ with latestBlockNumber := block } := by
  unfold projectBlockNotes at h
  split at h
  · cases h
  · rcases hp : projectNotes P cfg env block (cfg.blockHash block) (sortBy (blockOrder pos) blockNotes) 0 s with
      ⟨s₁, e | logs⟩
    · rw [hp] at h
      cases h
    · rw [hp] at h
      dsimp only at h
      split at h
      · cases h
      · rename_i hnone
        simp only [Prod.mk.injEq, Except.ok.injEq] at h
        exact ⟨s₁, by rw [h.2], hnone, h.1.symm⟩

/-- **Run lemma of a block.** A block that seals carries the assignment
    past its B2AGG keys. -/
theorem projectBlockNotes_assigned {ks : List String} {b : Nat} (hnd : ks.Nodup)
    {blockNotes : List (Option NoteId × InputNote A)} {block : Nat} {pos : Std.HashMap NoteId Nat}
    {s s' : InMemoryStore} {j k c : Nat} (h : projectBlockNotes P cfg env blockNotes block pos s = (s', .ok c))
    (hs : Assigned ks b k s) (hjk : j ≤ k)
    (hbridge : ∀ n ∈ blockNotes, n.2.details.isB2agg = true → n.2.consumer = some cfg.bridgeId)
    (hkeys : b2aggKeys cfg.noteKey (sortBy (blockOrder pos) blockNotes) <+: ks.drop j) :
    ∃ k', Assigned ks b k' s' ∧ j + (b2aggKeys cfg.noteKey (sortBy (blockOrder pos) blockNotes)).length ≤ k' := by
  obtain ⟨s₁, hp, -, rfl⟩ := projectBlockNotes_ok cfg env h
  have hbridge' : ∀ n ∈ sortBy (blockOrder pos) blockNotes, n.2.details.isB2agg = true →
      n.2.consumer = some cfg.bridgeId := fun n hn => hbridge n ((sortBy_perm _ _).subset hn)
  obtain ⟨k', hs', hk'⟩ := projectNotes_assigned cfg env block _ hnd _ 0 s s₁ j k c hp hs hjk hbridge' hkeys
  exact ⟨k', hs'.same (.of_eq rfl rfl rfl), hk'⟩

/-- **Run lemma of the cursor loop.** When the loop succeeds and the keys
    of the blocks it visits come next in the window, the assignment goes on
    past them. -/
theorem projectLoop_assigned {ks : List String} {b : Nat} (hnd : ks.Nodup)
    (byBlock : Std.HashMap Nat (List (Option NoteId × InputNote A))) (pos : Std.HashMap NoteId Nat) (tip : Nat)
    (hbridge : ∀ block, ∀ n ∈ byBlock.getD block [], n.2.details.isB2agg = true → n.2.consumer = some cfg.bridgeId) :
    ∀ (fuel cursor : Nat) (s s' : InMemoryStore) (j k c : Nat),
      projectLoop P cfg env byBlock pos tip fuel cursor s = (s', .ok c) →
      Assigned ks b k s → j ≤ k →
      (List.range' (cursor + 1) (min fuel (tip - cursor))).flatMap (blockKeys cfg pos byBlock) <+: ks.drop j →
      ∃ k', Assigned ks b k' s' ∧
        j + ((List.range' (cursor + 1) (min fuel (tip - cursor))).flatMap (blockKeys cfg pos byBlock)).length ≤ k'
  | 0, cursor, s, s', j, k, c, h, hs, hjk, _ => by
    simp only [projectLoop, Prod.mk.injEq] at h
    rw [← h.1]
    exact ⟨k, hs, by simpa using hjk⟩
  | fuel + 1, cursor, s, s', j, k, c, h, hs, hjk, hkeys => by
    unfold projectLoop at h
    split at h
    · rename_i hlt
      rcases hp : projectBlockNotes P cfg env (byBlock.getD (cursor + 1) []) (cursor + 1) pos s with ⟨s₁, e | logs⟩
      · rw [hp] at h
        cases h
      · rw [hp] at h
        dsimp only at h
        -- the visited blocks are this one, then those the rest of the loop visits
        have hrange : List.range' (cursor + 1) (min (fuel + 1) (tip - cursor)) =
            (cursor + 1) :: List.range' (cursor + 1 + 1) (min fuel (tip - (cursor + 1))) := by
          rw [show min (fuel + 1) (tip - cursor) = min fuel (tip - (cursor + 1)) + 1 by omega]
          rfl
        rw [hrange, List.flatMap_cons] at hkeys ⊢
        obtain ⟨hfirst, hrest⟩ := prefix_drop_append hkeys
        obtain ⟨k₁, hs₁, hk₁⟩ := projectBlockNotes_assigned cfg env hnd hp hs hjk (hbridge _) hfirst
        obtain ⟨k', hs', hk'⟩ := projectLoop_assigned hnd byBlock pos tip hbridge fuel (cursor + 1) _ s'
          (j + (blockKeys cfg pos byBlock (cursor + 1)).length) k₁ c h (hs₁.same (.of_eq rfl rfl rfl)) hk₁ hrest
        refine ⟨k', hs', ?_⟩
        rw [List.length_append]
        omega
    · rename_i hge
      simp only [Prod.mk.injEq] at h
      rw [← h.1]
      exact ⟨k, hs, by simp [show tip - cursor = 0 by omega, hjk]⟩

end Blocks

/-! ## Section 5: The LET cardinality gate -/

section Gate

variable {keys : List String} {s : InMemoryStore}

/-- `get_deposit_indices` collects the reserved keys, in order. -/
theorem map_fst_depositIndices (s : InMemoryStore) (keys : List String) :
    (keys.filterMap fun key => (s.processedNotes[key]?).map fun r => (key, r.1)).map Prod.fst =
      keys.filter fun key => (s.processedNotes[key]?).isSome := by
  induction keys with
  | nil => rfl
  | cons key keys ih =>
    rw [List.filterMap_cons, List.filter_cons]
    cases h : s.processedNotes[key]? <;> simp [ih]

theorem pairwise_depositIndices (hnd : keys.Nodup) :
    (keys.filterMap fun key => (s.processedNotes[key]?).map fun r => (key, r.1)).Pairwise
      fun a b => (a.1 == b.1) = false := by
  have hnd' := hnd.filter fun key => (s.processedNotes[key]?).isSome
  rw [← map_fst_depositIndices, List.Nodup, List.pairwise_map] at hnd'
  exact hnd'.imp fun h => beq_eq_false_iff_ne.mpr h

/-- A listed key maps to its reserved index, an unlisted one to nothing. -/
theorem getElem?_getDepositIndices (hnd : keys.Nodup) (key : String) :
    (getDepositIndices keys s)[key]? = if key ∈ keys then reservedIndex s key else none := by
  unfold getDepositIndices
  by_cases hk : key ∈ keys
  · rw [if_pos hk]
    cases hr : s.processedNotes[key]? with
    | none =>
      rw [Std.HashMap.getElem?_ofList_of_contains_eq_false]
      · simp [reservedIndex, hr]
      · rw [map_fst_depositIndices]
        have hnot : key ∉ keys.filter fun key => (s.processedNotes[key]?).isSome := by
          simp only [List.mem_filter, hr, Option.isSome_none, Bool.false_eq_true, and_false,
            not_false_eq_true]
        simpa using hnot
    | some r =>
      rw [Std.HashMap.getElem?_ofList_of_mem (k := key) (v := r.1) BEq.rfl (pairwise_depositIndices hnd)]
      · simp [reservedIndex, hr]
      · exact List.mem_filterMap.mpr ⟨key, hk, by simp [hr]⟩
  · rw [if_neg hk, Std.HashMap.getElem?_ofList_of_contains_eq_false]
    rw [map_fst_depositIndices]
    simp [hk]

/-- `existing.len()` counts the reserved keys. -/
theorem size_getDepositIndices (hnd : keys.Nodup) :
    (getDepositIndices keys s).size = (keys.filter fun key => (s.processedNotes[key]?).isSome).length := by
  unfold getDepositIndices
  rw [Std.HashMap.size_ofList (pairwise_depositIndices hnd), ← List.length_map (f := Prod.fst),
    map_fst_depositIndices]

/-- The order check passes only when each key holds its expected index. -/
theorem checkReservedPrefix_ok {existing : Std.HashMap String Nat} {start : Nat} :
    ∀ (offset : Nat) (l : List String), (checkReservedPrefix existing start offset l : Except (TickError A) Unit) = .ok () →
      ∀ i (h : i < l.length), existing[l[i]]? = some (start + (offset + i))
  | _, [], _, i, h => absurd h (by simp)
  | offset, key :: rest, hok, i, h => by
    unfold checkReservedPrefix at hok
    dsimp only at hok
    split at hok
    · cases hok
    · split at hok
      · rename_i heq
        cases i with
        | zero => simpa using heq
        | succ i =>
          have hrest := checkReservedPrefix_ok (offset + 1) rest hok i (by simpa using h)
          rw [show offset + (i + 1) = offset + 1 + i by omega]
          simpa using hrest
      · cases hok

/-- The keys holding a reservation are exactly the first `f`, when every
    key before `f` holds one and none after. -/
theorem length_filter_reserved {f : Nat} (hf : f ≤ keys.length)
    (hbefore : ∀ i (h : i < keys.length), i < f → (s.processedNotes[keys[i]]?).isSome = true)
    (hafter : ∀ i (h : i < keys.length), f ≤ i → (s.processedNotes[keys[i]]?).isSome = false) :
    (keys.filter fun key => (s.processedNotes[key]?).isSome).length = f := by
  rw [← List.take_append_drop f keys, List.filter_append]
  have htake : (keys.take f).filter (fun key => (s.processedNotes[key]?).isSome) = keys.take f := by
    rw [List.filter_eq_self]
    intro key hkey
    obtain ⟨i, hi, rfl⟩ := List.mem_iff_getElem.mp hkey
    rw [List.getElem_take]
    have hif : i < f := by
      simp only [List.length_take] at hi
      omega
    exact hbefore i _ hif
  have hdrop : (keys.drop f).filter (fun key => (s.processedNotes[key]?).isSome) = [] := by
    rw [List.filter_eq_nil_iff]
    intro key hkey
    obtain ⟨i, hi, rfl⟩ := List.mem_iff_getElem.mp hkey
    rw [List.getElem_drop]
    simp [hafter (f + i) _ (by omega)]
  rw [htake, hdrop, List.append_nil, List.length_take_of_le hf]

/-- **Gate rule.** When the LET cardinality gate passes on the reservations
    of distinct keys, some first `f` keys hold consecutive indices ending at
    the accounted count, the rest hold none, and the on-chain leaf count is
    the first of those indices plus the number of keys. -/
theorem letGate_ok {onChain accounted : Nat} (hnd : keys.Nodup)
    (h : (letGate onChain accounted keys (getDepositIndices keys s) : Except (TickError A) Unit) = .ok ())
    (hacc : accountedCount s = accounted) :
    ∃ f, Assigned keys (accounted - f) f s ∧ f ≤ accounted ∧ onChain = accounted - f + keys.length := by
  set existing := getDepositIndices keys s with hexisting
  set f := keys.findIdx fun key => !existing.contains key with hf
  have hcontains : ∀ i (hi : i < keys.length),
      existing.contains keys[i] = (s.processedNotes[keys[i]]?).isSome := by
    intro i hi
    rw [Std.HashMap.contains_eq_isSome_getElem?, hexisting,
      getElem?_getDepositIndices hnd, if_pos (List.getElem_mem hi), reservedIndex, Option.isSome_map]
  unfold letGate at h
  simp only at h
  split at h
  · cases h
  rename_i hprefix
  split at h
  · cases h
  rename_i hunder
  rcases hc : (checkReservedPrefix existing (accounted - f) 0 (keys.take f) : Except (TickError A) Unit) with e | ⟨⟩
  · rw [hc] at h
    cases h
  rw [hc] at h
  dsimp only at h
  split at h
  · cases h
  split at h
  swap
  · cases h
  rename_i hcard
  -- the keys before `f` are listed, those after are not
  have hflen : f ≤ keys.length := List.findIdx_le_length
  have hbefore : ∀ i (hi : i < keys.length), i < f → (s.processedNotes[keys[i]]?).isSome = true := by
    intro i hi hif
    have := List.not_of_lt_findIdx hif
    rw [← hcontains i hi]
    simpa using this
  have hafter : ∀ i (hi : i < keys.length), f ≤ i → (s.processedNotes[keys[i]]?).isSome = false := by
    intro i hi hfi
    rw [← hcontains i hi]
    have hnone := List.any_eq_false.mp (Bool.eq_false_iff.mpr hprefix)
    have hmem : keys[i] ∈ keys.drop f := by
      rw [List.mem_iff_getElem]
      exact ⟨i - f, by simp; omega, by rw [List.getElem_drop]; congr 1; omega⟩
    simpa using hnone _ hmem
  have hsize : existing.size = f := by
    rw [hexisting, size_getDepositIndices hnd]
    exact length_filter_reserved hflen hbefore hafter
  have hchecked := checkReservedPrefix_ok (A := A) 0 (keys.take f) hc
  refine ⟨f, ⟨hflen, fun i hi hif => ?_, fun i hi hfi => ?_, ?_⟩, by omega, ?_⟩
  · have hi' := hchecked i (by simp; omega)
    rw [List.getElem_take, hexisting, getElem?_getDepositIndices hnd, if_pos (List.getElem_mem hi)] at hi'
    simpa using hi'
  · have := hafter i hi hfi
    simpa [reservedIndex] using this
  · omega
  · rw [hsize] at hcard
    omega

end Gate

/-! ## Section 6: The tick -/

section Window

variable {A C : Type}

/-- The B2AGG keys of a list are those of its B2AGG notes. -/
theorem b2aggKeys_filter (noteKey : NoteId → String) (l : List (Option NoteId × InputNote A)) :
    b2aggKeys noteKey (l.filter fun n => n.2.details.isB2agg) = b2aggKeys noteKey l := by
  unfold b2aggKeys
  rw [List.filterMap_filter]
  refine List.filterMap_congr fun n _ => ?_
  by_cases h : n.2.details.isB2agg <;> simp [h]

/-- The B2AGG keys of records are their ids' keys. -/
theorem b2aggKeys_records (noteKey : NoteId → String) {recs : List (NoteId × InputNote A)}
    (h : ∀ r ∈ recs, r.2.details.isB2agg = true) :
    b2aggKeys noteKey (recs.map fun r => (some r.1, r.2)) = recs.map fun r => noteKey r.1 := by
  unfold b2aggKeys
  rw [List.filterMap_map, ← List.filterMap_eq_map']
  refine List.filterMap_congr fun r hr => ?_
  simp [h r hr]

variable {cfg : Config A C} {ordered : List (Nat × Nat × TransactionRecord A C)} {cursor tip : Nat}
  {auth : List (NoteId × InputNote A)} {pos : Std.HashMap NoteId Nat}

/-- A block's keys, in the order the block loop projects them, are its
    records' keys in the gate's order. -/
theorem AuthSource.blockKeys_eq (h : AuthSource cfg ordered cursor tip auth pos) (consumed : List (InputNote A))
    (b : Nat) :
    blockKeys cfg pos (pushAuthoritative (storeFedBuckets consumed) auth) b =
      (auth.filter fun r => r.2.consumedBlock = some b).map fun r => cfg.noteKey r.1 := by
  unfold blockKeys
  rw [← b2aggKeys_filter, h.filter_sortBy_bucket consumed b]
  exact b2aggKeys_records cfg.noteKey fun r hr => (h.record r (List.mem_of_mem_filter hr)).isB2agg

/-- **Order agreement.** Block after block of the window, the block loop
    projects the gate's keys in the gate's order. -/
theorem AuthSource.window_blockKeys (h : AuthSource cfg ordered cursor tip auth pos) (consumed : List (InputNote A)) :
    (List.range' (cursor + 1) (tip - cursor)).flatMap
        (blockKeys cfg pos (pushAuthoritative (storeFedBuckets consumed) auth)) =
      auth.map fun r => cfg.noteKey r.1 := by
  rw [List.flatMap_congr fun b _ => h.blockKeys_eq consumed b, ← List.map_flatMap, h.flatMap_blocks]

end Window

section Tick

variable [DecidableEq A] [DecidableEq C] (cfg : Config A C) (env : TickEnv P A C)

/-- The accounted count `get_accounted_deposit_count` returns. -/
theorem accountedCount_of_getAccountedDepositCount {s : InMemoryStore} {n : Nat}
    (h : getAccountedDepositCount s = .ok n) : accountedCount s = n := by
  unfold getAccountedDepositCount at h
  split at h
  · cases h
    rfl
  · cases h

/-- **Inversion.** A tick that succeeds past the visibility barrier with
    blocks to seal migrated the legacy keys, passed the LET gate, and ran
    the block loop from its cursor to the tip. -/
theorem tick_advances {s s' : InMemoryStore} {c tip : Nat} (hsync : env.syncHeight = .ok tip)
    (hbarrier : tip ≤ env.reconcileCursor) (hadvance : s.projectorCursor < tip)
    (h : tick P cfg env s = (s', .ok c)) :
    ∃ consumed auth pos onChain accounted, env.consumed = .ok consumed ∧
      authoritativeB2agg P cfg env s.projectorCursor tip = .ok (auth, pos) ∧
      env.letNumLeaves = .ok (some onChain) ∧
      getAccountedDepositCount (migrateLegacyKeys P cfg auth s) = .ok accounted ∧
      (letGate onChain accounted (auth.map fun r => cfg.noteKey r.1)
        (getDepositIndices (auth.map fun r => cfg.noteKey r.1) (migrateLegacyKeys P cfg auth s)) :
          Except (TickError A) Unit) = .ok () ∧
      projectLoop P cfg env (pushAuthoritative (storeFedBuckets consumed) auth) pos tip
        (tip - s.projectorCursor) s.projectorCursor (migrateLegacyKeys P cfg auth s) = (s', .ok c) := by
  unfold tick at h
  rw [hsync] at h
  dsimp only at h
  rw [if_neg (by omega)] at h
  rcases hcons : env.consumed with e | consumed
  · rw [hcons] at h
    cases h
  rw [hcons] at h
  dsimp only at h
  rw [if_neg (by omega)] at h
  rcases hout : env.outputNotes with e | ⟨⟩
  · rw [hout] at h
    cases h
  rw [hout] at h
  dsimp only at h
  rcases hauth : authoritativeB2agg P cfg env s.projectorCursor tip with e | ⟨auth, pos⟩
  · rw [hauth] at h
    cases h
  rw [hauth] at h
  dsimp only at h
  rcases hleaves : env.letNumLeaves with e | _ | onChain
  · rw [hleaves] at h
    cases h
  · rw [hleaves] at h
    cases h
  rw [hleaves] at h
  dsimp only at h
  rcases hacc : getAccountedDepositCount (migrateLegacyKeys P cfg auth s) with e | accounted
  · rw [hacc] at h
    cases h
  rw [hacc] at h
  dsimp only at h
  rcases hgate : (letGate onChain accounted (auth.map fun r => cfg.noteKey r.1)
      (getDepositIndices (auth.map fun r => cfg.noteKey r.1) (migrateLegacyKeys P cfg auth s)) :
        Except (TickError A) Unit) with e | ⟨⟩
  · rw [hgate] at h
    cases h
  rw [hgate] at h
  exact ⟨consumed, auth, pos, onChain, accounted, rfl, rfl, rfl, hacc, hgate, h⟩

end Tick

/-! A window of one block whose one bridge-out the bridge consumed, reserved
    and emitted before: the tick keeps its leaf and seals the block. -/

section Sample

/-- A bridge transaction at block `1`. -/
def sampleBridgeTx : TransactionRecord Nat Nat := ⟨1, ⟨0, 3, 4⟩⟩

/-- A B2AGG body without a valid destination. -/
def sampleB2aggDetails : NoteDetails := ⟨true, zeroWord, .error ""⟩

/-- A bridge whose transactions each consume one identified note. -/
def sampleTickConfig : Config Nat Nat where
  bridgeId := 0
  localNetworkId := 0
  bridgeAddress := ""
  blockHash _ := zeroWord
  noteKey _ := "note"
  inputNotes _ := [(zeroWord, some zeroWord)]

/-- CLAIM and GER projections that emit nothing. -/
def OtherProjections.idle (P : Primitives) (A : Type) : OtherProjections P A where
  claim _ _ s := (s, .ok false)
  ger _ _ s := (s, .ok false)
  claim_keeps _ _ _ := ⟨rfl, rfl, rfl, rfl, rfl, fun _ => rfl⟩
  ger_keeps _ _ _ := ⟨rfl, rfl, rfl, rfl, rfl, fun _ => rfl⟩

/-- A node at height `1`, reconciled, with one bridge transaction and its
    note's public body, and one LET leaf. -/
def sampleTickEnv : TickEnv Primitives.sample Nat Nat where
  syncHeight := .ok 1
  reconcileCursor := 1
  consumed := .ok []
  outputNotes := .ok ()
  syncTransactions lo hi := .ok ([sampleBridgeTx].filter fun tx => lo ≤ tx.blockNum && tx.blockNum ≤ hi)
  syncTransactions_range lo hi txs h tx htx := by
    cases h
    simpa using (List.mem_filter.mp htx).2
  b2aggNoteIds _ := none
  fetchPublicBodies := .ok ⟨[⟨zeroWord, sampleB2aggDetails⟩], [zeroWord]⟩
  letNumLeaves := .ok (some 1)
  emission _ := .quarantined
  others := OtherProjections.idle Primitives.sample Nat

/-- Where the bridge consumed the note. -/
def sampleBridgeRef : ConsumedRef := ⟨1, 0, some zeroWord, 0⟩

/-- A store whose one reservation, index `0`, is emitted. -/
def sampleEmittedStore : InMemoryStore :=
  { InMemoryStore.new with processedNotes := (∅ : Std.HashMap String (Nat × Bool)).insert "note" (0, true)
                           depositCounter := 1 }

theorem sample_bridge_refs :
    (Std.HashMap.ofList [((zeroWord : Nullifier), sampleBridgeRef)]).toList = [(zeroWord, sampleBridgeRef)] := by
  rw [Std.HashMap.ofList_singleton]
  simpa using Std.HashMap.toList_insert_perm (m := (∅ : Std.HashMap Nullifier ConsumedRef)) (k := zeroWord)
    (v := sampleBridgeRef)

theorem sample_authoritativeB2agg :
    authoritativeB2agg Primitives.sample sampleTickConfig sampleTickEnv 0 1 =
      .ok ([(zeroWord, sampleBridgeRef.record 0 sampleB2aggDetails)], (∅ : Std.HashMap NoteId Nat).insert zeroWord 0) := by
  have hrefs : bridgeConsumedNullifiers sampleTickConfig.inputNotes [sampleBridgeTx] sampleTickConfig.bridgeId =
      .ok (Std.HashMap.ofList [((zeroWord : Nullifier), sampleBridgeRef)]) := rfl
  have hids : identifiedRefs [(zeroWord, sampleBridgeRef)] sampleTickEnv.b2aggNoteIds = [(sampleBridgeRef, zeroWord)] :=
    rfl
  have hbody : (b2aggBodies ⟨[⟨zeroWord, sampleB2aggDetails⟩], [zeroWord]⟩)[zeroWord]? = some sampleB2aggDetails := by
    simp [b2aggBodies, sampleB2aggDetails, Std.HashMap.ofList_singleton]
  -- the one input is identified, and its body is a B2AGG
  have hres : resolveB2aggConsumptions sampleTickConfig.bridgeId [(zeroWord, sampleBridgeRef)] sampleTickEnv.b2aggNoteIds
      sampleTickEnv.fetchPublicBodies =
        .ok ([(zeroWord, sampleBridgeRef.record 0 sampleB2aggDetails)], (∅ : Std.HashMap NoteId Nat).insert zeroWord 0) := by
    unfold resolveB2aggConsumptions
    simp only [hids, List.isEmpty_cons, Bool.false_eq_true, if_false]
    show collectRecords 0 ⟨[⟨zeroWord, sampleB2aggDetails⟩], [zeroWord]⟩ [(sampleBridgeRef, zeroWord)] [] ∅ = _
    unfold collectRecords
    rw [hbody]
    rfl
  unfold authoritativeB2agg
  rw [show sampleTickEnv.syncTransactions (0 + 1) 1 = .ok [sampleBridgeTx] from rfl]
  dsimp only
  rw [hrefs]
  dsimp only
  rw [sample_bridge_refs, hres]
  dsimp only
  rw [sortBy, List.mergeSort_singleton]

theorem sample_letGate :
    (letGate 1 1 ["note"] (getDepositIndices ["note"] sampleEmittedStore) : Except (TickError Nat) Unit) = .ok () := by
  have hindices : getDepositIndices ["note"] sampleEmittedStore = Std.HashMap.ofList [("note", 0)] := by
    simp [getDepositIndices, sampleEmittedStore]
  rw [hindices]
  simp [letGate, checkReservedPrefix, Std.HashMap.ofList_singleton, u32Bound, Std.HashMap.size_insert]

theorem sample_migrateLegacyKeys :
    migrateLegacyKeys Primitives.sample sampleTickConfig [(zeroWord, sampleBridgeRef.record 0 sampleB2aggDetails)]
      sampleEmittedStore = sampleEmittedStore := by
  -- the note's commitment key holds no legacy reservation
  have hlegacy : "note" ≠ Primitives.sample.hex.encode zeroWord.toList := by decide
  have hnone : sampleEmittedStore.processedNotes[Primitives.sample.hex.encode zeroWord.toList]? = none := by
    simp [sampleEmittedStore, hlegacy]
  simp only [migrateLegacyKeys, List.foldl_cons, List.foldl_nil, ConsumedRef.record, sampleBridgeRef,
    sampleB2aggDetails]
  unfold migrateLegacyDepositKey
  rw [hnone]

theorem sample_projectBlockNotes :
    projectBlockNotes Primitives.sample sampleTickConfig sampleTickEnv
      [(some zeroWord, sampleBridgeRef.record 0 sampleB2aggDetails)] 1 ((∅ : Std.HashMap NoteId Nat).insert zeroWord 0)
      sampleEmittedStore = ({ sampleEmittedStore with latestBlockNumber := 1 }, .ok 0) := by
  have hproc : isNoteProcessed "note" sampleEmittedStore = true := by
    simp [isNoteProcessed, sampleEmittedStore]
  have hnotes : projectNotes Primitives.sample sampleTickConfig sampleTickEnv 1 (sampleTickConfig.blockHash 1)
      [(some zeroWord, sampleBridgeRef.record 0 sampleB2aggDetails)] 0 sampleEmittedStore = (sampleEmittedStore, .ok 0) := by
    simp [projectNotes, projectB2aggNote, ConsumedRef.record, sampleB2aggDetails, sampleTickConfig, hproc,
      classifyB2aggConsumer]
  have hsort : sortBy (blockOrder ((∅ : Std.HashMap NoteId Nat).insert zeroWord 0))
      [(some zeroWord, sampleBridgeRef.record 0 sampleB2aggDetails)] =
        [(some zeroWord, sampleBridgeRef.record 0 sampleB2aggDetails)] :=
    List.mergeSort_singleton _
  -- every reservation is emitted
  have hunemitted : firstUnemittedReservation sampleEmittedStore = none := by
    have hlist : sampleEmittedStore.processedNotes.toList = [("note", (0, true))] := by
      simpa [sampleEmittedStore] using Std.HashMap.toList_insert_perm
        (m := (∅ : Std.HashMap String (Nat × Bool))) (k := "note") (v := (0, true))
    simp [firstUnemittedReservation, hlist, minByKey]
  unfold projectBlockNotes
  simp only [siblingTies, List.foldl_cons, List.foldl_nil, ConsumedRef.record, sampleB2aggDetails, if_true, bumpTie,
    List.find?_cons, List.find?_nil, lt_self_iff_false, decide_false, Bool.false_and]
  simp only [ConsumedRef.record, sampleB2aggDetails] at hsort hnotes
  rw [hsort, hnotes]
  simp only [hunemitted]

theorem sample_projectLoop :
    projectLoop Primitives.sample sampleTickConfig sampleTickEnv
      (pushAuthoritative (storeFedBuckets []) [(zeroWord, sampleBridgeRef.record 0 sampleB2aggDetails)])
      ((∅ : Std.HashMap NoteId Nat).insert zeroWord 0) 1 1 0 sampleEmittedStore =
        ({ sampleEmittedStore with latestBlockNumber := 1, projectorCursor := 1 }, .ok 1) := by
  have hbucket : (pushAuthoritative (storeFedBuckets [])
      [(zeroWord, sampleBridgeRef.record 0 sampleB2aggDetails)]).getD 1 [] =
        [(some zeroWord, sampleBridgeRef.record 0 sampleB2aggDetails)] := by
    rw [getD_pushAuthoritative]
    simp [storeFedBuckets, ConsumedRef.record, sampleBridgeRef]
  -- block `1` is projected, and the loop stops at the tip
  unfold projectLoop
  rw [if_pos (by decide), Nat.zero_add, hbucket, sample_projectBlockNotes]
  rfl

theorem sample_tick :
    tick Primitives.sample sampleTickConfig sampleTickEnv sampleEmittedStore =
      ({ sampleEmittedStore with latestBlockNumber := 1, projectorCursor := 1 }, .ok 1) := by
  have hkeys : ([(zeroWord, sampleBridgeRef.record 0 sampleB2aggDetails)].map fun r => sampleTickConfig.noteKey r.1) =
      ["note"] := rfl
  have hacc : getAccountedDepositCount sampleEmittedStore = .ok 1 := rfl
  unfold tick
  rw [show sampleTickEnv.syncHeight = .ok 1 from rfl]
  dsimp only
  rw [if_neg (by decide), show sampleTickEnv.consumed = .ok [] from rfl]
  dsimp only
  rw [if_neg (by decide), show sampleTickEnv.outputNotes = .ok () from rfl]
  dsimp only
  rw [show sampleEmittedStore.projectorCursor = 0 from rfl, sample_authoritativeB2agg]
  dsimp only
  rw [sample_migrateLegacyKeys, show sampleTickEnv.letNumLeaves = .ok (some 1) from rfl]
  dsimp only
  rw [hacc]
  dsimp only
  rw [hkeys, sample_letGate]
  exact sample_projectLoop

end Sample

end Projector
