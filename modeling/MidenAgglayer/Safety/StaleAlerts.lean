import MidenAgglayer.Monitors.ExpectedMint

/-! # Expected-MINT Alerts Are One-Shot

    Over every run of `record_expected`, `tick` and `mark_landed` calls, from
    any table and any cache, with any landed sets and thresholds:

    * a tick reports each global index at most once;
    * after a `StaleAlert` an index is not reported again until it is
      recorded again, so it is alerted at most once between two records;
    * an index whose MINT landed, or that was marked landed, after its last
      record is not reported again;
    * an index recorded and neither settled nor recorded again is reported
      `Pending` by each tick with the number of ticks since its record, up
      to the first tick at which that number reaches the threshold, where
      it is alerted.

    Every law is proved on the run of one index alone (`watchStep`, Section
    1) and carried to the tracker by the projection of
    `Monitors/ExpectedMint.lean` (Section 2).
-/

namespace Monitors

namespace ExpectedMintTracker

/-! ## Section 1: The run of one index -/

section Watch

variable (gi : B256) (calls : List Call) (o : Option MonitorExpectedMintRow)

/-- The row of `gi` in front of call `q`, on the run of `watchStep` from `o`. -/
def watchAt (q : Nat) : Option MonitorExpectedMintRow := Run.final (watchStep gi) o (calls.take q)

theorem watchAt_succ {q : Nat} (hq : q < calls.length) :
    watchAt gi calls o (q + 1) = (watchStep gi (watchAt gi calls o q) calls[q]).1 :=
  Run.final_take_succ _ o calls hq

variable {gi calls o}

/-- **Quiet rule.** An index without a row stays without one until it is
    recorded. -/
theorem watchAt_eq_none {p p' : Nat} (hpp : p ≤ p') (hlen : p' ≤ calls.length) (hp : watchAt gi calls o p = none)
    (hquiet : ∀ q c, p ≤ q → q < p' → calls[q]? = some c → ¬ c.IsRecordFor gi) :
    watchAt gi calls o p' = none := by
  apply Run.final_take_segment _ (fun _ row => row = none) o calls hpp hlen hp
  intro q hq hpq hqp hnone
  rw [hnone, watchStep_none (hquiet q calls[q] hpq hqp (List.getElem?_eq_getElem hq))]

/-- **MINT rule.** Until the index is recorded again, its row expects the
    same MINT. -/
theorem watchAt_mintIs {mint : B256} {p p' : Nat} (hpp : p ≤ p') (hlen : p' ≤ calls.length)
    (hp : MintIs mint (watchAt gi calls o p))
    (hquiet : ∀ q c, p ≤ q → q < p' → calls[q]? = some c → ¬ c.IsRecordFor gi) :
    MintIs mint (watchAt gi calls o p') := by
  apply Run.final_take_segment _ (fun _ row => MintIs mint row) o calls hpp hlen hp
  intro q hq hpq hqp hmint
  exact hmint.watchStep (hquiet q calls[q] hpq hqp (List.getElem?_eq_getElem hq))

/-- The ticks before position `r + 1` after `r`: none. -/
theorem ticksBetween_self (r : Nat) : ticksBetween calls r (r + 1) = 0 := by
  unfold ticksBetween
  rw [List.drop_eq_nil_of_le (by simp), List.countP_nil]

/-- One more position counts one more tick when its call is a tick. -/
theorem ticksBetween_succ {r q : Nat} (hrq : r < q) (hq : q < calls.length) :
    ticksBetween calls r (q + 1) = ticksBetween calls r q + if calls[q].isTick then 1 else 0 := by
  unfold ticksBetween
  have hlen : r + 1 ≤ (calls.take q).length := by
    rw [List.length_take]
    omega
  rw [List.take_add_one, List.getElem?_eq_getElem hq, Option.toList_some, List.drop_append_of_le_length hlen,
    List.countP_append, List.countP_singleton]

/-- A count below the width of a `u32` takes one more tick exactly. -/
theorem u32SaturatingAdd_ofNat {k : Nat} (hk : k + 1 < 2 ^ 32) :
    Bytes.u32SaturatingAdd (UInt32.ofNat k) 1 = UInt32.ofNat (k + 1) := by
  apply UInt32.toNat_inj.mp
  rw [Bytes.toNat_u32SaturatingAdd, Bytes.toNat_ofNat_of_lt (by omega), Bytes.toNat_ofNat_of_lt hk]
  simp only [UInt32.toNat_one]
  omega

/-- **Count rule.** From its record, a row neither settled nor recorded
    again, with every tick below its threshold, holds the number of ticks
    since the record. -/
theorem watchAt_count {mint : B256} {r j : Nat} (hrj : r < j) (hlen : j ≤ calls.length)
    (hrecord : calls[r]? = some (.recordExpected gi mint))
    (hpending : ∀ q c, r < q → q < j → calls[q]? = some c →
      ¬ c.IsRecordFor gi ∧ ¬ c.Settles gi mint ∧
        ∀ landed' th', c = .tick landed' th' → ticksBetween calls r (q + 1) < th'.toNat) :
    watchAt gi calls o j = some ⟨mint, UInt32.ofNat (ticksBetween calls r j), false⟩ ∧
      ticksBetween calls r j + 1 < 2 ^ 32 := by
  obtain ⟨hr, hrecord'⟩ := List.getElem?_eq_some_iff.mp hrecord
  have hbase : watchAt gi calls o (r + 1) = some ⟨mint, 0, false⟩ := by
    rw [watchAt_succ gi calls o hr, hrecord', watchStep_record]
  apply Run.final_take_segment _
    (fun q row => row = some ⟨mint, UInt32.ofNat (ticksBetween calls r q), false⟩ ∧
      ticksBetween calls r q + 1 < 2 ^ 32) o calls (Nat.succ_le_of_lt hrj) hlen
  · refine ⟨?_, ?_⟩
    · rw [ticksBetween_self]
      exact hbase
    · rw [ticksBetween_self]
      norm_num
  · rintro q hq hrq hqj ⟨hrow, hbound⟩
    obtain ⟨hnrec, hnsettle, hth⟩ := hpending q calls[q] (by omega) hqj (List.getElem?_eq_getElem hq)
    rw [hrow, ticksBetween_succ (by omega) hq]
    -- only a tick moves the count, and it stays below the threshold
    cases hc : calls[q] with
    | recordExpected g m =>
      rw [hc] at hnrec
      simp only [Call.IsRecordFor] at hnrec
      simp only [Call.isTick, Bool.false_eq_true, if_false, Nat.add_zero]
      refine ⟨?_, hbound⟩
      simp [watchStep, hnrec]
    | markLanded g =>
      rw [hc] at hnsettle
      simp only [Call.Settles] at hnsettle
      simp only [Call.isTick, Bool.false_eq_true, if_false, Nat.add_zero]
      refine ⟨?_, hbound⟩
      simp [watchStep, hnsettle]
    | tick landed th =>
      rw [hc] at hnsettle
      have hlt := hth landed th hc
      rw [ticksBetween_succ (by omega) hq, hc] at hlt
      simp only [Call.isTick, if_true] at hlt ⊢
      have hth32 : th.toNat < 2 ^ 32 := th.toNat_lt
      have hnext := u32SaturatingAdd_ofNat hbound
      have hnot : ¬ th ≤ UInt32.ofNat (ticksBetween calls r q + 1) := by
        rw [UInt32.le_iff_toNat_le, Bytes.toNat_ofNat_of_lt (by omega)]
        omega
      refine ⟨?_, by omega⟩
      simp only [watchStep, rowStep_of_not_landed hnsettle, hnext, if_neg hnot]

end Watch

/-! ## Section 2: The tracker's runs -/

section Runs

variable (t₀ : ExpectedMintTracker) (calls : List Call) (gi : B256)

/-- **Projection.** The row of an index along a run of the tracker is the
    run of `watchStep` from its first row. -/
theorem getElem?_final (q : Nat) :
    (Run.final step t₀ (calls.take q)).monitorExpectedMints[gi]? =
      watchAt gi calls t₀.monitorExpectedMints[gi]? q :=
  (Run.final_simulates step (fun t => t.monitorExpectedMints[gi]?) (fun _ => True) (watchStep gi)
    (fun t c _ => ⟨trivial, step_row t c gi⟩) trivial (calls.take q)).2

theorem reported_eq {k : Nat} (hk : k < calls.length) :
    reported t₀ calls k = (step (Run.final step t₀ (calls.take k)) calls[k]).2.results := by
  rw [reported, Run.getElem?_outputs step t₀ calls hk]
  rfl

/-- A call reports for an index what the run of that index reports. -/
theorem mem_reported {k : Nat} {st : MintStatus} :
    (gi, st) ∈ reported t₀ calls k ↔
      ∃ c, calls[k]? = some c ∧ (watchStep gi (watchAt gi calls t₀.monitorExpectedMints[gi]? k) c).2 = some st := by
  by_cases hk : k < calls.length
  · rw [reported_eq t₀ calls hk, mem_step_results, getElem?_final, List.getElem?_eq_getElem hk]
    simp
  · have hnone : calls[k]? = none := List.getElem?_eq_none (by omega)
    have hout : (Run.outputs step t₀ calls)[k]? = none := List.getElem?_eq_none (by simp; omega)
    simp [reported, hout, hnone]

theorem length_of_mem_reported {k : Nat} {st : MintStatus} (h : (gi, st) ∈ reported t₀ calls k) :
    k < calls.length := by
  obtain ⟨c, hc, -⟩ := (mem_reported t₀ calls gi).mp h
  exact (List.getElem?_eq_some_iff.mp hc).1

/-- An index without a row is not reported. -/
theorem not_mem_reported_of_none {k : Nat} (h : watchAt gi calls t₀.monitorExpectedMints[gi]? k = none)
    (st : MintStatus) : (gi, st) ∉ reported t₀ calls k := by
  rw [mem_reported, h]
  rintro ⟨c, -, hc⟩
  rw [watchStep_none_snd] at hc
  cases hc

/-- **Removal.** After a `StaleAlert`, an index is reported again only
    after a new record. -/
theorem recorded_between_of_reported {i j : Nat} {n : UInt32} {st : MintStatus} (hij : i < j)
    (halert : (gi, .staleAlert n) ∈ reported t₀ calls i) (hj : (gi, st) ∈ reported t₀ calls j) :
    ∃ r c, i < r ∧ r < j ∧ calls[r]? = some c ∧ c.IsRecordFor gi := by
  by_contra hnone
  push Not at hnone
  have hjl := length_of_mem_reported t₀ calls gi hj
  obtain ⟨c, hc, hstale⟩ := (mem_reported t₀ calls gi).mp halert
  obtain ⟨hil, hci⟩ := List.getElem?_eq_some_iff.mp hc
  -- the alert removed the row, and nothing made a new one
  have hremoved : watchAt gi calls t₀.monitorExpectedMints[gi]? (i + 1) = none := by
    rw [watchAt_succ gi calls _ hil, hci]
    exact watchStep_staleAlert hstale
  have hquiet := watchAt_eq_none (Nat.succ_le_of_lt hij) hjl.le hremoved
    fun q c hiq hqj hcq => hnone q c (by omega) hqj hcq
  exact not_mem_reported_of_none t₀ calls gi hquiet st hj

/-- **Settling.** An index whose MINT landed, or that was marked landed,
    after its last record is not reported again. -/
theorem not_mem_reported_of_settled {r m j : Nat} {mint : B256} (hrm : r < m) (hmj : m < j)
    (hrecord : calls[r]? = some (.recordExpected gi mint))
    (hquiet : ∀ q c, r < q → q < j → calls[q]? = some c → ¬ c.IsRecordFor gi)
    (hsettle : ∃ c, calls[m]? = some c ∧ c.Settles gi mint) (st : MintStatus) :
    (gi, st) ∉ reported t₀ calls j := by
  intro hj
  have hjl := length_of_mem_reported t₀ calls gi hj
  obtain ⟨c, hc, hsettles⟩ := hsettle
  obtain ⟨hm, hcm⟩ := List.getElem?_eq_some_iff.mp hc
  obtain ⟨hr, hrecord'⟩ := List.getElem?_eq_some_iff.mp hrecord
  -- the row expects `mint` from the record to the settling call, which removes it
  have hmint : MintIs mint (watchAt gi calls t₀.monitorExpectedMints[gi]? (r + 1)) := by
    rw [watchAt_succ gi calls _ hr, hrecord', watchStep_record]
    intro row hrow
    cases hrow
    rfl
  have hmint' := watchAt_mintIs (Nat.succ_le_of_lt hrm) hm.le hmint
    fun q c hrq hqm hcq => hquiet q c (by omega) (by omega) hcq
  have hremoved : watchAt gi calls t₀.monitorExpectedMints[gi]? (m + 1) = none := by
    rw [watchAt_succ gi calls _ hm, hcm]
    exact watchStep_settles hsettles hmint'
  have hnone := watchAt_eq_none (Nat.succ_le_of_lt hmj) hjl.le hremoved
    fun q c hmq hqj hcq => hquiet q c (by omega) hqj hcq
  exact not_mem_reported_of_none t₀ calls gi hnone st hj

/-- **Counting.** A tick reports a recorded index, neither settled nor
    recorded again and below the threshold at every earlier tick, with the
    number of ticks since its record: `Pending` below this tick's
    threshold, `StaleAlert` at or above it. -/
theorem mem_reported_of_pending {r j : Nat} {mint : B256} {landed : Std.HashSet B256} {th : UInt32}
    (hrj : r < j) (hrecord : calls[r]? = some (.recordExpected gi mint))
    (htick : calls[j]? = some (.tick landed th)) (hmint : mint ∉ landed)
    (hpending : ∀ q c, r < q → q < j → calls[q]? = some c →
      ¬ c.IsRecordFor gi ∧ ¬ c.Settles gi mint ∧
        ∀ landed' th', c = .tick landed' th' → ticksBetween calls r (q + 1) < th'.toNat) :
    (gi, if ticksBetween calls r (j + 1) < th.toNat then .pending (UInt32.ofNat (ticksBetween calls r (j + 1)))
      else .staleAlert (UInt32.ofNat (ticksBetween calls r (j + 1)))) ∈ reported t₀ calls j := by
  obtain ⟨hj, hcj⟩ := List.getElem?_eq_some_iff.mp htick
  obtain ⟨hrow, hbound⟩ := watchAt_count (o := t₀.monitorExpectedMints[gi]?) hrj hj.le hrecord hpending
  have hcount : ticksBetween calls r (j + 1) = ticksBetween calls r j + 1 := by
    rw [ticksBetween_succ hrj hj, hcj]
    rfl
  rw [mem_reported]
  refine ⟨_, htick, ?_⟩
  -- the tick reaches the threshold exactly when the count does
  have hle : th ≤ UInt32.ofNat (ticksBetween calls r j + 1) ↔ ¬ ticksBetween calls r (j + 1) < th.toNat := by
    rw [UInt32.le_iff_toNat_le, Bytes.toNat_ofNat_of_lt hbound, hcount]
    omega
  simp only [watchStep, hrow, rowStep_of_not_landed hmint, u32SaturatingAdd_ofNat hbound, hcount]
  by_cases hlt : ticksBetween calls r j + 1 < th.toNat
  · rw [if_neg (fun h => (hle.mp h) (hcount ▸ hlt)), if_pos hlt]
  · rw [if_pos (hle.mpr (hcount ▸ hlt)), if_neg hlt]

/-- A tick reports each index at most once. -/
theorem nodup_keys_reported (k : Nat) : ((reported t₀ calls k).map Prod.fst).Nodup := by
  by_cases hk : k < calls.length
  · rw [reported_eq t₀ calls hk]
    exact nodup_keys_step_results _ _
  · have hout : (Run.outputs step t₀ calls)[k]? = none := List.getElem?_eq_none (by simp; omega)
    simp [reported, hout]

/-- **Expected-MINT alerts are one-shot.** Over any run from any tracker: a
    tick names each index at most once; after a `StaleAlert` an index is
    named again only after a new record; an index settled after its last
    record is not named again; and a recorded index, neither settled nor
    recorded again, is reported by each tick with the number of ticks since
    its record, `Pending` below the threshold and `StaleAlert` at the first
    tick that reaches it. -/
theorem expected_mint_alerts_are_one_shot :
    (∀ j, ((reported t₀ calls j).map Prod.fst).Nodup) ∧
    (∀ i j n st, i < j → (gi, MintStatus.staleAlert n) ∈ reported t₀ calls i → (gi, st) ∈ reported t₀ calls j →
      ∃ r c, i < r ∧ r < j ∧ calls[r]? = some c ∧ c.IsRecordFor gi) ∧
    (∀ r m j mint, r < m → m < j → calls[r]? = some (.recordExpected gi mint) →
      (∀ q c, r < q → q < j → calls[q]? = some c → ¬ c.IsRecordFor gi) →
      (∃ c, calls[m]? = some c ∧ c.Settles gi mint) → ∀ st, (gi, st) ∉ reported t₀ calls j) ∧
    (∀ r j mint landed th, r < j → calls[r]? = some (.recordExpected gi mint) →
      calls[j]? = some (.tick landed th) → mint ∉ landed →
      (∀ q c, r < q → q < j → calls[q]? = some c →
        ¬ c.IsRecordFor gi ∧ ¬ c.Settles gi mint ∧
          ∀ landed' th', c = .tick landed' th' → ticksBetween calls r (q + 1) < th'.toNat) →
      (gi, if ticksBetween calls r (j + 1) < th.toNat then .pending (UInt32.ofNat (ticksBetween calls r (j + 1)))
        else .staleAlert (UInt32.ofNat (ticksBetween calls r (j + 1)))) ∈ reported t₀ calls j) :=
  ⟨nodup_keys_reported t₀ calls,
    fun _ _ _ _ hij halert hj => recorded_between_of_reported t₀ calls gi hij halert hj,
    fun _ _ _ _ hrm hmj hrecord hquiet hsettle => not_mem_reported_of_settled t₀ calls gi hrm hmj hrecord hquiet hsettle,
    fun _ _ _ _ _ hrj hrecord htick hmint hpending =>
      mem_reported_of_pending t₀ calls gi hrj hrecord htick hmint hpending⟩

/-- A claim recorded and never minted, ticked twice against a threshold of
    two: the second tick alerts, with two ticks pending. -/
theorem unminted_claim_alerts_on_second_tick :
    (Vector.replicate 32 1, MintStatus.staleAlert 2) ∈
      reported (withCapacity ∅ 1)
        [.recordExpected (Vector.replicate 32 1) (Vector.replicate 32 2), .tick ∅ 2, .tick ∅ 2] 2 := by
  have h := (expected_mint_alerts_are_one_shot (withCapacity ∅ 1)
    [.recordExpected (Vector.replicate 32 1) (Vector.replicate 32 2), .tick ∅ 2, .tick ∅ 2]
    (Vector.replicate 32 1)).2.2.2 0 2 (Vector.replicate 32 2) ∅ 2 (by decide) rfl rfl
    Std.HashSet.not_mem_empty (by
      intro q c hq0 hq2 hc
      obtain rfl : q = 1 := by omega
      simp only [List.getElem?_cons_succ, List.getElem?_cons_zero, Option.some.injEq] at hc
      subst hc
      refine ⟨id, Std.HashSet.not_mem_empty, ?_⟩
      rintro landed th ⟨-, rfl⟩
      decide)
  have hcount : ticksBetween
      [.recordExpected (Vector.replicate 32 1) (Vector.replicate 32 2), .tick ∅ 2, .tick ∅ 2] 0 (2 + 1) = 2 := rfl
  rw [hcount, if_neg (by decide)] at h
  exact h

end Runs

end ExpectedMintTracker

end Monitors
