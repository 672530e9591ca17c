import Mathlib.Tactic.Ring

/-! # Sweeping a Range in Windows

    The abstract shape of a resumable sweep over the blocks `start‥tip`:
    windows of at most `chunk` blocks, each starting right after the one
    before, the last one clipped at `tip`. `sweepWindows chunk tip n start`
    is the first `n` of them, and `lastStop` the high-water mark a list of
    windows reached, after which the sweep resumes.

    The lemmas say what a batch of windows looks like (each non-empty,
    within its bounds and at most `chunk` wide; contiguous; ending at `tip`
    unless the batch was full) and that sweeping `m` windows and then `n`
    more from where it stopped is sweeping `m + n` at once.
-/

namespace Windows

/-- The first `n` windows of the sweep of `start‥tip` in windows of `chunk`
    blocks. -/
def sweepWindows (chunk tip : Nat) : Nat → Nat → List (Nat × Nat)
  | 0, _ => []
  | n + 1, start =>
    if tip < start then []
    else (start, min (start + chunk - 1) tip) ::
      sweepWindows chunk tip n (min (start + chunk - 1) tip + 1)

/-- The last block a list of windows reaches, `mark` when it is empty. -/
def lastStop {α : Type} (mark : α) (ws : List (α × α)) : α :=
  (ws.getLast?.map Prod.snd).getD mark

section LastStop

variable {α β : Type}

theorem lastStop_cons (mark : α) (w : α × α) (ws : List (α × α)) :
    lastStop mark (w :: ws) = lastStop w.2 ws := by
  simp only [lastStop, List.getLast?_cons]
  cases ws.getLast? <;> rfl

theorem lastStop_append (mark : α) (ws ws' : List (α × α)) :
    lastStop mark (ws ++ ws') = lastStop (lastStop mark ws) ws' := by
  induction ws generalizing mark with
  | nil => rfl
  | cons w ws ih => rw [List.cons_append, lastStop_cons, lastStop_cons, ih]

/-- A non-empty list of windows stops where one of them stops. -/
theorem exists_lastStop_eq {ws : List (α × α)} (h : ws ≠ []) (mark : α) :
    ∃ w ∈ ws, lastStop mark ws = w.2 := by
  obtain ⟨w, hw⟩ := Option.isSome_iff_exists.mp (List.getLast?_isSome.mpr h)
  exact ⟨w, List.mem_of_getLast? hw, by simp [lastStop, hw]⟩

/-- Renaming the blocks renames the mark. -/
theorem lastStop_map (f : α → β) (mark : α) (ws : List (α × α)) :
    lastStop (f mark) (ws.map (Prod.map f f)) = f (lastStop mark ws) := by
  induction ws generalizing mark with
  | nil => rfl
  | cons w ws ih => rw [List.map_cons, lastStop_cons, lastStop_cons, Prod.map_snd, ih]

end LastStop

section Sweep

variable {chunk tip : Nat}

@[simp] theorem sweepWindows_zero (start : Nat) : sweepWindows chunk tip 0 start = [] := rfl

theorem sweepWindows_of_lt {n start : Nat} (h : tip < start) :
    sweepWindows chunk tip n start = [] := by
  cases n <;> simp [sweepWindows, h]

theorem sweepWindows_succ_of_le {n start : Nat} (h : start ≤ tip) :
    sweepWindows chunk tip (n + 1) start =
      (start, min (start + chunk - 1) tip) ::
        sweepWindows chunk tip n (min (start + chunk - 1) tip + 1) := by
  simp [sweepWindows, Nat.not_lt.mpr h]

/-- Every window lies in `start‥tip`, is non-empty and at most `chunk`
    wide. -/
theorem mem_sweepWindows (hchunk : 1 ≤ chunk) {n start : Nat} {w : Nat × Nat}
    (hw : w ∈ sweepWindows chunk tip n start) :
    start ≤ w.1 ∧ w.1 ≤ w.2 ∧ w.2 ≤ tip ∧ w.2 + 1 ≤ w.1 + chunk := by
  induction n generalizing start with
  | zero => simp at hw
  | succ n ih =>
    by_cases hstart : tip < start
    · simp [sweepWindows_of_lt hstart] at hw
    · rw [sweepWindows_succ_of_le (Nat.not_lt.mp hstart)] at hw
      rcases List.mem_cons.mp hw with rfl | hw
      · -- the first window
        simp only
        omega
      · -- a later window starts after the first one stops
        have := ih hw
        omega

theorem sweepWindows_eq_nil_iff {n start : Nat} (hn : 1 ≤ n) :
    sweepWindows chunk tip n start = [] ↔ tip < start := by
  obtain ⟨n, rfl⟩ : ∃ m, n = m + 1 := ⟨n - 1, by omega⟩
  by_cases h : tip < start
  · simp [sweepWindows_of_lt h, h]
  · simp [sweepWindows_succ_of_le (Nat.not_lt.mp h), h]

theorem head?_sweepWindows {n start : Nat} (hn : 1 ≤ n) (h : start ≤ tip) :
    (sweepWindows chunk tip n start).head?.map Prod.fst = some start := by
  obtain ⟨n, rfl⟩ : ∃ m, n = m + 1 := ⟨n - 1, by omega⟩
  simp [sweepWindows_succ_of_le h]

/-- A sweep's first window starts at its start. -/
theorem fst_of_head?_sweepWindows {n start : Nat} {w : Nat × Nat}
    (h : (sweepWindows chunk tip n start).head? = some w) : w.1 = start := by
  cases n with
  | zero => simp at h
  | succ n =>
    by_cases hstart : tip < start
    · simp [sweepWindows_of_lt hstart] at h
    · rw [sweepWindows_succ_of_le (Nat.not_lt.mp hstart)] at h
      simp only [List.head?_cons, Option.some.injEq] at h
      rw [← h]

/-- Each window starts right after the one before it stops. -/
theorem isChain_sweepWindows (n start : Nat) :
    (sweepWindows chunk tip n start).IsChain fun a b => b.1 = a.2 + 1 := by
  induction n generalizing start with
  | zero => simp
  | succ n ih =>
    by_cases hstart : tip < start
    · simp [sweepWindows_of_lt hstart]
    · rw [sweepWindows_succ_of_le (Nat.not_lt.mp hstart)]
      have hrest := ih (min (start + chunk - 1) tip + 1)
      cases hws : sweepWindows chunk tip n (min (start + chunk - 1) tip + 1) with
      | nil => simp
      | cons w ws =>
        rw [hws] at hrest
        -- the rest's first window starts where this one stops, plus one
        have hw : w.1 = min (start + chunk - 1) tip + 1 :=
          fst_of_head?_sweepWindows (by rw [hws]; rfl)
        exact List.IsChain.cons_cons hw hrest

theorem length_sweepWindows_le (n start : Nat) : (sweepWindows chunk tip n start).length ≤ n := by
  induction n generalizing start with
  | zero => simp
  | succ n ih =>
    by_cases hstart : tip < start
    · simp [sweepWindows_of_lt hstart]
    · rw [sweepWindows_succ_of_le (Nat.not_lt.mp hstart), List.length_cons]
      exact Nat.succ_le_succ (ih _)

/-- A sweep that is not full has reached `tip`. -/
theorem lastStop_sweepWindows {n start : Nat} (mark : Nat) (h : start ≤ tip)
    (hshort : (sweepWindows chunk tip n start).length < n) :
    lastStop mark (sweepWindows chunk tip n start) = tip := by
  induction n generalizing start mark with
  | zero => simp at hshort
  | succ n ih =>
    rw [sweepWindows_succ_of_le h] at hshort ⊢
    rw [lastStop_cons]
    by_cases hnext : tip < min (start + chunk - 1) tip + 1
    · -- this window already stops at `tip`
      rw [sweepWindows_of_lt hnext]
      simp only [lastStop, List.getLast?_nil, Option.map_none, Option.getD_none]
      omega
    · exact ih _ (by omega) (by simpa using hshort)

/-- Sweeping `m` windows after `mark` and then `n` more after where it
    stopped is sweeping `m + n` windows after `mark`. -/
theorem sweepWindows_add (m n mark : Nat) :
    sweepWindows chunk tip (m + n) (mark + 1) =
      sweepWindows chunk tip m (mark + 1) ++
        sweepWindows chunk tip n (lastStop mark (sweepWindows chunk tip m (mark + 1)) + 1) := by
  induction m generalizing mark with
  | zero => simp [lastStop]
  | succ m ih =>
    by_cases hstart : tip < mark + 1
    · simp [sweepWindows_of_lt hstart, lastStop]
    · rw [Nat.add_right_comm, sweepWindows_succ_of_le (Nat.not_lt.mp hstart),
        sweepWindows_succ_of_le (Nat.not_lt.mp hstart), ih, List.cons_append, lastStop_cons]

/-- Windows start strictly after one another. -/
theorem pairwise_sweepWindows (hchunk : 1 ≤ chunk) (n start : Nat) :
    (sweepWindows chunk tip n start).Pairwise fun a b => a.1 < b.1 := by
  induction n generalizing start with
  | zero => simp
  | succ n ih =>
    by_cases hstart : tip < start
    · simp [sweepWindows_of_lt hstart]
    · rw [sweepWindows_succ_of_le (Nat.not_lt.mp hstart), List.pairwise_cons]
      refine ⟨fun w hw => ?_, ih _⟩
      -- every later window starts after this one stops, which is not before it starts
      have := (mem_sweepWindows hchunk hw).1
      simp only
      omega

/-- The first `k` windows of a sweep of `n` are the sweep of `min k n`. -/
theorem take_sweepWindows (k n start : Nat) :
    (sweepWindows chunk tip n start).take k = sweepWindows chunk tip (min k n) start := by
  induction n generalizing k start with
  | zero => simp
  | succ n ih =>
    cases k with
    | zero => simp
    | succ k =>
      by_cases hstart : tip < start
      · simp [sweepWindows_of_lt hstart]
      · rw [Nat.succ_min_succ, sweepWindows_succ_of_le (Nat.not_lt.mp hstart),
          sweepWindows_succ_of_le (Nat.not_lt.mp hstart), List.take_succ_cons, ih]

/-- A sweep never stops before its mark. -/
theorem le_lastStop_sweepWindows (n mark : Nat) :
    mark ≤ lastStop mark (sweepWindows chunk tip n (mark + 1)) := by
  induction n generalizing mark with
  | zero => simp [lastStop]
  | succ n ih =>
    by_cases hstart : tip < mark + 1
    · simp [sweepWindows_of_lt hstart, lastStop]
    · rw [sweepWindows_succ_of_le (Nat.not_lt.mp hstart), lastStop_cons]
      have := ih (min (mark + 1 + chunk - 1) tip)
      simp only at this ⊢
      omega

end Sweep

/-! ## The shape of one batch -/

/-- What a batch `ws` of at most `n` windows of at most `chunk` blocks,
    planned after `mark` towards `tip`, looks like. -/
structure BatchShape (chunk tip n mark : Nat) (ws : List (Nat × Nat)) : Prop where
  eq_nil_iff : ws = [] ↔ tip ≤ mark
  window_bounds : ∀ w ∈ ws, w.1 ≤ w.2 ∧ w.2 ≤ tip ∧ w.2 + 1 ≤ w.1 + chunk
  starts_after_mark : ∀ w ∈ ws.head?, w.1 = mark + 1
  contiguous : ws.IsChain fun a b => b.1 = a.2 + 1
  length_le : ws.length ≤ n
  reaches_tip : ws ≠ [] → lastStop mark ws = tip ∨ ws.length = n

/-- The first `n` windows of a sweep have the shape of a batch. -/
theorem batchShape_sweepWindows {chunk tip n : Nat} (hchunk : 1 ≤ chunk) (hn : 1 ≤ n) (mark : Nat) :
    BatchShape chunk tip n mark (sweepWindows chunk tip n (mark + 1)) where
  eq_nil_iff := by
    rw [sweepWindows_eq_nil_iff hn]
    omega
  window_bounds w hw := (mem_sweepWindows hchunk hw).2
  starts_after_mark w hw := fst_of_head?_sweepWindows hw
  contiguous := isChain_sweepWindows n (mark + 1)
  length_le := length_sweepWindows_le n (mark + 1)
  reaches_tip hne := by
    by_cases hshort : (sweepWindows chunk tip n (mark + 1)).length < n
    · left
      refine lastStop_sweepWindows mark ?_ hshort
      -- a non-empty sweep started at or below `tip`
      by_contra hgt
      exact hne (sweepWindows_of_lt (by omega))
    · right
      have := @length_sweepWindows_le chunk tip n (mark + 1)
      omega

end Windows
