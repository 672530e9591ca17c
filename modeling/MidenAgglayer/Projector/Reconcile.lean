import MidenAgglayer.Framework.Windows
import MidenAgglayer.Framework.Maps

/-! # The Note-Visibility Reconciler's Sweep

    `SyntheticProjector` sweeps the Miden chain in windows of
    `reconcile_chunk` blocks, importing the network notes it does not know
    (`src/synthetic_projector.rs`):

    * `plan_reconcile_windows` cuts the next batch of at most
      `reconcile_concurrency` windows after the in-memory `reconcile_cursor`;
    * `reconcile_notes_with` fetches the batch concurrently, sorts the
      results by `from`, and walks them in order: fetch, handoff
      confirmation, import, then the persisted cursor and the in-memory one
      both move to the window's `to`. The first failure ends the call; a
      batch that succeeds is followed by another until the tick's budget is
      spent.

    Block numbers are `u64`, and the release build wraps on overflow, so the
    window arithmetic is `UInt64`. `natWindow` reads windows as numbers, and
    under `NoWrap` the planner is `Windows.sweepWindows`.

    The environment supplies what the code does not decide: each window's
    call results, the completion order of the spawned fetches (a
    permutation, or a panicked task) and how many batches fit in the
    budget.
-/

open Maps Windows

namespace Projector

/-! ## Section 1: Tuning and planning -/

/-- `RECONCILE_CONCURRENCY_MAX`. -/
def reconcileConcurrencyMax : Nat := 16

/-- The reconciler's tuning as `SyntheticProjector::new` admits it. -/
structure ReconcileTuning where
  reconcileChunk : UInt64
  reconcileConcurrency : Nat
  chunk_pos : 1 ≤ reconcileChunk.toNat
  concurrency_pos : 1 ≤ reconcileConcurrency
  concurrency_le : reconcileConcurrency ≤ reconcileConcurrencyMax

/-- `SyntheticProjector::new`: `RECONCILE_CHUNK.max(1)` and
    `RECONCILE_CONCURRENCY.clamp(1, RECONCILE_CONCURRENCY_MAX)`. -/
def ReconcileTuning.new (envChunk envConcurrency : UInt64) : ReconcileTuning where
  reconcileChunk := max envChunk 1
  reconcileConcurrency := max 1 (min envConcurrency.toNat reconcileConcurrencyMax)
  chunk_pos := by
    rw [UInt64.toNat_max]
    exact le_max_of_le_right (le_of_eq UInt64.toNat_one.symm)
  concurrency_pos := le_max_left _ _
  concurrency_le := max_le (by decide) (min_le_right _ _)

/-- A sweep window `(from, to)` of block numbers, both inclusive. -/
abbrev Window := UInt64 × UInt64

/-- A window read as numbers. -/
def natWindow (w : Window) : Nat × Nat := (w.1.toNat, w.2.toNat)

/-- `next_reconcile_window`. -/
def nextReconcileWindow (reconcileCursor reconcileChunk tip : UInt64) : Option Window :=
  let fromBlock := reconcileCursor + 1
  if fromBlock > tip then none
  else some (fromBlock, min (fromBlock + reconcileChunk - 1) tip)

/-- The `loop` of `plan_reconcile_windows` from the window `(fromBlock,
    toBlock)` on; `left` more windows fit under the concurrency bound. -/
def planLoop (reconcileChunk tip : UInt64) : Nat → UInt64 → UInt64 → List Window
  | 0, fromBlock, toBlock => [(fromBlock, toBlock)]
  | left + 1, fromBlock, toBlock =>
    if toBlock ≥ tip then [(fromBlock, toBlock)]
    else (fromBlock, toBlock) ::
      planLoop reconcileChunk tip left (toBlock + 1) (min (toBlock + 1 + reconcileChunk - 1) tip)

/-- `plan_reconcile_windows`. -/
def planReconcileWindows (reconcileCursor reconcileChunk tip : UInt64)
    (reconcileConcurrency : Nat) : List Window :=
  match nextReconcileWindow reconcileCursor reconcileChunk tip with
  | none => []
  | some (fromBlock, toBlock) =>
    planLoop reconcileChunk tip (reconcileConcurrency - 1) fromBlock toBlock

/-! ## Section 2: The planner is the sweep, when nothing wraps -/

/-- The window arithmetic of a sweep towards `tip` stays below `2 ^ 64`, and
    the cursor has a successor. -/
def NoWrap (reconcileCursor reconcileChunk tip : UInt64) : Prop :=
  reconcileCursor.toNat + 1 < 2 ^ 64 ∧ tip.toNat + reconcileChunk.toNat < 2 ^ 64

theorem toNat_succ {x : UInt64} (h : x.toNat + 1 < 2 ^ 64) : (x + 1).toNat = x.toNat + 1 := by
  rw [UInt64.toNat_add, UInt64.toNat_one, Nat.mod_eq_of_lt h]

/-- `min(from + chunk - 1, tip)` computes without wrapping. -/
theorem toNat_windowStop {fromBlock reconcileChunk tip : UInt64}
    (hchunk : 1 ≤ reconcileChunk.toNat) (h : fromBlock.toNat + reconcileChunk.toNat < 2 ^ 64) :
    (min (fromBlock + reconcileChunk - 1) tip).toNat =
      min (fromBlock.toNat + reconcileChunk.toNat - 1) tip.toNat := by
  have hadd : (fromBlock + reconcileChunk).toNat = fromBlock.toNat + reconcileChunk.toNat := by
    rw [UInt64.toNat_add, Nat.mod_eq_of_lt h]
  have hle : 1 ≤ fromBlock + reconcileChunk :=
    UInt64.le_iff_toNat_le.mpr (by rw [hadd, UInt64.toNat_one]; omega)
  have hsub : (fromBlock + reconcileChunk - 1).toNat =
      fromBlock.toNat + reconcileChunk.toNat - 1 := by
    rw [UInt64.toNat_sub_of_le _ _ hle, hadd, UInt64.toNat_one]
  rw [UInt64.toNat_min, hsub]

/-- From a window start at or below `tip`, the loop plans the sweep. -/
theorem planLoop_eq_sweepWindows {reconcileChunk tip : UInt64}
    (hchunk : 1 ≤ reconcileChunk.toNat) (hwrap : tip.toNat + reconcileChunk.toNat < 2 ^ 64)
    (left : Nat) {fromBlock : UInt64} (hfrom : fromBlock.toNat ≤ tip.toNat) :
    (planLoop reconcileChunk tip left fromBlock (min (fromBlock + reconcileChunk - 1) tip)).map
        natWindow =
      sweepWindows reconcileChunk.toNat tip.toNat (left + 1) fromBlock.toNat := by
  have hstop := @toNat_windowStop fromBlock reconcileChunk tip hchunk (by omega)
  induction left generalizing fromBlock with
  | zero =>
    rw [sweepWindows_succ_of_le hfrom]
    simp [planLoop, natWindow, hstop]
  | succ left ih =>
    rw [sweepWindows_succ_of_le hfrom]
    by_cases hreached : min (fromBlock + reconcileChunk - 1) tip ≥ tip
    · -- the window reaches `tip`: the sweep has nothing after it
      have hat : (min (fromBlock + reconcileChunk - 1) tip).toNat = tip.toNat :=
        le_antisymm (by rw [hstop]; omega) (UInt64.le_iff_toNat_le.mp hreached)
      rw [sweepWindows_of_lt (by omega)]
      simp only [planLoop, if_pos hreached, List.map_cons, List.map_nil, natWindow, hstop]
    · -- the next window starts one block after this one stops
      have hlt : (min (fromBlock + reconcileChunk - 1) tip).toNat < tip.toNat :=
        Nat.lt_of_not_le fun h => hreached (UInt64.le_iff_toNat_le.mpr h)
      have hnext : (min (fromBlock + reconcileChunk - 1) tip + 1).toNat =
          (min (fromBlock + reconcileChunk - 1) tip).toNat + 1 := toNat_succ (by omega)
      have hrest := @ih (min (fromBlock + reconcileChunk - 1) tip + 1) (by omega)
        (toNat_windowStop hchunk (by omega))
      simp only [planLoop, hreached, if_false, List.map_cons]
      rw [hrest, hnext, hstop]
      simp only [natWindow, hstop]

/-- Under `NoWrap`, a planned batch is the first `reconcile_concurrency`
    windows of the sweep after the cursor. -/
theorem planReconcileWindows_eq_sweepWindows (tuning : ReconcileTuning)
    {reconcileCursor tip : UInt64} (hwrap : NoWrap reconcileCursor tuning.reconcileChunk tip) :
    (planReconcileWindows reconcileCursor tuning.reconcileChunk tip
        tuning.reconcileConcurrency).map natWindow =
      sweepWindows tuning.reconcileChunk.toNat tip.toNat tuning.reconcileConcurrency
        (reconcileCursor.toNat + 1) := by
  have hfrom := toNat_succ hwrap.1
  have hconc : tuning.reconcileConcurrency - 1 + 1 = tuning.reconcileConcurrency :=
    Nat.sub_add_cancel tuning.concurrency_pos
  unfold planReconcileWindows nextReconcileWindow
  by_cases hpast : reconcileCursor + 1 > tip
  · have hlt : tip.toNat < reconcileCursor.toNat + 1 := by
      rw [← hfrom]
      exact UInt64.lt_iff_toNat_lt.mp hpast
    simp [hpast, sweepWindows_of_lt hlt]
  · have hle : (reconcileCursor + 1).toNat ≤ tip.toNat :=
      Nat.le_of_not_lt fun h => hpast (UInt64.lt_iff_toNat_lt.mpr h)
    simp only [hpast, if_false]
    rw [planLoop_eq_sweepWindows tuning.chunk_pos hwrap.2 _ hle, hconc, hfrom]

/-! ## Section 3: One window -/

/-- The persisted reconcile cursor of the store and the projector's
    in-memory copy (`AtomicU64`). -/
structure Cursors where
  persisted : UInt64
  cached : UInt64
  deriving DecidableEq, Repr

/-- Both cursors at `block`. -/
def Cursors.both (block : UInt64) : Cursors := ⟨block, block⟩

@[simp] theorem Cursors.both_cached (block : UInt64) : (Cursors.both block).cached = block := rfl

/-- What the calls of one window return. -/
structure WindowReply where
  /-- `sync_note_ids(from, to)`: the candidate note ids, or the failure's
      text. -/
  fetched : Except String (List String)
  /-- `confirm_prepared_note_handoffs`, made when there are candidates. -/
  confirm : Except String Unit
  /-- `import_reconcile_window`, made when there are candidates. -/
  importWindow : Except String Unit
  /-- `set_reconcile_cursor(to)`. -/
  persist : Except String Unit

/-- The failures of `reconcile_notes_with`. -/
inductive ReconcileError where
  | windowFailed (fromBlock toBlock cursorHeld : UInt64) (detail : String)
  | noClient (fromBlock toBlock : UInt64)
  | noRpc (fromBlock toBlock : UInt64)
  | taskPanicked (detail : String)
  /-- A store or import failure, passed on by `?` with its own text. -/
  | propagated (detail : String)
  deriving DecidableEq, Repr

/-- The `anyhow` message of each failure. -/
def ReconcileError.message : ReconcileError → String
  | .windowFailed f t held detail =>
    "reconcile window " ++ toString f ++ ".." ++ toString t ++ " failed — cursor held at " ++
      toString held ++ " (retry next tick): " ++ detail
  | .noClient f t =>
    "reconcile window " ++ toString f ++ ".." ++ toString t ++
      ": candidate notes but no client handle"
  | .noRpc f t =>
    "reconcile window " ++ toString f ++ ".." ++ toString t ++ ": candidate notes but no rpc handle"
  | .taskPanicked detail => "reconcile window-fetch task panicked: " ++ detail
  | .propagated detail => detail

/-- The body of the `for` loop of `reconcile_notes_with` for one window:
    fetch result, handoff confirmation, client and rpc handles and import
    (only with candidates), then the cursor, persisted before cached. -/
def reconcileWindow (hasClient hasRpc : Bool) (cursors : Cursors) (w : Window)
    (r : WindowReply) : Except ReconcileError Cursors :=
  match r.fetched with
  | .error e => .error (.windowFailed w.1 w.2 cursors.cached e)
  | .ok candidates =>
    let handled : Except ReconcileError Unit :=
      if candidates.isEmpty then .ok ()
      else
        match r.confirm with
        | .error e => .error (.propagated e)
        | .ok () =>
          if !hasClient then .error (.noClient w.1 w.2)
          else if !hasRpc then .error (.noRpc w.1 w.2)
          else r.importWindow.mapError .propagated
    match handled with
    | .error e => .error e
    | .ok () =>
      match r.persist with
      | .error e => .error (.propagated e)
      | .ok () => .ok (Cursors.both w.2)

/-- Every call a window makes succeeded. -/
def WindowReply.succeeds (hasClient hasRpc : Bool) (r : WindowReply) : Bool :=
  match r.fetched with
  | .error _ => false
  | .ok candidates =>
    (candidates.isEmpty || (r.confirm.isOk && hasClient && hasRpc && r.importWindow.isOk)) &&
      r.persist.isOk

/-- A window either fails, leaving the cursors alone, or succeeds and moves
    both to its `to`. -/
theorem reconcileWindow_cases (hasClient hasRpc : Bool) (cursors : Cursors) (w : Window)
    (r : WindowReply) :
    (r.succeeds hasClient hasRpc = true ∧
      reconcileWindow hasClient hasRpc cursors w r = .ok (Cursors.both w.2)) ∨
    (r.succeeds hasClient hasRpc = false ∧
      ∃ e, reconcileWindow hasClient hasRpc cursors w r = .error e) := by
  rcases r with ⟨fetched, confirm, importWindow, persist⟩
  cases fetched with
  | error e => exact .inr ⟨rfl, _, rfl⟩
  | ok candidates =>
    -- the handoff part, then the persist
    cases confirm <;> cases importWindow <;> cases persist <;> cases hasClient <;>
      cases hasRpc <;> cases candidates <;>
      simp [reconcileWindow, WindowReply.succeeds, Except.isOk, Except.toBool, Except.mapError]

/-! ## Section 4: A batch -/

/-- The `for` loop over the sorted results: the first failure ends it. -/
def processWindows (reply : Window → WindowReply) (hasClient hasRpc : Bool) :
    Cursors → List Window → Cursors × Except ReconcileError Unit
  | cursors, [] => (cursors, .ok ())
  | cursors, w :: ws =>
    match reconcileWindow hasClient hasRpc cursors w (reply w) with
    | .error e => (cursors, .error e)
    | .ok cursors' => processWindows reply hasClient hasRpc cursors' ws

/-- The environment of a sweep call. -/
structure ReconcileEnv where
  /-- What each window's calls return. -/
  reply : Window → WindowReply
  /-- The order in which batch `k`'s spawned fetches complete, or the text
      of a panicked task. -/
  completion : Nat → List Window → Except String (List Window)
  completion_perm : ∀ k ws order, completion k ws = .ok order → order.Perm ws
  /-- The batches that run before `Instant::now() >= deadline` holds after
      one (at least one always runs). -/
  batches : Nat

/-- One batch: a single window is fetched inline, more are spawned on a
    `JoinSet` and collected in completion order; the results are sorted by
    `from` (`sort_unstable_by_key`) and processed. -/
def runBatch (env : ReconcileEnv) (hasClient hasRpc : Bool) (k : Nat) (cursors : Cursors)
    (windows : List Window) : Cursors × Except ReconcileError Unit :=
  let completed : Except String (List Window) :=
    if windows.length = 1 then .ok windows else env.completion k windows
  match completed with
  | .error e => (cursors, .error (.taskPanicked e))
  | .ok order =>
    processWindows env.reply hasClient hasRpc cursors
      (sortBy (compareOn fun w : Window => w.1.toNat) order)

/-- The `loop` of `reconcile_notes_with` from batch `k`, with `left` more
    batches in the budget. -/
def reconcileLoop (tuning : ReconcileTuning) (env : ReconcileEnv) (hasClient hasRpc : Bool)
    (tip : UInt64) : Nat → Nat → Cursors → Cursors × Except ReconcileError Unit
  | k, left, cursors =>
    let windows := planReconcileWindows cursors.cached tuning.reconcileChunk tip
      tuning.reconcileConcurrency
    if windows.isEmpty then (cursors, .ok ())
    else
      match runBatch env hasClient hasRpc k cursors windows with
      | (cursors', .error e) => (cursors', .error e)
      | (cursors', .ok ()) =>
        match left with
        | 0 => (cursors', .ok ())
        | left + 1 => reconcileLoop tuning env hasClient hasRpc tip (k + 1) left cursors'

/-- `reconcile_notes_with`. -/
def reconcileNotesWith (tuning : ReconcileTuning) (env : ReconcileEnv) (hasClient hasRpc : Bool)
    (tip : UInt64) (cursors : Cursors) : Cursors × Except ReconcileError Unit :=
  reconcileLoop tuning env hasClient hasRpc tip 0 (env.batches - 1) cursors

/-! The loop's recursion on the budget sits under the match on the batch's
    result, so it does not unfold by itself; these lemmas unfold one batch. -/

section Unfold

variable (tuning : ReconcileTuning) (env : ReconcileEnv) (hasClient hasRpc : Bool) (tip : UInt64)
  (k : Nat) (cursors : Cursors)

theorem reconcileLoop_of_isEmpty (left : Nat)
    (h : (planReconcileWindows cursors.cached tuning.reconcileChunk tip
      tuning.reconcileConcurrency).isEmpty = true) :
    reconcileLoop tuning env hasClient hasRpc tip k left cursors = (cursors, .ok ()) := by
  cases left <;>
  · delta reconcileLoop
    exact if_pos h

theorem reconcileLoop_of_error (left : Nat) {cursors' : Cursors} {e : ReconcileError}
    (h : (planReconcileWindows cursors.cached tuning.reconcileChunk tip
      tuning.reconcileConcurrency).isEmpty = false)
    (hrun : runBatch env hasClient hasRpc k cursors (planReconcileWindows cursors.cached
      tuning.reconcileChunk tip tuning.reconcileConcurrency) = (cursors', .error e)) :
    reconcileLoop tuning env hasClient hasRpc tip k left cursors = (cursors', .error e) := by
  cases left <;>
  · delta reconcileLoop
    refine (if_neg (ne_true_of_eq_false h)).trans ?_
    rw [hrun]

theorem reconcileLoop_zero_of_ok {cursors' : Cursors}
    (h : (planReconcileWindows cursors.cached tuning.reconcileChunk tip
      tuning.reconcileConcurrency).isEmpty = false)
    (hrun : runBatch env hasClient hasRpc k cursors (planReconcileWindows cursors.cached
      tuning.reconcileChunk tip tuning.reconcileConcurrency) = (cursors', .ok ())) :
    reconcileLoop tuning env hasClient hasRpc tip k 0 cursors = (cursors', .ok ()) := by
  delta reconcileLoop
  refine (if_neg (ne_true_of_eq_false h)).trans ?_
  rw [hrun]

theorem reconcileLoop_succ_of_ok (left : Nat) {cursors' : Cursors}
    (h : (planReconcileWindows cursors.cached tuning.reconcileChunk tip
      tuning.reconcileConcurrency).isEmpty = false)
    (hrun : runBatch env hasClient hasRpc k cursors (planReconcileWindows cursors.cached
      tuning.reconcileChunk tip tuning.reconcileConcurrency) = (cursors', .ok ())) :
    reconcileLoop tuning env hasClient hasRpc tip k (left + 1) cursors =
      reconcileLoop tuning env hasClient hasRpc tip (k + 1) left cursors' := by
  delta reconcileLoop
  refine (if_neg (ne_true_of_eq_false h)).trans ?_
  rw [hrun]

end Unfold

/-! ## Section 5: The low-water mark -/

theorem natWindow_eq : natWindow = Prod.map UInt64.toNat UInt64.toNat := rfl

theorem toNat_lastStop (mark : UInt64) (ws : List Window) :
    (lastStop mark ws).toNat = lastStop mark.toNat (ws.map natWindow) := by
  rw [natWindow_eq, lastStop_map]

/-- The loop over a batch processes a prefix of it: every window of the
    prefix succeeded, both cursors stand at its last `to`, and the batch ends
    early only at a window that failed. -/
theorem processWindows_spec (reply : Window → WindowReply) (hasClient hasRpc : Bool)
    (mark : UInt64) (ws : List Window) :
    ∃ k ≤ ws.length, (∀ w ∈ ws.take k, (reply w).succeeds hasClient hasRpc = true) ∧
      (processWindows reply hasClient hasRpc (Cursors.both mark) ws).1 =
        Cursors.both (lastStop mark (ws.take k)) ∧
      match (processWindows reply hasClient hasRpc (Cursors.both mark) ws).2 with
      | .ok () => k = ws.length
      | .error _ => ∃ w, ws[k]? = some w ∧ (reply w).succeeds hasClient hasRpc = false := by
  induction ws generalizing mark with
  | nil => exact ⟨0, le_rfl, by simp, rfl, rfl⟩
  | cons w ws ih =>
    rcases reconcileWindow_cases hasClient hasRpc (Cursors.both mark) w (reply w) with
      ⟨hok, hstep⟩ | ⟨hfail, e, hstep⟩
    · -- the window succeeded: the rest is processed from its `to`
      obtain ⟨k, hk, hsucc, hcur, hres⟩ := ih w.2
      refine ⟨k + 1, by simpa using hk, ?_, ?_, ?_⟩
      · intro v hv
        rw [List.take_succ_cons, List.mem_cons] at hv
        rcases hv with rfl | hv
        · exact hok
        · exact hsucc v hv
      · simp only [processWindows, hstep, List.take_succ_cons, lastStop_cons]
        exact hcur
      · simp only [processWindows, hstep]
        cases hr2 : (processWindows reply hasClient hasRpc (Cursors.both w.2) ws).2 with
        | ok u =>
          simp only [hr2] at hres
          simp only [hres, List.length_cons]
        | error e' =>
          simp only [hr2] at hres
          obtain ⟨v, hv, hvf⟩ := hres
          exact ⟨v, by simpa using hv, hvf⟩
    · -- the window failed: nothing of the batch was processed
      refine ⟨0, Nat.zero_le _, by simp, by simp [processWindows, hstep, lastStop], ?_⟩
      simp only [processWindows, hstep]
      exact ⟨w, rfl, hfail⟩

/-- Whatever the completion order, a batch whose windows ascend is processed
    in that order, unless a fetch task panicked. -/
theorem runBatch_cases (env : ReconcileEnv) (hasClient hasRpc : Bool) (k : Nat)
    (cursors : Cursors) {windows : List Window}
    (hsorted : windows.Pairwise fun a b => a.1.toNat < b.1.toNat) :
    (∃ e, runBatch env hasClient hasRpc k cursors windows =
        (cursors, .error (.taskPanicked e))) ∨
      runBatch env hasClient hasRpc k cursors windows =
        processWindows env.reply hasClient hasRpc cursors windows := by
  unfold runBatch
  by_cases hone : windows.length = 1
  · right
    simp only [hone, if_true]
    rw [sortBy_compareOn_eq_of_perm hsorted (List.Perm.refl windows)]
  · simp only [hone, if_false]
    cases hcomp : env.completion k windows with
    | error e => exact .inl ⟨e, rfl⟩
    | ok order =>
      right
      simp only [sortBy_compareOn_eq_of_perm hsorted (env.completion_perm k windows order hcomp)]

/-- What a sweep call from both cursors at `mark`, with a budget of
    `batches` batches, leaves behind: it processed the first `n` windows of
    the sweep after `mark`, every call of each succeeded, and both cursors
    stand at the last one's `to`. It succeeded only once the cursors reached
    `tip` or with the budget spent on full batches, and it failed only on a
    panicked fetch task or on the window right after them: the windows it
    processed are the longest prefix that succeeded within the budget. -/
def LowWaterMark (tuning : ReconcileTuning) (tip mark : UInt64) (batches : Nat)
    (reply : Window → WindowReply) (hasClient hasRpc : Bool)
    (result : Cursors × Except ReconcileError Unit) : Prop :=
  ∃ n, ∃ done : List Window,
    done.map natWindow =
      sweepWindows tuning.reconcileChunk.toNat tip.toNat n (mark.toNat + 1) ∧
    (∀ w ∈ done, (reply w).succeeds hasClient hasRpc = true) ∧
    result.1 = Cursors.both (lastStop mark done) ∧
    (result.2 = .ok () → tip.toNat ≤ (lastStop mark done).toNat ∨
      n = batches * tuning.reconcileConcurrency) ∧
    ∀ e, result.2 = .error e → (∃ d, e = .taskPanicked d) ∨
      ∃ w, (done ++ [w]).map natWindow =
          sweepWindows tuning.reconcileChunk.toNat tip.toNat (n + 1) (mark.toNat + 1) ∧
        (reply w).succeeds hasClient hasRpc = false

/-- A batch that succeeded as a whole, followed by a sweep from where it
    stopped, is a sweep from where it started. -/
theorem LowWaterMark.of_batch {tuning : ReconcileTuning} {tip mark : UInt64} {batches : Nat}
    {reply : Window → WindowReply} {hasClient hasRpc : Bool}
    {result : Cursors × Except ReconcileError Unit} {windows : List Window}
    (hwindows : windows.map natWindow = sweepWindows tuning.reconcileChunk.toNat tip.toNat
      tuning.reconcileConcurrency (mark.toNat + 1))
    (hsucc : ∀ w ∈ windows, (reply w).succeeds hasClient hasRpc = true)
    (hrest : LowWaterMark tuning tip (lastStop mark windows) batches reply hasClient hasRpc result) :
    LowWaterMark tuning tip mark (batches + 1) reply hasClient hasRpc result := by
  obtain ⟨n, done, hdone, hdsucc, hcur, hok, herr⟩ := hrest
  have hmark : (lastStop mark windows).toNat = lastStop mark.toNat (windows.map natWindow) :=
    toNat_lastStop mark windows
  -- the batch's sweep and the rest's sweep join up
  have hadd : ∀ m, sweepWindows tuning.reconcileChunk.toNat tip.toNat
      (tuning.reconcileConcurrency + m) (mark.toNat + 1) =
      windows.map natWindow ++ sweepWindows tuning.reconcileChunk.toNat tip.toNat m
        ((lastStop mark windows).toNat + 1) := by
    intro m
    rw [sweepWindows_add, ← hwindows, hmark]
  refine ⟨tuning.reconcileConcurrency + n, windows ++ done, ?_, ?_, ?_, ?_, ?_⟩
  · rw [List.map_append, hdone, hadd]
  · intro w hw
    rcases List.mem_append.mp hw with hw | hw
    · exact hsucc w hw
    · exact hdsucc w hw
  · rw [hcur, lastStop_append]
  · -- the rest stopped at the tip, or spent its budget: this batch is one more full one
    intro hres
    rw [lastStop_append]
    rcases hok hres with htip | hspent
    · exact .inl htip
    · right
      rw [hspent, Nat.succ_mul, Nat.add_comm]
  · intro e he
    rcases herr e he with hpanic | ⟨w, hw, hfail⟩
    · exact .inl hpanic
    · refine .inr ⟨w, ?_, hfail⟩
      rw [List.append_assoc, List.map_append, hw, Nat.add_assoc, hadd]

/-- The cursors of a low-water mark agree, and they never fall below the
    mark they started from. -/
theorem LowWaterMark.cursor_spec {tuning : ReconcileTuning} {tip mark : UInt64} {batches : Nat}
    {reply : Window → WindowReply} {hasClient hasRpc : Bool}
    {result : Cursors × Except ReconcileError Unit}
    (h : LowWaterMark tuning tip mark batches reply hasClient hasRpc result) :
    result.1.persisted = result.1.cached ∧ mark.toNat ≤ result.1.persisted.toNat := by
  obtain ⟨n, done, hdone, -, hcur, -, -⟩ := h
  rw [hcur]
  refine ⟨rfl, ?_⟩
  show mark.toNat ≤ (lastStop mark done).toNat
  rw [toNat_lastStop, hdone]
  exact le_lastStop_sweepWindows n mark.toNat

/-- A call that stops with both cursors where they were, already at the tip
    or with no budget left. -/
theorem LowWaterMark.stay (tuning : ReconcileTuning) {tip mark : UInt64} {batches : Nat}
    (reply : Window → WindowReply) (hasClient hasRpc : Bool)
    (hstop : tip.toNat ≤ mark.toNat ∨ batches = 0) :
    LowWaterMark tuning tip mark batches reply hasClient hasRpc (Cursors.both mark, .ok ()) := by
  refine ⟨0, [], by simp, by simp, by simp [lastStop], fun _ => ?_, by simp⟩
  rcases hstop with htip | rfl
  · exact .inl htip
  · exact .inr (by simp)

/-- A plan with no window means the cursor has reached the tip. -/
theorem tip_le_of_plan_isEmpty (tuning : ReconcileTuning) {tip mark : UInt64}
    (hwrap : NoWrap mark tuning.reconcileChunk tip)
    (hempty : (planReconcileWindows mark tuning.reconcileChunk tip
      tuning.reconcileConcurrency).isEmpty = true) :
    tip.toNat ≤ mark.toNat := by
  have hnil : sweepWindows tuning.reconcileChunk.toNat tip.toNat tuning.reconcileConcurrency
      (mark.toNat + 1) = [] := by
    rw [← planReconcileWindows_eq_sweepWindows tuning hwrap, List.isEmpty_iff.mp hempty,
      List.map_nil]
  have hlt := (sweepWindows_eq_nil_iff tuning.concurrency_pos).mp hnil
  omega

/-- A planned batch ascends and, under `NoWrap`, is the sweep's next
    `reconcile_concurrency` windows. -/
theorem plan_sweep (tuning : ReconcileTuning) {tip mark : UInt64}
    (hwrap : NoWrap mark tuning.reconcileChunk tip) :
    let windows := planReconcileWindows mark tuning.reconcileChunk tip tuning.reconcileConcurrency
    windows.map natWindow = sweepWindows tuning.reconcileChunk.toNat tip.toNat
        tuning.reconcileConcurrency (mark.toNat + 1) ∧
      windows.length ≤ tuning.reconcileConcurrency ∧
      windows.Pairwise fun a b => a.1.toNat < b.1.toNat := by
  intro windows
  have hplan := planReconcileWindows_eq_sweepWindows tuning hwrap
  refine ⟨hplan, ?_, ?_⟩
  · rw [← List.length_map natWindow, hplan]
    exact length_sweepWindows_le _ _
  · have h := @pairwise_sweepWindows _ tip.toNat tuning.chunk_pos
      tuning.reconcileConcurrency (mark.toNat + 1)
    rw [← hplan, List.pairwise_map] at h
    exact h

/-- After a non-empty batch the cursor is still `NoWrap`. -/
theorem NoWrap.lastStop (tuning : ReconcileTuning) {tip mark : UInt64}
    (hwrap : NoWrap mark tuning.reconcileChunk tip)
    (hne : planReconcileWindows mark tuning.reconcileChunk tip tuning.reconcileConcurrency ≠ []) :
    NoWrap (lastStop mark (planReconcileWindows mark tuning.reconcileChunk tip
      tuning.reconcileConcurrency)) tuning.reconcileChunk tip := by
  obtain ⟨hplan, -, -⟩ := plan_sweep tuning hwrap
  obtain ⟨w, hw, hstop⟩ := exists_lastStop_eq hne mark
  -- the last window stops at or below `tip`
  have hbound := (mem_sweepWindows tuning.chunk_pos
    (hplan ▸ List.mem_map_of_mem hw : natWindow w ∈ _)).2.2.1
  have hchunk := tuning.chunk_pos
  have htip := hwrap.2
  refine ⟨?_, htip⟩
  rw [hstop]
  simp only [natWindow] at hbound
  omega

/-- One batch from both cursors at `mark`: it succeeds as a whole and moves
    both cursors to its last `to`, or the call ends with a low-water mark. -/
theorem runBatch_spec (tuning : ReconcileTuning) (env : ReconcileEnv) (hasClient hasRpc : Bool)
    (k : Nat) {tip mark : UInt64} (hwrap : NoWrap mark tuning.reconcileChunk tip) :
    let windows := planReconcileWindows mark tuning.reconcileChunk tip tuning.reconcileConcurrency
    let r := runBatch env hasClient hasRpc k (Cursors.both mark) windows
    (r.2 = .ok () → r.1 = Cursors.both (lastStop mark windows) ∧
      ∀ w ∈ windows, (env.reply w).succeeds hasClient hasRpc = true) ∧
    (∀ batches e, r.2 = .error e → LowWaterMark tuning tip mark batches env.reply hasClient hasRpc r) := by
  obtain ⟨hplan, hlen, hsorted⟩ := plan_sweep tuning hwrap
  dsimp only
  generalize planReconcileWindows mark tuning.reconcileChunk tip tuning.reconcileConcurrency =
    windows at hplan hlen hsorted ⊢
  rcases runBatch_cases env hasClient hasRpc k (Cursors.both mark) hsorted with
    ⟨e, hpanic⟩ | hrun
  · -- a panicked fetch task: nothing of the batch was processed
    rw [hpanic]
    refine ⟨fun hok => by simp at hok, fun _ _ _ => ⟨0, [], by simp, by simp, by simp [lastStop],
      fun hok => by simp at hok, fun e' he' => .inl ⟨e, ?_⟩⟩⟩
    simp only [Except.error.injEq] at he'
    exact he'.symm
  · obtain ⟨j, hj, hsucc, hcur, hres⟩ :=
      processWindows_spec env.reply hasClient hasRpc mark windows
    rw [← hrun] at hcur hres
    rw [hrun] at hcur hres ⊢
    -- the processed prefix is the sweep's first `j` windows
    have hprefix : ∀ i, i ≤ windows.length → (windows.take i).map natWindow =
        sweepWindows tuning.reconcileChunk.toNat tip.toNat i (mark.toNat + 1) := by
      intro i hi
      rw [List.map_take, hplan, take_sweepWindows, Nat.min_eq_left (by omega)]
    refine ⟨fun hok => ?_, fun _ e he => ?_⟩
    · rw [hok] at hres
      have hall : windows.take j = windows := List.take_of_length_le (by omega)
      rw [hall] at hsucc hcur
      exact ⟨hcur, hsucc⟩
    · refine ⟨j, windows.take j, hprefix j hj, hsucc, hcur, fun hok => by simp [he] at hok,
        fun e' he' => .inr ?_⟩
      rw [he] at hres
      obtain ⟨w, hw, hfail⟩ := hres
      have hjlt : j < windows.length := by
        by_contra hge
        rw [List.getElem?_eq_none (by omega)] at hw
        simp at hw
      refine ⟨w, ?_, hfail⟩
      have hnext := hprefix (j + 1) (by omega)
      rw [List.take_add_one, hw] at hnext
      simpa using hnext

/-- **Step lemma.** One call of the loop from both cursors at `mark`: an
    empty plan or a failed batch settles it, and after a batch that
    succeeds it leaves a low-water mark when the rest of the call leaves
    one from where the batch stopped. -/
theorem reconcileLoop_lowWaterMark_step (tuning : ReconcileTuning) (env : ReconcileEnv)
    (hasClient hasRpc : Bool) {tip mark : UInt64} (k left : Nat) (hwrap : NoWrap mark tuning.reconcileChunk tip)
    (hrest : ∀ cursors', (planReconcileWindows mark tuning.reconcileChunk tip
        tuning.reconcileConcurrency).isEmpty = false →
      runBatch env hasClient hasRpc k (Cursors.both mark)
        (planReconcileWindows mark tuning.reconcileChunk tip tuning.reconcileConcurrency) = (cursors', .ok ()) →
      cursors' = Cursors.both (lastStop mark
        (planReconcileWindows mark tuning.reconcileChunk tip tuning.reconcileConcurrency)) →
      LowWaterMark tuning tip (lastStop mark
          (planReconcileWindows mark tuning.reconcileChunk tip tuning.reconcileConcurrency)) left env.reply
        hasClient hasRpc (reconcileLoop tuning env hasClient hasRpc tip k left (Cursors.both mark))) :
    LowWaterMark tuning tip mark (left + 1) env.reply hasClient hasRpc
      (reconcileLoop tuning env hasClient hasRpc tip k left (Cursors.both mark)) := by
  obtain ⟨hplan, -, -⟩ := plan_sweep tuning hwrap
  obtain ⟨hbatchOk, hbatchErr⟩ := runBatch_spec tuning env hasClient hasRpc k hwrap
  cases hempty : (planReconcileWindows mark tuning.reconcileChunk tip
      tuning.reconcileConcurrency).isEmpty with
  | true =>
    rw [reconcileLoop_of_isEmpty tuning env hasClient hasRpc tip k (Cursors.both mark) left hempty]
    exact LowWaterMark.stay tuning env.reply hasClient hasRpc
      (.inl (tip_le_of_plan_isEmpty tuning hwrap hempty))
  | false =>
    rcases hrun : runBatch env hasClient hasRpc k (Cursors.both mark)
      (planReconcileWindows mark tuning.reconcileChunk tip tuning.reconcileConcurrency) with
      ⟨cursors', e | ⟨⟩⟩
    · -- the batch failed: the call ends with it
      rw [reconcileLoop_of_error tuning env hasClient hasRpc tip k (Cursors.both mark) left
        hempty hrun, ← hrun]
      exact hbatchErr _ e (by rw [hrun])
    · obtain ⟨hcur, hsucc⟩ := hbatchOk (by rw [hrun])
      rw [hrun] at hcur
      exact LowWaterMark.of_batch hplan hsucc (hrest cursors' hempty hrun hcur)

/-- Every sweep call from both cursors at a `NoWrap` mark, with `left`
    more batches after the first, leaves a low-water mark. -/
theorem reconcileLoop_lowWaterMark (tuning : ReconcileTuning) (env : ReconcileEnv)
    (hasClient hasRpc : Bool) (tip : UInt64) (left : Nat) :
    ∀ (k : Nat) (mark : UInt64), NoWrap mark tuning.reconcileChunk tip →
      LowWaterMark tuning tip mark (left + 1) env.reply hasClient hasRpc
        (reconcileLoop tuning env hasClient hasRpc tip k left (Cursors.both mark)) := by
  -- induction on the batches left in the budget; each step is one batch
  induction left with
  | zero =>
    intro k mark hwrap
    refine reconcileLoop_lowWaterMark_step tuning env hasClient hasRpc k 0 hwrap
      fun cursors' hempty hrun hcur => ?_
    -- the budget is spent after this batch
    rw [reconcileLoop_zero_of_ok tuning env hasClient hasRpc tip k (Cursors.both mark) hempty hrun, hcur]
    exact LowWaterMark.stay _ _ _ _ (.inr rfl)
  | succ left ih =>
    intro k mark hwrap
    refine reconcileLoop_lowWaterMark_step tuning env hasClient hasRpc k (left + 1) hwrap
      fun cursors' hempty hrun hcur => ?_
    -- the next batch starts where this one stopped
    have hne : planReconcileWindows mark tuning.reconcileChunk tip
        tuning.reconcileConcurrency ≠ [] := by simpa using hempty
    rw [reconcileLoop_succ_of_ok tuning env hasClient hasRpc tip k (Cursors.both mark) _ hempty hrun, hcur]
    exact ih (k + 1) _ (NoWrap.lastStop tuning hwrap hne)

end Projector
