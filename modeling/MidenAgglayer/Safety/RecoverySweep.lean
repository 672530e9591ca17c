import MidenAgglayer.Service.OrphanRecovery
import MidenAgglayer.Safety.WriterLifecycle

/-! # Orphan Recovery Beside the Writer

    Over every interleaving of the recovery sweep (`Service/OrphanRecovery.lean`)
    with the writer and every other party acting on the store:

    * **A row is re-driven only in nonce order.** When the sweep examines a
      row, every row of the same signer with a smaller nonce in its scan was
      resolved with `Continue` earlier in the same sweep
      (`recovery_nonce_order`).
    * **A re-drive is gated.** A job is re-enqueued only for a row that, in
      the same step, was still pending with no Miden id and no handoff link
      and took its next backoff; its backoff was due, and the next one is
      between 30 s and 4500 s later, within ±25% of a delay that doubles
      with each attempt up to an hour (`next_backoff_at_bounds`); Miden
      reported the effect not applied or could not tell earlier in the
      sweep; and the job is the row's own decoded call, for a hash not in
      flight (`recovery_redrive_gate`).
    * **The writer stays tracked.** Recovery's re-enqueues keep the writer's
      invariant of `Safety/WriterLifecycle.lean` (`recovery_keeps_writer_tracked`).
    * **Recovery writes only three receipts**: a GER applied elsewhere as a
      success, a claim landed elsewhere as `AlreadyClaimed`, an undecodable
      call as a failure — never a row whose exact note was consumed
      (`recovery_receipts`).

    The writer's callers keep its rule (`Writer.Action.Fresh`), and the
    per-signer lock keeps admission from enqueueing the hash of the row the
    sweep holds (`Action.Admissible`).
-/

namespace Recovery

open Store Mpsc Bytes Runs

variable (P : Primitives)

/-! ## Section 1: The backoff -/

/-- The saturating multiplication never saturates: the base is the capped
    exponential. -/
theorem backoffBase_eq (attempts : Nat) : backoffBase attempts = min (30 * 2 ^ min attempts 20) 3600 := by
  have h : 2 ^ min attempts 20 ≤ 2 ^ 20 := Nat.pow_le_pow_right (by norm_num) (Nat.min_le_right _ _)
  unfold backoffBase backoffBaseSecs backoffCapSecs u64Max
  omega

/-- **Backoff bounds.** The next attempt is `now` plus a delay, saturating
    at `u64::MAX`; the delay is never under `BACKOFF_BASE_SECS`, stays
    within −25% and +25% of the base, and never exceeds 4500 s. -/
theorem next_backoff_at_bounds (attempts jitterSeed now : Nat) :
    ∃ delay, nextBackoffAt attempts jitterSeed now = min (now + delay) u64Max ∧
      backoffBaseSecs ≤ delay ∧ backoffBase attempts - backoffBase attempts / 4 ≤ delay ∧
      delay ≤ backoffBase attempts + backoffBase attempts / 2 - backoffBase attempts / 4 ∧ delay ≤ 4500 := by
  have hbase := backoffBase_eq attempts
  have hpos : 1 ≤ 2 ^ min attempts 20 := Nat.one_le_two_pow
  unfold nextBackoffAt
  dsimp only
  refine ⟨_, rfl, ?_⟩
  -- the base is at least 30, so the jitter's span is not empty
  have hspan : backoffBase attempts / 2 ≠ 0 := by omega
  have hmod := Nat.mod_lt jitterSeed (show 0 < backoffBase attempts / 2 + 1 by omega)
  rw [if_neg hspan]
  unfold backoffBaseSecs
  omega

/-! ## Section 2: The sweep's loop -/

/-- At a run boundary the sweep enters the next run whose signer parses,
    or ends. -/
theorem enterRuns_cases (cfg : Config) (scan : List RecoverablePendingTxn) :
    ∀ rs : List (RecoverablePendingTxn × List RecoverablePendingTxn),
      enterRuns cfg scan rs = .idle ∨
        ∃ x xs later signer, (x, xs) ∈ rs ∧ (∀ r ∈ later, r ∈ rs) ∧
          cfg.parseAddress x.signer = some signer ∧
          enterRuns cfg scan rs = .walking ⟨scan, later, signer, [], x, xs, .start⟩
  | [] => .inl rfl
  | (x, xs) :: later => by
    cases hparse : cfg.parseAddress x.signer with
    | none =>
      -- an unparseable signer's run is skipped
      rcases enterRuns_cases cfg scan later with h | ⟨y, ys, later', signer, hmem, hlater, hp, heq⟩
      · exact .inl (by simp [enterRuns, hparse, h])
      · exact .inr ⟨y, ys, later', signer, List.mem_cons_of_mem _ hmem,
          fun r hr => List.mem_cons_of_mem _ (hlater r hr), hp, by simp [enterRuns, hparse, heq]⟩
    | some signer =>
      exact .inr ⟨x, xs, later, signer, List.mem_cons_self, fun r hr => List.mem_cons_of_mem _ hr, hparse,
        by simp [enterRuns, hparse]⟩

/-- The end of a row: the loop takes the next row of the run after a
    `Continue`, or goes to the run boundary. -/
theorem Walk.finish_cases (cfg : Config) (walk : Walk) (step : Step) :
    (∃ x rest, step = .continue ∧ walk.rest = x :: rest ∧
      walk.finish cfg step =
        .walking { walk with visited := walk.visited ++ [walk.tx], tx := x, rest := rest, row := .start }) ∨
    walk.finish cfg step = enterRuns cfg walk.scan walk.later := by
  cases step
  · -- `Continue`
    cases hrest : walk.rest with
    | nil => exact .inr (by simp [Walk.finish, hrest])
    | cons x rest => exact .inl ⟨x, rest, rfl, rfl, by simp [Walk.finish, hrest]⟩
  · -- `StopSigner`
    exact .inr rfl

/-! ## Section 3: The sweep's invariant

    The invariant of a walk reads the events of the run so far: the scan it
    walks is the last one, every row walked was resolved with `Continue`
    since, and a row about to be re-driven was found open by Miden since. -/

/-- The phase's decoded call. -/
@[simp] def RowPhase.call? : RowPhase → Option Writer.DecodedWriteCall
  | .handoffReading call => some call
  | .freshReading call _ => some call
  | .reconciling call _ _ => some call
  | .clearing call _ => some call
  | .recording call _ => some call
  | _ => none

/-- The phase's finalisation. -/
@[simp] def RowPhase.finalization? : RowPhase → Option Finalization
  | .finalizing kind => some kind
  | .committing kind _ => some kind
  | _ => none

/-- The phases after a reconcile that found the effect not applied or
    could not tell. -/
@[simp] def RowPhase.Redriving : RowPhase → Prop
  | .clearing _ _ => True
  | .recording _ _ => True
  | _ => False

/-- The step was the sweep's scan. -/
def Event.isScan : Event → Bool
  | .scanned _ => true
  | _ => false

/-- `recover_one` returned `Continue` for `tx`, after a re-drive or not. -/
def Event.Continued (tx : RecoverablePendingTxn) : Event → Prop
  | .resolved tx' .continue => tx' = tx
  | .redriven tx' _ => tx' = tx
  | _ => False

/-- Miden found the effect of `tx` not applied, or could not tell. -/
def Event.ReconciledOpen (tx : RecoverablePendingTxn) : Event → Prop
  | .reconciled tx' (.ok .notApplied) => tx' = tx
  | .reconciled tx' (.ok .uncertain) => tx' = tx
  | _ => False

/-- An event since the last scan, the scan included, satisfies `p`. -/
def SinceScan (evs : List Event) (p : Event → Prop) : Prop :=
  ∃ (j : Nat) (e : Event), evs[j]? = some e ∧ p e ∧
    ∀ (i : Nat) (e' : Event), j < i → evs[i]? = some e' → e'.isScan = false

/-- A finalisation of `tx` that fits what the sweep saw: the failure of an
    undecodable call, or the duplicate of a decoded call that Miden found
    applied by another transaction since the scan. -/
def Justified (cfg : Config) (evs : List Event) (tx : RecoverablePendingTxn) (kind : Finalization) : Prop :=
  (∃ err, cfg.decodeOf tx.txHash = .error err ∧ kind = .terminalFailure (undecodableReason err)) ∨
  (∃ call, cfg.decodeOf tx.txHash = .ok call ∧ kind = duplicateOf call ∧
    SinceScan evs (· = .reconciled tx (.ok .appliedElsewhere)))

/-- What holds of a walk at time `now`, after the events `evs`. -/
structure WalkInv (cfg : Config) (now : Nat) (evs : List Event) (walk : Walk) : Prop where
  /-- The scan is in signer and nonce order. -/
  sorted : walk.scan.Pairwise fun a b => (RecoverablePendingTxn.cmp a b).isLE
  /-- The rows walked, the row in hand and the rows after it are a run of
      the scan. -/
  run : ∃ r ∈ signerRuns walk.scan, r.1 :: r.2 = walk.visited ++ walk.tx :: walk.rest
  later : ∀ r ∈ walk.later, r ∈ signerRuns walk.scan
  /-- The run's signer is the row's, parsed. -/
  parsed : cfg.parseAddress walk.tx.signer = some walk.signer
  /-- The scan walked is the last one. -/
  scanned : SinceScan evs (· = .scanned walk.scan)
  /-- Every row walked was resolved with `Continue` since. -/
  visited : ∀ x ∈ walk.visited, SinceScan evs (Event.Continued x)
  /-- A call in hand is the row's stored call. -/
  decoded : ∀ call, walk.row.call? = some call → cfg.decodeOf walk.tx.txHash = .ok call
  /-- A row about to be re-driven was found open since the scan. -/
  reconciled : walk.row.Redriving → SinceScan evs (Event.ReconciledOpen walk.tx)
  /-- The attempt about to be recorded was computed when the backoff was
      due. -/
  backoff : ∀ call nextAt, walk.row = .recording call nextAt →
    ∃ t ≤ now, isDue walk.tx t = true ∧
      nextAt = nextBackoffAt walk.tx.recoveryAttempts (jitterSeedOf walk.tx.txHash) t
  finalization : ∀ kind, walk.row.finalization? = some kind → Justified cfg evs walk.tx kind

/-- The invariant of the sweep's walk, if any, after the events `evs`. -/
def SweepInv (cfg : Config) (evs : List Event) (sys : System) : Prop :=
  ∀ walk, sys.sweep = .walking walk → WalkInv cfg sys.writer.now evs walk

section History

variable {evs : List Event} {p : Event → Prop}

/-- An event of `p` since the last scan stays one past a step that does
    not scan. -/
theorem SinceScan.append (h : SinceScan evs p) {e : Event} (he : e.isScan = false) :
    SinceScan (evs ++ [e]) p := by
  obtain ⟨j, e', hj, hp, hafter⟩ := h
  have hlt : j < evs.length := (List.getElem?_eq_some_iff.mp hj).1
  refine ⟨j, e', by rw [List.getElem?_append_left hlt, hj], hp, ?_⟩
  intro i e'' hji hi
  by_cases hil : i < evs.length
  · rw [List.getElem?_append_left hil] at hi
    exact hafter i e'' hji hi
  · -- the one event past the old ones is the step's own
    rw [List.getElem?_append_right (by omega), List.getElem?_singleton] at hi
    split at hi
    · cases hi
      exact he
    · cases hi

/-- The step's own event. -/
theorem SinceScan.last {e : Event} (he : p e) : SinceScan (evs ++ [e]) p := by
  refine ⟨evs.length, e, by simp, he, ?_⟩
  intro i e' hi h
  rw [List.getElem?_eq_none (by simp; omega)] at h
  cases h

theorem Justified.append {cfg : Config} {tx : RecoverablePendingTxn} {kind : Finalization}
    (h : Justified cfg evs tx kind) {e : Event} (he : e.isScan = false) : Justified cfg (evs ++ [e]) tx kind := by
  rcases h with hfail | ⟨call, hdec, hkind, hseen⟩
  · exact .inl hfail
  · exact .inr ⟨call, hdec, hkind, hseen.append he⟩

end History

section Invariant

variable {cfg : Config} {now : Nat} {evs : List Event} {walk : Walk}

/-- Every row of a run has the run's signer. -/
theorem signer_eq_of_mem_run {scan : List RecoverablePendingTxn}
    {r : RecoverablePendingTxn × List RecoverablePendingTxn} (hr : r ∈ signerRuns scan)
    {y : RecoverablePendingTxn} (hy : y ∈ r.1 :: r.2) : y.signer = r.1.signer := by
  rcases List.mem_cons.mp hy with rfl | hy
  · rfl
  · exact key_eq_of_mem_run RecoverablePendingTxn.signer hr hy

/-- A step that neither scans nor moves the walk keeps its invariant, the
    clock going forward. -/
theorem WalkInv.append (hw : WalkInv cfg now evs walk) {now' : Nat} (hle : now ≤ now') {e : Event}
    (he : e.isScan = false) : WalkInv cfg now' (evs ++ [e]) walk where
  sorted := hw.sorted
  run := hw.run
  later := hw.later
  parsed := hw.parsed
  scanned := hw.scanned.append he
  visited := fun x hx => (hw.visited x hx).append he
  decoded := hw.decoded
  reconciled := fun hrow => (hw.reconciled hrow).append he
  backoff := fun call nextAt hrow => by
    obtain ⟨t, ht, hdue, heq⟩ := hw.backoff call nextAt hrow
    exact ⟨t, Nat.le_trans ht hle, hdue, heq⟩
  finalization := fun kind hrow => (hw.finalization kind hrow).append he

/-- A run just entered is walked from its first row, none walked yet. -/
theorem walkInv_enterRuns {scan : List RecoverablePendingTxn}
    (hsorted : scan.Pairwise fun a b => (RecoverablePendingTxn.cmp a b).isLE)
    {rs : List (RecoverablePendingTxn × List RecoverablePendingTxn)} (hrs : ∀ r ∈ rs, r ∈ signerRuns scan)
    (hscan : SinceScan evs (· = .scanned scan)) (now : Nat) {walk' : Walk}
    (h : enterRuns cfg scan rs = .walking walk') : WalkInv cfg now evs walk' ∧ walk'.row = .start := by
  rcases enterRuns_cases cfg scan rs with hidle | ⟨x, xs, later, signer, hmem, hlater, hparse, heq⟩
  · rw [hidle] at h
    cases h
  · rw [heq] at h
    cases h
    have hinv : WalkInv cfg now evs ⟨scan, later, signer, [], x, xs, .start⟩ :=
      { sorted := hsorted
        run := ⟨(x, xs), hrs _ hmem, by simp⟩
        later := fun r hr => hrs r (hlater r hr)
        parsed := hparse
        scanned := hscan
        visited := by simp
        decoded := by simp
        reconciled := by simp
        backoff := by simp
        finalization := by simp }
    exact ⟨hinv, rfl⟩

/-- When a row ends and the walk goes on, it walks the next row of the run,
    the row just resolved with `Continue` walked, or enters a later run. -/
theorem WalkInv.finish (hw : WalkInv cfg now evs walk) {step : Step} {e : Event} (he : e.isScan = false)
    (hcont : step = .continue → e.Continued walk.tx) (now' : Nat) {walk' : Walk}
    (h : walk.finish cfg step = .walking walk') : WalkInv cfg now' (evs ++ [e]) walk' ∧ walk'.row = .start := by
  rcases Walk.finish_cases cfg walk step with ⟨x, rest, rfl, hrest, heq⟩ | heq
  · rw [heq] at h
    cases h
    obtain ⟨r, hr, hrun⟩ := hw.run
    -- the next row is of the same run, so of the same signer
    have hsigner : x.signer = walk.tx.signer := by
      have hx : x ∈ r.1 :: r.2 := by rw [hrun, hrest]; simp
      have htx : walk.tx ∈ r.1 :: r.2 := by rw [hrun]; simp
      rw [signer_eq_of_mem_run hr hx, signer_eq_of_mem_run hr htx]
    -- the row just resolved joins the rows walked
    have hvisited : ∀ y ∈ walk.visited ++ [walk.tx], SinceScan (evs ++ [e]) (Event.Continued y) := by
      intro y hy
      rcases List.mem_append.mp hy with hy | hy
      · exact (hw.visited y hy).append he
      · rw [List.mem_singleton.mp hy]
        exact SinceScan.last (hcont rfl)
    have hinv : WalkInv cfg now' (evs ++ [e])
        { walk with visited := walk.visited ++ [walk.tx], tx := x, rest := rest, row := .start } :=
      { sorted := hw.sorted
        run := ⟨r, hr, by rw [hrun, hrest]; simp⟩
        later := hw.later
        parsed := hsigner ▸ hw.parsed
        scanned := hw.scanned.append he
        visited := hvisited
        decoded := by simp
        reconciled := by simp
        backoff := by simp
        finalization := by simp }
    exact ⟨hinv, rfl⟩
  · rw [heq] at h
    exact walkInv_enterRuns hw.sorted hw.later (hw.scanned.append he) now' h

/-- The row moves on to `row` by a step that does not scan, under the
    obligations of `row`'s phase. -/
theorem WalkInv.goto (hw : WalkInv cfg now evs walk) {e : Event} (he : e.isScan = false) {now' : Nat}
    {row : RowPhase} (hdec : ∀ call, row.call? = some call → cfg.decodeOf walk.tx.txHash = .ok call)
    (hrec : row.Redriving → SinceScan (evs ++ [e]) (Event.ReconciledOpen walk.tx))
    (hback : ∀ call nextAt, row = .recording call nextAt →
      ∃ t ≤ now', isDue walk.tx t = true ∧
        nextAt = nextBackoffAt walk.tx.recoveryAttempts (jitterSeedOf walk.tx.txHash) t)
    (hfin : ∀ kind, row.finalization? = some kind → Justified cfg (evs ++ [e]) walk.tx kind) :
    WalkInv cfg now' (evs ++ [e]) { walk with row := row } where
  sorted := hw.sorted
  run := hw.run
  later := hw.later
  parsed := hw.parsed
  scanned := hw.scanned.append he
  visited := fun x hx => (hw.visited x hx).append he
  decoded := hdec
  reconciled := hrec
  backoff := hback
  finalization := hfin

theorem sweepInv_finish (hw : WalkInv cfg now evs walk) (w' : Writer.WriterSystem) {step : Step} {e : Event}
    (he : e.isScan = false) (hcont : step = .continue → e.Continued walk.tx) :
    SweepInv cfg (evs ++ [e]) ⟨w', walk.finish cfg step⟩ :=
  fun _ h => (hw.finish he hcont w'.now h).1

theorem sweepInv_done (hw : WalkInv cfg now evs walk) (w' : Writer.WriterSystem) (step : Step) :
    SweepInv cfg (evs ++ [(walk.done cfg w' step).2]) (walk.done cfg w' step).1 :=
  sweepInv_finish hw w' rfl fun h => by subst h; rfl

theorem sweepInv_goto (hw : WalkInv cfg now evs walk) (w' : Writer.WriterSystem) {e : Event}
    (he : e.isScan = false) {row : RowPhase}
    (hdec : ∀ call, row.call? = some call → cfg.decodeOf walk.tx.txHash = .ok call)
    (hrec : row.Redriving → SinceScan (evs ++ [e]) (Event.ReconciledOpen walk.tx))
    (hback : ∀ call nextAt, row = .recording call nextAt →
      ∃ t ≤ w'.now, isDue walk.tx t = true ∧
        nextAt = nextBackoffAt walk.tx.recoveryAttempts (jitterSeedOf walk.tx.txHash) t)
    (hfin : ∀ kind, row.finalization? = some kind → Justified cfg (evs ++ [e]) walk.tx kind) :
    SweepInv cfg (evs ++ [e]) (walk.goto w' row).1 := by
  intro walk' h
  cases h
  exact hw.goto he hdec hrec hback hfin

/-- The row moves to a phase that holds no call, no re-drive and no
    finalisation. -/
theorem sweepInv_goto_plain (hw : WalkInv cfg now evs walk) (w' : Writer.WriterSystem) {row : RowPhase}
    (hcall : row.call? = none) (hrec : ¬ row.Redriving) (hfin : row.finalization? = none) :
    SweepInv cfg (evs ++ [(walk.goto w' row).2]) (walk.goto w' row).1 := by
  refine sweepInv_goto hw w' rfl (fun c h => by rw [hcall] at h; cases h) (fun h => absurd h hrec) ?_
    (fun k h => by rw [hfin] at h; cases h)
  rintro call nextAt rfl
  exact absurd trivial hrec

/-- The row moves to a phase that holds its decoded call and no re-drive or
    finalisation. -/
theorem sweepInv_goto_call (hw : WalkInv cfg now evs walk) (w' : Writer.WriterSystem)
    {call : Writer.DecodedWriteCall} (hdec : cfg.decodeOf walk.tx.txHash = .ok call) {e : Event}
    (he : e.isScan = false) {row : RowPhase} (hcall : row.call? = some call) (hrec : ¬ row.Redriving)
    (hfin : row.finalization? = none) :
    SweepInv cfg (evs ++ [e]) (walk.goto w' row).1 := by
  refine sweepInv_goto hw w' he (fun c h => by rw [hcall] at h; cases h; exact hdec)
    (fun h => absurd h hrec) ?_ (fun k h => by rw [hfin] at h; cases h)
  rintro c nextAt rfl
  exact absurd trivial hrec

/-- Step 4b: the attempt is computed while due, at the step's clock. -/
theorem sweepInv_dueCheck (hw : WalkInv cfg now evs walk) (w' : Writer.WriterSystem)
    {call : Writer.DecodedWriteCall} (hdec : cfg.decodeOf walk.tx.txHash = .ok call) {e : Event}
    (he : e.isScan = false) (hrec : SinceScan (evs ++ [e]) (Event.ReconciledOpen walk.tx)) :
    SweepInv cfg (evs ++ [e]) (walk.dueCheck cfg w' call).1 := by
  unfold Walk.dueCheck
  split
  · rename_i hdue
    refine sweepInv_goto hw w' he (by simpa using hdec) (fun _ => hrec) ?_ (by simp)
    intro c nextAt hrow
    cases hrow
    exact ⟨w'.now, le_rfl, hdue, rfl⟩
  · exact sweepInv_finish hw w' he (fun h => by cases h)

theorem isScan_dueCheck (w' : Writer.WriterSystem) (call : Writer.DecodedWriteCall) :
    (walk.dueCheck cfg w' call).2.isScan = false := by
  unfold Walk.dueCheck
  split <;> rfl

/-- Steps 3 and 4a. -/
theorem sweepInv_afterReconcile (hw : WalkInv cfg now evs walk) (w' : Writer.WriterSystem)
    {call : Writer.DecodedWriteCall} (handoff : Option NoteHandoffRecord) (fresh : TxnReceipt)
    (hdec : cfg.decodeOf walk.tx.txHash = .ok call) {e : Event} (he : e.isScan = false)
    (hrec : SinceScan (evs ++ [e]) (Event.ReconciledOpen walk.tx)) :
    SweepInv cfg (evs ++ [e]) (walk.afterReconcile cfg w' call handoff fresh).1 := by
  unfold Walk.afterReconcile
  split
  · exact sweepInv_finish hw w' he (fun h => by cases h)
  · split
    · split
      · exact sweepInv_goto hw w' he (by simpa using hdec) (fun _ => hrec) (by simp) (by simp)
      · exact sweepInv_dueCheck hw w' hdec he hrec
    · exact sweepInv_dueCheck hw w' hdec he hrec

end Invariant

/-! ## Section 4: Every step keeps the sweep's invariant -/

section Steps

variable {cfg : Config} {evs : List Event} {walk : Walk}

/-- **Row step.** Every step of `recover_one` keeps the walk's invariant. -/
theorem sweepInv_rowStep (node : MidenNode) (jobId : Nat) (w : Writer.WriterSystem)
    (hw : WalkInv cfg w.now evs walk) :
    SweepInv cfg (evs ++ [(rowStep P cfg node jobId w walk).2]) (rowStep P cfg node jobId w walk).1 := by
  unfold rowStep
  split
  · -- the live check
    split
    · exact sweepInv_done hw w .continue
    · exact sweepInv_goto_plain hw w rfl (by simp) rfl
  · -- the nonce repair, then the decode
    dsimp only
    split
    · rename_i err hdecode
      refine sweepInv_goto hw _ rfl (by simp) (by simp) (by simp) ?_
      intro kind h
      simp only [RowPhase.finalization?, Option.some.injEq] at h
      exact .inl ⟨err, hdecode, h.symm⟩
    · rename_i call hdecode
      exact sweepInv_goto_call hw _ hdecode rfl rfl (by simp) rfl
  · -- the handoff read
    rename_i call hrow
    exact sweepInv_goto_call hw w (hw.decoded call (by rw [hrow]; rfl)) rfl rfl (by simp) rfl
  · -- the fresh read: a row gone or settled meanwhile is left
    rename_i call handoff hrow
    split
    · exact sweepInv_done hw w .continue
    · split
      · exact sweepInv_done hw w .continue
      · exact sweepInv_goto_call hw w (hw.decoded call (by rw [hrow]; rfl)) rfl rfl (by simp) rfl
  · -- the reconcile: its answer is the step's event
    rename_i call handoff fresh hrow
    have hdec := hw.decoded call (by rw [hrow]; rfl)
    dsimp only
    split
    · exact sweepInv_finish hw w rfl (fun h => by cases h)
    · exact sweepInv_finish hw w rfl (fun h => by cases h)
    · rename_i hout
      refine sweepInv_goto hw w rfl (by simp) (by simp) (by simp) ?_
      intro kind h
      simp only [RowPhase.finalization?, Option.some.injEq] at h
      exact .inr ⟨call, hdec, h.symm, SinceScan.last (by rw [hout])⟩
    · rename_i hout
      exact sweepInv_afterReconcile hw w handoff fresh hdec rfl (SinceScan.last (by rw [hout]; rfl))
    · rename_i hout
      exact sweepInv_afterReconcile hw w handoff fresh hdec rfl (SinceScan.last (by rw [hout]; rfl))
  · -- the clearing of an expired prepared handoff
    rename_i call commitment hrow
    have hdec := hw.decoded call (by rw [hrow]; rfl)
    have hrec := hw.reconciled (by rw [hrow]; trivial)
    dsimp only
    split
    · exact sweepInv_dueCheck hw _ hdec (isScan_dueCheck _ call) (hrec.append (isScan_dueCheck _ call))
    · exact sweepInv_done hw _ .stopSigner
  · -- the compare-and-set, then the enqueue
    dsimp only
    split
    · exact sweepInv_done hw _ .stopSigner
    · split
      · exact sweepInv_finish hw _ rfl (fun _ => rfl)
      · exact sweepInv_done hw _ .stopSigner
  · -- the block read of a finalisation
    rename_i kind hrow
    refine sweepInv_goto hw w rfl (by simp) (by simp) (by simp) ?_
    intro k h
    simp only [RowPhase.finalization?, Option.some.injEq] at h
    exact h ▸ (hw.finalization kind (by rw [hrow]; rfl)).append rfl
  · -- the commit of a finalisation
    dsimp only
    split
    · exact sweepInv_done hw _ .stopSigner
    · exact sweepInv_goto_plain hw _ rfl (by simp) rfl
  · exact sweepInv_done hw _ .continue

/-- **Sweep step.** The scan starts a walk of its own, and every row step
    keeps the walk's invariant. -/
theorem sweepInv_sweepStep (node : MidenNode) (jobId : Nat) {sys : System} (hs : SweepInv cfg evs sys) :
    SweepInv cfg (evs ++ [(sweepStep P cfg node jobId sys).2]) (sweepStep P cfg node jobId sys).1 := by
  unfold sweepStep
  split
  · -- a new sweep over the pending rows, in the scan's order
    intro walk h
    exact (walkInv_enterRuns (pairwise_recoverablePendingTxns _ _ _) (fun r hr => hr) (SinceScan.last rfl) _ h).1
  · rename_i walk hwalk
    exact sweepInv_rowStep P node jobId sys.writer (hs walk hwalk)

/-- **Step lemma.** Every step of the system keeps the sweep's invariant:
    the writer and the other parties move the clock only forward and leave
    the walk alone. -/
theorem sweepInv_step (wcfg : Writer.Config) {sys : System} (hs : SweepInv cfg evs sys) (a : Action) :
    SweepInv cfg (evs ++ [(step P wcfg cfg sys a).2]) (step P wcfg cfg sys a).1 := by
  cases a with
  | writer a =>
    intro walk h
    exact (hs walk h).append (Writer.now_le_step P wcfg sys.writer a) rfl
  | recovery node jobId => exact sweepInv_sweepStep P node jobId hs

/-- **Run lemma.** In front of every step of every run from `boot`, the
    sweep's invariant holds of the events so far. -/
theorem sweepInv_take (wcfg : Writer.Config) (cfg : Config) (store : InMemoryStore) (queueDepth now : Nat)
    (ops : List Action) {k : Nat} (hk : k ≤ ops.length) :
    SweepInv cfg (Run.outputs (step P wcfg cfg) (boot store queueDepth now) (ops.take k))
      (Run.final (step P wcfg cfg) (boot store queueDepth now) (ops.take k)) :=
  Run.history_invariant (step P wcfg cfg) (SweepInv cfg) _ ops (fun _ h => by cases h)
    (fun k _ hs => sweepInv_step P wcfg hs ops[k]) hk

end Steps

/-! ## Section 5: Nonce order -/

section NonceOrder

variable {cfg : Config} {now : Nat} {evs : List Event} {walk : Walk}

/-- The row in hand is a row of the scan. -/
theorem WalkInv.tx_mem (hw : WalkInv cfg now evs walk) : walk.tx ∈ walk.scan := by
  obtain ⟨r, hr, hrun⟩ := hw.run
  rw [← flatMap_runsBy RecoverablePendingTxn.signer walk.scan]
  exact List.mem_flatMap.mpr ⟨r, hr, by rw [hrun]; simp⟩

/-- Every row of the scan with the signer of the row in hand and a smaller
    nonce was walked: the run is every row of its signer, in nonce order. -/
theorem WalkInv.mem_visited (hw : WalkInv cfg now evs walk) {x : RecoverablePendingTxn} (hx : x ∈ walk.scan)
    (hsigner : x.signer = walk.tx.signer) (hnonce : x.nonce < walk.tx.nonce) : x ∈ walk.visited := by
  obtain ⟨r, hr, hrun⟩ := hw.run
  have hsorted : walk.scan.Pairwise fun a b => (compare a.signer b.signer).isLE :=
    hw.sorted.imp RecoverablePendingTxn.signer_isLE_of_cmp
  have hfilter := run_eq_filter RecoverablePendingTxn.signer hsorted hr
  have htx : walk.tx.signer = r.1.signer := signer_eq_of_mem_run hr (by rw [hrun]; simp)
  -- `x` is in the run, which is sorted too
  have hxrun : x ∈ walk.visited ++ walk.tx :: walk.rest := by
    rw [← hrun, hfilter]
    exact List.mem_filter.mpr ⟨hx, by simp [hsigner, htx]⟩
  have hrunSorted : (walk.visited ++ walk.tx :: walk.rest).Pairwise
      fun a b => (RecoverablePendingTxn.cmp a b).isLE := by
    rw [← hrun, hfilter]
    exact hw.sorted.filter _
  rcases List.mem_append.mp hxrun with hvis | htail
  · exact hvis
  · -- neither the row in hand nor a row after it has a smaller nonce
    exfalso
    rcases List.mem_cons.mp htail with rfl | hrest
    · exact Nat.lt_irrefl _ hnonce
    · have hle := (List.pairwise_cons.mp (List.pairwise_append.mp hrunSorted).2.1).1 x hrest
      have := RecoverablePendingTxn.nonce_le_of_cmp hle hsigner.symm
      omega

/-- **Nonce order.** Whenever the sweep holds a row, the row is in the last
    scan, and every row of that scan with the same signer and a smaller
    nonce was resolved with `Continue` since the scan. -/
theorem recovery_nonce_order (wcfg : Writer.Config) (cfg : Config) (store : InMemoryStore) (queueDepth now : Nat)
    (ops : List Action) {walk : Walk}
    (hwalk : (Run.final (step P wcfg cfg) (boot store queueDepth now) ops).sweep = .walking walk) :
    walk.tx ∈ walk.scan ∧
      SinceScan (Run.outputs (step P wcfg cfg) (boot store queueDepth now) ops) (· = .scanned walk.scan) ∧
      ∀ x ∈ walk.scan, x.signer = walk.tx.signer → x.nonce < walk.tx.nonce →
        SinceScan (Run.outputs (step P wcfg cfg) (boot store queueDepth now) ops) (Event.Continued x) := by
  have hinv := sweepInv_take P wcfg cfg store queueDepth now ops (le_refl ops.length)
  rw [List.take_length] at hinv
  have hw := hinv walk hwalk
  exact ⟨hw.tx_mem, hw.scanned, fun x hx hsigner hnonce => hw.visited x (hw.mem_visited hx hsigner hnonce)⟩

/-! Sample data for the runs below: one pending row at the zero hash, a
    sweep that parses every signer, and a node that finds nothing applied. -/

def sampleRow : TxnReceipt := ⟨none, 0, Vector.replicate 20 0, none, none, 0, [], 0, none⟩

def sampleStore : InMemoryStore :=
  { InMemoryStore.new with transactions := (∅ : Std.HashMap TxHash TxnReceipt).insert zeroWord sampleRow }

def sampleWriterConfig : Writer.Config := ⟨60, fun _ => "", 30, "", fun _ => zeroWord⟩

def sampleConfig (decodeOf : TxHash → Except String Writer.DecodedWriteCall) : Config :=
  ⟨fun _ => "0x0", fun _ => some (Vector.replicate 20 0), decodeOf, "", fun _ => zeroWord⟩

def sampleNode : MidenNode := ⟨.ok (), fun _ _ _ => .ok ⟨some false, none, .notRequested⟩⟩

def sampleTxn : RecoverablePendingTxn := RecoverablePendingTxn.ofRow (fun _ => "0x0") zeroWord sampleRow

/-- The first sweep over the sample store scans its row and walks it. -/
theorem step_boot_sampleStore (decodeOf : TxHash → Except String Writer.DecodedWriteCall) (node : MidenNode)
    (jobId : Nat) :
    step Primitives.sample sampleWriterConfig (sampleConfig decodeOf) (boot sampleStore 4 0) (.recovery node jobId) =
      (⟨Writer.spawn sampleStore 4 0, .walking ⟨[sampleTxn], [], Vector.replicate 20 0, [], sampleTxn, [], .start⟩⟩,
        .scanned [sampleTxn]) := by
  have htl : sampleStore.transactions.toList = [(zeroWord, sampleRow)] :=
    List.perm_singleton.mp (Std.HashMap.toList_insert_perm.trans (by simp))
  have hscan : (recoverablePendingTxns (fun _ => "0x0") recoveryScanLimit sampleStore).2 = [sampleTxn] := by
    simp [recoverablePendingTxns, htl, Maps.sortBy, recoveryScanLimit, sampleTxn, sampleRow]
  simp only [step, sweepStep, boot, Writer.spawn, sampleConfig, hscan, signerRuns, Runs.runsBy_cons,
    List.takeWhile_nil, List.dropWhile_nil, Runs.runsBy_nil, enterRuns]

/-! A second row of the same signer, at nonce 1, and the writer job of the
    first row. -/

def sampleHash1 : TxHash := Vector.replicate 32 1

def sampleRow1 : TxnReceipt := ⟨none, 1, Vector.replicate 20 0, none, none, 0, [], 0, none⟩

def pairStore : InMemoryStore :=
  { sampleStore with transactions := sampleStore.transactions.insert sampleHash1 sampleRow1 }

def sampleTxn1 : RecoverablePendingTxn := RecoverablePendingTxn.ofRow (fun _ => "0x0") sampleHash1 sampleRow1

def sampleJob : Writer.WriteJob := ⟨.ger zeroWord, 0, Vector.replicate 20 0, zeroWord, 0⟩

/-- The scan of the two rows lists them in nonce order, whatever order the
    map keeps them in. -/
theorem scan_pairStore :
    (recoverablePendingTxns (fun _ => "0x0") recoveryScanLimit pairStore).2 = [sampleTxn, sampleTxn1] := by
  have h0 : sampleStore.transactions.toList = [(zeroWord, sampleRow)] :=
    List.perm_singleton.mp (Std.HashMap.toList_insert_perm.trans (by simp))
  have htl : pairStore.transactions.toList.Perm [(sampleHash1, sampleRow1), (zeroWord, sampleRow)] := by
    refine Std.HashMap.toList_insert_perm.trans ?_
    rw [h0]
    simp [sampleHash1, zeroWord]
  have hout : ((pairStore.transactions.toList.filter fun p => p.2.result.isNone).map fun p =>
      RecoverablePendingTxn.ofRow (fun _ => "0x0") p.1 p.2).Perm [sampleTxn1, sampleTxn] := by
    have := (htl.filter fun p => p.2.result.isNone).map fun p => RecoverablePendingTxn.ofRow (fun _ => "0x0") p.1 p.2
    simpa [sampleRow, sampleRow1, sampleTxn, sampleTxn1] using this
  -- two views of distinct nonces have one sorted arrangement
  have hsorted : Maps.sortBy RecoverablePendingTxn.cmp ((pairStore.transactions.toList.filter fun p =>
      p.2.result.isNone).map fun p => RecoverablePendingTxn.ofRow (fun _ => "0x0") p.1 p.2) =
      [sampleTxn, sampleTxn1] := by
    refine List.Perm.eq_of_pairwise ?_ (Maps.pairwise_sortBy _ _) (by decide)
      ((Maps.sortBy_perm _ _).trans (hout.trans (List.Perm.swap _ _ [])))
    intro a b ha hb hab hba
    have ha' := ((Maps.sortBy_perm _ _).trans hout).subset ha
    simp only [List.mem_cons, List.not_mem_nil, or_false] at ha' hb
    rcases ha' with rfl | rfl <;> rcases hb with rfl | rfl <;> first | rfl | (exfalso; revert hab hba; decide)
  simp only [recoverablePendingTxns, recoveryScanLimit]
  rw [hsorted]
  rfl

/-- With the first row's job in flight, the sweep scans both rows, leaves
    the first to the writer with `Continue`, and holds the second: the row
    of smaller nonce was resolved before it. -/
theorem sweep_holds_second_nonce :
    let walk : Walk := ⟨[sampleTxn, sampleTxn1], [], Vector.replicate 20 0, [sampleTxn], sampleTxn1, [], .start⟩
    let cfg := sampleConfig fun _ => .ok (.ger zeroWord)
    let ops : List Action := [.writer (.enqueue sampleJob), .recovery sampleNode 0, .recovery sampleNode 0]
    (Run.final (step Primitives.sample sampleWriterConfig cfg) (boot pairStore 4 0) ops).sweep = .walking walk ∧
      sampleTxn ∈ walk.scan ∧ sampleTxn.signer = walk.tx.signer ∧ sampleTxn.nonce < walk.tx.nonce ∧
      SinceScan (Run.outputs (step Primitives.sample sampleWriterConfig cfg) (boot pairStore 4 0) ops)
        (Event.Continued sampleTxn) := by
  intro walk cfg ops
  have hwalk : (Run.final (step Primitives.sample sampleWriterConfig cfg) (boot pairStore 4 0) ops).sweep =
      .walking walk := by
    simp only [ops, Run.final, step, Writer.step, sweepStep, boot, Writer.spawn, cfg, sampleConfig, scan_pairStore,
      signerRuns, Runs.runsBy_cons, enterRuns, rowStep, Writer.WriterWorkerHandle.tryEnqueue, Mpsc.Channel.new,
      Mpsc.Channel.trySend, Writer.WriterWorkerHandle.isInflight, Walk.done, Walk.finish]
    simp [sampleJob, sampleTxn, sampleTxn1, RecoverablePendingTxn.ofRow, walk]
  have hmem : sampleTxn ∈ walk.scan := List.mem_cons_self
  have hnonce : sampleTxn.nonce < walk.tx.nonce := by decide
  obtain ⟨-, -, hbefore⟩ := recovery_nonce_order Primitives.sample _ _ _ _ _ _ hwalk
  exact ⟨hwalk, hmem, rfl, hnonce, hbefore sampleTxn hmem rfl hnonce⟩

end NonceOrder

/-! ## Section 6: What a row step writes -/

/-- The row's result. -/
def rowResult (s : InMemoryStore) (txHash : TxHash) : Option (Except String Unit) :=
  s.transactions[txHash]?.bind TxnReceipt.result

/-- A write that settles no row: every result after it was there before. -/
def SettlesNone (s s' : InMemoryStore) : Prop :=
  ∀ txHash r, rowResult s' txHash = some r → rowResult s txHash = some r

/-- The result a finalisation commits. -/
def Finalization.result : Finalization → Except String Unit
  | .gerDuplicate => .ok ()
  | .alreadyClaimed globalIndex => .error (alreadyClaimedReason globalIndex)
  | .terminalFailure reason => .error reason

section Writes

variable {s s' : InMemoryStore}

theorem SettlesNone.of_transactions (h : s'.transactions = s.transactions) : SettlesNone s s' := by
  intro txHash r hr
  unfold rowResult at hr ⊢
  rwa [h] at hr

theorem bind_result_insert (m : Std.HashMap TxHash TxnReceipt) (k h : TxHash) (row : TxnReceipt) :
    (m.insert k row)[h]?.bind TxnReceipt.result = if k = h then row.result else m[h]?.bind TxnReceipt.result := by
  rw [Std.HashMap.getElem?_insert]
  by_cases hk : k = h <;> simp [hk]

/-- Rewriting a row without changing its result settles nothing. -/
theorem settlesNone_insert {k : TxHash} {row row' : TxnReceipt} (hrow : s.transactions[k]? = some row)
    (h : s'.transactions = s.transactions.insert k row') (hres : row'.result = row.result) :
    SettlesNone s s' := by
  intro txHash r hr
  unfold rowResult at hr ⊢
  rw [h, bind_result_insert] at hr
  split at hr
  · rename_i hk
    subst hk
    rw [hrow]
    rwa [hres] at hr
  · exact hr

/-- Writing a row back to pending settles nothing. -/
theorem settlesNone_insert_pending {k : TxHash} {row' : TxnReceipt}
    (h : s'.transactions = s.transactions.insert k row') (hres : row'.result = none) : SettlesNone s s' := by
  intro txHash r hr
  unfold rowResult at hr ⊢
  rw [h, bind_result_insert] at hr
  split at hr
  · rw [hres] at hr
    cases hr
  · exact hr

theorem settlesNone_nonceAdvanceCas (addr : String) (expected : Nat) :
    SettlesNone s (nonceAdvanceCas P addr expected s).1 :=
  SettlesNone.of_transactions rfl

/-- Clearing an expired handoff turns at most a failed row back to
    pending. -/
theorem settlesNone_clearExpiredPreparedNoteHandoff (txKey commitment : String) :
    SettlesNone s (clearExpiredPreparedNoteHandoff P txKey commitment s).1 := by
  rcases clearExpiredPreparedNoteHandoff_transactions P s txKey commitment with h | h
  · exact SettlesNone.of_transactions h
  · rcases clearHandoff_transactions P s txKey commitment s.claimed with h' | ⟨k, receipt, -, h'⟩
    · exact SettlesNone.of_transactions (h.trans h')
    · exact settlesNone_insert_pending (h.trans h') rfl

theorem settlesNone_recordRecoveryAttempt (txHash : TxHash) (nextAt : Nat) :
    SettlesNone s (recordRecoveryAttempt P txHash nextAt s).1 := by
  rcases recordRecoveryAttempt_cases P txHash nextAt s with ⟨row, hrow, -, -, -, heq⟩ | heq
  · rw [heq]
    exact settlesNone_insert hrow rfl rfl
  · rw [heq]
    exact SettlesNone.of_transactions rfl

theorem settlesNone_clearRecoveryBackoff (txHash : TxHash) :
    SettlesNone s (clearRecoveryBackoff txHash s).1 := by
  intro k r hr
  unfold rowResult clearRecoveryBackoff at hr
  rw [Std.HashMap.getElem?_modify] at hr
  unfold rowResult
  split at hr
  · rename_i hk
    rw [← beq_iff_eq.mp hk]
    cases hrow : s.transactions[txHash]? with
    | none => simp [hrow] at hr
    | some row => simpa [hrow] using hr
  · exact hr

/-- Settling one row settles no other. -/
theorem rowResult_insert_settled {k : TxHash} {row : TxnReceipt} {result : Except String Unit}
    (h : s'.transactions = s.transactions.insert k row) (hres : row.result = some result) {txHash : TxHash}
    {r : Except String Unit} (hr : rowResult s' txHash = some r) :
    rowResult s txHash = some r ∨ (txHash = k ∧ r = result) := by
  unfold rowResult at hr ⊢
  rw [h, bind_result_insert] at hr
  split at hr
  · rename_i hk
    rw [hres] at hr
    cases hr
    exact .inr ⟨hk.symm, rfl⟩
  · exact .inl hr

/-- `txn_commit_confirmed_duplicate` settles a pending row of its hash, or
    writes nothing. -/
theorem txnCommitConfirmedDuplicate_transactions (txHash : TxHash) (result : Except String Unit)
    (blockNum : Nat) :
    (txnCommitConfirmedDuplicate txHash result blockNum s).1.transactions = s.transactions ∨
      ∃ receipt, s.transactions[txHash]? = some receipt ∧ receipt.result = none ∧
        (txnCommitConfirmedDuplicate txHash result blockNum s).1.transactions =
          s.transactions.insert txHash { receipt with result := some result, blockNum := blockNum, logs := [] } := by
  unfold txnCommitConfirmedDuplicate
  cases hrow : s.transactions[txHash]? with
  | none => exact .inl rfl
  | some receipt =>
    cases hres : receipt.result with
    | none => exact .inr ⟨receipt, rfl, hres, by simp [hres]⟩
    | some r => exact .inl (by simp [hres])

/-- A finalisation settles at most the row of its hash, with its own
    result. -/
theorem rowResult_commit (cfg : Config) (kind : Finalization) (txHash : TxHash) (block : Nat) {h : TxHash}
    {r : Except String Unit} (hr : rowResult (kind.commit P cfg txHash block s).1 h = some r) :
    rowResult s h = some r ∨ (h = txHash ∧ r = kind.result) := by
  cases kind with
  | gerDuplicate =>
    rcases txnCommitConfirmedDuplicate_transactions txHash (.ok ()) block (s := s) with heq | ⟨_, -, -, heq⟩
    · exact .inl ((SettlesNone.of_transactions heq) h r hr)
    · exact rowResult_insert_settled heq rfl hr
  | alreadyClaimed globalIndex =>
    rcases txnCommitConfirmedDuplicate_transactions txHash (.error (alreadyClaimedReason globalIndex)) block
      (s := s) with heq | ⟨_, -, -, heq⟩
    · exact .inl ((SettlesNone.of_transactions heq) h r hr)
    · exact rowResult_insert_settled heq rfl hr
  | terminalFailure reason =>
    rcases txnCommit_transactions P s cfg.bridgeAddress txHash (.error reason) block (cfg.blockHash block) with
      heq | ⟨receipt, -, -, -, heq⟩
    · exact .inl ((SettlesNone.of_transactions heq) h r hr)
    · exact rowResult_insert_settled heq rfl hr

end Writes

/-! ## Section 7: What a row step does -/

/-- A step of the row that leaves the writer as `w'`: the row moves on, or
    ends. -/
def Walk.Moves (cfg : Config) (walk : Walk) (w' : Writer.WriterSystem) (sys : System) : Prop :=
  sys.writer = w' ∧ ((∃ row, sys.sweep = .walking { walk with row := row }) ∨ ∃ step, sys.sweep = walk.finish cfg step)

/-- **What a row step does.** It settles no row unless it commits a
    finalisation of the row in hand; it changes only the writer's store and
    handle, the handle only by the `try_enqueue` of a re-drive, whose
    acceptance is the step's event; and it moves the row on, past a live
    check only when the hash is out of flight, or ends it. -/
structure RowEffect (cfg : Config) (jobId : Nat) (w : Writer.WriterSystem) (walk : Walk) (r : System × Event) :
    Prop where
  store : SettlesNone w.store r.1.writer.store ∨
    ∃ kind block, walk.row = .committing kind block ∧
      r.1.writer.store = (kind.commit P cfg walk.tx.txHash block w.store).1
  writer : r.1.writer = { w with store := r.1.writer.store, handle := r.1.writer.handle }
  handle : r.1.writer.handle = w.handle ∨
    ∃ call nextAt, walk.row = .recording call nextAt ∧
      r.1.writer.handle = (w.handle.tryEnqueue (call.intoJob walk.tx.nonce walk.signer walk.tx.txHash jobId) w.now).1 ∧
      ((w.handle.tryEnqueue (call.intoJob walk.tx.nonce walk.signer walk.tx.txHash jobId) w.now).2 = .ok () →
        r.2 = .redriven walk.tx (call.intoJob walk.tx.nonce walk.signer walk.tx.txHash jobId))
  sweep : (∃ row, r.1.sweep = .walking { walk with row := row } ∧ r.1.writer.handle = w.handle ∧
      (walk.row = .start → w.handle.isInflight walk.tx.txHash = false)) ∨
    ∃ step, r.1.sweep = walk.finish cfg step

section Effects

variable {cfg : Config} {walk : Walk} {w' : Writer.WriterSystem}

theorem Walk.moves_goto (row : RowPhase) : walk.Moves cfg w' (walk.goto w' row).1 := ⟨rfl, .inl ⟨row, rfl⟩⟩

theorem Walk.moves_done (step : Step) : walk.Moves cfg w' (walk.done cfg w' step).1 := ⟨rfl, .inr ⟨step, rfl⟩⟩

theorem Walk.moves_dueCheck (call : Writer.DecodedWriteCall) : walk.Moves cfg w' (walk.dueCheck cfg w' call).1 := by
  unfold Walk.dueCheck
  split
  · exact Walk.moves_goto _
  · exact Walk.moves_done _

theorem Walk.moves_afterReconcile (call : Writer.DecodedWriteCall) (handoff : Option NoteHandoffRecord)
    (fresh : TxnReceipt) : walk.Moves cfg w' (walk.afterReconcile cfg w' call handoff fresh).1 := by
  unfold Walk.afterReconcile
  split
  · exact Walk.moves_done _
  · split
    · split
      · exact Walk.moves_goto _
      · exact Walk.moves_dueCheck call
    · exact Walk.moves_dueCheck call

/-- A step that writes the store without settling a row and moves the row
    on, past the live check only for a hash out of flight, or ends it. -/
theorem RowEffect.of_moves {jobId : Nat} {w : Writer.WriterSystem} (s' : InMemoryStore) {r : System × Event}
    (hs : SettlesNone w.store s') (hm : walk.Moves cfg { w with store := s' } r.1)
    (hlive : walk.row = .start → w.handle.isInflight walk.tx.txHash = false) :
    RowEffect P cfg jobId w walk r where
  store := .inl (by rw [hm.1]; exact hs)
  writer := by rw [hm.1]
  handle := .inl (by rw [hm.1])
  sweep := by
    rcases hm.2 with ⟨row, hrow⟩ | hfin
    · exact .inl ⟨row, hrow, by rw [hm.1], hlive⟩
    · exact .inr hfin

/-- **Effect rule.** Every step of `recover_one` does only what
    `RowEffect` allows. -/
theorem rowStep_effect (node : MidenNode) (jobId : Nat) (w : Writer.WriterSystem) (walk : Walk) :
    RowEffect P cfg jobId w walk (rowStep P cfg node jobId w walk) := by
  unfold rowStep
  split
  · -- the live check: the row goes on only when its hash is out of flight
    split
    · exact
        { store := .inl fun _ _ h => h
          writer := rfl
          handle := .inl rfl
          sweep := .inr ⟨.continue, rfl⟩ }
    · rename_i hlive
      refine RowEffect.of_moves P w.store (fun _ _ h => h) (Walk.moves_goto _) (fun _ => ?_)
      simp only [Bool.or_eq_true, not_or, Bool.not_eq_true] at hlive
      exact hlive.1
  · rename_i hrow
    dsimp only
    split
    · exact RowEffect.of_moves P _ (settlesNone_nonceAdvanceCas P _ _) (Walk.moves_goto _) (by simp [hrow])
    · exact RowEffect.of_moves P _ (settlesNone_nonceAdvanceCas P _ _) (Walk.moves_goto _) (by simp [hrow])
  · rename_i call hrow
    exact RowEffect.of_moves P w.store (fun _ _ h => h) (Walk.moves_goto _) (by simp [hrow])
  · rename_i call handoff hrow
    split
    · exact RowEffect.of_moves P w.store (fun _ _ h => h) (Walk.moves_done _) (by simp [hrow])
    · split
      · exact RowEffect.of_moves P w.store (fun _ _ h => h) (Walk.moves_done _) (by simp [hrow])
      · exact RowEffect.of_moves P w.store (fun _ _ h => h) (Walk.moves_goto _) (by simp [hrow])
  · rename_i call handoff fresh hrow
    dsimp only
    split
    · exact RowEffect.of_moves P w.store (fun _ _ h => h) (Walk.moves_done _) (by simp [hrow])
    · exact RowEffect.of_moves P w.store (fun _ _ h => h) (Walk.moves_done _) (by simp [hrow])
    · exact RowEffect.of_moves P w.store (fun _ _ h => h) (Walk.moves_goto _) (by simp [hrow])
    · exact RowEffect.of_moves P w.store (fun _ _ h => h) (Walk.moves_afterReconcile call handoff fresh)
        (by simp [hrow])
    · exact RowEffect.of_moves P w.store (fun _ _ h => h) (Walk.moves_afterReconcile call handoff fresh)
        (by simp [hrow])
  · rename_i call commitment hrow
    dsimp only
    split
    · exact RowEffect.of_moves P _ (settlesNone_clearExpiredPreparedNoteHandoff P _ _) (Walk.moves_dueCheck call)
        (by simp [hrow])
    · exact RowEffect.of_moves P _ (settlesNone_clearExpiredPreparedNoteHandoff P _ _) (Walk.moves_done _)
        (by simp [hrow])
  · -- the compare-and-set, then the row's own `try_enqueue`
    rename_i call nextAt hrow
    dsimp only
    have hs := settlesNone_recordRecoveryAttempt P walk.tx.txHash nextAt (s := w.store)
    split
    · exact RowEffect.of_moves P _ hs (Walk.moves_done _) (by simp [hrow])
    · split
      · exact
          { store := .inl hs
            writer := rfl
            handle := .inr ⟨call, nextAt, hrow, rfl, fun _ => rfl⟩
            sweep := .inr ⟨.continue, rfl⟩ }
      · rename_i err herr
        have hacc : (w.handle.tryEnqueue (call.intoJob walk.tx.nonce walk.signer walk.tx.txHash jobId) w.now).2 ≠
            .ok () := by
          rw [herr]
          nofun
        exact
          { store := .inl hs
            writer := rfl
            handle := .inr ⟨call, nextAt, hrow, rfl, fun h => absurd h hacc⟩
            sweep := .inr ⟨.stopSigner, rfl⟩ }
  · rename_i kind hrow
    exact RowEffect.of_moves P w.store (fun _ _ h => h) (Walk.moves_goto _) (by simp [hrow])
  · -- the commit of a finalisation: the one write that settles a row
    rename_i kind block hrow
    dsimp only
    split
    · exact
        { store := .inr ⟨kind, block, hrow, rfl⟩
          writer := rfl
          handle := .inl rfl
          sweep := .inr ⟨.stopSigner, rfl⟩ }
    · exact
        { store := .inr ⟨kind, block, hrow, rfl⟩
          writer := rfl
          handle := .inl rfl
          sweep := .inl ⟨.clearingBackoff, rfl, rfl, by simp [hrow]⟩ }
  · rename_i hrow
    exact RowEffect.of_moves P _ (settlesNone_clearRecoveryBackoff _) (Walk.moves_done _) (by simp [hrow])

/-- **Re-drive rule.** A row step re-drives only from the compare-and-set
    phase, after the compare-and-set and the enqueue of the row's own job
    both succeeded. -/
theorem rowStep_redriven {node : MidenNode} {jobId : Nat} {w : Writer.WriterSystem} {tx : RecoverablePendingTxn}
    {job : Writer.WriteJob} (h : (rowStep P cfg node jobId w walk).2 = .redriven tx job) :
    ∃ call nextAt attempts, walk.row = .recording call nextAt ∧ tx = walk.tx ∧
      job = call.intoJob walk.tx.nonce walk.signer walk.tx.txHash jobId ∧
      (recordRecoveryAttempt P walk.tx.txHash nextAt w.store).2 = .ok attempts ∧
      (w.handle.tryEnqueue job w.now).2 = .ok () ∧
      (rowStep P cfg node jobId w walk).1.writer =
        { w with
          store := (recordRecoveryAttempt P walk.tx.txHash nextAt w.store).1
          handle := (w.handle.tryEnqueue job w.now).1 } := by
  cases hrow : walk.row with
  | recording call nextAt =>
    simp only [rowStep, hrow] at h ⊢
    split at h
    · cases h
    · rename_i attempts hcas
      split at h
      · rename_i hok
        cases h
        exact ⟨call, nextAt, attempts, rfl, rfl, rfl, hcas, hok, rfl⟩
      · cases h
  | start =>
    simp only [rowStep, hrow] at h
    split at h <;> cases h
  | repairing =>
    simp only [rowStep, hrow] at h
    split at h <;> cases h
  | handoffReading call =>
    simp only [rowStep, hrow] at h
    cases h
  | freshReading call handoff =>
    simp only [rowStep, hrow] at h
    split at h
    · cases h
    · split at h <;> cases h
  | reconciling call handoff fresh =>
    simp only [rowStep, hrow] at h
    cases h
  | clearing call commitment =>
    simp only [rowStep, hrow, Walk.dueCheck] at h
    split at h
    · split at h <;> cases h
    · cases h
  | finalizing kind =>
    simp only [rowStep, hrow] at h
    cases h
  | committing kind block =>
    simp only [rowStep, hrow] at h
    split at h <;> cases h
  | clearingBackoff =>
    simp only [rowStep, hrow] at h
    cases h

end Effects

/-! ## Section 8: The writer beside the sweep -/

/-- The lock, seen from the writer: admission never enqueues the hash of
    the row the sweep holds past its live check, and every enqueue keeps the
    writer's rule. -/
def Action.Admissible (sys : System) : Action → Prop
  | .writer (.enqueue job) => sys.writer.handle.isInflight job.ethTxHash = false ∧
      ∀ walk, sys.sweep = .walking walk → walk.row ≠ .start → job.ethTxHash ≠ walk.tx.txHash
  | _ => True

/-- The writer's invariant, and past its live check the row in hand is out
    of flight. -/
structure Guarded (wcfg : Writer.Config) (sys : System) : Prop where
  tracked : Writer.Tracked wcfg sys.writer
  fresh : ∀ walk, sys.sweep = .walking walk → walk.row ≠ .start →
    sys.writer.handle.isInflight walk.tx.txHash = false

section Guarded

variable {wcfg : Writer.Config} {cfg : Config}

theorem isInflight_of_getElem? {h : Writer.WriterWorkerHandle} {hash : TxHash} (hnone : h.inflight[hash]? = none) :
    h.isInflight hash = false := by
  rw [Writer.WriterWorkerHandle.isInflight, Std.HashMap.contains_eq_isSome_getElem?, hnone]
  rfl

theorem enterRuns_row {scan : List RecoverablePendingTxn}
    {rs : List (RecoverablePendingTxn × List RecoverablePendingTxn)} {walk' : Walk}
    (h : enterRuns cfg scan rs = .walking walk') : walk'.row = .start := by
  rcases enterRuns_cases cfg scan rs with hidle | ⟨x, xs, later, signer, -, -, -, heq⟩
  · rw [hidle] at h
    cases h
  · rw [heq] at h
    cases h
    rfl

theorem Walk.finish_row {walk walk' : Walk} {step : Step} (h : walk.finish cfg step = .walking walk') :
    walk'.row = .start := by
  rcases Walk.finish_cases cfg walk step with ⟨x, rest, -, -, heq⟩ | heq
  · rw [heq] at h
    cases h
    rfl
  · rw [heq] at h
    exact enterRuns_row h

/-- From no entry, only an accepted enqueue of the hash makes one. -/
theorem entryStep_of_none {w : Writer.WriterSystem} {a : Writer.Action} {hash : TxHash}
    {post : Option Writer.InFlightEntry}
    (h : Writer.EntryStep P wcfg w a hash none post) :
    post = none ∨ ∃ job, a = .enqueue job ∧ hash = job.ethTxHash := by
  cases h with
  | unchanged => exact .inl rfl
  | enqueued job _ => exact .inr ⟨job, rfl, rfl⟩

theorem guarded_boot (store : InMemoryStore) (queueDepth now : Nat) : Guarded wcfg (boot store queueDepth now) :=
  ⟨Writer.tracked_spawn store queueDepth now, fun _ h => by cases h⟩

/-- **Row step.** A step of `recover_one` keeps the writer tracked and the
    row in hand out of flight: its one enqueue is of that row, past its
    live check. -/
theorem guarded_rowStep (node : MidenNode) (jobId : Nat) {w : Writer.WriterSystem} {walk : Walk}
    (htr : Writer.Tracked wcfg w) (hfresh : walk.row ≠ .start → w.handle.isInflight walk.tx.txHash = false) :
    Guarded wcfg (rowStep P cfg node jobId w walk).1 := by
  have he : RowEffect P cfg jobId w walk (rowStep P cfg node jobId w walk) :=
    rowStep_effect P node jobId w walk
  have hquiet : Writer.Tracked wcfg { w with store := (rowStep P cfg node jobId w walk).1.writer.store } :=
    htr.quiet rfl rfl le_rfl (.inl rfl)
  constructor
  · -- a store write, and perhaps the re-drive's enqueue of a hash out of flight
    rw [he.writer]
    rcases he.handle with hh | ⟨call, nextAt, hrow, hh, -⟩
    · rw [hh]
      exact hquiet
    · rw [hh]
      exact hquiet.enqueue (hfresh (by rw [hrow]; nofun))
  · intro walk' hwalk hne
    rcases he.sweep with ⟨row, hs, hsame, hlive⟩ | ⟨step, hs⟩
    · rw [hs] at hwalk
      cases hwalk
      rw [hsame]
      by_cases hstart : walk.row = .start
      · exact hlive hstart
      · exact hfresh hstart
    · rw [hs] at hwalk
      exact absurd (Walk.finish_row hwalk) hne

/-- **Writer step.** An admissible step of the writer or another party
    keeps the writer tracked and gives the row in hand no entry. -/
theorem Guarded.of_writer {sys : System} (hg : Guarded wcfg sys) {a : Writer.Action}
    (hadm : (Action.writer a).Admissible sys) : Guarded wcfg (step P wcfg cfg sys (.writer a)).1 := by
  have hfresh : a.Fresh sys.writer := by
    cases a with
    | enqueue job => exact hadm.1
    | worker outcome => trivial
    | sweeper => trivial
    | store s => trivial
    | tick elapsed => trivial
    | shutdown => trivial
  refine ⟨hg.tracked.next hfresh, ?_⟩
  intro walk hwalk hne
  have hentry := hg.tracked.entryStep (P := P) hfresh walk.tx.txHash
  rw [Writer.getElem?_eq_none_of_isInflight (hg.fresh walk hwalk hne)] at hentry
  rcases entryStep_of_none P hentry with hpost | ⟨job, rfl, hhash⟩
  · exact isInflight_of_getElem? hpost
  · exact absurd hhash.symm (hadm.2 walk hwalk hne)

theorem Guarded.of_sweep {sys : System} (hg : Guarded wcfg sys) (node : MidenNode) (jobId : Nat) :
    Guarded wcfg (sweepStep P cfg node jobId sys).1 := by
  unfold Recovery.sweepStep
  split
  · exact ⟨hg.tracked, fun walk h hne => absurd (enterRuns_row h) hne⟩
  · rename_i walk hwalk
    exact guarded_rowStep P node jobId hg.tracked (hg.fresh walk hwalk)

theorem Guarded.next {sys : System} (hg : Guarded wcfg sys) {a : Action} (hadm : a.Admissible sys) :
    Guarded wcfg (step P wcfg cfg sys a).1 := by
  cases a with
  | writer a => exact hg.of_writer P hadm
  | recovery node jobId => exact hg.of_sweep P node jobId

/-- **Run lemma.** Over every admissible run from `boot`, the writer is
    tracked in front of every step. -/
theorem guarded_take (store : InMemoryStore) (queueDepth now : Nat) (ops : List Action)
    (hadm : ∀ k (hk : k < ops.length),
      ops[k].Admissible (Run.final (step P wcfg cfg) (boot store queueDepth now) (ops.take k)))
    {k : Nat} (hk : k ≤ ops.length) : Guarded wcfg (Run.final (step P wcfg cfg) (boot store queueDepth now) (ops.take k)) :=
  Run.final_take_segment (step P wcfg cfg) (fun _ sys => Guarded wcfg sys) _ ops (Nat.zero_le k) hk
    (guarded_boot store queueDepth now) fun q hq _ _ hg => hg.next P (hadm q hq)

/-- **Recovery and the writer's map.** Under the guard, a step of the sweep
    leaves every in-flight entry as it was, except that a re-drive gives the
    row's hash, which had none, the fresh entry of its job. -/
theorem inflight_sweepStep {sys : System} (hg : Guarded wcfg sys) (node : MidenNode) (jobId : Nat)
    (hash : TxHash) :
    (sweepStep P cfg node jobId sys).1.writer.handle.inflight[hash]? = sys.writer.handle.inflight[hash]? ∨
      ∃ tx job, (sweepStep P cfg node jobId sys).2 = .redriven tx job ∧ hash = tx.txHash ∧
        sys.writer.handle.inflight[hash]? = none ∧
        (sweepStep P cfg node jobId sys).1.writer.handle.inflight[hash]? =
          some (Writer.InFlightEntry.fromJob job sys.writer.now) := by
  unfold Recovery.sweepStep
  split
  · exact .inl rfl
  · rename_i walk hwalk
    have he : RowEffect P cfg jobId sys.writer walk (rowStep P cfg node jobId sys.writer walk) :=
      rowStep_effect P node jobId sys.writer walk
    rcases he.handle with hh | ⟨call, nextAt, hrow, hh, hev⟩
    · exact .inl (by rw [hh])
    · have habsent := Writer.getElem?_eq_none_of_isInflight (hg.fresh walk hwalk (by rw [hrow]; nofun))
      rcases Writer.WriterWorkerHandle.tryEnqueue_cases sys.writer.handle
          (call.intoJob walk.tx.nonce walk.signer walk.tx.txHash jobId) sys.writer.now with
        ⟨sender, -, hok, hh'⟩ | ⟨err, -, hh'⟩
      · -- accepted: the row's hash gets its job's entry, and no other changes
        rw [hh, hh', Std.HashMap.getElem?_insert]
        by_cases hk : walk.tx.txHash = hash
        · subst hk
          exact .inr ⟨walk.tx, _, hev hok, rfl, habsent, by simp [Writer.DecodedWriteCall.intoJob]⟩
        · exact .inl (by simp [Writer.DecodedWriteCall.intoJob, hk])
      · -- refused: the rolled-back insert leaves the map as it was
        rw [hh, hh']
        exact .inl (Writer.getElem?_erase_insert_of_absent habsent _ hash)

end Guarded

/-! ## Section 9: Over every run -/

section Runs

variable (wcfg : Writer.Config) (cfg : Config) (store : InMemoryStore) (queueDepth now : Nat) (ops : List Action)

theorem sweepStep_idle {sys : System} (h : sys.sweep = .idle) (node : MidenNode) (jobId : Nat) :
    (sweepStep P cfg node jobId sys).1.writer = sys.writer := by
  unfold Recovery.sweepStep
  rw [h]

theorem sweepStep_walking {sys : System} {walk : Walk} (h : sys.sweep = .walking walk) (node : MidenNode)
    (jobId : Nat) : sweepStep P cfg node jobId sys = rowStep P cfg node jobId sys.writer walk := by
  unfold Recovery.sweepStep
  rw [h]

/-- **Recovery keeps the writer tracked.** Over every run from `boot` whose
    admissions respect the sweep's lock, the writer's invariant holds at the
    end, and each step of the sweep leaves every in-flight entry as it was,
    except that a re-drive gives the row's hash, which had none, a fresh
    `Queued` entry of its job: the sweep never takes over live work. -/
theorem recovery_keeps_writer_tracked
    (hadm : ∀ k (hk : k < ops.length),
      ops[k].Admissible (Run.final (step P wcfg cfg) (boot store queueDepth now) (ops.take k))) :
    Writer.Tracked wcfg (Run.final (step P wcfg cfg) (boot store queueDepth now) ops).writer ∧
    ∀ k (hk : k < ops.length) node jobId, ops[k] = .recovery node jobId → ∀ hash : TxHash,
      (Run.final (step P wcfg cfg) (boot store queueDepth now) (ops.take (k + 1))).writer.handle.inflight[hash]? =
          (Run.final (step P wcfg cfg) (boot store queueDepth now) (ops.take k)).writer.handle.inflight[hash]? ∨
        ∃ tx job, (Run.outputs (step P wcfg cfg) (boot store queueDepth now) ops)[k]? = some (.redriven tx job) ∧
          hash = tx.txHash ∧
          (Run.final (step P wcfg cfg) (boot store queueDepth now) (ops.take k)).writer.handle.inflight[hash]? =
            none ∧
          (Run.final (step P wcfg cfg) (boot store queueDepth now) (ops.take (k + 1))).writer.handle.inflight[hash]? =
            some (Writer.InFlightEntry.fromJob job
              (Run.final (step P wcfg cfg) (boot store queueDepth now) (ops.take k)).writer.now) := by
  constructor
  · have hg := guarded_take P store queueDepth now ops hadm (le_refl ops.length)
    rw [List.take_length] at hg
    exact hg.tracked
  · intro k hk node jobId hop hash
    have hg := guarded_take P store queueDepth now ops hadm hk.le
    rw [Run.final_take_succ _ _ ops hk, Run.getElem?_outputs _ _ ops hk, hop]
    rcases inflight_sweepStep P hg node jobId hash with hsame | ⟨tx, job, hev, hhash, hpre, hpost⟩
    · exact .inl hsame
    · exact .inr ⟨tx, job, congrArg some hev, hhash, hpre, hpost⟩

/-- A job admitted for another hash before the first sweep: the run is
    admissible and the writer stays tracked. -/
theorem recovery_beside_admitted_job :
    let cfg := sampleConfig fun _ => .ok (.ger zeroWord)
    let job : Writer.WriteJob := ⟨.ger zeroWord, 0, Vector.replicate 20 0, Vector.replicate 32 1, 1⟩
    let ops : List Action := [.writer (.enqueue job), .recovery sampleNode 0]
    (∀ k (hk : k < ops.length),
      ops[k].Admissible (Run.final (step Primitives.sample sampleWriterConfig cfg) (boot sampleStore 4 0) (ops.take k))) ∧
    Writer.Tracked sampleWriterConfig
      (Run.final (step Primitives.sample sampleWriterConfig cfg) (boot sampleStore 4 0) ops).writer := by
  intro cfg job ops
  have hadm : ∀ k (hk : k < ops.length),
      ops[k].Admissible (Run.final (step Primitives.sample sampleWriterConfig cfg) (boot sampleStore 4 0)
        (ops.take k)) := by
    intro k hk
    match k, hk with
    | 0, _ =>
      refine ⟨by simp [boot, Writer.spawn, Writer.WriterWorkerHandle.isInflight], ?_⟩
      intro walk h
      cases h
    | 1, _ => trivial
  exact ⟨hadm, (recovery_keeps_writer_tracked Primitives.sample sampleWriterConfig cfg sampleStore 4 0 ops hadm).1⟩

/-- **The re-drive gate.** A step that re-drives a row is the sweep's, at
    the compare-and-set of a row of its last scan whose signer parses. In
    that step the row was still pending with no Miden id and no handoff
    link, and took its next attempt; its backoff had come due, and the next
    attempt is set between 30 s and 4500 s after that, within a quarter of
    the doubled base; Miden had found the effect not applied, or could not
    tell, since the scan; and the job is the row's own decoded call under
    its hash, nonce and signer, whose fresh `Queued` entry the writer now
    holds. -/
theorem recovery_redrive_gate {k : Nat} (hk : k < ops.length) {tx : RecoverablePendingTxn} {job : Writer.WriteJob}
    (hev : (Run.outputs (step P wcfg cfg) (boot store queueDepth now) ops)[k]? = some (.redriven tx job)) :
    ∃ node jobId walk call nextAt, ops[k] = .recovery node jobId ∧
      (Run.final (step P wcfg cfg) (boot store queueDepth now) (ops.take k)).sweep = .walking walk ∧
      walk.tx = tx ∧ tx ∈ walk.scan ∧
      SinceScan (Run.outputs (step P wcfg cfg) (boot store queueDepth now) (ops.take k)) (· = .scanned walk.scan) ∧
      walk.row = .recording call nextAt ∧ cfg.parseAddress tx.signer = some walk.signer ∧
      cfg.decodeOf tx.txHash = .ok call ∧ job = call.intoJob tx.nonce walk.signer tx.txHash jobId ∧
      (∃ row, (Run.final (step P wcfg cfg) (boot store queueDepth now) (ops.take k)).writer.store.transactions[tx.txHash]? =
          some row ∧ row.result = none ∧ row.id = none ∧
        (Run.final (step P wcfg cfg) (boot store queueDepth now) (ops.take k)).writer.store.txNoteLinks.contains
          (P.txKey tx.txHash) = false ∧
        (Run.final (step P wcfg cfg) (boot store queueDepth now) (ops.take (k + 1))).writer.store.transactions[tx.txHash]? =
          some { row with
            recoveryAttempts := min (row.recoveryAttempts + 1) (2 ^ 32 - 1)
            nextRecoveryAt := some nextAt }) ∧
      (∃ t ≤ (Run.final (step P wcfg cfg) (boot store queueDepth now) (ops.take k)).writer.now,
        isDue tx t = true ∧ nextAt = nextBackoffAt tx.recoveryAttempts (jitterSeedOf tx.txHash) t ∧
        ∃ delay, nextAt = min (t + delay) u64Max ∧ backoffBaseSecs ≤ delay ∧
          backoffBase tx.recoveryAttempts - backoffBase tx.recoveryAttempts / 4 ≤ delay ∧
          delay ≤ backoffBase tx.recoveryAttempts + backoffBase tx.recoveryAttempts / 2 -
            backoffBase tx.recoveryAttempts / 4 ∧ delay ≤ 4500) ∧
      SinceScan (Run.outputs (step P wcfg cfg) (boot store queueDepth now) (ops.take k)) (Event.ReconciledOpen tx) ∧
      (Run.final (step P wcfg cfg) (boot store queueDepth now) (ops.take (k + 1))).writer.handle.inflight[tx.txHash]? =
        some (Writer.InFlightEntry.fromJob job
          (Run.final (step P wcfg cfg) (boot store queueDepth now) (ops.take k)).writer.now) := by
  rw [Run.getElem?_outputs _ _ ops hk] at hev
  rw [Run.final_take_succ _ _ ops hk]
  have hinv := sweepInv_take P wcfg cfg store queueDepth now ops hk.le
  generalize Run.final (step P wcfg cfg) (boot store queueDepth now) (ops.take k) = sys at hev hinv ⊢
  -- only a step of the sweep, at a row, re-drives
  cases hop : ops[k] with
  | writer a =>
    rw [hop] at hev
    cases hev
  | recovery node jobId =>
    rw [hop] at hev
    cases hsweep : sys.sweep with
    | idle =>
      simp only [step, Recovery.sweepStep, hsweep, Option.some.injEq] at hev
      cases hev
    | walking walk =>
      rw [step, sweepStep_walking P cfg hsweep] at hev ⊢
      obtain ⟨call, nextAt, attempts, hrow, rfl, rfl, hcas, hok, hwriter⟩ := rowStep_redriven P (Option.some.inj hev)
      have hw := hinv walk hsweep
      obtain ⟨row, hget, hres, hid, hlink, hattempts, hrec⟩ := recordRecoveryAttempt_ok P walk.tx.txHash nextAt _ hcas
      -- the attempt was computed when the backoff came due, by `next_backoff_at`
      obtain ⟨t, ht, hdue, hnext⟩ := hw.backoff call nextAt hrow
      have hbounds := next_backoff_at_bounds walk.tx.recoveryAttempts (jitterSeedOf walk.tx.txHash) t
      rw [← hnext] at hbounds
      refine ⟨node, jobId, walk, call, nextAt, rfl, rfl, rfl, hw.tx_mem, hw.scanned, hrow, hw.parsed,
        hw.decoded call (by rw [hrow]; rfl), rfl, ⟨row, hget, hres, hid, hlink, ?_⟩, ⟨t, ht, hdue, hnext, hbounds⟩,
        hw.reconciled (by rw [hrow]; trivial), ?_⟩
      · rw [hwriter]
        simp [hrec, hattempts]
      · rw [hwriter]
        rcases Writer.WriterWorkerHandle.tryEnqueue_cases sys.writer.handle
            (call.intoJob walk.tx.nonce walk.signer walk.tx.txHash jobId) sys.writer.now with
          ⟨sender, -, -, hh⟩ | ⟨err, herr, -⟩
        · rw [hh]
          simp [Writer.DecodedWriteCall.intoJob]
        · rw [herr] at hok
          cases hok

/-- The sample row, found not applied, is re-driven at the seventh step,
    after the reconcile that found it open. -/
theorem sample_row_redriven :
    let cfg := sampleConfig fun _ => .ok (.ger zeroWord)
    let ops : List Action := List.replicate 7 (.recovery sampleNode 0)
    let job := (Writer.DecodedWriteCall.ger zeroWord).intoJob 0 (Vector.replicate 20 0) zeroWord 0
    (Run.outputs (step Primitives.sample sampleWriterConfig cfg) (boot sampleStore 4 0) ops)[6]? =
      some (.redriven sampleTxn job) ∧
    SinceScan (Run.outputs (step Primitives.sample sampleWriterConfig cfg) (boot sampleStore 4 0) (ops.take 6))
      (Event.ReconciledOpen sampleTxn) := by
  intro cfg ops job
  have hev : (Run.outputs (step Primitives.sample sampleWriterConfig cfg) (boot sampleStore 4 0) ops)[6]? =
      some (.redriven sampleTxn job) := by
    simp only [ops, List.replicate, Run.outputs_cons, cfg, step_boot_sampleStore, List.getElem?_cons_succ,
      List.getElem?_cons_zero]
    simp only [step, sweepStep, rowStep, Walk.goto, Walk.done, Walk.dueCheck, Walk.afterReconcile, Walk.finish,
      sampleTxn, RecoverablePendingTxn.ofRow, sampleStore, sampleRow, sampleConfig, sampleNode, InMemoryStore.new,
      Writer.spawn, Writer.WriterWorkerHandle.isInflight, Writer.WriterWorkerHandle.hasNonTerminalNonce,
      Std.HashMap.contains_empty, Std.HashMap.toList_empty, List.any_nil, txnGet, getNoteHandoffForTx,
      reconcileCall, reconcileGerRecovery, isGerInjected, Except.map, classifyExactNote, isDue,
      recordRecoveryAttempt, nonceAdvanceCas, Mpsc.Channel.new, Writer.WriterWorkerHandle.tryEnqueue,
      Mpsc.Channel.trySend]
    simp [job]
  obtain ⟨_, _, _, _, _, -, -, -, -, -, -, -, -, -, -, -, hrec, -⟩ :=
    recovery_redrive_gate Primitives.sample sampleWriterConfig cfg sampleStore 4 0 ops (by decide) hev
  exact ⟨hev, hrec⟩

/-- **Recovery's receipts.** A step of the sweep that settles a row is the
    commit of a finalisation of the row it holds, with that finalisation's
    result: the failure of a call that does not decode, or, for a decoded
    call that Miden found applied by another transaction since the scan, a
    GER's success or a claim's `AlreadyClaimed` revert. -/
theorem recovery_receipts {k : Nat} (hk : k < ops.length) {node : MidenNode} {jobId : Nat}
    (hop : ops[k] = .recovery node jobId) {txHash : TxHash} {r : Except String Unit}
    (hnew : rowResult (Run.final (step P wcfg cfg) (boot store queueDepth now) (ops.take (k + 1))).writer.store txHash =
      some r)
    (hold : rowResult (Run.final (step P wcfg cfg) (boot store queueDepth now) (ops.take k)).writer.store txHash ≠
      some r) :
    ∃ walk kind block, (Run.final (step P wcfg cfg) (boot store queueDepth now) (ops.take k)).sweep = .walking walk ∧
      walk.row = .committing kind block ∧ txHash = walk.tx.txHash ∧ r = kind.result ∧
      Justified cfg (Run.outputs (step P wcfg cfg) (boot store queueDepth now) (ops.take k)) walk.tx kind := by
  rw [Run.final_take_succ _ _ ops hk, hop] at hnew
  have hinv := sweepInv_take P wcfg cfg store queueDepth now ops hk.le
  generalize Run.final (step P wcfg cfg) (boot store queueDepth now) (ops.take k) = sys at hnew hold hinv ⊢
  cases hsweep : sys.sweep with
  | idle =>
    -- the scan writes nothing
    rw [step, sweepStep_idle P cfg hsweep node jobId] at hnew
    exact absurd hnew hold
  | walking walk =>
    rw [step, sweepStep_walking P cfg hsweep] at hnew
    rcases (rowStep_effect P node jobId sys.writer walk).store with hs | ⟨kind, block, hrow, hst⟩
    · exact absurd (hs txHash r hnew) hold
    · rw [hst] at hnew
      rcases rowResult_commit P cfg kind walk.tx.txHash block hnew with hsame | ⟨rfl, rfl⟩
      · exact absurd hsame hold
      · exact ⟨walk, kind, block, rfl, hrow, rfl, rfl, (hinv walk hsweep).finalization kind (by rw [hrow]; rfl)⟩

/-- The sample row under a call that does not decode is failed at the fifth
    step, by the commit of its finalisation. -/
theorem undecodable_sample_row_fails :
    let cfg := sampleConfig fun _ => .error "bad"
    let ops : List Action := List.replicate 5 (.recovery sampleNode 0)
    rowResult (Run.final (step Primitives.sample sampleWriterConfig cfg) (boot sampleStore 4 0) (ops.take 5)).writer.store
        zeroWord = some (.error (undecodableReason "bad")) ∧
    rowResult (Run.final (step Primitives.sample sampleWriterConfig cfg) (boot sampleStore 4 0) (ops.take 4)).writer.store
        zeroWord ≠ some (.error (undecodableReason "bad")) ∧
    ∃ walk kind block,
      (Run.final (step Primitives.sample sampleWriterConfig cfg) (boot sampleStore 4 0) (ops.take 4)).sweep =
        .walking walk ∧ walk.row = .committing kind block ∧
      Justified cfg (Run.outputs (step Primitives.sample sampleWriterConfig cfg) (boot sampleStore 4 0) (ops.take 4))
        walk.tx kind := by
  intro cfg ops
  have hold : rowResult (Run.final (step Primitives.sample sampleWriterConfig cfg) (boot sampleStore 4 0)
      (ops.take 4)).writer.store zeroWord ≠ some (.error (undecodableReason "bad")) := by
    simp only [ops, List.replicate, List.take, Run.final, cfg, step_boot_sampleStore]
    simp [step, sweepStep, rowStep, Walk.goto, sampleStore, sampleRow, sampleTxn, sampleConfig,
      RecoverablePendingTxn.ofRow, InMemoryStore.new, Writer.spawn, Writer.WriterWorkerHandle.isInflight,
      Writer.WriterWorkerHandle.hasNonTerminalNonce, nonceAdvanceCas, getLatestBlockNumber, rowResult]
  have hnew : rowResult (Run.final (step Primitives.sample sampleWriterConfig cfg) (boot sampleStore 4 0)
      (ops.take 5)).writer.store zeroWord = some (.error (undecodableReason "bad")) := by
    simp only [ops, List.replicate, List.take, Run.final, cfg, step_boot_sampleStore]
    simp [step, sweepStep, rowStep, Walk.goto, sampleStore, sampleRow, sampleTxn, sampleConfig,
      RecoverablePendingTxn.ofRow, InMemoryStore.new, Writer.spawn, Writer.WriterWorkerHandle.isInflight,
      Writer.WriterWorkerHandle.hasNonTerminalNonce, nonceAdvanceCas, getLatestBlockNumber, rowResult,
      Finalization.commit, txnCommit, applyCommit, Except.isOk, Except.toBool]
  obtain ⟨walk, kind, block, hsweep, hrow, -, -, hjust⟩ :=
    recovery_receipts Primitives.sample sampleWriterConfig cfg sampleStore 4 0 ops (by decide) rfl hnew hold
  exact ⟨hnew, hold, walk, kind, block, hsweep, hrow, hjust⟩

end Runs

end Recovery
