import MidenAgglayer.Service.WriterWorker

/-! # The Writer's Queue and In-Flight Map

    Over every interleaving of `try_enqueue` calls, worker and sweeper
    steps, store writes, time and the shutdown signal (`Service/WriterWorker.lean`):

    * **The queue loses and reorders nothing.** The jobs `try_enqueue`
      accepted are, in the order it accepted them, the jobs the worker took,
      then those dropped with the receiver at shutdown, then those still
      waiting; and never more than `queue_depth` wait.
    * **Every job is tracked until it is settled.** When every caller
      enqueues only a hash with no in-flight entry — `service_send_raw_txn`
      does so under the signer's lock, orphan recovery after its live
      check — every waiting job keeps a `Queued` entry of its own, an entry
      appears only by an accepted `try_enqueue`, its state only moves
      forward along `Queued → Submitting → Committed | Failed`, committing
      at the latest block the store reports, a live
      entry leaves the map only when the worker, settling its job, found a
      note handoff for it, and the sweeper evicts only entries that have
      been terminal for longer than `tx_ttl`.

    `writer_lifecycle` states both over every run; `accepted_jobs_conserved`
    is the first, which needs no assumption on the callers.
-/

namespace Writer

open Store Mpsc

variable (P : Primitives) (cfg : Config)

/-! ## Section 1: The queue loses and reorders nothing -/

/-- The job an event shows accepted. -/
def Event.acceptedJobs : Event → List WriteJob
  | .accepted job => [job]
  | _ => []

/-- The jobs an event shows leaving the queue: taken by the worker, or
    dropped with the receiver. -/
def Event.leftJobs : Event → List WriteJob
  | .received job => [job]
  | .dropped jobs => jobs
  | _ => []

/-- **Step lemma.** Each step appends what it accepted and takes from the
    front what it shows leaving. -/
theorem step_conserves (w : WriterSystem) (a : Action) :
    w.handle.sender.items ++ (step P cfg w a).2.acceptedJobs =
      (step P cfg w a).2.leftJobs ++ (step P cfg w a).1.handle.sender.items := by
  cases a with
  | enqueue job =>
    rcases WriterWorkerHandle.tryEnqueue_cases w.handle job w.now with
      ⟨sender, hsend, hok, hh⟩ | ⟨err, herr, hh⟩
    · simp only [step, hok, hh, Event.acceptedJobs, Event.leftJobs, List.nil_append]
      exact (Channel.trySend_eq_ok hsend).2.2.1.symm
    · simp [step, herr, hh, Event.acceptedJobs, Event.leftJobs]
  | worker outcome =>
    by_cases hw : w.worker = .idle
    · rcases workerStep_idle P cfg outcome w hw with ⟨-, hstep⟩ | ⟨-, -, hstep⟩ |
        ⟨job, sender, -, hrecv, hstep⟩
      · simp [step, hstep, Event.acceptedJobs, Event.leftJobs]
      · simp [step, hstep, Event.acceptedJobs, Event.leftJobs]
      · -- the job taken was the oldest one
        simp [step, hstep, Event.acceptedJobs, Event.leftJobs, (Channel.recv_eq_some hrecv).1]
    · obtain ⟨hsender, hnone⟩ := workerStep_sender P cfg outcome w hw
      simp [step, hsender, hnone, Event.acceptedJobs, Event.leftJobs]
  | sweeper => simp [step, Event.acceptedJobs, Event.leftJobs]
  | store s => simp [step, Event.acceptedJobs, Event.leftJobs]
  | tick elapsed => simp [step, Event.acceptedJobs, Event.leftJobs]
  | shutdown => simp [step, Event.acceptedJobs, Event.leftJobs]

/-- No step changes the channel's buffer size. -/
theorem step_cap (w : WriterSystem) (a : Action) :
    (step P cfg w a).1.handle.sender.cap = w.handle.sender.cap := by
  cases a with
  | enqueue job =>
    rcases WriterWorkerHandle.tryEnqueue_cases w.handle job w.now with
      ⟨sender, hsend, -, hh⟩ | ⟨err, -, hh⟩
    · simp only [step, hh]
      exact (Channel.trySend_eq_ok hsend).2.2.2.2
    · simp [step, hh]
  | worker outcome =>
    by_cases hw : w.worker = .idle
    · rcases workerStep_idle P cfg outcome w hw with ⟨-, hstep⟩ | ⟨-, -, hstep⟩ |
        ⟨job, sender, -, hrecv, hstep⟩
      · simp [step, hstep, Channel.close]
      · simp [step, hstep]
      · simp [step, hstep, (Channel.recv_eq_some hrecv).2.2]
    · simp [step, (workerStep_sender P cfg outcome w hw).1]
  | sweeper => simp [step]
  | store s => simp [step]
  | tick elapsed => simp [step]
  | shutdown => simp [step]

/-- **FIFO.** Over every run from `spawn`, the accepted jobs are the jobs
    that left the queue, in order, followed by those still waiting, of
    which there are never more than `queue_depth`. -/
theorem accepted_jobs_conserved (store : InMemoryStore) (queueDepth now : Nat) (ops : List Action) :
    (Run.outputs (step P cfg) (spawn store queueDepth now) ops).flatMap Event.acceptedJobs =
        (Run.outputs (step P cfg) (spawn store queueDepth now) ops).flatMap Event.leftJobs ++
          (Run.final (step P cfg) (spawn store queueDepth now) ops).handle.sender.items ∧
      (Run.final (step P cfg) (spawn store queueDepth now) ops).handle.sender.items.length ≤
        queueDepth := by
  constructor
  · have hrun := Run.conservation (step P cfg) (fun w => w.handle.sender.items) Event.acceptedJobs
      Event.leftJobs (step_conserves P cfg) (spawn store queueDepth now) ops
    simpa [spawn, Channel.new] using hrun
  · -- the buffer keeps the size it was created with, and bounds the queue
    have hcap := Run.final_invariant (step P cfg) (fun w => w.handle.sender.cap = queueDepth)
      (fun w a hw => (step_cap P cfg w a).trans hw) (s := spawn store queueDepth now) rfl ops
    have hle := (Run.final (step P cfg) (spawn store queueDepth now) ops).handle.sender.length_le
    rw [hcap] at hle
    exact hle

/-! ## Section 2: Every job is tracked until it is settled -/

/-- The job the worker is settling, with the state its entry is in. -/
def WorkerPhase.live : WorkerPhase → Option (WriteJob × JobState)
  | .expiredHandoffRead job => some (job, .queued)
  | .dispatching job => some (job, .submitting)
  | .committedBlockRead job => some (job, .submitting)
  | .failedHandoffRead job _ => some (job, .submitting)
  | _ => none

/-- The live job's entry is `Queued` or `Submitting`. -/
theorem WorkerPhase.live_nonterminal {p : WorkerPhase} {job : WriteJob} {st : JobState}
    (h : p.live = some (job, st)) : st.isTerminal = false := by
  cases p <;> simp only [WorkerPhase.live, reduceCtorEq, Option.some.injEq, Prod.mk.injEq] at h
  all_goals
    rw [← h.2]
    rfl

/-- The hashes of the waiting jobs. -/
def WriterSystem.waiting (w : WriterSystem) : List TxHash := w.handle.sender.items.map WriteJob.ethTxHash

/-- `hash` has an entry that has been terminal for longer than `tx_ttl`. -/
def Aged (w : WriterSystem) (hash : TxHash) : Prop :=
  ∃ e t, w.handle.inflight[hash]? = some e ∧ e.state.isTerminal = true ∧ e.terminalAt = some t ∧
    cfg.txTtl < w.now - t

/-- The writer's invariant. -/
structure Tracked (w : WriterSystem) : Prop where
  /-- Every waiting job has a `Queued` entry of its own. -/
  queued : ∀ job ∈ w.handle.sender.items, ∃ e, w.handle.inflight[job.ethTxHash]? = some e ∧
    e.state = .queued ∧ e.jobId = job.jobId
  nodup : w.waiting.Nodup
  /-- The job the worker settles waits no more, and its entry is in the
      state the worker's phase says. -/
  live : ∀ job st, w.worker.live = some (job, st) → job.ethTxHash ∉ w.waiting ∧
    ∃ e, w.handle.inflight[job.ethTxHash]? = some e ∧ e.state = st ∧ e.jobId = job.jobId
  /-- Every hash the sweeper is about to evict is aged. -/
  evict : ∀ toRenew toEvict, w.sweeper = .renewing toRenew toEvict → ∀ hash ∈ toEvict, Aged cfg w hash

/-- The callers' rule: `try_enqueue` only of a hash without an in-flight
    entry. -/
def Action.Fresh (w : WriterSystem) : Action → Prop
  | .enqueue job => w.handle.isInflight job.ethTxHash = false
  | _ => True

section Tracked

variable {P cfg} {w w' : WriterSystem}

theorem Aged.mono {hash : TxHash} (h : Aged cfg w hash)
    (hentry : w'.handle.inflight[hash]? = w.handle.inflight[hash]?) (hnow : w.now ≤ w'.now) :
    Aged cfg w' hash := by
  obtain ⟨e, t, he, hterm, ht, hage⟩ := h
  exact ⟨e, t, hentry.trans he, hterm, ht, by omega⟩

/-- An aged hash has a terminal entry. -/
theorem Aged.terminal {hash : TxHash} (h : Aged cfg w hash) :
    ∃ e, w.handle.inflight[hash]? = some e ∧ e.state.isTerminal = true := by
  obtain ⟨e, -, he, hterm, -⟩ := h
  exact ⟨e, he, hterm⟩

/-- A waiting hash has a `Queued` entry. -/
theorem Tracked.waiting_entry (hw : Tracked cfg w) {hash : TxHash} (hmem : hash ∈ w.waiting) :
    ∃ e, w.handle.inflight[hash]? = some e ∧ e.state.isTerminal = false := by
  obtain ⟨job, hjob, rfl⟩ := List.mem_map.mp hmem
  obtain ⟨e, he, hq, -⟩ := hw.queued job hjob
  exact ⟨e, he, by rw [hq]; rfl⟩

/-- **Frame rule.** A step that keeps the queue and the sweeper, does not
    turn the clock back, changes only entries that were neither waiting nor
    terminal, and keeps the worker's live job tracked keeps the invariant. -/
theorem Tracked.of_frame (hw : Tracked cfg w)
    (hsender : w'.handle.sender = w.handle.sender) (hsweeper : w'.sweeper = w.sweeper)
    (hnow : w.now ≤ w'.now)
    (hframe : ∀ hash, w'.handle.inflight[hash]? ≠ w.handle.inflight[hash]? →
      hash ∉ w.waiting ∧ ∀ e, w.handle.inflight[hash]? = some e → e.state.isTerminal = false)
    (hlive : ∀ job st, w'.worker.live = some (job, st) → job.ethTxHash ∉ w.waiting ∧
      ∃ e, w'.handle.inflight[job.ethTxHash]? = some e ∧ e.state = st ∧ e.jobId = job.jobId) :
    Tracked cfg w' := by
  -- waiting and terminal entries are the ones the step kept
  have hkeep : ∀ hash, (hash ∈ w.waiting ∨
      ∃ e, w.handle.inflight[hash]? = some e ∧ e.state.isTerminal = true) →
      w'.handle.inflight[hash]? = w.handle.inflight[hash]? := by
    intro hash hcase
    by_contra hne
    obtain ⟨hnot, hnonterm⟩ := hframe hash hne
    rcases hcase with hmem | ⟨e, he, hterm⟩
    · exact hnot hmem
    · rw [hnonterm e he] at hterm
      cases hterm
  have hwaiting : w'.waiting = w.waiting := by
    simp only [WriterSystem.waiting, hsender]
  refine ⟨fun job hjob => ?_, hwaiting ▸ hw.nodup, fun job st hj => hwaiting ▸ hlive job st hj,
    fun rs es hs hash hmem => ?_⟩
  · rw [hsender] at hjob
    rw [hkeep _ (.inl (List.mem_map_of_mem hjob))]
    exact hw.queued job hjob
  · have haged := hw.evict rs es (hsweeper.symm.trans hs) hash hmem
    exact haged.mono (hkeep hash (.inr haged.terminal)) hnow

/-- The worker settles its live job: only that job's entry changes, and the
    worker settles nothing more. -/
theorem Tracked.settle (hw : Tracked cfg w) {job : WriteJob} {st : JobState}
    (hjob : w.worker.live = some (job, st))
    (hsender : w'.handle.sender = w.handle.sender) (hsweeper : w'.sweeper = w.sweeper)
    (hnow : w.now ≤ w'.now)
    (hother : ∀ hash, hash ≠ job.ethTxHash → w'.handle.inflight[hash]? = w.handle.inflight[hash]?)
    (hdone : w'.worker.live = none) : Tracked cfg w' := by
  obtain ⟨hnotwait, e, he, hst, -⟩ := hw.live job st hjob
  have hlive : e.state.isTerminal = false := hst ▸ WorkerPhase.live_nonterminal hjob
  refine hw.of_frame hsender hsweeper hnow (fun hash hne => ?_) (fun job' st' hj => by simp [hdone] at hj)
  have heq : hash = job.ethTxHash := by
    by_contra hne'
    exact hne (hother hash hne')
  subst heq
  exact ⟨hnotwait, fun e' he' => by rw [he] at he'; cases he'; exact hlive⟩

/-- A step that touches neither the map nor the queue nor the sweeper, and
    leaves the worker on its live job or on none, keeps the invariant. -/
theorem Tracked.quiet (hw : Tracked cfg w) (hhandle : w'.handle = w.handle)
    (hsweeper : w'.sweeper = w.sweeper) (hnow : w.now ≤ w'.now)
    (hlive : w'.worker.live = w.worker.live ∨ w'.worker.live = none) : Tracked cfg w' := by
  refine hw.of_frame (by rw [hhandle]) hsweeper hnow (fun hash hne => absurd (by rw [hhandle]) hne)
    (fun job st hj => ?_)
  rcases hlive with hsame | hnone
  · rw [hhandle]
    exact hw.live job st (hsame ▸ hj)
  · rw [hnone] at hj
    cases hj

/-- A hash whose entry is live is not about to be evicted. -/
theorem Tracked.not_mem_evict (hw : Tracked cfg w) {rs : List (TxHash × Address × Nat)}
    {es : List TxHash} (hs : w.sweeper = .renewing rs es) {hash : TxHash} {e : InFlightEntry}
    (he : w.handle.inflight[hash]? = some e) (hlive : e.state.isTerminal = false) : hash ∉ es := by
  intro hmem
  obtain ⟨e', he', hterm⟩ := (hw.evict rs es hs hash hmem).terminal
  rw [he] at he'
  cases he'
  rw [hlive] at hterm
  cases hterm

/-- A hash not in flight has no entry. -/
theorem getElem?_eq_none_of_isInflight {h : WriterWorkerHandle} {hash : TxHash}
    (hfresh : h.isInflight hash = false) : h.inflight[hash]? = none := by
  rw [WriterWorkerHandle.isInflight, Std.HashMap.contains_eq_isSome_getElem?] at hfresh
  simpa using hfresh

/-- Rolling back the insert of a hash that had no entry restores the map. -/
theorem getElem?_erase_insert_of_absent {m : Std.HashMap TxHash InFlightEntry} {hash : TxHash}
    (habsent : m[hash]? = none) (e : InFlightEntry) (k : TxHash) :
    ((m.insert hash e).erase hash)[k]? = m[k]? := by
  rw [getElem?_erase_insert]
  split
  · rename_i heq
    rw [← heq, habsent]
  · rfl

/-! ### Step-preservation lemmas -/

/-- **Enqueue rule.** A `try_enqueue` of a hash without an entry keeps the
    invariant. -/
theorem Tracked.enqueue (hw : Tracked cfg w) {job : WriteJob}
    (hfresh : w.handle.isInflight job.ethTxHash = false) :
    Tracked cfg { w with handle := (w.handle.tryEnqueue job w.now).1 } := by
  have habsent := getElem?_eq_none_of_isInflight hfresh
  -- a hash with an entry is not the job's
  have hne : ∀ hash e, w.handle.inflight[hash]? = some e → job.ethTxHash ≠ hash := by
    rintro hash e he rfl
    rw [habsent] at he
    cases he
  rcases WriterWorkerHandle.tryEnqueue_cases w.handle job w.now with
    ⟨sender, hsend, -, hh⟩ | ⟨err, -, hh⟩
  · obtain ⟨-, -, hitems, -, -⟩ := Channel.trySend_eq_ok hsend
    have hentry : ∀ hash e, w.handle.inflight[hash]? = some e →
        (w.handle.inflight.insert job.ethTxHash (InFlightEntry.fromJob job w.now))[hash]? = some e :=
      fun hash e he => by
        rw [Std.HashMap.getElem?_insert]
        simp only [beq_iff_eq, hne hash e he, if_false]
        exact he
    have hnotwait : job.ethTxHash ∉ w.waiting := fun hmem => by
      obtain ⟨e, he, -⟩ := hw.waiting_entry hmem
      exact hne _ e he rfl
    refine ⟨fun job' hjob' => ?_, ?_, fun job' st hj => ?_, fun rs es hs hash hmem => ?_⟩
    · simp only [hh] at hjob'
      rw [hitems, List.mem_append, List.mem_singleton] at hjob'
      rcases hjob' with hold | rfl
      · obtain ⟨e, he, hq, hid⟩ := hw.queued job' hold
        exact ⟨e, by simp only [hh]; exact hentry _ e he, hq, hid⟩
      · exact ⟨InFlightEntry.fromJob job' w.now, by simp [hh], rfl, rfl⟩
    · -- the new hash joins the waiting ones at the back, and was not among them
      simp only [WriterSystem.waiting, hh, hitems, List.map_append, List.map_singleton]
      rw [List.nodup_append_comm, List.singleton_append, List.nodup_cons]
      exact ⟨hnotwait, hw.nodup⟩
    · obtain ⟨hnw, e, he, hst, hid⟩ := hw.live job' st hj
      refine ⟨?_, e, by simp only [hh]; exact hentry _ e he, hst, hid⟩
      simp only [WriterSystem.waiting, hh, hitems, List.map_append, List.map_singleton,
        List.mem_append, List.mem_singleton, not_or]
      exact ⟨hnw, fun heq => hne _ e he heq.symm⟩
    · obtain ⟨e, t, he, hterm, ht, hage⟩ := hw.evict rs es hs hash hmem
      exact ⟨e, t, by simp only [hh]; exact hentry _ e he, hterm, ht, hage⟩
  · -- a refused job leaves no entry where there was none
    have hsame : ∀ hash : TxHash,
        ({ w with handle := (w.handle.tryEnqueue job w.now).1 } : WriterSystem).handle.inflight[hash]? =
        w.handle.inflight[hash]? := fun hash => by
      simp only [hh]
      exact getElem?_erase_insert_of_absent habsent _ hash
    refine hw.of_frame (by simp [hh]) rfl le_rfl (fun hash hdiff => absurd (hsame hash) hdiff)
      (fun job' st hj => ?_)
    obtain ⟨hnw, e, he, hst, hid⟩ := hw.live job' st hj
    exact ⟨hnw, e, (hsame _).trans he, hst, hid⟩

/-- The worker takes the oldest job: it waits no more, and its entry is
    `Queued` while it expires or `Submitting` while it is dispatched. -/
theorem Tracked.recv (hw : Tracked cfg w) {job : WriteJob}
    {sender : Channel WriteJob} (hrecv : w.handle.sender.recv = some (job, sender)) :
    Tracked cfg (startProcess cfg job { w with handle := { w.handle with sender := sender } }) := by
  have hitems := (Channel.recv_eq_some hrecv).1
  obtain ⟨e, he, hq, hid⟩ := hw.queued job (by rw [hitems]; exact List.mem_cons_self)
  have hnodup : (job.ethTxHash :: sender.items.map WriteJob.ethTxHash).Nodup := by
    have h := hw.nodup
    simp only [WriterSystem.waiting, hitems, List.map_cons] at h
    exact h
  obtain ⟨hnotrest, hrest⟩ := List.nodup_cons.mp hnodup
  have hrestq : ∀ job' ∈ sender.items, job'.ethTxHash ≠ job.ethTxHash := fun job' hj heq =>
    hnotrest (heq ▸ List.mem_map_of_mem hj)
  have hlive : e.state.isTerminal = false := by rw [hq]; rfl
  rcases startProcess_cases cfg { w with handle := { w.handle with sender := sender } } job with hst | hst
  · rw [hst]
    refine ⟨fun job' hj => hw.queued job' (by rw [hitems]; exact List.mem_cons_of_mem _ hj), hrest,
      fun job' st hj => ?_, fun rs es hs hash hmem => hw.evict rs es hs hash hmem⟩
    simp only [WorkerPhase.live, Option.some.injEq, Prod.mk.injEq] at hj
    obtain ⟨rfl, rfl⟩ := hj
    exact ⟨hnotrest, e, he, hq, hid⟩
  · rw [hst]
    have hother : ∀ hash, hash ≠ job.ethTxHash →
        (markSubmitting w.handle.inflight job.ethTxHash)[hash]? = w.handle.inflight[hash]? := by
      intro hash hne
      rw [getElem?_markSubmitting, if_neg (Ne.symm hne)]
    refine ⟨fun job' hj => ?_, hrest, fun job' st hj => ?_, fun rs es hs hash hmem => ?_⟩
    · rw [hother _ (hrestq job' hj)]
      exact hw.queued job' (by rw [hitems]; exact List.mem_cons_of_mem _ hj)
    · simp only [WorkerPhase.live, Option.some.injEq, Prod.mk.injEq] at hj
      obtain ⟨rfl, rfl⟩ := hj
      refine ⟨hnotrest, { e with state := .submitting }, ?_, rfl, hid⟩
      rw [getElem?_markSubmitting, if_pos rfl, he]
      rfl
    · have hne : hash ≠ job.ethTxHash := fun heq => hw.not_mem_evict hs he hlive (heq ▸ hmem)
      exact (hw.evict rs es hs hash hmem).mono (hother hash hne) le_rfl

/-- Settling a failure keeps the invariant. -/
theorem Tracked.settle_failure (hw : Tracked cfg w) {job : WriteJob} {st : JobState}
    (hjob : w.worker.live = some (job, st)) (err : String) :
    Tracked cfg (settleFailure P job err w) := by
  rcases settleFailure_cases P w job err with ⟨-, hst⟩ | ⟨-, hst⟩
  · rw [hst]
    refine hw.settle hjob rfl rfl le_rfl (fun hash hne => ?_) rfl
    simp [Std.HashMap.getElem?_erase, Ne.symm hne]
  · rw [hst]
    refine hw.settle hjob rfl rfl le_rfl (fun hash hne => ?_) rfl
    rw [getElem?_markTerminal, if_neg (Ne.symm hne)]

/-- **Worker rule.** Every step of the worker keeps the invariant. -/
theorem Tracked.worker (hw : Tracked cfg w) (outcome : Except String Unit) :
    Tracked cfg (workerStep P cfg outcome w).1 := by
  by_cases hidle : w.worker = .idle
  · rcases workerStep_idle P cfg outcome w hidle with ⟨-, hstep⟩ | ⟨-, -, hstep⟩ |
      ⟨job, sender, -, hrecv, hstep⟩
    · -- the receiver is dropped with every waiting job
      rw [hstep]
      exact ⟨by simp, by simp [WriterSystem.waiting], by simp [WorkerPhase.live],
        fun rs es hs hash hmem => hw.evict rs es hs hash hmem⟩
    · rw [hstep]
      exact hw
    · rw [hstep]
      exact hw.recv hrecv
  · unfold workerStep
    cases hphase : w.worker with
    | idle => exact absurd hphase hidle
    | expiredHandoffRead job => exact hw.settle_failure (by rw [hphase]; rfl) _
    | dispatching job =>
      cases outcome with
      | ok u => exact hw.quiet rfl rfl le_rfl (.inl (by rw [hphase]; rfl))
      | error err => exact hw.quiet rfl rfl le_rfl (.inl (by rw [hphase]; rfl))
    | committedBlockRead job =>
      refine hw.settle (by rw [hphase]; rfl : w.worker.live = some (job, .submitting)) rfl rfl le_rfl
        (fun hash hne => ?_) rfl
      rw [getElem?_markTerminal, if_neg (Ne.symm hne)]
    | failedHandoffRead job err => exact hw.settle_failure (by rw [hphase]; rfl) _
    | receiptHandoffRead job err =>
      dsimp only
      split
      · exact hw.quiet rfl rfl le_rfl (.inr rfl)
      · exact hw.quiet rfl rfl le_rfl (.inr rfl)
    | receiptBlockRead job err => exact hw.quiet rfl rfl le_rfl (.inr rfl)
    | receiptCommit job err block => exact hw.quiet rfl rfl le_rfl (.inr rfl)
    | stopped => exact hw

/-- **Sweeper rule.** Every step of the sweeper keeps the invariant; its
    eviction removes only aged entries, none of them waiting or live. -/
theorem Tracked.sweeper (hw : Tracked cfg w) : Tracked cfg (sweeperStep P cfg w) := by
  unfold sweeperStep
  split
  · refine ⟨hw.queued, hw.nodup, hw.live, fun rs es hs hash hmem => ?_⟩
    cases hs
    exact mem_sweepSnapshot_evict hmem
  · rename_i hash signer nonce rest toEvict hsw
    refine ⟨hw.queued, hw.nodup, hw.live, fun rs es hs h hmem => ?_⟩
    cases hs
    exact hw.evict _ _ hsw h hmem
  · rename_i toEvict hsw
    have hkeep : ∀ (hash : TxHash) (e : InFlightEntry), w.handle.inflight[hash]? = some e →
        e.state.isTerminal = false →
        (toEvict.foldl (fun m hash => m.erase hash) w.handle.inflight)[hash]? = some e := by
      intro hash e he hlive
      rw [getElem?_foldl_erase, if_neg (hw.not_mem_evict hsw he hlive), he]
    refine ⟨fun job hj => ?_, hw.nodup, fun job st hj => ?_, fun rs es hs => by cases hs⟩
    · obtain ⟨e, he, hq, hid⟩ := hw.queued job hj
      exact ⟨e, hkeep _ e he (by rw [hq]; rfl), hq, hid⟩
    · obtain ⟨hnw, e, he, hst, hid⟩ := hw.live job st hj
      exact ⟨hnw, e, hkeep _ e he (hst ▸ WorkerPhase.live_nonterminal hj), hst, hid⟩

/-- **Step lemma.** Every step whose enqueue, if any, is fresh keeps the
    invariant. -/
theorem Tracked.next (hw : Tracked cfg w) {a : Action} (hfresh : a.Fresh w) :
    Tracked cfg (step P cfg w a).1 := by
  cases a with
  | enqueue job => exact hw.enqueue hfresh
  | worker outcome => exact hw.worker outcome
  | sweeper => exact hw.sweeper
  | store s => exact hw.quiet rfl rfl le_rfl (.inl rfl)
  | tick elapsed => exact hw.quiet rfl rfl (Nat.le_add_right _ _) (.inl rfl)
  | shutdown => exact hw.quiet rfl rfl le_rfl (.inl rfl)

theorem tracked_spawn (store : InMemoryStore) (queueDepth now : Nat) :
    Tracked cfg (spawn store queueDepth now) :=
  ⟨by simp [spawn, Channel.new], by simp [WriterSystem.waiting, spawn, Channel.new],
    by simp [spawn, WorkerPhase.live], fun rs es hs => by cases hs⟩

end Tracked

/-! ## Section 3: An entry only moves forward -/

/-- One forward move of an entry, taken on `store` at `now`: a `Queued`
    entry is dispatched, a `Submitting` one commits at the store's latest
    block, or a live one fails; a terminal move stamps `now`, and nothing
    else of the entry changes. -/
inductive EntryAdvance (store : InMemoryStore) (now : Nat) : InFlightEntry → InFlightEntry → Prop
  | dispatch (e : InFlightEntry) : e.state = .queued → EntryAdvance store now e { e with state := .submitting }
  | commit (e : InFlightEntry) : e.state = .submitting →
      EntryAdvance store now e
        { e with state := .committed (getLatestBlockNumber store).2, terminalAt := some now }
  | fail (e : InFlightEntry) : e.state.isTerminal = false →
      EntryAdvance store now e { e with state := .failed, terminalAt := some now }

/-- What a step `a`, taken in `w`, may do to the entry at `hash`. -/
inductive EntryStep (w : WriterSystem) : Action → TxHash → Option InFlightEntry → Option InFlightEntry → Prop
  /-- The entry, or its absence, is as it was. -/
  | unchanged (a : Action) (hash : TxHash) (o : Option InFlightEntry) : EntryStep w a hash o o
  /-- A `try_enqueue` that was accepted creates it `Queued`. -/
  | enqueued (job : WriteJob) : (step P cfg w (.enqueue job)).2 = .accepted job →
      EntryStep w (.enqueue job) job.ethTxHash none (some (InFlightEntry.fromJob job w.now))
  /-- The worker moves it forward. -/
  | advanced (outcome : Except String Unit) (hash : TxHash) (e e' : InFlightEntry) :
      EntryAdvance w.store w.now e e' → EntryStep w (.worker outcome) hash (some e) (some e')
  /-- The worker, settling a failure, drops a live entry whose hash has a
      note handoff in the store. -/
  | preserved (outcome : Except String Unit) (hash : TxHash) (e : InFlightEntry) :
      e.state.isTerminal = false → preservePendingAfterHandoff P hash w.store = true →
      EntryStep w (.worker outcome) hash (some e) none
  /-- The sweeper evicts an aged entry. -/
  | evicted (hash : TxHash) (e : InFlightEntry) : Aged cfg w hash → EntryStep w .sweeper hash (some e) none

section EntrySteps

variable {P cfg} {w : WriterSystem}

/-- A map that differs from the writer's at most at `k` moves each entry
    as it moves the one at `k`. -/
theorem EntryStep.of_other {a : Action} {m : Std.HashMap TxHash InFlightEntry} {k : TxHash}
    (hother : ∀ hash, hash ≠ k → m[hash]? = w.handle.inflight[hash]?)
    (hk : EntryStep P cfg w a k w.handle.inflight[k]? m[k]?) (hash : TxHash) :
    EntryStep P cfg w a hash w.handle.inflight[hash]? m[hash]? := by
  by_cases h : hash = k
  · subst h
    exact hk
  · rw [hother hash h]
    exact .unchanged _ _ _

/-- Settling the live job's failure drops its entry, when a note handoff
    exists, or fails it. -/
theorem Tracked.entryStep_settleFailure (hw : Tracked cfg w) {job : WriteJob} {st : JobState}
    (hjob : w.worker.live = some (job, st)) (err : String) (outcome : Except String Unit) (hash : TxHash) :
    EntryStep P cfg w (.worker outcome) hash w.handle.inflight[hash]?
      (settleFailure P job err w).handle.inflight[hash]? := by
  obtain ⟨-, e, he, hst, -⟩ := hw.live job st hjob
  have hlive : e.state.isTerminal = false := hst ▸ WorkerPhase.live_nonterminal hjob
  rcases settleFailure_cases P w job err with ⟨hpre, hsf⟩ | ⟨-, hsf⟩
  · rw [hsf]
    refine EntryStep.of_other (k := job.ethTxHash) (fun hash hne => ?_) ?_ hash
    · simp [Std.HashMap.getElem?_erase, Ne.symm hne]
    · rw [he]
      simp only [Std.HashMap.getElem?_erase_self]
      exact .preserved outcome _ e hlive hpre
  · rw [hsf]
    refine EntryStep.of_other (k := job.ethTxHash) (fun hash hne => ?_) ?_ hash
    · rw [getElem?_markTerminal, if_neg (Ne.symm hne)]
    · rw [getElem?_markTerminal, if_pos rfl, he]
      exact .advanced outcome _ e _ (.fail e hlive)

/-- **Entry rule for the worker.** -/
theorem Tracked.entryStep_worker (hw : Tracked cfg w) (outcome : Except String Unit) (hash : TxHash) :
    EntryStep P cfg w (.worker outcome) hash w.handle.inflight[hash]?
      (workerStep P cfg outcome w).1.handle.inflight[hash]? := by
  by_cases hidle : w.worker = .idle
  · rcases workerStep_idle P cfg outcome w hidle with ⟨-, hstep⟩ | ⟨-, -, hstep⟩ |
      ⟨job, sender, -, hrecv, hstep⟩
    · rw [hstep]
      exact .unchanged _ _ _
    · rw [hstep]
      exact .unchanged _ _ _
    · rw [hstep]
      rcases startProcess_cases cfg { w with handle := { w.handle with sender := sender } } job with
        hst | hst
      · rw [hst]
        exact .unchanged _ _ _
      · -- the job taken is dispatched: its `Queued` entry is `Submitting`
        rw [hst]
        obtain ⟨e, he, hq, -⟩ :=
          hw.queued job (by rw [(Channel.recv_eq_some hrecv).1]; exact List.mem_cons_self)
        refine EntryStep.of_other (m := markSubmitting w.handle.inflight job.ethTxHash) (k := job.ethTxHash)
          (fun hash hne => ?_) ?_ hash
        · rw [getElem?_markSubmitting, if_neg (Ne.symm hne)]
        · rw [getElem?_markSubmitting, if_pos rfl, he]
          exact .advanced outcome _ e _ (.dispatch e hq)
  · unfold workerStep
    cases hphase : w.worker with
    | idle => exact absurd hphase hidle
    | expiredHandoffRead job => exact hw.entryStep_settleFailure (by rw [hphase]; rfl) _ outcome hash
    | dispatching job => cases outcome <;> exact .unchanged _ _ _
    | committedBlockRead job =>
      -- the dispatched job commits: its `Submitting` entry is `Committed`
      obtain ⟨-, e, he, hst, -⟩ := hw.live job .submitting (by rw [hphase]; rfl)
      refine EntryStep.of_other (m := markTerminal w.handle.inflight job.ethTxHash
        (.committed (getLatestBlockNumber w.store).2) w.now) (k := job.ethTxHash)
        (fun hash hne => ?_) ?_ hash
      · rw [getElem?_markTerminal, if_neg (Ne.symm hne)]
      · rw [getElem?_markTerminal, if_pos rfl, he]
        exact .advanced _ _ e _ (.commit e hst)
    | failedHandoffRead job err => exact hw.entryStep_settleFailure (by rw [hphase]; rfl) err outcome hash
    | receiptHandoffRead job err =>
      dsimp only
      split <;> exact .unchanged _ _ _
    | receiptBlockRead job err => exact .unchanged _ _ _
    | receiptCommit job err block => exact .unchanged _ _ _
    | stopped => exact .unchanged _ _ _

/-- **Entry rule for the sweeper.** -/
theorem Tracked.entryStep_sweeper (hw : Tracked cfg w) (hash : TxHash) :
    EntryStep P cfg w .sweeper hash w.handle.inflight[hash]? (sweeperStep P cfg w).handle.inflight[hash]? := by
  unfold sweeperStep
  split
  · exact .unchanged _ _ _
  · exact .unchanged _ _ _
  · rename_i toEvict hsw
    show EntryStep P cfg w .sweeper hash _ (toEvict.foldl (fun m hash => m.erase hash) w.handle.inflight)[hash]?
    rw [getElem?_foldl_erase]
    split
    · rename_i hmem
      have haged := hw.evict [] toEvict hsw hash hmem
      obtain ⟨e, he, -⟩ := haged.terminal
      rw [he]
      exact .evicted hash e haged
    · exact .unchanged _ _ _

/-- **Entry rule for `try_enqueue`.** -/
theorem entryStep_enqueue {job : WriteJob} (hfresh : w.handle.isInflight job.ethTxHash = false)
    (hash : TxHash) :
    EntryStep P cfg w (.enqueue job) hash w.handle.inflight[hash]?
      (step P cfg w (.enqueue job)).1.handle.inflight[hash]? := by
  have habsent := getElem?_eq_none_of_isInflight hfresh
  rcases WriterWorkerHandle.tryEnqueue_cases w.handle job w.now with
    ⟨sender, -, hok, hh⟩ | ⟨err, -, hh⟩
  · refine EntryStep.of_other (k := job.ethTxHash) (fun hash hne => ?_) ?_ hash
    · simp only [step, hh]
      rw [Std.HashMap.getElem?_insert]
      simp [Ne.symm hne]
    · have hnew : (step P cfg w (.enqueue job)).1.handle.inflight[job.ethTxHash]? =
          some (InFlightEntry.fromJob job w.now) := by
        simp [step, hh]
      rw [habsent, hnew]
      exact .enqueued job (by simp [step, hok])
  · have hsame : (step P cfg w (.enqueue job)).1.handle.inflight[hash]? = w.handle.inflight[hash]? := by
      simp only [step, hh]
      exact getElem?_erase_insert_of_absent habsent _ hash
    rw [hsame]
    exact .unchanged _ _ _

/-- **Entry rule.** Under the invariant, every step whose enqueue is fresh
    moves each entry only as `EntryStep` allows. -/
theorem Tracked.entryStep (hw : Tracked cfg w) {a : Action} (hfresh : a.Fresh w) (hash : TxHash) :
    EntryStep P cfg w a hash w.handle.inflight[hash]? (step P cfg w a).1.handle.inflight[hash]? := by
  cases a with
  | enqueue job => exact entryStep_enqueue hfresh hash
  | worker outcome => exact hw.entryStep_worker outcome hash
  | sweeper => exact hw.entryStep_sweeper hash
  | store s => exact .unchanged _ _ _
  | tick elapsed => exact .unchanged _ _ _
  | shutdown => exact .unchanged _ _ _

end EntrySteps

/-! ## Section 4: Over every run -/

section Runs

variable (store : InMemoryStore) (queueDepth now : Nat) (ops : List Action)

/-- **Run lemma.** Over a run from `spawn` whose enqueues are fresh, the
    invariant holds in front of every step. -/
theorem tracked_take
    (hfresh : ∀ k (hk : k < ops.length),
      ops[k].Fresh (Run.final (step P cfg) (spawn store queueDepth now) (ops.take k)))
    {k : Nat} (hk : k ≤ ops.length) :
    Tracked cfg (Run.final (step P cfg) (spawn store queueDepth now) (ops.take k)) :=
  Run.final_take_segment (step P cfg) (fun _ w => Tracked cfg w) _ ops (Nat.zero_le k) hk
    (tracked_spawn store queueDepth now) fun q hq _ _ hw => hw.next (hfresh q hq)

/-- **Lifecycle.** Over every run from `spawn`, the queue loses and
    reorders no job and holds at most `queue_depth`; and when the run's
    enqueues are fresh, the writer's invariant holds at the end, and every
    step moves every entry only as `EntryStep` allows: an entry appears only by an accepted
    `try_enqueue`, only the worker moves it, and only forward (a commit at
    the store's latest block), a live entry
    goes only when the worker, settling it, finds a note handoff, and the
    sweeper evicts only entries terminal for longer than `tx_ttl`. -/
theorem writer_lifecycle
    (hfresh : ∀ k (hk : k < ops.length),
      ops[k].Fresh (Run.final (step P cfg) (spawn store queueDepth now) (ops.take k))) :
    ((Run.outputs (step P cfg) (spawn store queueDepth now) ops).flatMap Event.acceptedJobs =
        (Run.outputs (step P cfg) (spawn store queueDepth now) ops).flatMap Event.leftJobs ++
          (Run.final (step P cfg) (spawn store queueDepth now) ops).handle.sender.items ∧
      (Run.final (step P cfg) (spawn store queueDepth now) ops).handle.sender.items.length ≤ queueDepth) ∧
    Tracked cfg (Run.final (step P cfg) (spawn store queueDepth now) ops) ∧
      ∀ k (hk : k < ops.length) (hash : TxHash),
        EntryStep P cfg (Run.final (step P cfg) (spawn store queueDepth now) (ops.take k)) ops[k] hash
          (Run.final (step P cfg) (spawn store queueDepth now) (ops.take k)).handle.inflight[hash]?
          (Run.final (step P cfg) (spawn store queueDepth now) (ops.take (k + 1))).handle.inflight[hash]? := by
  refine ⟨accepted_jobs_conserved P cfg store queueDepth now ops, ?_, ?_⟩
  · have h := tracked_take P cfg store queueDepth now ops hfresh le_rfl
    rwa [List.take_length] at h
  · intro k hk hash
    rw [Run.final_take_succ (step P cfg) _ ops hk]
    exact (tracked_take P cfg store queueDepth now ops hfresh hk.le).entryStep (hfresh k hk) hash

end Runs

/-- Two jobs of distinct hashes are enqueued around a dispatch, and the
    sweeper snapshots: the second enqueue is fresh, and the run stays
    tracked. -/
theorem two_enqueues_stay_tracked :
    let cfg : Config := ⟨60, fun _ => "", 30, "", fun _ => zeroWord⟩
    let ops : List Action :=
      [.enqueue ⟨.ger zeroWord, 0, Vector.replicate 20 0, zeroWord, 0⟩, .worker (.ok ()),
        .enqueue ⟨.ger zeroWord, 1, Vector.replicate 20 0, Vector.replicate 32 1, 1⟩, .sweeper]
    (∀ k (hk : k < ops.length),
      ops[k].Fresh (Run.final (step Primitives.sample cfg) (spawn InMemoryStore.new 4 0) (ops.take k))) ∧
    Tracked cfg (Run.final (step Primitives.sample cfg) (spawn InMemoryStore.new 4 0) ops) := by
  intro cfg ops
  have hfresh : ∀ k (hk : k < ops.length),
      ops[k].Fresh (Run.final (step Primitives.sample cfg) (spawn InMemoryStore.new 4 0) (ops.take k)) := by
    intro k hk
    match k, hk with
    | 0, _ => simp [ops, Action.Fresh, spawn, WriterWorkerHandle.isInflight]
    | 1, _ => trivial
    | 2, _ =>
      simp [ops, Action.Fresh, step, spawn, WriterWorkerHandle.isInflight, WriterWorkerHandle.tryEnqueue,
        Channel.trySend, Channel.new, workerStep, Channel.recv, startProcess, markSubmitting]
      decide
    | 3, _ => trivial
  exact ⟨hfresh, (writer_lifecycle Primitives.sample cfg InMemoryStore.new 4 0 ops hfresh).2.1⟩

end Writer
