import Mathlib.Data.List.Basic
import Mathlib.Data.Nat.Find

/-! # Runs of Deterministic Transition Functions

    A component whose every operation is an atomic, deterministic update of
    one shared state, `step : σ → ι → σ × ο`, is run over a list of inputs.
    Interleavings of concurrent callers are exactly such lists, because each
    call takes the state's locks for its whole body.

    * `final step s ops` is the state after the inputs, and
      `outputs step s ops` the replies, one for each input.
    * The state in front of input `k` is `final step s (ops.take k)`
      (`final_take_succ` is its one-step unfolding).
    * `final_invariant` is the invariant rule, and `final_take_segment` its
      form over the positions of one segment of a run; `history_invariant`
      is the rule of a property that reads the replies so far; `exists_exit` finds
      the first step at which a property that held stops holding.
    * `final_fresh` is the rule of an idempotence gate.
    * `final_simulates` and `outputs_simulates` are the simulation rules: a
      step that moves an abstraction of its state as another machine moves
      it runs as that machine does.
    * `conservation` is the rule of a queue: what a run put in and what it
      took out balance against what was queued before and after.
-/

namespace Run

variable {σ ι ο : Type*}

/-- The state after applying `ops` in order from `s`. -/
def final (step : σ → ι → σ × ο) (s : σ) : List ι → σ
  | [] => s
  | op :: ops => final step (step s op).1 ops

/-- The replies of the run, one for each input. -/
def outputs (step : σ → ι → σ × ο) (s : σ) : List ι → List ο
  | [] => []
  | op :: ops => (step s op).2 :: outputs step (step s op).1 ops

variable (step : σ → ι → σ × ο)

@[simp] theorem final_nil (s : σ) : final step s [] = s := rfl

@[simp] theorem final_cons (s : σ) (op : ι) (ops : List ι) :
    final step s (op :: ops) = final step (step s op).1 ops := rfl

@[simp] theorem outputs_nil (s : σ) : outputs step s [] = [] := rfl

@[simp] theorem outputs_cons (s : σ) (op : ι) (ops : List ι) :
    outputs step s (op :: ops) = (step s op).2 :: outputs step (step s op).1 ops := rfl

theorem final_append (s : σ) (ops ops' : List ι) :
    final step s (ops ++ ops') = final step (final step s ops) ops' := by
  induction ops generalizing s with
  | nil => rfl
  | cons op ops ih => exact ih _

@[simp] theorem length_outputs (s : σ) (ops : List ι) :
    (outputs step s ops).length = ops.length := by
  induction ops generalizing s with
  | nil => rfl
  | cons op ops ih => simp [ih]

/-- One more input: the state after `k + 1` inputs is one step past the
    state after `k`. -/
theorem final_take_succ (s : σ) (ops : List ι) {k : Nat} (hk : k < ops.length) :
    final step s (ops.take (k + 1)) = (step (final step s (ops.take k)) ops[k]).1 := by
  rw [List.take_add_one, List.getElem?_eq_getElem hk, Option.toList_some, final_append]
  rfl

/-- The reply to input `k` is computed in the state in front of it. -/
theorem getElem?_outputs (s : σ) (ops : List ι) {k : Nat} (hk : k < ops.length) :
    (outputs step s ops)[k]? = some (step (final step s (ops.take k)) ops[k]).2 := by
  induction ops generalizing s k with
  | nil => simp at hk
  | cons op ops ih =>
    cases k with
    | zero => rfl
    | succ k => exact ih (step s op).1 (by simpa using hk)

/-- The replies of a run, each computed in the state in front of its input. -/
theorem outputs_eq_mapIdx (s : σ) (ops : List ι) :
    outputs step s ops = ops.mapIdx fun k op => (step (final step s (ops.take k)) op).2 := by
  apply List.ext_getElem?
  intro k
  rw [List.getElem?_mapIdx]
  by_cases hk : k < ops.length
  · rw [getElem?_outputs step s ops hk, List.getElem?_eq_getElem hk]
    rfl
  · rw [List.getElem?_eq_none (by simpa using hk), List.getElem?_eq_none (by omega)]
    rfl

theorem outputs_append (s : σ) (ops ops' : List ι) :
    outputs step s (ops ++ ops') = outputs step s ops ++ outputs step (final step s ops) ops' := by
  induction ops generalizing s with
  | nil => rfl
  | cons op ops ih => simp [ih]

/-- One more input: the replies after `k + 1` inputs are those after `k`,
    then the reply to input `k`. -/
theorem outputs_take_succ (s : σ) (ops : List ι) {k : Nat} (hk : k < ops.length) :
    outputs step s (ops.take (k + 1)) =
      outputs step s (ops.take k) ++ [(step (final step s (ops.take k)) ops[k]).2] := by
  rw [List.take_add_one, List.getElem?_eq_getElem hk, Option.toList_some, outputs_append]
  rfl

/-- **Invariant rule.** A property kept by every step holds after every run. -/
theorem final_invariant (inv : σ → Prop) (preserved : ∀ s op, inv s → inv (step s op).1)
    {s : σ} (hs : inv s) (ops : List ι) : inv (final step s ops) := by
  induction ops generalizing s with
  | nil => exact hs
  | cons op ops ih => exact ih (preserved s op hs)

/-- **Invariant rule over given inputs.** A property kept by every step on
    the inputs of the run holds after it. -/
theorem final_invariant_of_mem (inv : σ → Prop) {ops : List ι}
    (preserved : ∀ s, ∀ op ∈ ops, inv s → inv (step s op).1) {s : σ} (hs : inv s) :
    inv (final step s ops) := by
  induction ops generalizing s with
  | nil => exact hs
  | cons op ops ih =>
    exact ih (fun s' op' hop' => preserved s' op' (List.mem_cons_of_mem _ hop'))
      (preserved s op List.mem_cons_self hs)

/-- **Segment rule.** A property of positions and states that holds in
    front of input `p`, and that each input from `p` up to `p'` carries to
    the next position, holds in front of input `p'`. -/
theorem final_take_segment (P : Nat → σ → Prop) (s : σ) (ops : List ι) {p p' : Nat} (hpp : p ≤ p')
    (hlen : p' ≤ ops.length) (hp : P p (final step s (ops.take p)))
    (hstep : ∀ q (hq : q < ops.length), p ≤ q → q < p' →
      P q (final step s (ops.take q)) → P (q + 1) (step (final step s (ops.take q)) ops[q]).1) :
    P p' (final step s (ops.take p')) := by
  induction p', hpp using Nat.le_induction with
  | base => exact hp
  | succ q hpq ih =>
    have hq : q < ops.length := by omega
    rw [final_take_succ step s ops hq]
    exact hstep q hq hpq (by omega) (ih (by omega) fun q' hq' hpq' hq'p => hstep q' hq' hpq' (by omega))

/-- **History rule.** A property of the replies so far and of the state
    that holds at the start, and that each input of the run carries to the
    next position, holds in front of every input. -/
theorem history_invariant (inv : List ο → σ → Prop) (s : σ) (ops : List ι) (hs : inv [] s)
    (hstep : ∀ k (hk : k < ops.length), inv (outputs step s (ops.take k)) (final step s (ops.take k)) →
      inv (outputs step s (ops.take k) ++ [(step (final step s (ops.take k)) ops[k]).2])
        (step (final step s (ops.take k)) ops[k]).1)
    {k : Nat} (hk : k ≤ ops.length) : inv (outputs step s (ops.take k)) (final step s (ops.take k)) :=
  final_take_segment step (fun q s' => inv (outputs step s (ops.take q)) s') s ops (Nat.zero_le k) hk hs
    fun q hq _ _ h => by
      rw [outputs_take_succ step s ops hq]
      exact hstep q hq h

/-- **First exit.** A property of positions that holds at `i` and fails at
    `j ≥ i` stops holding at some step `k → k + 1` in between, having held
    from `i` up to `k`. -/
theorem exists_exit (P : Nat → Prop) {i j : Nat} (hij : i ≤ j) (hi : P i) (hj : ¬ P j) :
    ∃ k, i ≤ k ∧ k < j ∧ (∀ m, i ≤ m → m ≤ k → P m) ∧ ¬ P (k + 1) := by
  classical
  have hlt : i < j := Nat.lt_of_le_of_ne hij (fun h => hj (h ▸ hi))
  have hex : ∃ m, i < m ∧ ¬ P m := ⟨j, hlt, hj⟩
  -- the exit is the step into the first position past `i` where `P` fails
  have him : i < Nat.find hex := (Nat.find_spec hex).1
  have hPm : ¬ P (Nat.find hex) := (Nat.find_spec hex).2
  have hmj : Nat.find hex ≤ j := Nat.find_min' hex ⟨hlt, hj⟩
  refine ⟨Nat.find hex - 1, by omega, by omega, ?_, ?_⟩
  · intro n hin hnk
    rcases Nat.eq_or_lt_of_le hin with rfl | hlt
    · exact hi
    · have hnot := Nat.find_min hex (show n < Nat.find hex by omega)
      exact not_not.mp fun h => hnot ⟨hlt, h⟩
  · rwa [Nat.sub_add_cancel (by omega)]

/-! ## Idempotence gates

    A step guarded by a gate acts only on an input whose key has not been
    recorded, and records it: a retried input is a no-op. Over a run, the
    inputs that act are the first ones of each key not recorded at the
    start, `fresh key seen ops`, and a value the step updates only when it
    acts is the left fold of the update over them (`final_fresh`). -/

section Gate

variable {κ ν : Type*} (key : ι → κ) (gate : σ → κ → Bool)

/-- A gate that records exactly the key of every input is open, in front
    of an input, for the keys recorded at the start and those of the
    earlier inputs. -/
theorem gate_final (hgate : ∀ s op k, gate (step s op).1 k = true ↔ gate s k = true ∨ k = key op)
    (s : σ) (ops : List ι) (k : κ) :
    gate (final step s ops) k = true ↔ gate s k = true ∨ k ∈ ops.map key := by
  induction ops generalizing s with
  | nil => simp
  | cons op ops ih =>
    rw [final_cons, ih, hgate, List.map_cons, List.mem_cons]
    tauto

variable [DecidableEq κ]

/-- The inputs whose key is not in `seen` and is not the key of an earlier
    input, in order. -/
def fresh (seen : List κ) : List ι → List ι
  | [] => []
  | op :: ops => if key op ∈ seen then fresh seen ops else op :: fresh (key op :: seen) ops

/-- **Gate rule.** A value that the step leaves alone on a recorded key and
    updates by `f` otherwise is, after the run, the fold of `f` over the
    fresh inputs. -/
theorem final_fresh (val : σ → ν) (f : ν → ι → ν)
    (hval : ∀ s op, val (step s op).1 = if gate s (key op) then val s else f (val s) op)
    (hgate : ∀ s op k, gate (step s op).1 k = true ↔ gate s k = true ∨ k = key op)
    (ops : List ι) {s : σ} {seen : List κ}
    (hseen : ∀ op ∈ ops, gate s (key op) = true ↔ key op ∈ seen) :
    val (final step s ops) = (fresh key seen ops).foldl f (val s) := by
  induction ops generalizing s seen with
  | nil => rfl
  | cons op ops ih =>
    rw [final_cons, fresh]
    -- after `op` the gate is open for the keys of `seen`, and for `op`'s own
    -- key exactly when it acted
    have hseen' : ∀ seen', (key op ∈ seen → seen' = seen) → (key op ∉ seen → seen' = key op :: seen) →
        ∀ op' ∈ ops, gate (step s op).1 (key op') = true ↔ key op' ∈ seen' := by
      intro seen' hin hout op' hop'
      rw [hgate, hseen op' (List.mem_cons_of_mem _ hop')]
      by_cases hk : key op ∈ seen
      · rw [hin hk]
        constructor
        · rintro (h | h)
          · exact h
          · exact h ▸ hk
        · exact .inl
      · rw [hout hk, List.mem_cons]
        tauto
    by_cases hk : key op ∈ seen
    · have hg : gate s (key op) = true := (hseen op List.mem_cons_self).mpr hk
      rw [if_pos hk, ih (hseen' seen (fun _ => rfl) (fun h => absurd hk h)), hval, if_pos hg]
    · have hg : gate s (key op) = false :=
        Bool.eq_false_iff.mpr fun h => hk ((hseen op List.mem_cons_self).mp h)
      rw [if_neg hk, List.foldl_cons,
        ih (hseen' (key op :: seen) (fun h => absurd h hk) (fun _ => rfl)), hval, hg]
      rfl

end Gate

/-! ## Simulation

    One machine simulates another through an abstraction `f` of its states
    when, from every state of an invariant, each step moves `f` as the other
    machine's step moves it. Then whole runs agree: the abstraction of the
    final state is the other machine's final state, and, when the replies
    agree step by step too, so do the replies of the run. -/

section Simulation

variable {τ π : Type*} (f : σ → τ) (inv : σ → Prop)

/-- **Simulation rule for states.** -/
theorem final_simulates (astep : τ → ι → τ × π)
    (hstep : ∀ s op, inv s → inv (step s op).1 ∧ f (step s op).1 = (astep (f s) op).1)
    {s : σ} (hs : inv s) (ops : List ι) :
    inv (final step s ops) ∧ f (final step s ops) = final astep (f s) ops := by
  induction ops generalizing s with
  | nil => exact ⟨hs, rfl⟩
  | cons op ops ih =>
    obtain ⟨hinv, hf⟩ := hstep s op hs
    rw [final_cons, final_cons, ← hf]
    exact ih hinv

/-- **Simulation rule for replies.** -/
theorem outputs_simulates (astep : τ → ι → τ × ο)
    (hstep : ∀ s op, inv s →
      inv (step s op).1 ∧ f (step s op).1 = (astep (f s) op).1 ∧ (step s op).2 = (astep (f s) op).2)
    {s : σ} (hs : inv s) (ops : List ι) :
    outputs step s ops = outputs astep (f s) ops := by
  induction ops generalizing s with
  | nil => rfl
  | cons op ops ih =>
    obtain ⟨hinv, hf, hout⟩ := hstep s op hs
    rw [outputs_cons, outputs_cons, hout, ← hf, ih hinv]

end Simulation

/-! ## Conservation

    A queue inside the state, `q`, to which each step appends what its
    reply accepted (`ins`) and from whose front it takes what its reply
    delivered (`outs`): over a whole run nothing is lost and nothing is
    reordered. -/

section Conservation

variable {α : Type*} (q : σ → List α) (ins outs : ο → List α)

/-- **Conservation rule.** -/
theorem conservation (hstep : ∀ s op, q s ++ ins (step s op).2 = outs (step s op).2 ++ q (step s op).1)
    (s : σ) (ops : List ι) :
    q s ++ (outputs step s ops).flatMap ins = (outputs step s ops).flatMap outs ++ q (final step s ops) := by
  induction ops generalizing s with
  | nil => simp
  | cons op ops ih =>
    rw [outputs_cons, final_cons, List.flatMap_cons, List.flatMap_cons]
    calc q s ++ (ins (step s op).2 ++ (outputs step (step s op).1 ops).flatMap ins)
        = (q s ++ ins (step s op).2) ++ (outputs step (step s op).1 ops).flatMap ins :=
          (List.append_assoc _ _ _).symm
      _ = outs (step s op).2 ++ (q (step s op).1 ++ (outputs step (step s op).1 ops).flatMap ins) := by
          rw [hstep, List.append_assoc]
      _ = outs (step s op).2 ++ ((outputs step (step s op).1 ops).flatMap outs ++
            q (final step (step s op).1 ops)) := by rw [ih]
      _ = (outs (step s op).2 ++ (outputs step (step s op).1 ops).flatMap outs) ++
            q (final step (step s op).1 ops) := (List.append_assoc _ _ _).symm

end Conservation

end Run
