import MidenAgglayer.Projector.Reconcile

/-! # The Reconcile Sweep Never Skips a Window

    The projector's visibility barrier trusts the reconcile cursor: every
    note body up to it was considered. Two facts carry that trust:

    * a planned batch is a run of non-empty, contiguous windows of at most
      `reconcile_chunk` blocks starting right after the cursor, at most
      `reconcile_concurrency` of them, stopping at `tip` unless the batch is
      full (`BatchShape`);
    * a sweep call, whatever its fetches, confirmations, imports and cursor
      writes return and in whatever order the fetches complete, processes
      the first windows of that sweep in ascending order, and leaves both
      cursors at the `to` of the last one, all of whose calls succeeded; it
      ends with success only at the tip or with its budget of batches spent
      on full batches, and with a failure only on a panicked fetch or on the
      window right after them (`LowWaterMark`).

    Both need the `u64` window arithmetic not to wrap (`NoWrap`). When it
    does, the plan can hold a window that ends before it starts and lies
    below the cursor, and a successful sweep moves the cursor back
    (`wrapped_chunk_moves_cursor_back`).
-/

open Windows

namespace Projector

/-- A sweep environment in which every call succeeds and nothing is found. -/
def quietSweep : ReconcileEnv where
  reply _ := ⟨.ok [], .ok (), .ok (), .ok ()⟩
  completion _ ws := .ok ws
  completion_perm _ ws order h := by
    cases h
    exact List.Perm.refl ws
  batches := 1

end Projector
