import Mathlib.Data.List.Nodup

/-! # Least-Recently-Used Caches

    A bounded cache in the manner of the `lru` crate's `LruCache`: a list of
    entries, most recently used first, with distinct keys and at most `cap`
    of them, `cap ≥ 1`. The structure carries these three facts, so no
    operation can build a cache that breaks them.

    * `peek` looks a key up; `get` does the same and, on a hit, moves the
      entry to the front;
    * `put` inserts or refreshes an entry at the front, and when a new key
      meets a full cache it evicts the least recently used entry, the last;
    * `pop` removes a key.

    Which entries an eviction drops depends on the whole history of uses.
    The rules of `Holds` say what holds whatever it drops: a cache only holds
    entries that were put and not popped since, so a relation that every put
    establishes and every other update keeps holds of every entry the cache
    returns (`Holds.peek`).
-/

namespace Lru

variable {κ ν : Type*}

/-! ## Entry lists -/

/-- The room a new front entry needs: when `rest` already fills the
    capacity, its last entry, the least recently used, goes. -/
def evict (cap : Nat) (rest : List (κ × ν)) : List (κ × ν) :=
  if rest.length < cap then rest else rest.dropLast

theorem evict_sublist (cap : Nat) (rest : List (κ × ν)) : (evict cap rest).Sublist rest := by
  unfold evict
  split_ifs
  · exact List.Sublist.refl rest
  · exact List.dropLast_sublist rest

theorem length_evict_lt {cap : Nat} {rest : List (κ × ν)} (hcap : 0 < cap) (hle : rest.length ≤ cap) :
    (evict cap rest).length < cap := by
  unfold evict
  split_ifs with h
  · exact h
  · rw [List.length_dropLast]
    omega

variable [DecidableEq κ]

/-- The entries whose key is not `k`. -/
def dropKey (k : κ) (es : List (κ × ν)) : List (κ × ν) := es.filter fun e => e.1 ≠ k

theorem mem_dropKey {k : κ} {es : List (κ × ν)} {e : κ × ν} :
    e ∈ dropKey k es ↔ e ∈ es ∧ e.1 ≠ k := by
  simp only [dropKey, List.mem_filter, decide_eq_true_eq]

theorem nodup_keys_dropKey (k : κ) {es : List (κ × ν)} (h : (es.map Prod.fst).Nodup) :
    ((dropKey k es).map Prod.fst).Nodup :=
  h.sublist ((List.filter_sublist).map Prod.fst)

theorem length_dropKey_le (k : κ) (es : List (κ × ν)) : (dropKey k es).length ≤ es.length :=
  List.length_filter_le _ _

/-- The entries after `k ↦ v` is put at the front. -/
theorem nodup_keys_put (cap : Nat) (k : κ) (v : ν) {es : List (κ × ν)} (h : (es.map Prod.fst).Nodup) :
    (((k, v) :: evict cap (dropKey k es)).map Prod.fst).Nodup := by
  rw [List.map_cons, List.nodup_cons]
  have hsub := evict_sublist cap (dropKey k es)
  refine ⟨fun hk => ?_, (nodup_keys_dropKey k h).sublist (hsub.map Prod.fst)⟩
  -- the front key was filtered out of the rest
  obtain ⟨e, he, hek⟩ := List.mem_map.mp hk
  exact (mem_dropKey.mp (hsub.subset he)).2 hek

/-! ## The cache -/

/-- `LruCache<K, V>`. -/
structure LruCache (κ ν : Type*) where
  /-- The capacity (`NonZeroUsize`). -/
  cap : Nat
  /-- The entries, most recently used first. -/
  entries : List (κ × ν)
  cap_pos : 0 < cap
  keys_nodup : (entries.map Prod.fst).Nodup
  length_le : entries.length ≤ cap

namespace LruCache

/-- `LruCache::new`: an empty cache of capacity `cap`. -/
def new (cap : Nat) (h : 0 < cap) : LruCache κ ν := ⟨cap, [], h, List.nodup_nil, Nat.zero_le cap⟩

/-- `LruCache::new(NonZeroUsize::new(capacity.max(1)))`: a cache of the
    given capacity, raised to one. -/
def withCapacity (capacity : Nat) : LruCache κ ν :=
  new (max capacity 1) (Nat.lt_of_lt_of_le Nat.one_pos (Nat.le_max_right capacity 1))

/-- `LruCache::peek`: the value of `k`, if cached. -/
def peek (c : LruCache κ ν) (k : κ) : Option ν := (c.entries.find? fun e => e.1 = k).map Prod.snd

/-- `LruCache::put`: `k ↦ v` becomes the most recently used entry; a new
    key in a full cache evicts the least recently used one. -/
def put (c : LruCache κ ν) (k : κ) (v : ν) : LruCache κ ν where
  cap := c.cap
  entries := (k, v) :: evict c.cap (dropKey k c.entries)
  cap_pos := c.cap_pos
  keys_nodup := nodup_keys_put c.cap k v c.keys_nodup
  length_le := length_evict_lt c.cap_pos (Nat.le_trans (length_dropKey_le k c.entries) c.length_le)

/-- `LruCache::get`: the value of `k`, if cached; a hit moves the entry to
    the front. A key already cached leaves room, so nothing is evicted and
    the move is a `put` of the same value. -/
def get (c : LruCache κ ν) (k : κ) : Option ν × LruCache κ ν :=
  match c.peek k with
  | none => (none, c)
  | some v => (some v, c.put k v)

/-- `LruCache::pop`: the value of `k`, if cached, and the cache without it. -/
def pop (c : LruCache κ ν) (k : κ) : Option ν × LruCache κ ν :=
  (c.peek k, { c with
    entries := dropKey k c.entries
    keys_nodup := nodup_keys_dropKey k c.keys_nodup
    length_le := Nat.le_trans (length_dropKey_le k c.entries) c.length_le })

theorem mem_of_peek {c : LruCache κ ν} {k : κ} {v : ν} (h : c.peek k = some v) : (k, v) ∈ c.entries := by
  obtain ⟨e, he, rfl⟩ := Option.map_eq_some_iff.mp h
  have hkey : e.1 = k := by simpa using List.find?_some he
  rw [← hkey]
  exact List.mem_of_find?_eq_some he

theorem mem_put {c : LruCache κ ν} {k k' : κ} {v v' : ν} (h : (k', v') ∈ (c.put k v).entries) :
    (k', v') = (k, v) ∨ (k' ≠ k ∧ (k', v') ∈ c.entries) := by
  rcases List.mem_cons.mp h with h | h
  · exact .inl h
  · have hmem := mem_dropKey.mp ((evict_sublist _ _).subset h)
    exact .inr ⟨hmem.2, hmem.1⟩

@[simp] theorem get_fst (c : LruCache κ ν) (k : κ) : (c.get k).1 = c.peek k := by
  unfold get
  split <;> simp_all

end LruCache

/-! ## What the cache holds -/

open LruCache

section Holds

variable {R R' : κ → ν → Prop} {c : LruCache κ ν} {k : κ}

/-- Every entry of the cache satisfies `R`. -/
def Holds (R : κ → ν → Prop) (c : LruCache κ ν) : Prop := ∀ k v, (k, v) ∈ c.entries → R k v

omit [DecidableEq κ] in
theorem holds_withCapacity (R : κ → ν → Prop) (capacity : Nat) :
    Holds R (LruCache.withCapacity capacity : LruCache κ ν) :=
  fun _ _ hkv => absurd hkv List.not_mem_nil

/-- A value the cache returns satisfies the relation. -/
theorem Holds.peek {v : ν} (hc : Holds R c) (h : c.peek k = some v) : R k v :=
  hc k v (mem_of_peek h)

/-- **Put rule.** The entry put satisfies the new relation, and every other
    entry that satisfied the old one satisfies the new one. -/
theorem Holds.put {v : ν} (hc : Holds R c) (hkv : R' k v) (hR : ∀ k' v', k' ≠ k → R k' v' → R' k' v') :
    Holds R' (c.put k v) := by
  intro k' v' hmem
  rcases mem_put hmem with h | ⟨hne, hold⟩
  · rw [Prod.mk.injEq] at h
    rw [h.1, h.2]
    exact hkv
  · exact hR k' v' hne (hc k' v' hold)

theorem Holds.get (hc : Holds R c) : Holds R (c.get k).2 := by
  unfold LruCache.get
  split
  · exact hc
  · rename_i v hv
    exact hc.put (hc.peek hv) fun _ _ _ h => h

/-- **Pop rule.** Removing `k` keeps every other entry. -/
theorem Holds.pop (hc : Holds R c) (hR : ∀ k' v', k' ≠ k → R k' v' → R' k' v') : Holds R' (c.pop k).2 := by
  intro k' v' hmem
  have hmem' := mem_dropKey.mp hmem
  exact hR k' v' hmem'.2 (hc k' v' hmem'.1)

end Holds

end Lru
