import MidenAgglayer.Framework.Maps

/-! # Stable Sorting and Buckets

    Facts for callers that sort records and then walk them bucket by
    bucket:

    * `sortBy` is stable: a sublist already in order stays a sublist of the
      result (`sublist_sortBy`), so the elements a filter keeps come out of
      the sort in their input order when they were in order there
      (`filter_sortBy`).
    * A list sorted by a key whose values lie in `lo, …, lo + n - 1` is its
      buckets taken key by key (`flatMap_range'_filter`).
    * A value of `HashMap.ofList l` is an entry of `l`
      (`mem_of_getElem?_ofList`), and a bucket after `pushEntry` is the old
      one with the entry appended (`getD_pushEntry`).
    * In a list strictly ordered by a key, two members of one key are one
      (`eq_of_mem_of_key_eq`).
    * A lexicographic comparison that is not `gt` is below or equal in its
      first key (`isLE_compare_then`).
-/

namespace Maps

variable {γ : Type*}

section Stable

variable (cmp : γ → γ → Ordering) [Std.TransCmp cmp]

/-- One of the two comparisons is not `gt`. -/
theorem isLE_or_isLE (a b : γ) : ((cmp a b).isLE || (cmp b a).isLE) = true := by
  rw [@Std.OrientedCmp.eq_swap _ cmp _ b a, Ordering.isLE_swap]
  cases cmp a b <;> rfl

/-- **Stability.** A sublist of the input already in order is a sublist of
    the sorted list. -/
theorem sublist_sortBy {c l : List γ} (hc : c.Pairwise fun a b => (cmp a b).isLE) (h : c.Sublist l) :
    c.Sublist (sortBy cmp l) := by
  apply List.sublist_mergeSort _ (isLE_or_isLE cmp) hc h
  intro a b c hab hbc
  exact Std.TransCmp.isLE_trans hab hbc

/-- The elements a filter keeps, in order in the input, come out of the sort
    in that order. -/
theorem filter_sortBy (p : γ → Bool) {l : List γ}
    (hsorted : (l.filter p).Pairwise fun a b => (cmp a b).isLE) :
    (sortBy cmp l).filter p = l.filter p := by
  have hsub := (sublist_sortBy cmp hsorted (List.filter_sublist (p := p))).filter p
  rw [List.filter_filter, List.filter_congr (fun x _ => Bool.and_self (p x))] at hsub
  exact (hsub.eq_of_length ((sortBy_perm cmp l).filter p).length_eq.symm).symm

end Stable

section Buckets

variable (key : γ → Nat)

/-- In a list sorted by key whose keys are all at least `lo`, the elements
    of key `lo` come first. -/
theorem filter_append_filter_of_sorted (lo : Nat) :
    ∀ l : List γ, l.Pairwise (fun a b => key a ≤ key b) → (∀ x ∈ l, lo ≤ key x) →
      (l.filter fun x => key x = lo) ++ (l.filter fun x => key x ≠ lo) = l
  | [], _, _ => rfl
  | x :: xs, hsorted, hge => by
    obtain ⟨hx, hxs⟩ := List.pairwise_cons.mp hsorted
    by_cases hlo : key x = lo
    · have ih := filter_append_filter_of_sorted lo xs hxs fun y hy => hge y (List.mem_cons_of_mem x hy)
      rw [List.filter_cons_of_pos (by simpa using hlo), List.filter_cons_of_neg (by simpa using hlo),
        List.cons_append, ih]
    · -- `x` is above `lo`, and so is everything after it
      have habove : ∀ y ∈ xs, key y ≠ lo := fun y hy => by
        have := hge x List.mem_cons_self
        have := hx y hy
        omega
      have hnone : (xs.filter fun y => key y = lo) = [] := by
        rw [List.filter_eq_nil_iff]
        intro y hy
        simpa using habove y hy
      have hall : (xs.filter fun y => key y ≠ lo) = xs := by
        rw [List.filter_eq_self]
        intro y hy
        simpa using habove y hy
      rw [List.filter_cons_of_neg (by simpa using hlo), List.filter_cons_of_pos (by simpa using hlo),
        hnone, hall, List.nil_append]

/-- **Buckets.** A list sorted by a key whose keys lie in
    `lo, …, lo + n - 1` is its buckets taken key by key. -/
theorem flatMap_range'_filter :
    ∀ (n lo : Nat) (l : List γ), l.Pairwise (fun a b => key a ≤ key b) →
      (∀ x ∈ l, lo ≤ key x ∧ key x < lo + n) →
      (List.range' lo n).flatMap (fun b => l.filter fun x => key x = b) = l
  | 0, lo, l, _, hrange => by
    have hnil : l = [] := List.eq_nil_iff_forall_not_mem.mpr fun x hx => by
      have := hrange x hx
      omega
    simp [hnil]
  | n + 1, lo, l, hsorted, hrange => by
    rw [List.range'_succ, List.flatMap_cons]
    -- the buckets after `lo` are those of the elements above `lo`
    have hrest : ∀ b ∈ List.range' (lo + 1) n,
        (l.filter fun x => key x = b) = (l.filter fun x => key x ≠ lo).filter fun x => key x = b := by
      intro b hb
      have hb' := List.mem_range'_1.mp hb
      rw [List.filter_filter]
      apply List.filter_congr
      intro x _
      by_cases hx : key x = b
      · simp only [hx, decide_true, ne_eq]
        simpa using (by omega : ¬b = lo)
      · simp [hx]
    rw [List.flatMap_congr hrest, flatMap_range'_filter n (lo + 1) _ (hsorted.filter _) ?_,
      filter_append_filter_of_sorted key lo l hsorted fun x hx => (hrange x hx).1]
    intro x hx
    obtain ⟨hx, hne⟩ := List.mem_filter.mp hx
    have := hrange x hx
    simp only [ne_eq, decide_eq_true_eq] at hne
    omega

end Buckets

/-- In a list strictly ordered by a key, two members with the same key are
    the same. -/
theorem eq_of_mem_of_key_eq {κ : Type*} {key : γ → κ} {R : κ → κ → Prop} (hirr : ∀ k, ¬ R k k) :
    ∀ {l : List γ}, l.Pairwise (fun a b => R (key a) (key b)) → ∀ {x y : γ}, x ∈ l → y ∈ l →
      key x = key y → x = y
  | [], _, _, _, hx, _, _ => absurd hx List.not_mem_nil
  | z :: zs, h, x, y, hx, hy, hxy => by
    obtain ⟨hz, hzs⟩ := List.pairwise_cons.mp h
    rcases List.mem_cons.mp hx with hxz | hxs
    · rcases List.mem_cons.mp hy with hyz | hys
      · rw [hxz, hyz]
      · -- the head is below every later member, so no later one shares its key
        have hlt := hz y hys
        rw [← hxz, hxy] at hlt
        exact absurd hlt (hirr _)
    · rcases List.mem_cons.mp hy with hyz | hys
      · have hlt := hz x hxs
        rw [← hyz, ← hxy] at hlt
        exact absurd hlt (hirr _)
      · exact eq_of_mem_of_key_eq hirr hzs hxs hys hxy

/-! ## Lexicographic comparisons -/

/-- `Option`'s order compares two present values as they are. -/
theorem compare_some {α : Type*} [Ord α] (x y : α) : compare (some x) (some y) = compare x y := rfl

/-- A comparison that is not `gt`, by a first key and then by `o`: the
    first key is below, or equal and `o` is not `gt`. -/
theorem isLE_compare_then {x y : Nat} {o : Ordering} (h : ((compare x y).then o).isLE = true) :
    x < y ∨ x = y ∧ o.isLE = true := by
  rcases Nat.lt_trichotomy x y with hxy | rfl | hxy
  · exact .inl hxy
  · rw [Nat.compare_eq_eq.mpr rfl, Ordering.eq_then] at h
    exact .inr ⟨rfl, h⟩
  · simp [Nat.compare_eq_gt.mpr hxy] at h

/-- The bucket of `pushEntry m k v` at `b`. -/
theorem getD_pushEntry {α β : Type*} [BEq α] [Hashable α] [LawfulBEq α] [DecidableEq α]
    (m : Std.HashMap α (List β))
    (k : α) (v : β) (b : α) :
    (pushEntry m k v).getD b [] = if k = b then m.getD b [] ++ [v] else m.getD b [] := by
  unfold pushEntry
  rw [Std.HashMap.getD_insert]
  by_cases hkb : k = b
  · subst hkb
    simp
  · simp [hkb]

/-- A value of `HashMap.ofList l` is an entry of `l`. -/
theorem mem_of_getElem?_ofList {α β : Type*} [BEq α] [Hashable α] [LawfulBEq α] {l : List (α × β)}
    {k : α} {v : β} (h : (Std.HashMap.ofList l)[k]? = some v) : (k, v) ∈ l := by
  rw [Std.HashMap.ofList_eq_insertMany_empty, Std.HashMap.getElem?_insertMany_list,
    Std.HashMap.getElem?_empty, Option.or_none, List.findSomeRev?_eq_findSome?_reverse] at h
  obtain ⟨⟨a, b⟩, hmem, hab⟩ := List.exists_of_findSome?_eq_some h
  dsimp only at hab
  split at hab
  · rename_i heq
    cases hab
    rw [← beq_iff_eq.mp heq]
    exact List.mem_reverse.mp hmem
  · cases hab

end Maps
