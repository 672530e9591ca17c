import Mathlib.Data.List.Sort

/-! # Grouping into an Ordered Map of Buckets

    A `BTreeMap<u64, Vec<T>>` filled by `map.entry(key(x)).or_default().push(x)`
    over a list and then iterated is, as a value, its list of entries in
    ascending key order. `push` is one insertion on that list, and
    `groupBy key l` the whole loop.

    The result is determined by the buckets: `groupBy_eq_map` says that it
    lists its keys, ascending, each with the elements of that key in list
    order; `keys_groupBy_perm` says that permuting the list permutes no key.

    The map is then visited in key order, each group's output appended and
    the first failure returned: `foldlM_append_eq_mapM` turns that loop into
    a `mapM`, whose successes and failures the last section describes.
-/

namespace Groups

variable {τ : Type*}

/-- `map.entry(k).or_default().push(x)` on the ascending entry list. -/
def push (k : Nat) (x : τ) : List (Nat × List τ) → List (Nat × List τ)
  | [] => [(k, [x])]
  | (k', xs) :: rest =>
    if k < k' then (k, [x]) :: (k', xs) :: rest
    else if k = k' then (k', xs ++ [x]) :: rest
    else (k', xs) :: push k x rest

/-- The bucket of key `j`: its elements, none if the key is absent. -/
def bucket (m : List (Nat × List τ)) (j : Nat) : List τ :=
  ((m.find? fun p => p.1 == j).map Prod.snd).getD []

/-- The keys in iteration order. -/
def keys (m : List (Nat × List τ)) : List Nat := m.map Prod.fst

/-- Ascending distinct keys. -/
def Ascending (m : List (Nat × List τ)) : Prop := (keys m).Pairwise (· < ·)

section Push

variable (k : Nat) (x : τ)

@[simp] theorem bucket_nil (j : Nat) : bucket ([] : List (Nat × List τ)) j = [] := rfl

theorem bucket_cons (k' : Nat) (xs : List τ) (rest : List (Nat × List τ)) (j : Nat) :
    bucket ((k', xs) :: rest) j = if k' = j then xs else bucket rest j := by
  by_cases h : k' = j <;> simp [bucket, h]

/-- A key that is no key of the map has the empty bucket. -/
theorem bucket_of_not_mem {m : List (Nat × List τ)} {j : Nat} (h : j ∉ keys m) : bucket m j = [] := by
  induction m with
  | nil => rfl
  | cons p rest ih =>
    obtain ⟨k', xs⟩ := p
    simp only [keys, List.map_cons, List.mem_cons, not_or] at h
    rw [bucket_cons, if_neg (Ne.symm h.1)]
    exact ih h.2

/-- In a map of non-empty buckets, the key of an entry has a non-empty
    bucket. -/
theorem bucket_ne_nil {m : List (Nat × List τ)} (hm : ∀ p ∈ m, p.2 ≠ []) {p : Nat × List τ}
    (hp : p ∈ m) : bucket m p.1 ≠ [] := by
  induction m with
  | nil => cases hp
  | cons q rest ih =>
    obtain ⟨k', xs⟩ := q
    rw [bucket_cons]
    split
    · exact hm _ List.mem_cons_self
    · -- `p` is not the head entry, whose key it would share
      rename_i hne
      rcases List.mem_cons.mp hp with rfl | hp
      · exact absurd rfl hne
      · exact ih (fun q hq => hm q (List.mem_cons_of_mem _ hq)) hp

theorem mem_keys_push (m : List (Nat × List τ)) (j : Nat) :
    j ∈ keys (push k x m) ↔ j = k ∨ j ∈ keys m := by
  induction m with
  | nil => simp [push, keys]
  | cons p rest ih =>
    obtain ⟨k', xs⟩ := p
    simp only [keys] at ih ⊢
    unfold push
    split
    · simp
    · split
      · rename_i heq
        subst heq
        simp
      · simp only [List.map_cons, List.mem_cons, ih]
        tauto

/-- A push adds `x` to the bucket of `k` and to no other. -/
theorem bucket_push {m : List (Nat × List τ)} (hm : Ascending m) (j : Nat) :
    bucket (push k x m) j = if k = j then bucket m j ++ [x] else bucket m j := by
  induction m with
  | nil => by_cases h : k = j <;> simp [push, bucket_cons, h]
  | cons p rest ih =>
    obtain ⟨k', xs⟩ := p
    have hrest : Ascending rest := (List.pairwise_cons.mp hm).2
    unfold push
    split
    · -- `k` comes before every key, so its old bucket is empty
      rename_i hlt
      have hk : k ∉ keys ((k', xs) :: rest) := by
        intro hmem
        simp only [keys, List.map_cons, List.mem_cons] at hmem
        rcases hmem with heq | hmem
        · omega
        · have := (List.pairwise_cons.mp hm).1 k hmem
          omega
      rw [bucket_cons]
      by_cases hkj : k = j
      · subst hkj
        simp [bucket_of_not_mem hk]
      · simp [hkj]
    · split
      · rename_i heq
        subst heq
        by_cases hkj : k = j <;> simp [bucket_cons, hkj]
      · rw [bucket_cons, bucket_cons, ih hrest]
        by_cases hkj : k = j
        · subst hkj
          simp [show k' ≠ k by omega]
        · by_cases hk'j : k' = j <;> simp [hkj, hk'j]

theorem ascending_push {m : List (Nat × List τ)} (hm : Ascending m) : Ascending (push k x m) := by
  induction m with
  | nil => simp [push, Ascending, keys]
  | cons p rest ih =>
    obtain ⟨k', xs⟩ := p
    have ⟨hhead, hrest⟩ := List.pairwise_cons.mp hm
    unfold push
    split
    · rename_i hlt
      refine List.pairwise_cons.mpr ⟨?_, hm⟩
      intro j hj
      simp only [List.map_cons, List.mem_cons] at hj
      rcases hj with rfl | hj
      · exact hlt
      · exact Nat.lt_trans hlt (hhead j hj)
    · split
      · rename_i heq
        subst heq
        exact hm
      · refine List.pairwise_cons.mpr ⟨?_, ih hrest⟩
        intro j hj
        rcases (mem_keys_push k x rest j).mp hj with rfl | hj
        · omega
        · exact hhead j hj

theorem nonempty_push {m : List (Nat × List τ)} (hm : ∀ p ∈ m, p.2 ≠ []) :
    ∀ p ∈ push k x m, p.2 ≠ [] := by
  induction m with
  | nil => simp [push]
  | cons p rest ih =>
    obtain ⟨k', xs⟩ := p
    have hrest : ∀ p ∈ rest, p.2 ≠ [] := fun p hp => hm p (List.mem_cons_of_mem _ hp)
    unfold push
    split
    · intro q hq
      rcases List.mem_cons.mp hq with rfl | hq
      · simp
      · exact hm q hq
    · split
      · intro q hq
        rcases List.mem_cons.mp hq with rfl | hq
        · simp
        · exact hrest q hq
      · intro q hq
        rcases List.mem_cons.mp hq with rfl | hq
        · exact hm _ List.mem_cons_self
        · exact ih hrest q hq

end Push

/-! ## The whole loop -/

section GroupBy

variable (key : τ → Nat)

/-- The loop `for x in l { map.entry(key(x)).or_default().push(x) }` from an
    empty map. -/
def groupBy (l : List τ) : List (Nat × List τ) :=
  l.foldl (fun m x => push (key x) x m) []

/-- What the loop keeps: ascending keys, non-empty buckets, and each bucket
    the elements of its key, in order. -/
structure IsGrouping (l : List τ) (m : List (Nat × List τ)) : Prop where
  ascending : Ascending m
  nonempty : ∀ p ∈ m, p.2 ≠ []
  bucket_eq : ∀ j, bucket m j = l.filter fun x => key x == j

theorem isGrouping_push {l : List τ} {m : List (Nat × List τ)} (h : IsGrouping key l m) (x : τ) :
    IsGrouping key (l ++ [x]) (push (key x) x m) where
  ascending := ascending_push _ _ h.ascending
  nonempty := nonempty_push _ _ h.nonempty
  bucket_eq j := by
    rw [bucket_push _ _ h.ascending, h.bucket_eq, List.filter_append]
    by_cases hj : key x = j <;> simp [hj]

theorem isGrouping_groupBy (l : List τ) : IsGrouping key l (groupBy key l) := by
  -- the loop keeps the invariant for every prefix
  suffices ∀ (l₀ : List τ) (m : List (Nat × List τ)), IsGrouping key l₀ m →
      IsGrouping key (l₀ ++ l) (l.foldl (fun m x => push (key x) x m) m) by
    have h := this [] [] ⟨List.Pairwise.nil, by simp, by simp⟩
    rw [List.nil_append] at h
    exact h
  induction l with
  | nil => simp
  | cons x l ih =>
    intro l₀ m h
    have := ih (l₀ ++ [x]) _ (isGrouping_push key h x)
    simpa using this

/-- A key of the grouping is the key of an element. -/
theorem mem_keys_iff {l : List τ} {m : List (Nat × List τ)} (h : IsGrouping key l m) (j : Nat) :
    j ∈ keys m ↔ ∃ x ∈ l, key x = j := by
  constructor
  · intro hj
    obtain ⟨p, hp, rfl⟩ := List.mem_map.mp hj
    have hb := bucket_ne_nil h.nonempty hp
    rw [h.bucket_eq] at hb
    obtain ⟨x, hx⟩ := List.exists_mem_of_ne_nil _ hb
    obtain ⟨hxl, hxk⟩ := List.mem_filter.mp hx
    exact ⟨x, hxl, by simpa using hxk⟩
  · rintro ⟨x, hx, rfl⟩
    by_contra hk
    have hb := bucket_of_not_mem hk
    rw [h.bucket_eq] at hb
    exact (List.filter_eq_nil_iff.mp hb) x hx (by simp)

/-- A map with ascending keys lists its buckets. -/
theorem eq_map_bucket {m : List (Nat × List τ)} (hm : Ascending m) :
    m = (keys m).map fun j => (j, bucket m j) := by
  induction m with
  | nil => rfl
  | cons p rest ih =>
    obtain ⟨k', xs⟩ := p
    have ⟨hhead, hrest⟩ := List.pairwise_cons.mp hm
    simp only [keys, List.map_cons]
    rw [bucket_cons, if_pos rfl]
    congr 1
    conv_lhs => rw [ih hrest]
    refine List.map_congr_left fun j hj => ?_
    have hlt := hhead j hj
    rw [bucket_cons, if_neg (by omega)]

/-- **The grouping.** The loop lists its keys, ascending, each with the
    elements of that key in list order. -/
theorem groupBy_eq_map (l : List τ) :
    groupBy key l = (keys (groupBy key l)).map fun j => (j, l.filter fun x => key x == j) := by
  have h := isGrouping_groupBy key l
  conv_lhs => rw [eq_map_bucket h.ascending]
  exact List.map_congr_left fun j _ => by rw [h.bucket_eq]

/-- Permuting the list permutes no key. -/
theorem keys_groupBy_perm {l l' : List τ} (hp : l.Perm l') :
    keys (groupBy key l) = keys (groupBy key l') := by
  refine List.Pairwise.eq_of_mem_iff (isGrouping_groupBy key l).ascending
    (isGrouping_groupBy key l').ascending fun j => ?_
  rw [mem_keys_iff key (isGrouping_groupBy key l), mem_keys_iff key (isGrouping_groupBy key l')]
  exact ⟨fun ⟨x, hx, hk⟩ => ⟨x, hp.subset hx, hk⟩, fun ⟨x, hx, hk⟩ => ⟨x, hp.symm.subset hx, hk⟩⟩

/-- Every element sits in the bucket of its key: the buckets, in key order,
    are a rearrangement of the list. -/
theorem flatMap_keys_groupBy_perm (l : List τ) :
    ((keys (groupBy key l)).flatMap fun j => l.filter fun x => key x == j).Perm l := by
  have h := isGrouping_groupBy key l
  -- induction on a list of distinct keys covering every key of the list
  suffices ∀ (ks : List Nat) (l : List τ), ks.Nodup → (∀ x ∈ l, key x ∈ ks) →
      (ks.flatMap fun j => l.filter fun x => key x == j).Perm l from
    this _ l (h.ascending.imp Nat.ne_of_lt) fun x hx => (mem_keys_iff key h _).mpr ⟨x, hx, rfl⟩
  intro ks
  induction ks with
  | nil =>
    intro l _ hcover
    cases l with
    | nil => exact List.Perm.refl _
    | cons x _ => exact absurd (hcover x List.mem_cons_self) (List.not_mem_nil)
  | cons j ks ih =>
    intro l hnodup hcover
    have ⟨hj, hks⟩ := List.nodup_cons.mp hnodup
    -- the other buckets see only the elements whose key is not `j`
    have hrest : (ks.flatMap fun j' => l.filter fun x => key x == j') =
        ks.flatMap fun j' => (l.filter fun x => !(key x == j)).filter fun x => key x == j' := by
      refine List.flatMap_congr fun j' hj' => ?_
      rw [List.filter_filter]
      refine List.filter_congr fun x _ => ?_
      by_cases hx : key x = j'
      · have hne : j' ≠ j := fun h => hj (h ▸ hj')
        simp [hx, hne]
      · simp [hx]
    rw [List.flatMap_cons, hrest]
    refine List.Perm.trans (List.Perm.append_left _ (ih _ hks fun x hx => ?_))
      (List.filter_append_perm _ l)
    obtain ⟨hxl, hxj⟩ := List.mem_filter.mp hx
    rcases List.mem_cons.mp (hcover x hxl) with heq | hmem
    · simp [heq] at hxj
    · exact hmem

end GroupBy

/-! ## Visiting the groups in order -/

section Visit

variable {κ ε β : Type*}

/-- Appending each visited group's output, stopping at the first failure, is
    `mapM` followed by `flatten`. -/
theorem foldlM_append_eq_mapM (f : κ → Except ε (List β)) (ks : List κ) (init : List β) :
    ks.foldlM (fun acc k => do let out ← f k; pure (acc ++ out)) init =
      (ks.mapM f).map fun outs => init ++ outs.flatten := by
  induction ks generalizing init with
  | nil => simp [pure, Except.pure, Except.map]
  | cons k ks ih =>
    rw [List.foldlM_cons, List.mapM_cons]
    cases hk : f k with
    | error e => rfl
    | ok out =>
      show ks.foldlM _ (init ++ out) = _
      rw [ih]
      cases ks.mapM f <;> simp [Except.map, bind, Except.bind, pure, Except.pure]

/-- `map` keeps success and failure. -/
theorem exists_map_eq_ok_iff {γ : Type*} (g : β → γ) (x : Except ε β) :
    (∃ y, x.map g = .ok y) ↔ ∃ b, x = .ok b := by
  cases x with
  | error e => simp [Except.map]
  | ok b => simp [Except.map]

/-- `mapM` succeeds, with every output, when every call does. -/
theorem mapM_eq_ok_of_forall (f : κ → Except ε β) (g : κ → β) (ks : List κ)
    (h : ∀ k ∈ ks, f k = .ok (g k)) : ks.mapM f = .ok (ks.map g) := by
  induction ks with
  | nil => rfl
  | cons k ks ih =>
    rw [List.mapM_cons, h k List.mem_cons_self,
      ih fun k' hk' => h k' (List.mem_cons_of_mem _ hk')]
    rfl

/-- A successful `mapM` had every call succeed. -/
theorem ok_of_mapM_eq_ok {f : κ → Except ε β} {ks : List κ} {outs : List β}
    (h : ks.mapM f = .ok outs) : ∀ k ∈ ks, ∃ out, f k = .ok out := by
  induction ks generalizing outs with
  | nil => simp
  | cons k ks ih =>
    rw [List.mapM_cons] at h
    cases hk : f k with
    | error e => rw [hk] at h; cases h
    | ok out =>
      cases hks : ks.mapM f with
      | error e => rw [hk, hks] at h; cases h
      | ok outs' =>
        intro k' hk'
        rcases List.mem_cons.mp hk' with rfl | hk'
        · exact ⟨out, hk⟩
        · exact ih hks k' hk'

/-- `mapM` succeeds exactly when every call does. -/
theorem exists_mapM_eq_ok_iff (f : κ → Except ε β) (ks : List κ) :
    (∃ outs, ks.mapM f = .ok outs) ↔ ∀ k ∈ ks, ∃ out, f k = .ok out := by
  constructor
  · rintro ⟨outs, h⟩
    exact ok_of_mapM_eq_ok h
  · intro h
    induction ks with
    | nil => exact ⟨[], rfl⟩
    | cons k ks ih =>
      obtain ⟨out, hk⟩ := h k List.mem_cons_self
      obtain ⟨outs, hks⟩ := ih fun k' hk' => h k' (List.mem_cons_of_mem _ hk')
      exact ⟨out :: outs, by rw [List.mapM_cons, hk, hks]; rfl⟩

/-- A failed `mapM` reports the failure of its first failing call. -/
theorem mapM_eq_error {f : κ → Except ε β} {ks : List κ} {e : ε} (h : ks.mapM f = .error e) :
    ∃ ks₁ k ks₂, ks = ks₁ ++ k :: ks₂ ∧ (∀ k' ∈ ks₁, ∃ out, f k' = .ok out) ∧ f k = .error e := by
  induction ks with
  | nil => cases h
  | cons k ks ih =>
    rw [List.mapM_cons] at h
    cases hk : f k with
    | error e' =>
      rw [hk] at h
      cases h
      exact ⟨[], k, ks, rfl, by simp, hk⟩
    | ok out =>
      cases hks : ks.mapM f with
      | error e' =>
        rw [hk, hks] at h
        cases h
        obtain ⟨ks₁, k', ks₂, rfl, hok, hfail⟩ := ih hks
        refine ⟨k :: ks₁, k', ks₂, rfl, fun k'' hk'' => ?_, hfail⟩
        rcases List.mem_cons.mp hk'' with rfl | hk''
        · exact ⟨out, hk⟩
        · exact hok k'' hk''
      | ok outs => rw [hk, hks] at h; cases h

end Visit

end Groups
