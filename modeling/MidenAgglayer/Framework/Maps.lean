import Mathlib.Data.List.Perm.Basic
import Mathlib.Data.List.Nodup

/-! # Hash Maps of Buckets and Iteration

    Helpers for hash maps whose iteration order is unspecified, stated so
    that no result depends on that order:

    * `pushEntry m k v` is `m.entry(k).or_default().push(v)`, and
      `allValues m` the concatenated buckets; `allValues_pushEntry` says a
      push adds exactly one value to the whole, whatever the order.
    * `getElem?_move` reads a map after a key's value moved to another key.
    * `minByKey f l` is `Iterator::min_by_key`: the first element of least
      key.
    * A map is `Filed` when every value sits in the bucket of its own key;
      then the buckets of a list of distinct keys hold each value exactly as
      often as all buckets do, when its key is listed
      (`count_flatten_filterMap`).
    * `sortBy cmp` is `slice::sort_by(cmp)`: a permutation, sorted for a
      lawful comparator.
    * A list whose keys are distinct is a map: `find?` by key returns the
      one element with that key (`find?_eq_some_iff_of_nodup`), and a
      `filterMap` that keeps each element's key keeps them distinct
      (`sublist_keys_filterMap`).
-/

namespace Maps

variable {α β γ : Type*}

section Buckets

variable [BEq α] [Hashable α] [LawfulBEq α]

/-- `map.entry(k).or_default().push(v)`. -/
def pushEntry (m : Std.HashMap α (List β)) (k : α) (v : β) : Std.HashMap α (List β) :=
  m.insert k (m.getD k [] ++ [v])

/-- The buckets of a map, concatenated in iteration order. -/
def allValues (m : Std.HashMap α (List β)) : List β :=
  m.toList.flatMap Prod.snd

/-- The entries of one key: the entry of `k` if there is one. -/
theorem filter_key_toList (m : Std.HashMap α γ) (k : α) :
    m.toList.filter (fun p => k == p.1) = (m[k]?.map fun v => (k, v)).toList := by
  have hmem : ∀ p ∈ m.toList.filter (fun p => k == p.1), p.1 = k ∧ m[k]? = some p.2 := by
    intro p hp
    obtain ⟨hp, hk⟩ := List.mem_filter.mp hp
    have hk : p.1 = k := (beq_iff_eq.mp hk).symm
    refine ⟨hk, ?_⟩
    rw [← hk]
    exact Std.HashMap.mem_toList_iff_getElem?_eq_some.mp hp
  have hpw := (Std.HashMap.distinct_keys_toList (m := m)).filter (fun p => k == p.1)
  cases hk : m[k]? with
  | none =>
    simp only [Option.map_none, Option.toList_none]
    rw [List.eq_nil_iff_forall_not_mem]
    intro p hp
    obtain ⟨-, h⟩ := hmem p hp
    rw [hk] at h
    cases h
  | some v =>
    have hin : (k, v) ∈ m.toList.filter (fun p => k == p.1) :=
      List.mem_filter.mpr ⟨Std.HashMap.mem_toList_iff_getElem?_eq_some.mpr hk, by simp⟩
    -- distinct keys leave at most one entry with key `k`
    rcases hF : m.toList.filter (fun p => k == p.1) with _ | ⟨a, _ | ⟨b, rest⟩⟩
    · rw [hF] at hin
      cases hin
    · rw [hF] at hin
      rw [hF, ← List.mem_singleton.mp hin]
      rfl
    · rw [hF] at hpw hmem
      have hab := List.rel_of_pairwise_cons hpw (List.mem_cons_self : b ∈ b :: rest)
      obtain ⟨ha, -⟩ := hmem a (by simp)
      obtain ⟨hb, -⟩ := hmem b (by simp)
      simp [ha, hb] at hab

/-- Iteration meets the entry of `k`, if any, and the other entries. -/
theorem toList_perm_key (m : Std.HashMap α γ) (k : α) :
    m.toList.Perm ((m[k]?.map fun v => (k, v)).toList ++
      m.toList.filter (fun p => !(k == p.1))) := by
  rw [← filter_key_toList]
  exact (List.filter_append_perm _ _).symm

/-- The buckets are the bucket of `k` and those of the other keys. -/
theorem allValues_perm_key (m : Std.HashMap α (List β)) (k : α) :
    (allValues m).Perm
      (m.getD k [] ++ (m.toList.filter (fun p => !(k == p.1))).flatMap Prod.snd) := by
  have h := (toList_perm_key m k).flatMap_right Prod.snd
  rw [List.flatMap_append] at h
  unfold allValues
  refine h.trans ?_
  rw [Std.HashMap.getD_eq_getD_getElem?]
  cases m[k]? <;> simp

/-- A push adds exactly its value to the concatenated buckets. -/
theorem allValues_pushEntry (m : Std.HashMap α (List β)) (k : α) (v : β) :
    (allValues (pushEntry m k v)).Perm (v :: allValues m) := by
  have hins := (Std.HashMap.toList_insert_perm (m := m) (k := k)
    (v := m.getD k [] ++ [v])).flatMap_right Prod.snd
  have hfilter : (m.toList.filter fun x => decide ¬(k == x.1) = true) =
      m.toList.filter fun p => !(k == p.1) := by
    congr 1
    funext p
    simp
  rw [List.flatMap_cons, hfilter] at hins
  refine hins.trans ?_
  refine List.Perm.trans ?_ ((allValues_perm_key m k).symm.cons v)
  simp only [List.append_assoc, List.singleton_append]
  exact List.perm_middle

/-- Moving the value of `a` to the key `b`: the entry of `b` is the old
    entry of `a`, `a` has none, and every other entry stays. -/
theorem getElem?_move {m : Std.HashMap α γ} {a b k : α} {v x : γ} (ha : m[a]? = some v) :
    ((m.erase a).insert b v)[k]? = some x ↔
      (k = b ∧ m[a]? = some x) ∨ (k ≠ b ∧ k ≠ a ∧ m[k]? = some x) := by
  rw [Std.HashMap.getElem?_insert, ha]
  by_cases hkb : b = k
  · subst hkb
    simp
  · rw [if_neg (by simpa using hkb), Std.HashMap.getElem?_erase]
    by_cases hka : a = k
    · subst hka
      simp [ha, Ne.symm hkb]
    · simp [hka, Ne.symm hkb, Ne.symm hka]

/-! ## Buckets filed under their own key -/

section Filed

variable [DecidableEq β] (key : β → α)

/-- Every value of `m` sits in the bucket of its own key. -/
def Filed (m : Std.HashMap α (List β)) : Prop :=
  ∀ k v, v ∈ m.getD k [] → key v = k

variable {key} {m : Std.HashMap α (List β)}

/-- A value occurs in all buckets as often as in the bucket of its key. -/
theorem count_allValues (hm : Filed key m) (v : β) :
    (allValues m).count v = (m.getD (key v) []).count v := by
  rw [(allValues_perm_key m (key v)).count_eq, List.count_append]
  -- the other buckets are filed under other keys, so they miss `v`
  have hrest : ((m.toList.filter fun p => !(key v == p.1)).flatMap Prod.snd).count v = 0 := by
    rw [List.count_eq_zero]
    intro hmem
    obtain ⟨p, hp, hv⟩ := List.mem_flatMap.mp hmem
    obtain ⟨hp, hne⟩ := List.mem_filter.mp hp
    have hget : m[p.1]? = some p.2 := Std.HashMap.mem_toList_iff_getElem?_eq_some.mp hp
    have hkey : key v = p.1 := hm p.1 v (by rw [Std.HashMap.getD_eq_getD_getElem?, hget]; exact hv)
    simp [hkey] at hne
  rw [hrest, Nat.add_zero]

/-- The buckets of distinct keys `ks`, concatenated, hold a value as often
    as all buckets do if its key is in `ks`, and not at all otherwise. -/
theorem count_flatten_filterMap (hm : Filed key m) {ks : List α} (hks : ks.Nodup) (v : β) :
    (ks.filterMap fun k => m[k]?).flatten.count v =
      if key v ∈ ks then (allValues m).count v else 0 := by
  induction ks with
  | nil => simp
  | cons k ks ih =>
    obtain ⟨hk, hks⟩ := List.nodup_cons.mp hks
    have hcons : ((k :: ks).filterMap fun k => m[k]?).flatten.count v =
        (m.getD k []).count v + (ks.filterMap fun k => m[k]?).flatten.count v := by
      rw [List.filterMap_cons, Std.HashMap.getD_eq_getD_getElem?]
      cases m[k]? <;> simp [List.count_append]
    rw [hcons, ih hks]
    by_cases hkv : key v = k
    · -- the value's own bucket, listed once
      subst hkv
      simp [hk, count_allValues hm]
    · have hmiss : (m.getD k []).count v = 0 :=
        List.count_eq_zero.mpr fun hv => hkv (hm k v hv)
      simp [hmiss, hkv]

end Filed

end Buckets

/-! ## Sorting by a comparator -/

section Sorting

variable (cmp : γ → γ → Ordering)

/-- `slice::sort_by(cmp)`: a stable merge sort by a comparator. -/
def sortBy (l : List γ) : List γ :=
  l.mergeSort fun a b => (cmp a b).isLE

theorem sortBy_perm (l : List γ) : (sortBy cmp l).Perm l :=
  List.mergeSort_perm l _

/-- For a lawful comparator the result is sorted. -/
theorem pairwise_sortBy [Std.TransCmp cmp] (l : List γ) :
    (sortBy cmp l).Pairwise fun a b => (cmp a b).isLE := by
  apply List.pairwise_mergeSort
  · intro a b c hab hbc
    exact Std.TransCmp.isLE_trans hab hbc
  · -- totality: one of the two comparisons is not `gt`
    intro a b
    rw [@Std.OrientedCmp.eq_swap _ cmp _ b a, Ordering.isLE_swap]
    cases cmp a b <;> rfl

omit cmp in
/-- Sorting by a key any arrangement of a list already strictly ascending
    in that key gives the list back, stable sort or not. -/
theorem sortBy_compareOn_eq_of_perm {key : γ → Nat} {l order : List γ}
    (hsorted : l.Pairwise fun a b => key a < key b) (hperm : order.Perm l) :
    sortBy (compareOn key) order = l := by
  -- the keys of `l` are distinct
  have hnodup : (l.map key).Nodup := List.pairwise_map.mpr (hsorted.imp Nat.ne_of_lt)
  have hkey : ∀ a ∈ l, ∀ b ∈ l, key a = key b → a = b := fun a ha b hb hab =>
    List.inj_on_of_nodup_map hnodup ha hb hab
  have hisLE : ∀ a b : γ, (compareOn key a b).isLE = true ↔ key a ≤ key b := by
    intro a b
    simp [compareOn, Nat.isLE_compare]
  refine @List.Perm.eq_of_pairwise _ (fun a b => (compareOn key a b).isLE = true) _ _ ?_
    (pairwise_sortBy _ order) (hsorted.imp fun h => (hisLE _ _).mpr (Nat.le_of_lt h))
    ((sortBy_perm _ order).trans hperm)
  intro a b ha hb hab hba
  exact hkey a (((sortBy_perm _ order).trans hperm).subset ha) b hb
    (Nat.le_antisymm ((hisLE a b).mp hab) ((hisLE b a).mp hba))

end Sorting

/-! ## Lists with distinct keys -/

section DistinctKeys

variable {κ : Type*} (k : γ → κ)

/-- In a list whose keys are distinct, the first element whose key a
    predicate accepts is the one element with that key. -/
theorem find?_eq_some_iff_of_nodup {l : List γ} (hl : (l.map k).Nodup) {x : κ} {p : γ → Bool}
    (hp : ∀ a, p a = true ↔ k a = x) {a : γ} : l.find? p = some a ↔ a ∈ l ∧ k a = x := by
  constructor
  · intro h
    exact ⟨List.mem_of_find?_eq_some h, (hp a).mp (List.find?_some h)⟩
  · rintro ⟨ha, hka⟩
    obtain ⟨b, hb⟩ := Option.isSome_iff_exists.mp (List.find?_isSome.mpr ⟨a, ha, (hp a).mpr hka⟩)
    have hkb : k b = x := (hp b).mp (List.find?_some hb)
    rw [hb, List.inj_on_of_nodup_map hl (List.mem_of_find?_eq_some hb) ha (hkb.trans hka.symm)]

/-- Keeping some elements, each turned into a value under its own key, keeps
    the keys in order: the new keys are a sublist of the old. -/
theorem sublist_keys_filterMap {δ : Type*} (k' : δ → κ) {f : γ → Option δ}
    (hf : ∀ a b, f a = some b → k' b = k a) (l : List γ) : ((l.filterMap f).map k').Sublist (l.map k) := by
  induction l with
  | nil => exact List.Sublist.slnil
  | cons a l ih =>
    rw [List.filterMap_cons, List.map_cons]
    cases hfa : f a with
    | none => exact ih.cons (k a)
    | some b =>
      rw [List.map_cons, hf a b hfa]
      exact ih.cons_cons (k a)

end DistinctKeys

/-! ## The first element of least key -/

/-- `Iterator::min_by_key`: the first element of least key. -/
def minByKey (f : γ → Nat) : List γ → Option γ
  | [] => none
  | x :: xs =>
    match minByKey f xs with
    | none => some x
    | some y => if f y < f x then some y else some x

theorem minByKey_eq_none_iff (f : γ → Nat) (l : List γ) : minByKey f l = none ↔ l = [] := by
  cases l with
  | nil => simp [minByKey]
  | cons x xs =>
    simp only [minByKey, reduceCtorEq, iff_false]
    split
    · simp
    · split <;> simp

/-- The least element is an element, and its key is at most every key. -/
theorem minByKey_spec (f : γ → Nat) {l : List γ} {y : γ} (h : minByKey f l = some y) :
    y ∈ l ∧ ∀ x ∈ l, f y ≤ f x := by
  induction l generalizing y with
  | nil => simp [minByKey] at h
  | cons x xs ih =>
    simp only [minByKey] at h
    split at h
    · rename_i hnone
      cases h
      rw [minByKey_eq_none_iff] at hnone
      subst hnone
      simp
    · rename_i z hz
      obtain ⟨hzmem, hzle⟩ := ih hz
      split at h
      · cases h
        refine ⟨List.mem_cons_of_mem _ hzmem, ?_⟩
        intro w hw
        rcases List.mem_cons.mp hw with rfl | hw
        · omega
        · exact hzle w hw
      · cases h
        refine ⟨List.mem_cons_self, ?_⟩
        intro w hw
        rcases List.mem_cons.mp hw with rfl | hw
        · exact Nat.le_refl _
        · have := hzle w hw
          omega

end Maps
