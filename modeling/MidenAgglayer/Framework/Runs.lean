import Mathlib.Data.List.TakeWhile

/-! # Runs of Equal Keys

    A loop that walks a list and at each position takes the longest run of
    elements whose key equals the first one's

        let mut end = idx + 1;
        while end < len && key(l[end]) == key(l[idx]) { end += 1 }
        let run = &l[idx..end]; idx = end;

    cuts the list into its runs. `runsBy key l` is the list of runs, each
    as its first element and the rest.

    * The runs, concatenated, are the list (`flatMap_runsBy`).
    * Every element of a run has the run's key (`key_eq_of_mem_run`).
    * When the list is sorted by the key under a lawful comparator, a run is
      every element of its key, in list order (`run_eq_filter`): no key is
      cut into two runs.
-/

namespace Runs

variable {α κ : Type*} [DecidableEq κ] (key : α → κ)

/-- The runs of a list, each as its first element and the rest. -/
def runsBy : List α → List (α × List α)
  | [] => []
  | x :: rest =>
    (x, rest.takeWhile fun y => key y = key x) :: runsBy (rest.dropWhile fun y => key y = key x)
termination_by l => l.length
decreasing_by
  have hle := List.length_dropWhile_le (p := fun y => decide (key y = key x)) rest
  simp only [List.length_cons]
  omega

@[simp] theorem runsBy_nil : runsBy key ([] : List α) = [] := by
  rw [runsBy]

theorem runsBy_cons (x : α) (rest : List α) :
    runsBy key (x :: rest) =
      (x, rest.takeWhile fun y => key y = key x) :: runsBy key (rest.dropWhile fun y => key y = key x) := by
  rw [runsBy]

/-- The runs, concatenated, are the list. -/
theorem flatMap_runsBy (l : List α) : (runsBy key l).flatMap (fun r => r.1 :: r.2) = l := by
  induction l using runsBy.induct key with
  | case1 => simp
  | case2 x rest ih =>
    rw [runsBy_cons, List.flatMap_cons, ih, List.cons_append, List.takeWhile_append_dropWhile]

/-- The first element of a run is an element of the list. -/
theorem fst_mem_of_mem_runsBy {l : List α} {r : α × List α} (hr : r ∈ runsBy key l) : r.1 ∈ l := by
  rw [← flatMap_runsBy key l]
  exact List.mem_flatMap.mpr ⟨r, hr, List.mem_cons_self⟩

/-- Every element of a run has the run's key. -/
theorem key_eq_of_mem_run {l : List α} {r : α × List α} (hr : r ∈ runsBy key l) {y : α}
    (hy : y ∈ r.2) : key y = key r.1 := by
  induction l using runsBy.induct key with
  | case1 => simp at hr
  | case2 x rest ih =>
    rw [runsBy_cons, List.mem_cons] at hr
    rcases hr with rfl | hr
    · simpa using List.mem_takeWhile_imp hy
    · exact ih hr

section Sorted

variable {cmp : κ → κ → Ordering} [Std.TransCmp cmp] [Std.LawfulEqCmp cmp]

/-- In a list sorted by key whose keys are all at least `k`, every element
    after the first one of another key has another key too. -/
theorem filter_dropWhile_eq_nil (k : κ) :
    ∀ l : List α, l.Pairwise (fun a b => (cmp (key a) (key b)).isLE) →
      (∀ y ∈ l, (cmp k (key y)).isLE) →
      (l.dropWhile fun y => key y = k).filter (fun y => key y = k) = []
  | [], _, _ => rfl
  | y :: l, hsorted, hge => by
    by_cases hy : key y = k
    · rw [List.dropWhile_cons_of_pos (by simpa using hy)]
      exact filter_dropWhile_eq_nil k l (List.pairwise_cons.mp hsorted).2
        fun z hz => hge z (List.mem_cons_of_mem y hz)
    · -- `y` is above `k`, and so is everything after it
      rw [List.dropWhile_cons_of_neg (by simpa using hy), List.filter_eq_nil_iff]
      have hlt : cmp k (key y) = .lt := by
        have hle := hge y List.mem_cons_self
        cases hc : cmp k (key y) with
        | lt => rfl
        | eq => exact absurd (Std.LawfulEqCmp.eq_of_compare hc).symm hy
        | gt => simp [hc] at hle
      intro z hz
      rcases List.mem_cons.mp hz with rfl | hz
      · simpa using hy
      · have hyz := (List.pairwise_cons.mp hsorted).1 z hz
        have hkz : cmp k (key z) = .lt := Std.TransCmp.lt_of_lt_of_isLE hlt hyz
        intro hzk
        simp only [decide_eq_true_eq] at hzk
        have hrefl : cmp k k = .eq := Std.ReflCmp.compare_self
        rw [hzk, hrefl] at hkz
        cases hkz

/-- **Runs of a sorted list.** When the list is sorted by key, a run is
    every element of its key, in list order. -/
theorem run_eq_filter {l : List α} (hsorted : l.Pairwise fun a b => (cmp (key a) (key b)).isLE)
    {r : α × List α} (hr : r ∈ runsBy key l) : r.1 :: r.2 = l.filter fun y => key y = key r.1 := by
  induction l using runsBy.induct key with
  | case1 => simp at hr
  | case2 x rest ih =>
    obtain ⟨hx, hrest⟩ := List.pairwise_cons.mp hsorted
    have hdrop := filter_dropWhile_eq_nil key (key x) rest hrest hx
    have hsplit := List.takeWhile_append_dropWhile (p := fun y => decide (key y = key x)) (l := rest)
    -- the run of `x` takes every element of its key
    have htake : (rest.takeWhile fun y => key y = key x) = rest.filter fun y => key y = key x := by
      have h := congrArg (List.filter fun y => decide (key y = key x)) hsplit
      have hall : ∀ y ∈ rest.takeWhile (fun y => decide (key y = key x)), decide (key y = key x) = true :=
        fun y hy => List.mem_takeWhile_imp (p := fun y => decide (key y = key x)) hy
      rw [List.filter_append, hdrop, List.append_nil, List.filter_eq_self.mpr hall] at h
      exact h
    rw [runsBy_cons, List.mem_cons] at hr
    rcases hr with rfl | hr
    · simp [htake]
    · -- a later run has a key other than `x`'s, none of whose elements is in `x`'s run
      have hsorted' := List.Pairwise.sublist (List.dropWhile_sublist (fun y => decide (key y = key x))) hrest
      have hne : key r.1 ≠ key x := by
        intro heq
        have hmem : r.1 ∈ (rest.dropWhile fun y => key y = key x).filter fun y => key y = key x :=
          List.mem_filter.mpr ⟨fst_mem_of_mem_runsBy key hr, by simpa using heq⟩
        rw [hdrop] at hmem
        cases hmem
      have hnone : ((rest.takeWhile fun y => key y = key x).filter fun y => key y = key r.1) = [] := by
        rw [List.filter_eq_nil_iff]
        intro y hy hyr
        simp only [decide_eq_true_eq] at hyr
        exact hne (hyr ▸ (by simpa using List.mem_takeWhile_imp hy))
      have h := congrArg (List.filter fun y => decide (key y = key r.1)) hsplit
      rw [List.filter_append, hnone, List.nil_append] at h
      rw [ih hsorted' hr, List.filter_cons_of_neg (by simpa using Ne.symm hne), h]

end Sorted

end Runs
