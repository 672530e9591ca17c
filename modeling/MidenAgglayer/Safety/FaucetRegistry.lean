import MidenAgglayer.Store.Faucets
import MidenAgglayer.Framework.Maps
import MidenAgglayer.Framework.Run

/-! # The Faucet Registry Is a Map in Both Directions

    Over every sequence of `register_faucet` calls from the empty registry
    (first claims, admin registration, restore and metadata backfill, in any
    order):

    * no two entries share a faucet id, and no two share an origin route
      (`RegistryInv`);
    * an entry, once registered, stays, with its origin unchanged and with a
      non-empty metadata kept non-empty (`registerFaucet_keeps`);
    * a re-registration of a registered id with another origin fails and
      writes nothing (`registerFaucet_rebind`);
    * `get_faucet_by_origin` finds exactly the entry of a route, and
      `get_faucet_by_id` of that entry's id finds it again.
-/

open Maps

namespace Store

variable {A : Type} [DecidableEq A]

/-! ## Section 1: The invariant -/

/-- Faucet ids and origin routes are both keys of the registry. -/
structure RegistryInv (faucets : List (FaucetEntry A)) : Prop where
  ids_nodup : (faucets.map FaucetEntry.faucetId).Nodup
  origins_nodup : (faucets.map FaucetEntry.origin).Nodup

omit [DecidableEq A] in
theorem registryInv_nil : RegistryInv ([] : List (FaucetEntry A)) :=
  ⟨List.nodup_nil, List.nodup_nil⟩

/-- Every registration keeps both keys distinct: a refresh changes neither
    key, and an append happens only for a new id on a free route. -/
theorem RegistryInv.register {faucets : List (FaucetEntry A)} (h : RegistryInv faucets)
    (entry : FaucetEntry A) : RegistryInv (registerFaucet entry faucets).1 := by
  rcases registerFaucet_cases entry faucets with
    ⟨_, _, _, _, hrefused, _⟩ | ⟨_, _, _, _, hrefresh⟩ | hsame | ⟨hfresh, happend⟩
  · rwa [hrefused]
  · rw [hrefresh]
    exact ⟨by simpa using h.ids_nodup, by simpa using h.origins_nodup⟩
  · rwa [hsame]
  · rw [happend]
    refine ⟨?_, ?_⟩
    · simpa [List.nodup_append, h.ids_nodup] using fun f hf => (hfresh f hf).1
    · simpa [List.nodup_append, h.origins_nodup] using fun f hf => (hfresh f hf).2

/-! ## Section 2: One registration -/

/-- An entry survives a registration with its id and origin, and with its
    metadata non-empty if it was. -/
theorem registerFaucet_keeps (entry : FaucetEntry A) {faucets : List (FaucetEntry A)}
    {e : FaucetEntry A} (he : e ∈ faucets) :
    ∃ e' ∈ (registerFaucet entry faucets).1, e'.faucetId = e.faucetId ∧ e'.origin = e.origin ∧
      (e.metadata ≠ [] → e'.metadata ≠ []) := by
  rcases registerFaucet_cases entry faucets with
    ⟨_, _, _, _, hrefused, _⟩ | ⟨_, _, _, _, hrefresh⟩ | hsame | ⟨_, happend⟩
  · exact ⟨e, by rw [hrefused]; exact he, rfl, rfl, id⟩
  · rw [hrefresh]
    obtain ⟨e', he', rfl | rfl⟩ := @exists_mem_refreshFirst _ _ entry _ _ he
    · exact ⟨e', he', rfl, rfl, id⟩
    · exact ⟨e.refresh entry, he', rfl, rfl, FaucetEntry.refresh_metadata_ne_nil entry⟩
  · exact ⟨e, by rw [hsame]; exact he, rfl, rfl, id⟩
  · exact ⟨e, by rw [happend]; exact List.mem_append_left _ he, rfl, rfl, id⟩

/-- A registered id with another origin: the registration fails and the
    registry is unchanged. -/
theorem registerFaucet_rebind {faucets : List (FaucetEntry A)} (h : RegistryInv faucets)
    {entry e : FaucetEntry A} (he : e ∈ faucets) (hid : e.faucetId = entry.faucetId)
    (horigin : e.origin ≠ entry.origin) :
    (registerFaucet entry faucets).1 = faucets ∧ (registerFaucet entry faucets).2.isOk = false := by
  -- the lookup by id finds `e`, the one entry with that id
  have hfind : faucets.find? (fun f => f.faucetId = entry.faucetId) = some e :=
    (find?_eq_some_iff_of_nodup FaucetEntry.faucetId h.ids_nodup (fun a => by simp)).mpr ⟨he, hid⟩
  have hne : e.originAddress ≠ entry.originAddress ∨ e.originNetwork ≠ entry.originNetwork := by
    by_contra hsame
    simp only [not_or, not_not] at hsame
    exact horigin (by simp [FaucetEntry.origin, hsame.1, hsame.2])
  unfold registerFaucet
  simp [hfind, hne, Except.isOk, Except.toBool]

/-! ## Section 3: Lookups -/

omit [DecidableEq A] in
/-- `get_faucet_by_origin` finds exactly the entry of the route. -/
theorem getFaucetByOrigin_eq_some_iff {faucets : List (FaucetEntry A)} (h : RegistryInv faucets)
    (o : Address) (n : Nat) (e : FaucetEntry A) :
    getFaucetByOrigin o n faucets = some e ↔ e ∈ faucets ∧ e.origin = (o, n) :=
  find?_eq_some_iff_of_nodup FaucetEntry.origin h.origins_nodup
    (fun a => by simp [FaucetEntry.origin])

/-- `get_faucet_by_id` finds every entry by its id. -/
theorem getFaucetById_of_mem {faucets : List (FaucetEntry A)} (h : RegistryInv faucets)
    {e : FaucetEntry A} (he : e ∈ faucets) : getFaucetById e.faucetId faucets = some e :=
  (find?_eq_some_iff_of_nodup FaucetEntry.faucetId h.ids_nodup (fun a => by simp)).mpr ⟨he, rfl⟩

/-! ## Section 4: Every sequence of registrations -/

/-- One `register_faucet` call as a step of a run. -/
def registerStep (faucets : List (FaucetEntry A)) (entry : FaucetEntry A) :
    List (FaucetEntry A) × Except (FaucetError A) Unit :=
  registerFaucet entry faucets

theorem registryInv_final (entries : List (FaucetEntry A)) :
    RegistryInv (Run.final registerStep [] entries) :=
  Run.final_invariant registerStep RegistryInv (fun _ entry h => h.register entry) registryInv_nil
    entries

/-- Entries persist along a run, with their id, origin and non-empty
    metadata. -/
theorem keeps_along (entries : List (FaucetEntry A)) {i j : Nat} (hij : i ≤ j)
    {e : FaucetEntry A} (he : e ∈ Run.final registerStep [] (entries.take i)) :
    ∃ e' ∈ Run.final registerStep [] (entries.take j), e'.faucetId = e.faucetId ∧
      e'.origin = e.origin ∧ (e.metadata ≠ [] → e'.metadata ≠ []) := by
  induction j, hij using Nat.le_induction with
  | base => exact ⟨e, he, rfl, rfl, id⟩
  | succ j hij ih =>
    obtain ⟨e', he', hid, horigin, hmeta⟩ := ih
    by_cases hj : j < entries.length
    · -- one more registration
      rw [Run.final_take_succ registerStep [] entries hj]
      obtain ⟨e'', he'', hid', horigin', hmeta'⟩ := registerFaucet_keeps entries[j] he'
      exact ⟨e'', he'', hid'.trans hid, horigin'.trans horigin, hmeta' ∘ hmeta⟩
    · rw [List.take_of_length_le (by omega)]
      rw [List.take_of_length_le (by omega)] at he'
      exact ⟨e', he', hid, horigin, hmeta⟩

/-- **Faucet registry invariant.** After any prefix of any sequence of
    `register_faucet` calls from the empty registry: faucet ids and origin
    routes are distinct; every entry stays registered later with the same
    id and origin, and a non-empty metadata is never emptied; the next call,
    if it re-registers a registered id with another origin, fails and writes
    nothing; `get_faucet_by_origin(o, n)` returns `e` exactly when `e` is the
    registered entry of route `(o, n)`; and `get_faucet_by_id` returns every
    entry by its id. -/
theorem faucet_registry_invariant (entries : List (FaucetEntry A)) (i : Nat) :
    RegistryInv (Run.final registerStep [] (entries.take i)) ∧
    (∀ j, i ≤ j → ∀ e ∈ Run.final registerStep [] (entries.take i),
      ∃ e' ∈ Run.final registerStep [] (entries.take j), e'.faucetId = e.faucetId ∧
        e'.origin = e.origin ∧ (e.metadata ≠ [] → e'.metadata ≠ [])) ∧
    (∀ (hi : i < entries.length), ∀ e ∈ Run.final registerStep [] (entries.take i),
      e.faucetId = entries[i].faucetId → e.origin ≠ entries[i].origin →
        Run.final registerStep [] (entries.take (i + 1)) =
          Run.final registerStep [] (entries.take i) ∧
        (registerFaucet entries[i] (Run.final registerStep [] (entries.take i))).2.isOk = false) ∧
    (∀ o n e, getFaucetByOrigin o n (Run.final registerStep [] (entries.take i)) = some e ↔
      e ∈ Run.final registerStep [] (entries.take i) ∧ e.origin = (o, n)) ∧
    (∀ e ∈ Run.final registerStep [] (entries.take i),
      getFaucetById e.faucetId (Run.final registerStep [] (entries.take i)) = some e) := by
  have hinv := registryInv_final (entries.take i)
  refine ⟨hinv, fun j hij e he => keeps_along entries hij he, ?_,
    getFaucetByOrigin_eq_some_iff hinv, fun e he => getFaucetById_of_mem hinv he⟩
  intro hi e he hid horigin
  obtain ⟨hsame, hfail⟩ := registerFaucet_rebind hinv he hid horigin
  refine ⟨?_, hfail⟩
  rw [Run.final_take_succ registerStep [] entries hi]
  exact hsame

end Store
