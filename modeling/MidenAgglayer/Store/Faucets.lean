import MidenAgglayer.Store.State

/-! # The Faucet Registry

    The `faucets` field of `InMemoryStore` (`src/store/memory.rs`), a vector
    of `FaucetEntry`s, and the three calls on it: `register_faucet` and the
    two lookups `get_faucet_by_origin` and `get_faucet_by_id`. No other
    modelled operation reads or writes it, so the registry is its own state
    here.

    `register_faucet` has three branches:

    * an entry with the same faucet id exists: a different origin is refused
      (the registry is left alone); the same origin refreshes the symbol,
      the decimals and the scale, and the metadata unless the new one is
      empty (Cantina #13);
    * another faucet already owns the origin route: first write wins, and
      the call succeeds without a write (finding #10);
    * otherwise the entry is appended.

    Account ids are any type with decidable equality.
-/

namespace Store

variable {A : Type} [DecidableEq A]

/-- `FaucetEntry`. -/
structure FaucetEntry (A : Type) where
  faucetId : A
  originAddress : Address
  originNetwork : Nat
  symbol : String
  originDecimals : UInt8
  midenDecimals : UInt8
  scale : UInt8
  metadata : List UInt8
  deriving DecidableEq

/-- The origin route of a faucet: `(origin_address, origin_network)`. -/
def FaucetEntry.origin (e : FaucetEntry A) : Address × Nat := (e.originAddress, e.originNetwork)

/-- The failure of `register_faucet`: "faucet {id} is already registered for
    origin (network {existing}); refusing to rebind it to a different origin
    (network {new})". -/
inductive FaucetError (A : Type) where
  | originRebind (faucetId : A) (existingNetwork newNetwork : Nat)
  deriving DecidableEq

/-- The refresh of an existing faucet by a re-registration: the mutable
    fields, and the metadata only when the new one is non-empty. -/
def FaucetEntry.refresh (existing entry : FaucetEntry A) : FaucetEntry A :=
  { existing with
    symbol := entry.symbol
    originDecimals := entry.originDecimals
    midenDecimals := entry.midenDecimals
    scale := entry.scale
    metadata := if entry.metadata.isEmpty then existing.metadata else entry.metadata }

/-- `faucets.iter_mut().find(|f| f.faucet_id == entry.faucet_id)` followed by
    the refresh of the entry found. -/
def refreshFirst (entry : FaucetEntry A) : List (FaucetEntry A) → List (FaucetEntry A)
  | [] => []
  | f :: fs => if f.faucetId = entry.faucetId then f.refresh entry :: fs else f :: refreshFirst entry fs

/-- `register_faucet`. -/
def registerFaucet (entry : FaucetEntry A) (faucets : List (FaucetEntry A)) :
    List (FaucetEntry A) × Except (FaucetError A) Unit :=
  match faucets.find? (fun f => f.faucetId = entry.faucetId) with
  | some existing =>
    if existing.originAddress ≠ entry.originAddress ∨ existing.originNetwork ≠ entry.originNetwork then
      (faucets, .error (.originRebind entry.faucetId existing.originNetwork entry.originNetwork))
    else (refreshFirst entry faucets, .ok ())
  | none =>
    if faucets.any fun f =>
        f.originAddress = entry.originAddress ∧ f.originNetwork = entry.originNetwork then
      (faucets, .ok ())
    else (faucets ++ [entry], .ok ())

/-- `get_faucet_by_origin`. -/
def getFaucetByOrigin (originAddress : Address) (originNetwork : Nat)
    (faucets : List (FaucetEntry A)) : Option (FaucetEntry A) :=
  faucets.find? fun f => f.originAddress = originAddress ∧ f.originNetwork = originNetwork

/-- `get_faucet_by_id`. -/
def getFaucetById (faucetId : A) (faucets : List (FaucetEntry A)) : Option (FaucetEntry A) :=
  faucets.find? fun f => f.faucetId = faucetId

/-! ## The refresh -/

omit [DecidableEq A] in
@[simp] theorem FaucetEntry.refresh_faucetId (existing entry : FaucetEntry A) :
    (existing.refresh entry).faucetId = existing.faucetId := rfl

omit [DecidableEq A] in
@[simp] theorem FaucetEntry.refresh_origin (existing entry : FaucetEntry A) :
    (existing.refresh entry).origin = existing.origin := rfl

omit [DecidableEq A] in
/-- A refresh keeps a non-empty metadata non-empty. -/
theorem FaucetEntry.refresh_metadata_ne_nil {existing : FaucetEntry A} (entry : FaucetEntry A)
    (h : existing.metadata ≠ []) : (existing.refresh entry).metadata ≠ [] := by
  unfold FaucetEntry.refresh
  by_cases he : entry.metadata.isEmpty = true
  · simpa [he] using h
  · -- the new metadata replaces the old one only when it is non-empty
    rw [if_neg he]
    intro hnil
    exact he (List.isEmpty_iff.mpr hnil)

@[simp] theorem map_faucetId_refreshFirst (entry : FaucetEntry A) (faucets : List (FaucetEntry A)) :
    (refreshFirst entry faucets).map FaucetEntry.faucetId = faucets.map FaucetEntry.faucetId := by
  induction faucets with
  | nil => rfl
  | cons f fs ih =>
    unfold refreshFirst
    split <;> simp [ih]

@[simp] theorem map_origin_refreshFirst (entry : FaucetEntry A) (faucets : List (FaucetEntry A)) :
    (refreshFirst entry faucets).map FaucetEntry.origin = faucets.map FaucetEntry.origin := by
  induction faucets with
  | nil => rfl
  | cons f fs ih =>
    unfold refreshFirst
    split <;> simp [ih]

/-- Every entry after a refresh is an old entry or the refresh of one. -/
theorem mem_refreshFirst {entry e' : FaucetEntry A} {faucets : List (FaucetEntry A)}
    (h : e' ∈ refreshFirst entry faucets) : ∃ e ∈ faucets, e' = e ∨ e' = e.refresh entry := by
  induction faucets with
  | nil => simp [refreshFirst] at h
  | cons f fs ih =>
    unfold refreshFirst at h
    split at h
    · rcases List.mem_cons.mp h with rfl | h
      · exact ⟨f, List.mem_cons_self, .inr rfl⟩
      · exact ⟨e', List.mem_cons_of_mem _ h, .inl rfl⟩
    · rcases List.mem_cons.mp h with rfl | h
      · exact ⟨e', List.mem_cons_self, .inl rfl⟩
      · obtain ⟨e, he, heq⟩ := ih h
        exact ⟨e, List.mem_cons_of_mem _ he, heq⟩

/-- Every old entry survives a refresh, as itself or refreshed. -/
theorem exists_mem_refreshFirst {entry e : FaucetEntry A} {faucets : List (FaucetEntry A)}
    (h : e ∈ faucets) : ∃ e' ∈ refreshFirst entry faucets, e' = e ∨ e' = e.refresh entry := by
  induction faucets with
  | nil => simp at h
  | cons f fs ih =>
    unfold refreshFirst
    split
    · rcases List.mem_cons.mp h with rfl | h
      · exact ⟨e.refresh entry, List.mem_cons_self, .inr rfl⟩
      · exact ⟨e, List.mem_cons_of_mem _ h, .inl rfl⟩
    · rcases List.mem_cons.mp h with rfl | h
      · exact ⟨e, List.mem_cons_self, .inl rfl⟩
      · obtain ⟨e', he', heq⟩ := ih h
        exact ⟨e', List.mem_cons_of_mem _ he', heq⟩

/-! ## What a registration can do -/

/-- `register_faucet` refuses a rebind without a write, refreshes an entry
    of the same id and origin, leaves the registry alone on a taken origin,
    or appends an entry whose id and origin are both new. -/
theorem registerFaucet_cases (entry : FaucetEntry A) (faucets : List (FaucetEntry A)) :
    (∃ existing ∈ faucets, existing.faucetId = entry.faucetId ∧ existing.origin ≠ entry.origin ∧
      (registerFaucet entry faucets).1 = faucets ∧ (registerFaucet entry faucets).2.isOk = false) ∨
    (∃ existing ∈ faucets, existing.faucetId = entry.faucetId ∧ existing.origin = entry.origin ∧
      (registerFaucet entry faucets).1 = refreshFirst entry faucets) ∨
    (registerFaucet entry faucets).1 = faucets ∨
    ((∀ f ∈ faucets, f.faucetId ≠ entry.faucetId ∧ f.origin ≠ entry.origin) ∧
      (registerFaucet entry faucets).1 = faucets ++ [entry]) := by
  unfold registerFaucet
  cases hfind : faucets.find? (fun f => f.faucetId = entry.faucetId) with
  | some existing =>
    have hmem := List.mem_of_find?_eq_some hfind
    have hid : existing.faucetId = entry.faucetId := by simpa using List.find?_some hfind
    by_cases hrebind : existing.originAddress ≠ entry.originAddress ∨
        existing.originNetwork ≠ entry.originNetwork
    · left
      refine ⟨existing, hmem, hid, ?_, by simp [hrebind], by simp [hrebind, Except.isOk,
        Except.toBool]⟩
      intro horigin
      simp only [FaucetEntry.origin, Prod.mk.injEq] at horigin
      exact hrebind.elim (· horigin.1) (· horigin.2)
    · right; left
      refine ⟨existing, hmem, hid, ?_, by simp [hrebind]⟩
      simp only [not_or, not_not] at hrebind
      simp [FaucetEntry.origin, hrebind.1, hrebind.2]
  | none =>
    right; right
    by_cases htaken : (faucets.any fun f =>
        f.originAddress = entry.originAddress ∧ f.originNetwork = entry.originNetwork) = true
    · left
      have htaken' : ∃ f ∈ faucets,
          f.originAddress = entry.originAddress ∧ f.originNetwork = entry.originNetwork := by
        simpa using htaken
      simp [htaken']
    · right
      have hfree : ¬ ∃ f ∈ faucets,
          f.originAddress = entry.originAddress ∧ f.originNetwork = entry.originNetwork := by
        simpa using htaken
      refine ⟨?_, by simp [hfree]⟩
      intro f hf
      have hid := List.find?_eq_none.mp hfind f hf
      have horigin := List.any_eq_false.mp (Bool.eq_false_iff.mpr htaken) f hf
      refine ⟨by simpa using hid, ?_⟩
      intro h
      simp only [FaucetEntry.origin, Prod.mk.injEq] at h
      exact horigin (by simp [h.1, h.2])

end Store
