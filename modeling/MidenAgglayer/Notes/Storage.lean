import MidenAgglayer.Framework.Limbs
import MidenAgglayer.Store.State

/-! # Note Storage: Felts and Their Decoders

    Miden notes carry their inputs as field elements of the Goldilocks
    field. The agglayer notes pack every EVM value into them the same way:
    a byte string is cut into 4-byte chunks, each read as a little-endian
    `u32` (`bytes_to_packed_u32_elements`), and a `u32` network id is stored
    byte-swapped (`u32::from_le_bytes(n.to_be_bytes())`).

    This module holds the two decoders of that packing that `src/` has for
    the bridge-out and GER notes:

    * `parse_b2agg_storage` (`src/bridge_out.rs`): the destination network
      and address of a `B2AggNote`;
    * `ger_bytes_from_storage` (`src/restore.rs`): the 32-byte GER of an
      `UpdateGerNote`.

    The storage builders live in the upstream `miden-base-agglayer` crate,
    outside `src/`; `b2aggStorage` and `exitRootElements` state the packing
    above, which the decoders' own comments pin, as their model.
-/

open Bytes

namespace Notes

/-! ## Section 1: Felts -/

/-- The Goldilocks prime `2^64 - 2^32 + 1`, the order of Miden's base
    field. -/
def goldilocksPrime : Nat := 2 ^ 64 - 2 ^ 32 + 1

/-- A `Felt`, by its canonical representative (`as_canonical_u64`). -/
structure Felt where
  val : Nat
  lt : val < goldilocksPrime
  deriving DecidableEq

/-- `Felt::from(u32)`. -/
def Felt.ofU32 (v : UInt32) : Felt :=
  ⟨v.toNat, lt_of_lt_of_le v.toNat_lt (by decide)⟩

@[simp] theorem Felt.val_ofU32 (v : UInt32) : (Felt.ofU32 v).val = v.toNat := rfl

/-! ## Section 2: The upstream packing -/

/-- `bytes_to_packed_u32_elements`: each 4-byte chunk as a little-endian
    `u32` felt. -/
def packedU32Elements (bs : List UInt8) : List Felt :=
  (packLimbs bs).map fun x => Felt.ofU32 (UInt32.ofNat x)

/-- The storage of a `B2AggNote` bridging out to `(destinationNetwork,
    destinationAddress)`: the byte-swapped network, then the address's five
    limbs (`EthAddress::to_elements`). -/
def b2aggStorage (destinationNetwork : UInt32) (destinationAddress : Address) : List Felt :=
  Felt.ofU32 (u32SwapBytes destinationNetwork) :: packedU32Elements destinationAddress.toList

/-- `ExitRoot::to_elements`, the storage of an `UpdateGerNote`: the GER's
    eight limbs. -/
def exitRootElements (ger : B256) : List Felt := packedU32Elements ger.toList

theorem val_packedU32Elements (bs : List UInt8) :
    (packedU32Elements bs).map Felt.val = packLimbs bs := by
  rw [packedU32Elements, List.map_map]
  conv_rhs => rw [← List.map_id (packLimbs bs)]
  apply List.map_congr_left
  intro x hx
  exact toNat_ofNat_of_lt (packLimbs_lt bs x hx)

@[simp] theorem length_packedU32Elements (bs : List UInt8) :
    (packedU32Elements bs).length = (packLimbs bs).length := by
  simp [packedU32Elements]

/-- The limbs of a whole number of chunks decode to the bytes they pack. -/
theorem limbBytes_packedU32Elements (i : Nat) {bs : List UInt8} (h : 4 ∣ bs.length) :
    limbBytes i ((packedU32Elements bs).map Felt.val) = .ok bs := by
  rw [val_packedU32Elements, limbBytes_of_lt i (packLimbs_lt bs), flatMap_leBytes_packLimbs h]

/-! ## Section 3: The decoders -/

/-- The failures of `parse_b2agg_storage`. -/
inductive B2aggStorageError where
  | tooShort (got : Nat)
  | networkOverflow
  | addressLimbOverflow
  deriving DecidableEq, Repr

/-- The `anyhow` message of each failure. -/
def B2aggStorageError.message : B2aggStorageError → String
  | .tooShort got =>
    "B2AGG note storage too short: expected ≥6 felts (1 network + 5 address limbs), got " ++
      toString got
  | .networkOverflow => "destination_network overflow: felt value exceeds u32::MAX"
  | .addressLimbOverflow => "address limb overflow: felt value exceeds u32::MAX"

/-- `parse_b2agg_storage`: the network from felt 0, undoing the byte swap,
    and the address from felts 1‥5, each written back as four
    little-endian bytes. -/
def parseB2aggStorage (items : List Felt) : Except B2aggStorageError (UInt32 × Address) :=
  if h : items.length < 6 then .error (.tooShort items.length)
  else
    match u32TryFrom items[0].val with
    | none => .error .networkOverflow
    | some rawNetwork =>
      let destinationNetwork := u32SwapBytes rawNetwork
      -- the limb loop: `address[i*4..(i+1)*4] = limb.to_le_bytes()`, `?` on each limb
      match limbBytes 0 (((items.drop 1).take 5).map Felt.val) with
      | .error _ => .error .addressLimbOverflow
      | .ok address => .ok (destinationNetwork, fill 20 address)

/-- `ger_bytes_from_storage`: the first eight felts, each written back as
    four little-endian bytes; a felt that is no `u32` fails with its
    index. -/
def gerBytesFromStorage (items : List Felt) : Except Nat B256 :=
  (limbBytes 0 ((items.take 8).map Felt.val)).map (fill 32)

/-! ## Section 4: Round trips -/

/-- A bridge-out's storage decodes to the network and address it was built
    from. -/
theorem parseB2aggStorage_b2aggStorage (destinationNetwork : UInt32) (destinationAddress : Address) :
    parseB2aggStorage (b2aggStorage destinationNetwork destinationAddress) =
      .ok (destinationNetwork, destinationAddress) := by
  have hlen : (packLimbs destinationAddress.toList).length = 5 :=
    length_packLimbs_of_length (by simp)
  have hlimbs : limbBytes 0 ((((b2aggStorage destinationNetwork destinationAddress).drop 1).take 5).map
      Felt.val) = .ok destinationAddress.toList := by
    rw [b2aggStorage, List.drop_one, List.tail_cons,
      List.take_of_length_le (by simp [hlen]), limbBytes_packedU32Elements 0 (by simp)]
  have hshort : ¬ (b2aggStorage destinationNetwork destinationAddress).length < 6 := by
    simp [b2aggStorage, hlen]
  rw [parseB2aggStorage, dif_neg hshort]
  simp only [b2aggStorage, List.getElem_cons_zero, Felt.val_ofU32, u32TryFrom_toNat]
  rw [← b2aggStorage, hlimbs]
  simp only [u32SwapBytes_u32SwapBytes, fill_eq_of_toList]

/-- An `UpdateGerNote`'s storage decodes to its GER. -/
theorem gerBytesFromStorage_exitRootElements (ger : B256) :
    gerBytesFromStorage (exitRootElements ger) = .ok ger := by
  have hlen : (packLimbs ger.toList).length = 8 := length_packLimbs_of_length (by simp)
  rw [gerBytesFromStorage, exitRootElements, List.take_of_length_le (by simp [hlen]),
    limbBytes_packedU32Elements 0 (by simp)]
  exact congrArg Except.ok (fill_eq_of_toList ger)

/-! ## Section 5: Failures -/

/-- `parse_b2agg_storage` fails exactly on a storage of fewer than six
    felts, or when one of the six it reads is no `u32`. -/
theorem parseB2aggStorage_isOk_eq_false_iff (items : List Felt) :
    (parseB2aggStorage items).isOk = false ↔
      items.length < 6 ∨ ∃ f ∈ items.take 6, 2 ^ 32 ≤ f.val := by
  by_cases hshort : items.length < 6
  · simp [parseB2aggStorage, hshort, Except.isOk, Except.toBool]
  · obtain ⟨network, limbs, rfl⟩ : ∃ network limbs, items = network :: limbs :=
      List.exists_cons_of_length_pos (by omega)
    have htake : (network :: limbs).take 6 = network :: limbs.take 5 := rfl
    rw [parseB2aggStorage, dif_neg hshort, htake]
    simp only [hshort, false_or, List.mem_cons, exists_eq_or_imp, List.getElem_cons_zero,
      List.drop_one, List.tail_cons]
    cases hnet : u32TryFrom network.val with
    | none =>
      have hbig := u32TryFrom_eq_none_iff.mp hnet
      simp only [Except.isOk, Except.toBool, true_iff]
      exact Or.inl hbig
    | some rawNetwork =>
      have hsmall := (u32TryFrom_eq_some_iff.mp hnet).1
      -- only the address limbs are left to fail
      have hlimbs := limbBytes_isOk_eq_false_iff 0 ((limbs.take 5).map Felt.val)
      simp only [List.mem_map, exists_exists_and_eq_and] at hlimbs
      simp only [show ¬ 2 ^ 32 ≤ network.val by omega, false_or]
      rw [← hlimbs]
      cases limbBytes 0 ((limbs.take 5).map Felt.val) <;> rfl

/-- `ger_bytes_from_storage` fails exactly when one of the (at most eight)
    felts it reads is no `u32`. -/
theorem gerBytesFromStorage_isOk_eq_false_iff (items : List Felt) :
    (gerBytesFromStorage items).isOk = false ↔ ∃ f ∈ items.take 8, 2 ^ 32 ≤ f.val := by
  have hmap : (gerBytesFromStorage items).isOk = (limbBytes 0 ((items.take 8).map Felt.val)).isOk := by
    rw [gerBytesFromStorage]
    cases limbBytes 0 ((items.take 8).map Felt.val) <;> rfl
  rw [hmap, limbBytes_isOk_eq_false_iff]
  simp only [List.mem_map, exists_exists_and_eq_and]

/-- **Note-storage decoders invert their encoders.** For every `u32`
    destination network and 20-byte address, `parse_b2agg_storage` of the
    `B2AggNote` storage built from them returns them; for every 32-byte GER,
    `ger_bytes_from_storage` of `ExitRoot::to_elements` returns it; and each
    decoder fails exactly when a felt it reads exceeds `u32::MAX` (or, for
    B2AGG, the storage has fewer than six felts). -/
theorem note_storage_decoders_invert :
    (∀ (n : UInt32) (a : Address), parseB2aggStorage (b2aggStorage n a) = .ok (n, a)) ∧
    (∀ g : B256, gerBytesFromStorage (exitRootElements g) = .ok g) ∧
    (∀ items : List Felt, (parseB2aggStorage items).isOk = false ↔
      items.length < 6 ∨ ∃ f ∈ items.take 6, 2 ^ 32 ≤ f.val) ∧
    (∀ items : List Felt, (gerBytesFromStorage items).isOk = false ↔
      ∃ f ∈ items.take 8, 2 ^ 32 ≤ f.val) :=
  ⟨parseB2aggStorage_b2aggStorage, gerBytesFromStorage_exitRootElements,
    parseB2aggStorage_isOk_eq_false_iff, gerBytesFromStorage_isOk_eq_false_iff⟩

end Notes
