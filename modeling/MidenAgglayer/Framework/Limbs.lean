import MidenAgglayer.Framework.Bytes

/-! # Little-Endian Limbs

    How a field-element VM carries byte strings: cut into 32-bit limbs, each
    limb the little-endian reading of four bytes.

    * `leBytes w n` and `leValue`, the little-endian counterparts of
      `beBytes` and `beValue`: the big-endian bytes reversed;
    * `byteSwap w n`, the number whose little-endian bytes are the big-endian
      bytes of `n` (Rust's `from_le_bytes(n.to_be_bytes())`, and equally
      `from_be_bytes(n.to_le_bytes())`), an involution on `w`-byte numbers;
    * `u32TryFrom`, `u32::try_from` of a wider number, and
      `u32SaturatingAdd`, `u32::saturating_add`;
    * `packLimbs`, consecutive 4-byte chunks read as little-endian limbs;
      `limbBytes`, the checked inverse that writes each limb back as its
      four little-endian bytes and fails at the first limb that does not fit
      in 32 bits, with its index;
    * `fill n bs`, a zeroed `n`-byte array with `bs` copied over its front;
    * `drop_take_flatMap`, the window of one value in a run of values laid
      out as blocks of the same width.
-/

namespace Bytes

/-! ## Section 1: Little-endian words -/

/-- The `w`-byte little-endian encoding of `n` (`to_le_bytes`). -/
def leBytes (w n : Nat) : List UInt8 := (beBytes w n).reverse

/-- The number a little-endian byte string denotes (`from_le_bytes`). -/
def leValue (bs : List UInt8) : Nat := beValue bs.reverse

@[simp] theorem length_leBytes (w n : Nat) : (leBytes w n).length = w := by
  simp [leBytes]

theorem leValue_leBytes (w n : Nat) : leValue (leBytes w n) = n % 256 ^ w := by
  simp [leValue, leBytes, beValue_beBytes]

theorem beValue_lt (bs : List UInt8) : beValue bs < 256 ^ bs.length := by
  induction bs using List.reverseRecOn with
  | nil => exact Nat.one_pos
  | append_singleton bs b ih =>
    have hb := b.toNat_lt
    rw [beValue_append_byte, List.length_append, List.length_singleton, Nat.pow_succ]
    -- the front contributes at most `256 ^ |bs| - 1` units of 256
    have hstep : beValue bs * 256 + b.toNat < (beValue bs + 1) * 256 := by omega
    have hmul : (beValue bs + 1) * 256 ≤ 256 ^ bs.length * 256 := Nat.mul_le_mul_right _ ih
    exact lt_of_lt_of_le hstep hmul

theorem leValue_lt (bs : List UInt8) : leValue bs < 256 ^ bs.length := by
  simpa [leValue] using beValue_lt bs.reverse

/-- Reading a byte string and writing it back at its own width gives it
    back. -/
theorem beBytes_beValue (bs : List UInt8) : beBytes bs.length (beValue bs) = bs := by
  induction bs using List.reverseRecOn with
  | nil => rfl
  | append_singleton bs b ih =>
    have hb := b.toNat_lt
    have hdiv : (beValue bs * 256 + b.toNat) / 256 = beValue bs := by omega
    have hmod : UInt8.ofNat ((beValue bs * 256 + b.toNat) % 256) = b := by
      rw [show (beValue bs * 256 + b.toNat) % 256 = b.toNat by omega]
      exact UInt8.ofNat_toNat
    rw [List.length_append, List.length_singleton, beValue_append_byte, beBytes, hdiv, hmod, ih]

/-- Only the low `w` bytes are encoded. -/
theorem beBytes_mod (w n : Nat) : beBytes w (n % 256 ^ w) = beBytes w n := by
  have h := beBytes_beValue (beBytes w n)
  rwa [length_beBytes, beValue_beBytes] at h

/-- The encoding is all zero exactly when `n` is a multiple of `256 ^ w`. -/
theorem beBytes_eq_replicate_zero_iff (w n : Nat) :
    beBytes w n = List.replicate w 0 ↔ n % 256 ^ w = 0 := by
  constructor
  · intro h
    have hvalue := beValue_beBytes w n
    rw [h, ← beBytes_zero, beValue_beBytes, Nat.zero_mod] at hvalue
    exact hvalue.symm
  · intro h
    rw [← beBytes_mod, h, beBytes_zero]

/-- Some byte of the encoding is nonzero exactly when `n` is not a multiple
    of `256 ^ w`. -/
theorem any_beBytes_ne_zero (w n : Nat) :
    (beBytes w n).any (· != 0) = decide (n % 256 ^ w ≠ 0) := by
  have hzero := beBytes_eq_replicate_zero_iff w n
  rw [List.eq_replicate_iff] at hzero
  simp only [length_beBytes, true_and] at hzero
  -- some byte is nonzero exactly when the encoding is not all zero
  rw [Bool.eq_iff_iff, List.any_eq_true, decide_eq_true_iff, Ne, ← hzero]
  simp

theorem leBytes_leValue (bs : List UInt8) : leBytes bs.length (leValue bs) = bs := by
  have h := beBytes_beValue bs.reverse
  rw [List.length_reverse] at h
  rw [leBytes, leValue, h, List.reverse_reverse]

/-! ## Section 2: Byte swaps -/

/-- `from_le_bytes(n.to_be_bytes())` at width `w`. -/
def byteSwap (w n : Nat) : Nat := leValue (beBytes w n)

theorem byteSwap_lt (w n : Nat) : byteSwap w n < 256 ^ w := by
  simpa [byteSwap] using leValue_lt (beBytes w n)

/-- The swap the other way round, `from_be_bytes(n.to_le_bytes())`, is the
    same function. -/
theorem beValue_leBytes (w n : Nat) : beValue (leBytes w n) = byteSwap w n := rfl

theorem byteSwap_byteSwap {w n : Nat} (h : n < 256 ^ w) : byteSwap w (byteSwap w n) = n := by
  have hback : beBytes w (byteSwap w n) = (beBytes w n).reverse := by
    have h' := beBytes_beValue (beBytes w n).reverse
    rwa [List.length_reverse, length_beBytes] at h'
  rw [byteSwap, hback, leValue, List.reverse_reverse, beValue_beBytes_of_lt h]

/-! ## Section 3: Rust's `u32` conversions and arithmetic -/

/-- `u32::try_from` of a wider unsigned number. -/
def u32TryFrom (x : Nat) : Option UInt32 :=
  if x < 2 ^ 32 then some (UInt32.ofNat x) else none

theorem toNat_ofNat_of_lt {x : Nat} (h : x < 2 ^ 32) : (UInt32.ofNat x).toNat = x :=
  UInt32.toNat_ofNat_of_lt' (lt_of_lt_of_eq h rfl)

theorem u32TryFrom_eq_some_iff {x : Nat} {v : UInt32} :
    u32TryFrom x = some v ↔ x < 2 ^ 32 ∧ v.toNat = x := by
  unfold u32TryFrom
  split_ifs with hx
  · rw [Option.some.injEq]
    constructor
    · rintro rfl
      exact ⟨hx, toNat_ofNat_of_lt hx⟩
    · rintro ⟨-, rfl⟩
      exact UInt32.ofNat_toNat
  · simp only [false_iff, not_and]
    intro h
    exact absurd h hx

theorem u32TryFrom_eq_none_iff {x : Nat} : u32TryFrom x = none ↔ 2 ^ 32 ≤ x := by
  unfold u32TryFrom
  split_ifs with hx
  · simp only [false_iff]
    omega
  · simp only [true_iff]
    omega

theorem u32TryFrom_toNat (v : UInt32) : u32TryFrom v.toNat = some v :=
  u32TryFrom_eq_some_iff.mpr ⟨v.toNat_lt, rfl⟩

/-- `u32::saturating_add`. -/
def u32SaturatingAdd (a b : UInt32) : UInt32 :=
  if a.toNat + b.toNat < 2 ^ 32 then a + b else UInt32.ofNat (2 ^ 32 - 1)

theorem toNat_u32SaturatingAdd (a b : UInt32) :
    (u32SaturatingAdd a b).toNat = min (a.toNat + b.toNat) (2 ^ 32 - 1) := by
  unfold u32SaturatingAdd
  split_ifs with h
  · rw [UInt32.toNat_add, Nat.mod_eq_of_lt h]
    omega
  · rw [toNat_ofNat_of_lt (by norm_num)]
    omega

/-- `u32::from_le_bytes(v.to_be_bytes())`. -/
def u32SwapBytes (v : UInt32) : UInt32 := UInt32.ofNat (byteSwap 4 v.toNat)

theorem toNat_u32SwapBytes (v : UInt32) : (u32SwapBytes v).toNat = byteSwap 4 v.toNat :=
  toNat_ofNat_of_lt (lt_of_lt_of_eq (byteSwap_lt 4 v.toNat) (by norm_num))

@[simp] theorem u32SwapBytes_u32SwapBytes (v : UInt32) : u32SwapBytes (u32SwapBytes v) = v := by
  apply UInt32.toNat_inj.mp
  rw [toNat_u32SwapBytes, toNat_u32SwapBytes, byteSwap_byteSwap (by simpa using v.toNat_lt)]

/-! ## Section 4: Packed limbs -/

/-- Consecutive 4-byte chunks, each read as a little-endian number; a short
    last chunk is read as it is (as if zero-padded). -/
def packLimbs : List UInt8 → List Nat
  | b₀ :: b₁ :: b₂ :: b₃ :: rest => leValue [b₀, b₁, b₂, b₃] :: packLimbs rest
  | [] => []
  | [b₀] => [leValue [b₀]]
  | [b₀, b₁] => [leValue [b₀, b₁]]
  | [b₀, b₁, b₂] => [leValue [b₀, b₁, b₂]]

theorem packLimbs_lt (bs : List UInt8) : ∀ x ∈ packLimbs bs, x < 2 ^ 32 := by
  -- every limb reads at most four bytes
  have hle : ∀ l : List UInt8, l.length ≤ 4 → leValue l < 2 ^ 32 := fun l hl =>
    lt_of_lt_of_le (leValue_lt l)
      (le_trans (Nat.pow_le_pow_right (by norm_num) hl) (by norm_num))
  induction bs using packLimbs.induct with
  | case1 b₀ b₁ b₂ b₃ rest ih =>
    intro x hx
    rcases List.mem_cons.mp hx with rfl | hx
    · exact hle _ (by simp)
    · exact ih x hx
  | case2 => simp [packLimbs]
  | case3 b₀ => simpa [packLimbs] using hle [b₀] (by simp)
  | case4 b₀ b₁ => simpa [packLimbs] using hle [b₀, b₁] (by simp)
  | case5 b₀ b₁ b₂ => simpa [packLimbs] using hle [b₀, b₁, b₂] (by simp)

theorem length_packLimbs_of_length {bs : List UInt8} {k : Nat} (h : bs.length = 4 * k) :
    (packLimbs bs).length = k := by
  induction bs using packLimbs.induct generalizing k with
  | case1 b₀ b₁ b₂ b₃ rest ih =>
    simp only [List.length_cons] at h
    have hrest : rest.length = 4 * (k - 1) := by omega
    simp only [packLimbs, List.length_cons, @ih (k - 1) hrest]
    omega
  | case2 => simp at h; simp [packLimbs]; omega
  | case3 | case4 | case5 => simp at h; omega

/-- Writing back every limb as four little-endian bytes recovers a byte
    string whose length is a multiple of four. -/
theorem flatMap_leBytes_packLimbs {bs : List UInt8} (h : 4 ∣ bs.length) :
    (packLimbs bs).flatMap (leBytes 4) = bs := by
  induction bs using packLimbs.induct with
  | case1 b₀ b₁ b₂ b₃ rest ih =>
    have hchunk : leBytes 4 (leValue [b₀, b₁, b₂, b₃]) = [b₀, b₁, b₂, b₃] :=
      leBytes_leValue [b₀, b₁, b₂, b₃]
    have hrest : 4 ∣ rest.length := by simp at h; omega
    simp [packLimbs, hchunk, ih hrest]
  | case2 => rfl
  | case3 | case4 | case5 => simp at h

/-- Each limb, checked to fit in 32 bits and written back as its four
    little-endian bytes; the first limb that does not fit fails with its
    index, counted from `i`. -/
def limbBytes : Nat → List Nat → Except Nat (List UInt8)
  | _, [] => .ok []
  | i, x :: xs =>
    match u32TryFrom x with
    | none => .error i
    | some v => (leBytes 4 v.toNat ++ ·) <$> limbBytes (i + 1) xs

/-- Limbs that fit come back as their bytes. -/
theorem limbBytes_of_lt (i : Nat) {xs : List Nat} (h : ∀ x ∈ xs, x < 2 ^ 32) :
    limbBytes i xs = .ok (xs.flatMap (leBytes 4)) := by
  induction xs generalizing i with
  | nil => rfl
  | cons x xs ih =>
    have hv : (UInt32.ofNat x).toNat = x := toNat_ofNat_of_lt (h x List.mem_cons_self)
    have hx : u32TryFrom x = some (UInt32.ofNat x) :=
      u32TryFrom_eq_some_iff.mpr ⟨h x List.mem_cons_self, hv⟩
    rw [limbBytes, hx]
    simp only [ih (i + 1) (fun y hy => h y (List.mem_cons_of_mem _ hy)), hv, List.flatMap_cons]
    rfl

/-- The checked write-back fails exactly when some limb does not fit. -/
theorem limbBytes_isOk_iff (i : Nat) (xs : List Nat) :
    (limbBytes i xs).isOk = true ↔ ∀ x ∈ xs, x < 2 ^ 32 := by
  induction xs generalizing i with
  | nil => simp [limbBytes, Except.isOk, Except.toBool]
  | cons x xs ih =>
    cases hx : u32TryFrom x with
    | none =>
      have hbig := u32TryFrom_eq_none_iff.mp hx
      simp only [limbBytes, hx, Except.isOk, Except.toBool, Bool.false_eq_true, false_iff,
        not_forall]
      exact ⟨x, List.mem_cons_self, by omega⟩
    | some v =>
      have hsmall := (u32TryFrom_eq_some_iff.mp hx).1
      have hrest := ih (i + 1)
      simp only [limbBytes, hx, List.forall_mem_cons, hsmall, true_and]
      rw [← hrest]
      cases limbBytes (i + 1) xs <;> rfl

theorem limbBytes_isOk_eq_false_iff (i : Nat) (xs : List Nat) :
    (limbBytes i xs).isOk = false ↔ ∃ x ∈ xs, 2 ^ 32 ≤ x := by
  rw [Bool.eq_false_iff, ne_eq, limbBytes_isOk_iff]
  simp only [not_forall, not_lt, exists_prop]

/-! ## Section 5: Fixed-size arrays -/

/-- A zeroed `[u8; n]` with the bytes `bs` copied over its front (extra
    bytes are cut off). -/
def fill (n : Nat) (bs : List UInt8) : Vector UInt8 n :=
  Vector.ofFn fun j => bs.getD j.val 0

theorem fill_toList {n : Nat} {bs : List UInt8} (h : bs.length = n) : (fill n bs).toList = bs := by
  subst h
  apply List.ext_getElem (by simp)
  intro j hj _
  simp [fill]

theorem fill_eq_of_toList {n : Nat} (v : Vector UInt8 n) : fill n v.toList = v :=
  Vector.toList_inj.mp (fill_toList (by simp))

/-! ## Section 6: Blocks of one width -/

/-- In values laid out as consecutive blocks of width `k`, the window of
    width `k` at `i * k` is the block of value `i`. -/
theorem drop_take_flatMap {α β : Type*} {f : α → List β} {k : Nat} (hf : ∀ a, (f a).length = k)
    (l : List α) (rest : List β) {i : Nat} (hi : i < l.length) :
    ((l.flatMap f ++ rest).drop (i * k)).take k = f l[i] := by
  induction l generalizing i with
  | nil => simp at hi
  | cons a l ih =>
    cases i with
    | zero =>
      rw [List.flatMap_cons, Nat.zero_mul, List.drop_zero, List.append_assoc,
        List.take_left' (hf a)]
      rfl
    | succ i =>
      -- the first block is exactly `k` wide: step over it
      have hdrop : (f a ++ l.flatMap f ++ rest).drop ((i + 1) * k) =
          (l.flatMap f ++ rest).drop (i * k) := by
        rw [List.append_assoc, Nat.succ_mul, Nat.add_comm, ← List.drop_drop, List.drop_left' (hf a)]
      rw [List.flatMap_cons, hdrop]
      exact ih (by simpa using hi)

end Bytes
