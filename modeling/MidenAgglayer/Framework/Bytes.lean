import Mathlib.Data.Nat.Digits.Lemmas

/-! # Bytes, Big-Endian Words and Hexadecimal Text

    The byte-level vocabulary of an EVM-facing service:

    * `B256`, a 32-byte word (hashes, roots, indices), usable as a hash-map key;
    * `beBytes w n` and `beValue`, the fixed-width big-endian encoding of a
      natural number and its reading (`to_be_bytes` / `from_be_bytes`);
    * `HexCodec`, a byte-string-to-text codec that carries its own
      round-trip law, and `HexCodec.lower`, the lowercase codec that
      satisfies it.
-/

/-- Byte vectors hash through their underlying array. -/
instance instHashableByteVector {n : Nat} : Hashable (Vector UInt8 n) := ⟨fun v => hash v.toArray⟩

/-- A 32-byte word. -/
abbrev B256 := Vector UInt8 32

namespace Bytes

/-! ## Big-endian words -/

/-- The `w`-byte big-endian encoding of `n` (its low `w` bytes). -/
def beBytes : Nat → Nat → List UInt8
  | 0, _ => []
  | w + 1, n => beBytes w (n / 256) ++ [UInt8.ofNat (n % 256)]

/-- The number a big-endian byte string denotes. -/
def beValue (bs : List UInt8) : Nat :=
  bs.foldl (fun acc b => acc * 256 + b.toNat) 0

@[simp] theorem length_beBytes (w n : Nat) : (beBytes w n).length = w := by
  induction w generalizing n with
  | zero => rfl
  | succ w ih => simp [beBytes, ih]

theorem beValue_append_byte (bs : List UInt8) (b : UInt8) :
    beValue (bs ++ [b]) = beValue bs * 256 + b.toNat := by
  simp [beValue, List.foldl_append]

/-- Reading back a big-endian encoding gives the number modulo `256 ^ w`. -/
theorem beValue_beBytes (w n : Nat) : beValue (beBytes w n) = n % 256 ^ w := by
  induction w generalizing n with
  | zero => simp [beBytes, beValue, Nat.mod_one]
  | succ w ih =>
    have hb : (UInt8.ofNat (n % 256)).toNat = n % 256 := by simp
    -- the last byte is `n % 256`, the bytes before it encode `n / 256`
    have hsplit : n % (256 * 256 ^ w) = n % 256 + 256 * (n / 256 % 256 ^ w) := Nat.mod_mul
    rw [beBytes, beValue_append_byte, ih, hb, Nat.pow_succ', hsplit]
    omega

theorem beValue_beBytes_of_lt {w n : Nat} (h : n < 256 ^ w) : beValue (beBytes w n) = n := by
  rw [beValue_beBytes, Nat.mod_eq_of_lt h]

theorem beBytes_zero (k : Nat) : beBytes k 0 = List.replicate k 0 := by
  induction k with
  | zero => rfl
  | succ k ih =>
    rw [beBytes, Nat.zero_div, ih, List.replicate_succ']
    rfl

/-! ## Hexadecimal text -/

/-- A codec between byte strings and text whose decoder reads back every
    encoding, the contract of the `hex` crate's `encode` / `decode`. -/
structure HexCodec where
  encode : List UInt8 → String
  decode : String → Option (List UInt8)
  decode_encode : ∀ bs, decode (encode bs) = some bs

/-- The digit of a value below sixteen, lowercase. -/
def hexDigit (d : Nat) : Char :=
  if d < 10 then Char.ofNat (48 + d) else Char.ofNat (87 + d)

/-- The value of a hexadecimal digit of either case. -/
def hexValue (c : Char) : Option Nat :=
  if '0' ≤ c ∧ c ≤ '9' then some (c.toNat - 48)
  else if 'a' ≤ c ∧ c ≤ 'f' then some (c.toNat - 87)
  else if 'A' ≤ c ∧ c ≤ 'F' then some (c.toNat - 55)
  else none

/-- Two digits for each byte, high half first. -/
def hexChars : List UInt8 → List Char
  | [] => []
  | b :: bs => hexDigit (b.toNat / 16) :: hexDigit (b.toNat % 16) :: hexChars bs

/-- Reads digit pairs back into bytes; an odd count or a non-digit fails. -/
def unhexChars : List Char → Option (List UInt8)
  | [] => some []
  | [_] => none
  | hi :: lo :: rest =>
    match hexValue hi, hexValue lo, unhexChars rest with
    | some h, some l, some bs => some (UInt8.ofNat (16 * h + l) :: bs)
    | _, _, _ => none

theorem hexValue_hexDigit {d : Nat} (h : d < 16) : hexValue (hexDigit d) = some d := by
  -- sixteen digits, each read back by the range it falls in
  rcases d with _ | _ | _ | _ | _ | _ | _ | _ | _ | _ | _ | _ | _ | _ | _ | _ | d
  all_goals first | rfl | omega

theorem unhexChars_hexChars (bs : List UInt8) : unhexChars (hexChars bs) = some bs := by
  induction bs with
  | nil => rfl
  | cons b bs ih =>
    have hb := b.toNat_lt
    have hhi : hexValue (hexDigit (b.toNat / 16)) = some (b.toNat / 16) :=
      hexValue_hexDigit (by omega)
    have hlo : hexValue (hexDigit (b.toNat % 16)) = some (b.toNat % 16) :=
      hexValue_hexDigit (by omega)
    have hbyte : UInt8.ofNat (16 * (b.toNat / 16) + b.toNat % 16) = b := by
      rw [show 16 * (b.toNat / 16) + b.toNat % 16 = b.toNat by omega]
      exact UInt8.ofNat_toNat
    simp [hexChars, unhexChars, hhi, hlo, ih, hbyte]

/-- The lowercase hexadecimal codec. -/
def HexCodec.lower : HexCodec where
  encode bs := String.ofList (hexChars bs)
  decode s := unhexChars s.toList
  decode_encode bs := by simp [unhexChars_hexChars]

end Bytes
