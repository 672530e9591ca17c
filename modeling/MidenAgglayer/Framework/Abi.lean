import MidenAgglayer.Framework.Bytes

/-! # The Solidity ABI Encoding of Flat Tuples

    `abi.encode` of a tuple whose components are `uintN`, `address`, `bool`
    and `bytes`, the types of the bridge's events and calls. Each component
    has a one-word head; a static component's head is its value, a `bytes`
    component's head is the byte offset of its tail, counted from the start
    of the tuple. The tails follow the heads in order: the length word, the
    data, and zero padding to a word boundary.

    Besides the definitions: the width lemmas for big-endian numbers in a
    word (`replicate_append_beBytes`), and the length of the heads, with
    which any fixed window of an encoding can be located.
-/

namespace Bytes

/-- Splitting a big-endian encoding: the high `k` bytes encode the number
    shifted right by the low `w` bytes. -/
theorem beBytes_add (k w n : Nat) : beBytes (k + w) n = beBytes k (n / 256 ^ w) ++ beBytes w n := by
  induction w generalizing n with
  | zero => simp [beBytes]
  | succ w ih =>
    have hdiv : n / 256 / 256 ^ w = n / 256 ^ (w + 1) := by
      rw [Nat.div_div_eq_div_mul, Nat.pow_succ', Nat.mul_comm]
    rw [← Nat.add_assoc, beBytes, ih, hdiv, beBytes, List.append_assoc]

/-- A number that fits in `w` bytes, zero-extended on the left. -/
theorem replicate_append_beBytes {w n : Nat} (k : Nat) (h : n < 256 ^ w) :
    List.replicate k 0 ++ beBytes w n = beBytes (k + w) n := by
  rw [beBytes_add, Nat.div_eq_of_lt h, beBytes_zero]

end Bytes

namespace Abi

open Bytes

/-! ## Section 1: Words -/

/-- One 32-byte word holding `n`, big-endian. -/
def word (n : Nat) : List UInt8 := beBytes 32 n

@[simp] theorem length_word (n : Nat) : (word n).length = 32 := length_beBytes 32 n

/-- A `w`-byte number in a word: zeros, then its `w` bytes. -/
theorem word_eq_replicate_append {w n : Nat} (hw : w ≤ 32) (h : n < 256 ^ w) :
    word n = List.replicate (32 - w) 0 ++ beBytes w n := by
  rw [replicate_append_beBytes _ h, Nat.sub_add_cancel hw]
  rfl

/-- The zero padding that brings `len` bytes to a word boundary. -/
def padLength (len : Nat) : Nat := (len + 31) / 32 * 32 - len

/-- The window of `k` bytes at `n` in a concatenation whose front is `n`
    long and whose middle is `k` long is its middle. -/
theorem drop_take_append {α : Type} {front mid back : List α} {n k : Nat}
    (hn : front.length = n) (hk : mid.length = k) : ((front ++ mid ++ back).drop n).take k = mid := by
  subst hn hk
  simp

/-! ## Section 2: Values and the tuple encoding -/

/-- A component of a flat tuple. -/
inductive Value where
  | uint (bits n : Nat)
  | address (bytes : List UInt8)
  | bool (b : Bool)
  | bytes (data : List UInt8)
  deriving DecidableEq, Repr

/-- A component's value fits its type. -/
def Value.WellTyped : Value → Prop
  | .uint bits n => bits ≤ 256 ∧ n < 2 ^ bits
  | .address a => a.length = 20
  | .bool _ => True
  | .bytes d => d.length < 2 ^ 256

/-- The tail of a component: for `bytes`, its length word, its data and the
    padding; nothing for a static component. -/
def Value.tail : Value → List UInt8
  | .bytes d => word d.length ++ d ++ List.replicate (padLength d.length) 0
  | _ => []

/-- The head of a component whose tail starts at `offset`. -/
def Value.head (offset : Nat) : Value → List UInt8
  | .uint _ n => word n
  | .address a => List.replicate 12 0 ++ a
  | .bool b => word (if b then 1 else 0)
  | .bytes _ => word offset

/-- The heads of the components, the first tail starting at `offset`. -/
def heads (offset : Nat) : List Value → List UInt8
  | [] => []
  | v :: vs => v.head offset ++ heads (offset + v.tail.length) vs

/-- `abi.encode` of a flat tuple: the heads, then the tails, the first tail
    right after the heads. -/
def encode (vs : List Value) : List UInt8 :=
  heads (32 * vs.length) vs ++ vs.flatMap Value.tail

@[simp] theorem heads_nil (offset : Nat) : heads offset [] = [] := rfl

@[simp] theorem heads_cons (offset : Nat) (v : Value) (vs : List Value) :
    heads offset (v :: vs) = v.head offset ++ heads (offset + v.tail.length) vs := rfl

@[simp] theorem tail_uint (bits n : Nat) : (Value.uint bits n).tail = [] := rfl
@[simp] theorem tail_address (a : List UInt8) : (Value.address a).tail = [] := rfl
@[simp] theorem tail_bool (b : Bool) : (Value.bool b).tail = [] := rfl

theorem Value.length_head {v : Value} (hv : v.WellTyped) (offset : Nat) :
    (v.head offset).length = 32 := by
  cases v with
  | address a =>
    simp only [Value.WellTyped] at hv
    simp [Value.head, hv]
  | uint | bool | bytes => simp [Value.head]

theorem length_heads {vs : List Value} (hvs : ∀ v ∈ vs, v.WellTyped) (offset : Nat) :
    (heads offset vs).length = 32 * vs.length := by
  induction vs generalizing offset with
  | nil => rfl
  | cons v vs ih =>
    rw [heads_cons, List.length_append, Value.length_head (hvs v List.mem_cons_self),
      ih (fun w hw => hvs w (List.mem_cons_of_mem _ hw)), List.length_cons]
    ring

/-- The tail of a byte string is a whole number of words. -/
theorem length_tail_bytes (d : List UInt8) :
    (Value.bytes d).tail.length = 32 + (d.length + 31) / 32 * 32 := by
  have hround : d.length ≤ (d.length + 31) / 32 * 32 := by omega
  simp only [Value.tail, padLength, List.length_append, length_word, List.length_replicate]
  omega

end Abi
