import Mathlib.Data.List.Basic
import Mathlib.Data.Nat.Bitwise
import SojCivicLight.Library.Blocks

/-! Bit strings: the bits of a number and of a string of bytes, high bits first. -/

namespace SojCivicLight.Library

/-- The `n` low bits of a number. -/
def bitsBE : Nat → Nat → List Bool
  | 0, _ => []
  | n + 1, k => k.testBit n :: bitsBE n k

@[simp] theorem length_bitsBE (n k : Nat) : (bitsBE n k).length = n := by
  induction n with
  | zero => rfl
  | succ n ih => rw [bitsBE, List.length_cons, ih]

@[simp] theorem bitsBE_zero (n : Nat) : bitsBE n 0 = List.replicate n false := by
  induction n with
  | zero => rfl
  | succ n ih => rw [bitsBE, ih, Nat.zero_testBit, List.replicate_succ]

theorem bitsBE_add (m n k : Nat) : bitsBE (m + n) k = bitsBE m (k >>> n) ++ bitsBE n k := by
  induction m with
  | zero => rw [Nat.zero_add, bitsBE, List.nil_append]
  | succ m ih =>
      rw [Nat.add_right_comm, bitsBE, bitsBE, ih, Nat.testBit_shiftRight, Nat.add_comm n m,
        List.cons_append]

theorem bitsBE_mod {n m : Nat} (hle : n ≤ m) (k : Nat) : bitsBE n (k % 2 ^ m) = bitsBE n k := by
  induction n with
  | zero => rfl
  | succ n ih =>
      rw [bitsBE, bitsBE, ih (Nat.le_of_succ_le hle), Nat.testBit_mod_two_pow,
        decide_eq_true (show n < m from hle), Bool.true_and]

/-- The number a bit string stands for. -/
def natOfBits (bits : List Bool) : Nat := bits.foldl (fun k bit => 2 * k + bit.toNat) 0

theorem foldl_bitsBE (n k start : Nat) :
    (bitsBE n k).foldl (fun k bit => 2 * k + bit.toNat) start = start * 2 ^ n + k % 2 ^ n := by
  induction n generalizing start with
  | zero => rw [bitsBE, List.foldl_nil, Nat.pow_zero, Nat.mul_one, Nat.mod_one, Nat.add_zero]
  | succ n ih =>
      have split : k % 2 ^ (n + 1) = (k.testBit n).toNat * 2 ^ n + k % 2 ^ n := by
        rw [Nat.mod_pow_succ, Nat.toNat_testBit, Nat.mul_comm, Nat.add_comm]
      have shift : 2 * start * 2 ^ n = start * 2 ^ (n + 1) := by
        rw [Nat.pow_succ, Nat.mul_comm 2 start, Nat.mul_assoc, Nat.mul_comm 2]
      rw [bitsBE, List.foldl_cons, ih, split, Nat.add_mul, shift, Nat.add_assoc]

theorem natOfBits_bitsBE (n k : Nat) : natOfBits (bitsBE n k) = k % 2 ^ n := by
  rw [natOfBits, foldl_bitsBE, Nat.zero_mul, Nat.zero_add]

def bytesToBits (bytes : List UInt8) : List Bool :=
  bytes.flatMap fun byte => bitsBE 8 byte.toNat

def bitsToBytes : List Bool → List UInt8
  | b₇ :: b₆ :: b₅ :: b₄ :: b₃ :: b₂ :: b₁ :: b₀ :: bits =>
      UInt8.ofNat (natOfBits [b₇, b₆, b₅, b₄, b₃, b₂, b₁, b₀]) :: bitsToBytes bits
  | _ => []

@[simp] theorem bytesToBits_nil : bytesToBits [] = [] := rfl

@[simp] theorem bytesToBits_cons (byte : UInt8) (bytes : List UInt8) :
    bytesToBits (byte :: bytes) = bitsBE 8 byte.toNat ++ bytesToBits bytes := rfl

@[simp] theorem bytesToBits_append (xs ys : List UInt8) :
    bytesToBits (xs ++ ys) = bytesToBits xs ++ bytesToBits ys :=
  List.flatMap_append

@[simp] theorem length_bytesToBits (bytes : List UInt8) :
    (bytesToBits bytes).length = 8 * bytes.length := by
  have hbits : ∀ byte : UInt8, (bitsBE 8 byte.toNat).length = 8 := fun byte => length_bitsBE 8 _
  exact length_flatMap_pieces hbits bytes

theorem bitsToBytes_bytesToBits (bytes : List UInt8) :
    bitsToBytes (bytesToBits bytes) = bytes := by
  induction bytes with
  | nil => rfl
  | cons byte bytes ih =>
      have hbyte : UInt8.ofNat (natOfBits (bitsBE 8 byte.toNat)) = byte := by
        rw [natOfBits_bitsBE, Nat.mod_eq_of_lt byte.toNat_lt, UInt8.ofNat_toNat]
      calc bitsToBytes (bytesToBits (byte :: bytes))
          = UInt8.ofNat (natOfBits (bitsBE 8 byte.toNat)) :: bitsToBytes (bytesToBits bytes) := rfl
        _ = byte :: bytes := by rw [hbyte, ih]

theorem bytesToBits_zeros (n : Nat) :
    bytesToBits (List.replicate n 0) = List.replicate (8 * n) false := by
  induction n with
  | zero => rfl
  | succ n ih =>
      rw [List.replicate_succ, bytesToBits_cons, ih, UInt8.toNat_zero, bitsBE_zero,
        List.replicate_append_replicate, Nat.mul_succ, Nat.add_comm]

end SojCivicLight.Library
