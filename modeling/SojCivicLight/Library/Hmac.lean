import Mathlib.Algebra.Group.Nat.Defs
import Mathlib.Data.List.Basic

/-! HMAC over a hash of byte strings, and PBKDF2 over a pseudorandom function. -/

namespace SojCivicLight.Library

/-- The key as a block of `B` bytes. -/
def hmacKey (H : List UInt8 → List UInt8) (B : Nat) (K : List UInt8) : List UInt8 :=
  let K := if B < K.length then H K else K
  K ++ List.replicate (B - K.length) 0

def hmac (H : List UInt8 → List UInt8) (B : Nat) (K text : List UInt8) : List UInt8 :=
  H ((hmacKey H B K).map (· ^^^ 0x5c) ++ H ((hmacKey H B K).map (· ^^^ 0x36) ++ text))

/-- `INT (i)`: four bytes, the high one first. -/
def int32Bytes (i : Nat) : List UInt8 :=
  [UInt8.ofNat (i / 2 ^ 24), UInt8.ofNat (i / 2 ^ 16), UInt8.ofNat (i / 2 ^ 8), UInt8.ofNat i]

section Pbkdf2

variable (prf : List UInt8 → List UInt8) (salt : List UInt8)

/-- `U_(j + 1)` of block `i`. -/
def pbkdf2U (i : Nat) : Nat → List UInt8
  | 0 => prf (salt ++ int32Bytes i)
  | j + 1 => prf (pbkdf2U i j)

/-- `T_i`, the sum of the first `c` of them. -/
def pbkdf2Block (c i : Nat) : List UInt8 :=
  (List.range' 1 (c - 1)).foldl (fun t j => List.zipWith (· ^^^ ·) t (pbkdf2U prf salt i j))
    (pbkdf2U prf salt i 0)

/-- `dkLen` bytes derived from a password, which is the key of `prf`, whose results have
`hLen` bytes. -/
def pbkdf2 (hLen c dkLen : Nat) : List UInt8 :=
  ((List.range ((dkLen + hLen - 1) / hLen)).flatMap fun i =>
    pbkdf2Block prf salt c (i + 1)).take dkLen

end Pbkdf2

section

variable {H : List UInt8 → List UInt8} {B : Nat}

theorem length_hmacKey {K : List UInt8} (hH : (H K).length ≤ B) :
    (hmacKey H B K).length = B := by
  unfold hmacKey
  rw [List.length_append, List.length_replicate]
  split <;> omega

theorem pbkdf2Block_one (prf : List UInt8 → List UInt8) (salt : List UInt8) (i : Nat) :
    pbkdf2Block prf salt 1 i = prf (salt ++ int32Bytes i) := rfl

theorem length_pbkdf2U {prf : List UInt8 → List UInt8} {hLen : Nat}
    (hprf : ∀ text, (prf text).length = hLen) (salt : List UInt8) (i j : Nat) :
    (pbkdf2U prf salt i j).length = hLen := by
  cases j with
  | zero => exact hprf _
  | succ j => exact hprf _

theorem pbkdf2Block_succ (prf : List UInt8 → List UInt8) (salt : List UInt8) {c : Nat} (hc : 0 < c)
    (i : Nat) :
    pbkdf2Block prf salt (c + 1) i =
      List.zipWith (· ^^^ ·) (pbkdf2Block prf salt c i) (pbkdf2U prf salt i c) := by
  obtain ⟨c, rfl⟩ := Nat.exists_eq_add_of_le' hc
  rw [pbkdf2Block, Nat.add_sub_cancel, List.range'_concat, List.foldl_append, Nat.one_mul,
    Nat.add_comm 1 c]
  rfl

theorem length_pbkdf2Block {prf : List UInt8 → List UInt8} {hLen : Nat}
    (hprf : ∀ text, (prf text).length = hLen) (salt : List UInt8) {c : Nat} (hc : 0 < c)
    (i : Nat) : (pbkdf2Block prf salt c i).length = hLen := by
  obtain ⟨c, rfl⟩ := Nat.exists_eq_add_of_le' hc
  induction c with
  | zero => exact hprf _
  | succ c ih =>
      rw [pbkdf2Block_succ prf salt (Nat.succ_pos _), List.length_zipWith, ih (Nat.succ_pos _),
        length_pbkdf2U hprf, Nat.min_self]

/-- Hashes that agree on the key and on what they are used for under it. -/
theorem hmac_congr {H H' : List UInt8 → List UInt8} {B : Nat} {K text : List UInt8}
    (key : H K = H' K)
    (inner : ∀ pad : List UInt8, pad.length = (hmacKey H B K).length →
      H (pad ++ text) = H' (pad ++ text))
    (outer : ∀ pad text' : List UInt8, pad.length = (hmacKey H B K).length →
      H (pad ++ H' text') = H' (pad ++ H' text')) :
    hmac H B K text = hmac H' B K text := by
  have hkey : hmacKey H B K = hmacKey H' B K := by rw [hmacKey, hmacKey, key]
  unfold hmac
  rw [inner _ (List.length_map _), outer _ _ (List.length_map _), hkey]

/-- Functions that agree on what the derivation asks of them. -/
theorem pbkdf2_congr {prf prf' : List UInt8 → List UInt8} {salt : List UInt8} {hLen : Nat}
    (hprf : ∀ text, (prf' text).length = hLen)
    (first : ∀ i, prf (salt ++ int32Bytes i) = prf' (salt ++ int32Bytes i))
    (next : ∀ text : List UInt8, text.length = hLen → prf text = prf' text) (c dkLen : Nat) :
    pbkdf2 prf salt hLen c dkLen = pbkdf2 prf' salt hLen c dkLen := by
  have hU : ∀ i j, pbkdf2U prf salt i j = pbkdf2U prf' salt i j := by
    intro i j
    induction j with
    | zero => exact first i
    | succ j ih => rw [pbkdf2U, pbkdf2U, ih, next _ (length_pbkdf2U hprf salt i j)]
  unfold pbkdf2 pbkdf2Block
  simp only [hU]

end

end SojCivicLight.Library
