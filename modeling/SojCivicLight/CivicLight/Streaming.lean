import Mathlib.Data.Nat.Find
import SojCivicLight.CivicLight.Sha256
import SojCivicLight.Library.Bits

/-! The streaming interface computes the hash of FIPS 180-4, whose padding is stated on bits. -/

namespace SojCivicLight.CivicLight

open SojCivicLight.Library

theorem exists_fipsZeros (len : Nat) : ∃ k, (len + 1 + k) % 512 = 448 :=
  ⟨960 - (len + 1) % 512, by omega⟩

/-- The least solution of `len + 1 + k ≡ 448 (mod 512)`. -/
def fipsZeros (len : Nat) : Nat := Nat.find (exists_fipsZeros len)

/-- A one, zeros, and the length as 64 bits behind the message. -/
def fipsPadded (message : List Bool) : List Bool :=
  message ++ true :: List.replicate (fipsZeros message.length) false ++
    bitsBE 64 message.length

/-- The hash of FIPS 180-4, with the block transform left open. -/
def fipsDigest (T : Transform) (message : List UInt8) : List UInt8 :=
  stateBytes (shaBlocks T sha256Iv (bitsToBytes (fipsPadded (bytesToBits message))))

/-- The padded message consists of whole blocks. -/
theorem length_fipsPadded (message : List Bool) : 512 ∣ (fipsPadded message).length := by
  have hzeros : (message.length + 1 + fipsZeros message.length) % 512 = 448 :=
    Nat.find_spec (exists_fipsZeros message.length)
  rw [fipsPadded, List.length_append, List.length_append, List.length_cons,
    List.length_replicate, length_bitsBE]
  omega

theorem fipsZeros_bytes (n : Nat) : fipsZeros (8 * n) = 7 + 8 * ((119 - n % 64) % 64) := by
  refine (Nat.find_eq_iff _).mpr ⟨by omega, fun k hk => ?_⟩
  omega

theorem bitsBE_toUInt8 (w : UInt64) (s : Nat) (hs : s < 64) :
    bitsBE 8 (w >>> UInt64.ofNat s).toUInt8.toNat = bitsBE 8 (w.toNat >>> s) := by
  have hshift : (UInt64.ofNat s).toNat % 64 = s := by
    rw [UInt64.toNat_ofNat']
    omega
  rw [UInt64.toNat_toUInt8, UInt64.toNat_shiftRight, hshift, bitsBE_mod (Nat.le_refl 8)]

theorem bytesToBits_beBytes64 (w : UInt64) : bytesToBits (beBytes64 w) = bitsBE 64 w.toNat := by
  have hlow : bitsBE 8 w.toUInt8.toNat = bitsBE 8 w.toNat := by
    rw [UInt64.toNat_toUInt8, bitsBE_mod (Nat.le_refl 8)]
  have byte : ∀ s < 64, bitsBE 8 (w >>> UInt64.ofNat s).toUInt8.toNat = bitsBE 8 (w.toNat >>> s) :=
    fun s hs => bitsBE_toUInt8 w s hs
  calc bytesToBits (beBytes64 w)
      = bitsBE 8 (w >>> UInt64.ofNat 56).toUInt8.toNat ++
        (bitsBE 8 (w >>> UInt64.ofNat 48).toUInt8.toNat ++
        (bitsBE 8 (w >>> UInt64.ofNat 40).toUInt8.toNat ++
        (bitsBE 8 (w >>> UInt64.ofNat 32).toUInt8.toNat ++
        (bitsBE 8 (w >>> UInt64.ofNat 24).toUInt8.toNat ++
        (bitsBE 8 (w >>> UInt64.ofNat 16).toUInt8.toNat ++
        (bitsBE 8 (w >>> UInt64.ofNat 8).toUInt8.toNat ++
        (bitsBE 8 w.toUInt8.toNat ++ []))))))) := rfl
    _ = bitsBE 64 w.toNat := by
        rw [byte 56 (by decide), byte 48 (by decide), byte 40 (by decide), byte 32 (by decide),
          byte 24 (by decide), byte 16 (by decide), byte 8 (by decide), hlow, List.append_nil,
          ← bitsBE_add, ← bitsBE_add 8 16, ← bitsBE_add 8 24, ← bitsBE_add 8 32,
          ← bitsBE_add 8 40, ← bitsBE_add 8 48, ← bitsBE_add 8 56]

/-- The bytes `sha256_final` adds are the padding of the standard. -/
theorem bytesToBits_shaPadded {message : List UInt8} (hlen : message.length < 2 ^ 61) :
    bytesToBits (shaPadded message) = fipsPadded (bytesToBits message) := by
  have hbits : (UInt64.ofNat message.length <<< 3).toNat = 8 * message.length := by
    rw [UInt64.toNat_shiftLeft, UInt64.toNat_ofNat', show (3 : UInt64).toNat % 64 = 3 from rfl,
      Nat.shiftLeft_eq]
    omega
  have hmark : bytesToBits (List.replicate 1 0x80) = true :: List.replicate 7 false := rfl
  rw [shaPadded, shaPadding, bytesToBits_append, bytesToBits_append, bytesToBits_append, hmark,
    bytesToBits_zeros, bytesToBits_beBytes64, hbits, fipsPadded, length_bytesToBits,
    fipsZeros_bytes, ← List.replicate_append_replicate]
  simp only [List.cons_append, List.append_assoc]

theorem shaDigest_eq (T : Transform) {message : List UInt8} (hlen : message.length < 2 ^ 61) :
    shaDigest T message = fipsDigest T message := by
  rw [shaDigest, fipsDigest, ← bytesToBits_shaPadded hlen, bitsToBytes_bytesToBits]

theorem streams_updates {T : Transform} {taken : List UInt8} {ctx : Sha256Context}
    (h : Streams T taken ctx) (chunks : List (List UInt8)) :
    Streams T (taken ++ chunks.flatten) (chunks.foldl (sha256Update T) ctx) := by
  induction chunks generalizing taken ctx with
  | nil =>
      rw [List.flatten_nil, List.append_nil]
      exact h
  | cons chunk chunks ih =>
      rw [List.flatten_cons, ← List.append_assoc]
      exact ih (streams_sha256Update h chunk)

/-- However a message is cut into updates, and whatever the context held before, the result
is the hash of the message. -/
theorem sha256_streaming (T : Transform) (ctx : Sha256Context) (chunks : List (List UInt8))
    (hlen : chunks.flatten.length < 2 ^ 61) :
    sha256Final T (chunks.foldl (sha256Update T) (sha256CtxInit ctx)) =
      fipsDigest T chunks.flatten := by
  have streams := streams_updates (streams_sha256CtxInit T ctx) chunks
  rw [List.nil_append] at streams
  rw [sha256Final_eq streams, shaDigest_eq T hlen]

theorem sha256_streaming_abc :
    let T : Transform := fun state block i =>
      (List.ofFn block).foldl (fun word byte => word * 31 + byte.toUInt32) (state i)
    sha256Final T
        ([[0x61], [], [0x62, 0x63]].foldl (sha256Update T)
          (sha256CtxInit ⟨fun _ => 0xff, fun _ => 7, 5⟩)) =
      fipsDigest T [0x61, 0x62, 0x63] :=
  sha256_streaming _ _ [[0x61], [], [0x62, 0x63]] (by decide)

end SojCivicLight.CivicLight
