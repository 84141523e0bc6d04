import Mathlib.Logic.Function.Iterate
import SojCivicLight.Yespower.Scalar

/-! The kernels of a build without SSE2, and that the ones with SSE2 compute the same. -/

namespace SojCivicLight.Yespower

open SojCivicLight.Library

/-- The block with the words `x`. -/
def Blk.ofWords (x : Nat → UInt32) : Blk :=
  fun k => ⟨x (4 * k.val), x (4 * k.val + 1), x (4 * k.val + 2), x (4 * k.val + 3)⟩

/-- `R(a, b)` -/
def salsaR (a b : UInt32) : UInt32 := (a <<< b) ||| (a >>> (32 - b))

/-- `x[out] ^= R(x[in1] + x[in2], s)` -/
def salsaLine (out in1 in2 : Nat) (s : UInt32) (x : Nat → UInt32) : Nat → UInt32 :=
  Function.update x out (x out ^^^ salsaR (x in1 + x in2) s)

/-- Four lines, which differ from group to group in their indices. -/
def salsaQuarter (a b c d : Nat) (x : Nat → UInt32) : Nat → UInt32 :=
  let x := salsaLine b a d 7 x
  let x := salsaLine c b a 9 x
  let x := salsaLine d c b 13 x
  salsaLine a d c 18 x

def salsaColumns (x : Nat → UInt32) : Nat → UInt32 :=
  let x := salsaQuarter 0 4 8 12 x
  let x := salsaQuarter 5 9 13 1 x
  let x := salsaQuarter 10 14 2 6 x
  salsaQuarter 15 3 7 11 x

def salsaRows (x : Nat → UInt32) : Nat → UInt32 :=
  let x := salsaQuarter 0 1 2 3 x
  let x := salsaQuarter 5 6 7 4 x
  let x := salsaQuarter 10 11 8 9 x
  salsaQuarter 15 12 13 14 x

/-- `salsa20`: what it leaves in both of its blocks. -/
def salsa20 (B : Blk) (doublerounds : Nat) : Blk :=
  let X := salsa20SimdUnshuffle B
  let X := Blk.ofWords ((salsaRows ∘ salsaColumns)^[doublerounds] X.w)
  let Bout := salsa20SimdShuffle X
  Blk.ofWords fun i => Bout.w i + B.w i

/-- `PWXFORM_SIMD(x0, x1)` on the two words of a register. -/
def pwxformWords (m : Region M128) (S0 S1 : Nat) (X : M128) : M128 :=
  let x := X.d0 &&& smask2_1_0
  let p0 := load m (S0 + x.toUInt32.toNat)
  let p1 := load m (S1 + (x >>> 32).toNat)
  .ofQuads (((X.d0 >>> 32) * X.d0.toUInt32.toUInt64 + p0.d0) ^^^ p1.d0)
    (((X.d1 >>> 32) * X.d1.toUInt32.toUInt64 + p0.d1) ^^^ p1.d1)

/-! The forms of `PWXFORM_SIMD` for processors without AVX. -/

/-- `_mm_shuffle_epi32(X, _MM_SHUFFLE(2, 3, 0, 1))` -/
def hi32Shuffle (X : M128) : M128 := mmShuffleEpi32 X 0xb1

/-- 64-bit without AVX: the instructions of the assembly. -/
def pwxformAsm (m : Region M128) (S0 S1 : Nat) (X : M128) : M128 :=
  let rax := X.d0
  let H := hi32Shuffle X
  let rax := rax &&& smask2_1_0
  let X := mmMulEpu32 X H
  let ecx := rax.toUInt32
  let rax := rax >>> 32
  let X := mmAddEpi64 X (load m (S0 + ecx.toNat))
  mmXorSi128 X (load m (S1 + rax.toNat))

/-- 32-bit with SSE4.1 -/
def pwxformSse41 (m : Region M128) (S0 S1 : Nat) (X : M128) : M128 :=
  let mask := M128.ofQuads smask2_1_0 smask2_1_0
  let x : M128 := ⟨X.w0 &&& mask.w0, X.w1 &&& mask.w1, X.w2 &&& mask.w2, X.w3 &&& mask.w3⟩
  let s0 := load m (S0 + x.w0.toNat)
  let s1 := load m (S1 + x.w1.toNat)
  let X := mmMulEpu32 (hi32Shuffle X) X
  mmXorSi128 (mmAddEpi64 X s0) s1

/-- 32-bit without SSE4.1 -/
def pwxformSse2 (m : Region M128) (S0 S1 : Nat) (X : M128) : M128 :=
  let x := (X.w0.toUInt64 ||| ((hi32Shuffle X).w0.toUInt64 <<< 32)) &&& smask2_1_0
  let s0 := load m (S0 + x.toUInt32.toNat)
  let s1 := load m (S1 + (x >>> 32).toNat)
  let X := mmMulEpu32 (hi32Shuffle X) X
  mmXorSi128 (mmAddEpi64 X s0) s1

/-! Salsa20. -/

/-- The two shifts of a rotation have no bit in common. -/
theorem shifts_or_eq_xor {w s : Nat} (hs : s ≤ w) (x : BitVec w) :
    x <<< s ||| x >>> (w - s) = x <<< s ^^^ x >>> (w - s) := by
  ext i hi
  rw [BitVec.getElem_or, BitVec.getElem_xor, BitVec.getElem_shiftLeft, BitVec.getElem_ushiftRight]
  rcases Nat.lt_or_ge i s with hlow | hhigh
  · rw [decide_eq_true hlow, Bool.not_true, Bool.false_and, Bool.false_or, Bool.false_xor]
  · rw [BitVec.getLsbD_of_ge x (w - s + i) (by omega), Bool.or_false, Bool.xor_false]

theorem xor_salsaR (out x : UInt32) {s : UInt32} (hs : s ∈ [7, 9, 13, 18]) :
    out ^^^ salsaR x s = out ^^^ (x <<< s) ^^^ (x >>> (32 - s)) := by
  rw [UInt32.xor_assoc, salsaR]
  congr 1
  apply UInt32.toBitVec_inj.mp
  simp only [List.mem_cons, List.not_mem_nil, or_false] at hs
  rcases hs with rfl | rfl | rfl | rfl
  · exact shifts_or_eq_xor (show 7 ≤ 32 by decide) x.toBitVec
  · exact shifts_or_eq_xor (show 9 ≤ 32 by decide) x.toBitVec
  · exact shifts_or_eq_xor (show 13 ≤ 32 by decide) x.toBitVec
  · exact shifts_or_eq_xor (show 18 ≤ 32 by decide) x.toBitVec

/-- The four registers hold the four diagonals of the words. -/
def diagonals (x : Nat → UInt32) : Blk :=
  ![⟨x 0, x 5, x 10, x 15⟩, ⟨x 4, x 9, x 14, x 3⟩, ⟨x 8, x 13, x 2, x 7⟩, ⟨x 12, x 1, x 6, x 11⟩]

theorem salsa20SimdShuffle_eq (b : Blk) : salsa20SimdShuffle b = diagonals b.w := by
  rfl

theorem diagonals_unshuffle (b : Blk) :
    diagonals (salsa20SimdUnshuffle b).w = b := by
  funext k
  match k with
  | 0 | 1 | 2 | 3 => rfl

theorem arx_eq (out in1 in2 : M128) {s : UInt32} (hs : s ∈ [7, 9, 13, 18]) :
    arx out in1 in2 s =
      ⟨out.w0 ^^^ salsaR (in1.w0 + in2.w0) s, out.w1 ^^^ salsaR (in1.w1 + in2.w1) s,
        out.w2 ^^^ salsaR (in1.w2 + in2.w2) s, out.w3 ^^^ salsaR (in1.w3 + in2.w3) s⟩ := by
  rw [xor_salsaR _ _ hs, xor_salsaR _ _ hs, xor_salsaR _ _ hs, xor_salsaR _ _ hs]
  rfl

theorem salsa20TwoRounds_diagonals (x : Nat → UInt32) :
    salsa20TwoRounds (diagonals x) = diagonals (salsaRows (salsaColumns x)) := by
  unfold salsa20TwoRounds
  simp only [arx_eq _ _ _ (show 7 ∈ [7, 9, 13, 18] by decide),
    arx_eq _ _ _ (show 9 ∈ [7, 9, 13, 18] by decide),
    arx_eq _ _ _ (show 13 ∈ [7, 9, 13, 18] by decide),
    arx_eq _ _ _ (show 18 ∈ [7, 9, 13, 18] by decide)]
  rfl

theorem diagonals_ofWords (x : Nat → UInt32) : diagonals (Blk.ofWords x).w = diagonals x := rfl

theorem ofWords_add (X Y : Blk) (k : Fin 4) :
    Blk.ofWords (fun i => X.w i + Y.w i) k = mmAddEpi32 (X k) (Y k) := by
  match k with
  | 0 | 1 | 2 | 3 => rfl

/-- One double round of the loop is `SALSA20_2`. -/
theorem salsa20_one (B : Blk) : salsa20 B 1 = salsa20Two B := by
  funext k
  rw [salsa20, ofWords_add, salsa20SimdShuffle_eq, diagonals_ofWords, Function.iterate_one,
    Function.comp_apply, ← salsa20TwoRounds_diagonals, diagonals_unshuffle, salsa20Two]

/-! pwxform. -/

namespace M128

theorem quad_toNat (lo hi : UInt32) :
    (lo.toUInt64 ||| (hi.toUInt64 <<< 32)).toNat = 2 ^ 32 * hi.toNat + lo.toNat := by
  have hlo := lo.toNat_lt
  have hhi := hi.toNat_lt
  rw [UInt64.toNat_or, UInt64.toNat_shiftLeft, UInt32.toNat_toUInt64, UInt32.toNat_toUInt64,
    show (32 : UInt64).toNat % 64 = 32 from rfl, Nat.shiftLeft_eq, Nat.mod_eq_of_lt (by omega),
    Nat.or_comm, Nat.mul_comm, ← Nat.two_pow_add_eq_or_of_lt hlo]

theorem quad_split (x : UInt64) :
    x.toUInt32.toUInt64 ||| ((x >>> 32).toUInt32.toUInt64 <<< 32) = x := by
  have hx := x.toNat_lt
  rw [← UInt64.toNat_inj, quad_toNat, UInt64.toNat_toUInt32, UInt64.toNat_toUInt32,
    UInt64.toNat_shiftRight, show (32 : UInt64).toNat % 64 = 32 from rfl,
    Nat.shiftRight_eq_div_pow]
  omega

theorem quad_high (lo hi : UInt32) :
    (lo.toUInt64 ||| (hi.toUInt64 <<< 32)) >>> 32 = hi.toUInt64 := by
  have hlo := lo.toNat_lt
  rw [← UInt64.toNat_inj, UInt64.toNat_shiftRight, quad_toNat, UInt32.toNat_toUInt64,
    show (32 : UInt64).toNat % 64 = 32 from rfl, Nat.shiftRight_eq_div_pow]
  omega

theorem quad_low (lo hi : UInt32) : (lo.toUInt64 ||| (hi.toUInt64 <<< 32)).toUInt32 = lo := by
  have hlo := lo.toNat_lt
  rw [← UInt32.toNat_inj, UInt64.toNat_toUInt32, quad_toNat]
  omega

theorem d0_ofQuads (lo hi : UInt64) : (ofQuads lo hi).d0 = lo := quad_split lo

theorem d1_ofQuads (lo hi : UInt64) : (ofQuads lo hi).d1 = hi := quad_split hi

theorem ofQuads_xor (lo hi : UInt64) (y : M128) :
    mmXorSi128 (ofQuads lo hi) y = ofQuads (lo ^^^ y.d0) (hi ^^^ y.d1) := by
  simp only [ofQuads, mmXorSi128, UInt64.toUInt32_xor, UInt64.shiftRight_xor, d0, d1, quad_low,
    quad_high, UInt32.toUInt32_toUInt64]

end M128

/-- The product, sum and difference of a register are those of its two words. -/
theorem mulAddXor_eq (X p0 p1 : M128) :
    mmXorSi128 (mmAddEpi64 (mmMulEpu32 (hi32 X) X) p0) p1 =
      .ofQuads (((X.d0 >>> 32) * X.d0.toUInt32.toUInt64 + p0.d0) ^^^ p1.d0)
        (((X.d1 >>> 32) * X.d1.toUInt32.toUInt64 + p0.d1) ^^^ p1.d1) := by
  have h0 : X.d0 >>> 32 = X.w1.toUInt64 := M128.quad_high X.w0 X.w1
  have h1 : X.d1 >>> 32 = X.w3.toUInt64 := M128.quad_high X.w2 X.w3
  have l0 : X.d0.toUInt32 = X.w0 := M128.quad_low X.w0 X.w1
  have l1 : X.d1.toUInt32 = X.w2 := M128.quad_low X.w2 X.w3
  rw [mmAddEpi64, mmMulEpu32, M128.d0_ofQuads, M128.d1_ofQuads, M128.ofQuads_xor, h0, h1, l0, l1]
  rfl

theorem high_toUInt32 (x : UInt64) : (x >>> 32).toUInt32.toNat = (x >>> 32).toNat := by
  have hx := x.toNat_lt
  rw [UInt64.toNat_toUInt32, UInt64.toNat_shiftRight, show (32 : UInt64).toNat % 64 = 32 from rfl,
    Nat.shiftRight_eq_div_pow]
  omega

theorem pwxformWords_eq (m : Region M128) (S0 S1 : Nat) (X : M128) :
    pwxformWords m S0 S1 X = pwxformSimd m S0 S1 X := by
  rw [pwxformSimd, mulAddXor_eq, high_toUInt32]
  rfl

theorem hi32Shuffle_mul (X : M128) : mmMulEpu32 (hi32Shuffle X) X = mmMulEpu32 (hi32 X) X := rfl

theorem mul_hi32Shuffle (X : M128) : mmMulEpu32 X (hi32Shuffle X) = mmMulEpu32 (hi32 X) X := by
  rw [mmMulEpu32, mmMulEpu32, UInt64.mul_comm, UInt64.mul_comm X.w2.toUInt64]
  rfl

theorem masked_words (X : M128) :
    (X.d0 &&& smask2_1_0).toUInt32 = X.w0 &&& smask2_1_0.toUInt32 ∧
      ((X.d0 &&& smask2_1_0) >>> 32).toUInt32 = X.w1 &&& (smask2_1_0 >>> 32).toUInt32 := by
  rw [UInt64.shiftRight_and, UInt64.toUInt32_and, UInt64.toUInt32_and, M128.d0, M128.quad_low,
    M128.quad_high, UInt32.toUInt32_toUInt64]
  exact ⟨rfl, rfl⟩

/-- Every form of the macro computes the same, on any register and any tables. -/
theorem pwxform_forms (m : Region M128) (S0 S1 : Nat) (X : M128) :
    pwxformWords m S0 S1 X = pwxformSimd m S0 S1 X ∧
      pwxformAsm m S0 S1 X = pwxformSimd m S0 S1 X ∧
      pwxformSse41 m S0 S1 X = pwxformSimd m S0 S1 X ∧
      pwxformSse2 m S0 S1 X = pwxformSimd m S0 S1 X := by
  obtain ⟨low, high⟩ := masked_words X
  refine ⟨pwxformWords_eq m S0 S1 X, ?_, ?_, ?_⟩
  · unfold pwxformAsm pwxformSimd
    dsimp only
    rw [mul_hi32Shuffle, high_toUInt32]
    rfl
  · unfold pwxformSse41 pwxformSimd extract64
    dsimp only
    rw [low, high, hi32Shuffle_mul]
    rfl
  · unfold pwxformSse2 pwxformSimd
    dsimp only
    rw [hi32Shuffle_mul, high_toUInt32]
    rfl

end SojCivicLight.Yespower
