import Mathlib.Algebra.Field.Rat
import Mathlib.Algebra.Order.Field.Basic
import Mathlib.Algebra.Order.Ring.Rat
import Mathlib.Tactic.FieldSimp
import Mathlib.Tactic.NormNum
import SojCivicLight.Util.Endian

/-! The difficulty of a compact target, in exact arithmetic. -/

namespace SojCivicLight.Util

def shl128 (x s : Nat) : Nat := (x <<< s) % 2 ^ 128

/-- For a zero mantissa, which is not checked here, the source has an infinite quotient. -/
def nbitsToDiff (nbits : UInt32) : ℚ :=
  let shift := (nbits &&& 0xff).toNat
  let bits := (bswap32 nbits &&& 0x00ffffff).toNat
  let shiftOff : Int := shift - 29
  if -13 ≤ shiftOff ∧ shiftOff ≤ 12 then
    if shiftOff = 0 then 0xffff / bits
    else if shiftOff < 0 then shl128 0xffff (-shiftOff * 8).toNat / bits
    else 0xffff / shl128 bits (shiftOff * 8).toNat
  else
    -- one of the two loops runs, both from the zero `diff` starts with
    let diff := (· * 256)^[29 - shift] 0
    (· / 256)^[shift - 29] diff

def nbitsToDiffClean (nbits : UInt32) : ℚ :=
  let shift := (nbits >>> 24).toNat
  let mantissa := (nbits &&& 0x00ffffff).toNat
  if mantissa = 0 then 0
  else
    let maxTargetNbits : UInt32 := 0x1d00ffff
    let maxShift := (maxTargetNbits >>> 24).toNat
    let maxMantissa := (maxTargetNbits &&& 0x00ffffff).toNat
    let difficulty : ℚ := maxMantissa / mantissa
    let shiftDiff : Int := maxShift - shift
    if 0 < shiftDiff then (· * 256)^[shiftDiff.toNat] difficulty
    else if shiftDiff < 0 then (· / 256)^[(-shiftDiff).toNat] difficulty
    else difficulty

/-! What the two compute. -/

def exponentByte (nbits : UInt32) : Nat := (nbits >>> 24).toNat

def mantissa (nbits : UInt32) : Nat := (nbits &&& 0x00ffffff).toNat

/-- The ratio of the target of difficulty one to the target. -/
def compactDifficulty (nbits : UInt32) : ℚ :=
  0xffff * 256 ^ (29 - exponentByte nbits : Int) / mantissa nbits

/-- The shift that the fast path makes for an exponent loses no bit of what is shifted. -/
structure KeepsBits (bits : Nat) (shiftOff : Int) : Prop where
  left : -13 ≤ shiftOff → shiftOff < 0 →
    shl128 0xffff (-shiftOff * 8).toNat = 0xffff * 2 ^ (-shiftOff * 8).toNat
  right : 0 < shiftOff → shiftOff ≤ 12 →
    shl128 bits (shiftOff * 8).toNat = bits * 2 ^ (shiftOff * 8).toNat

theorem bswap32_bswap32 (x : UInt32) : bswap32 (bswap32 x) = x := by
  rw [bswap32, le32enc_bswap32]
  exact le32dec_le32enc x

theorem bswap32_and_ff (x : UInt32) : (bswap32 x &&& 0xff).toNat = exponentByte x := by
  have hlow : (bswap32 x).toUInt8 = (x >>> 24).toUInt8 := by
    have hbytes := le32enc_bswap32 x
    rw [le32enc, be32enc] at hbytes
    exact List.head_eq_of_cons_eq hbytes
  have hexp : exponentByte x < 256 := by
    have := x.toNat_lt
    rw [exponentByte, UInt32.toNat_shiftRight, show (24 : UInt32).toNat % 32 = 24 from rfl,
      Nat.shiftRight_eq_div_pow]
    omega
  calc (bswap32 x &&& 0xff).toNat = (bswap32 x).toNat % 256 := by
        rw [UInt32.toNat_and]
        exact Nat.and_two_pow_sub_one_eq_mod _ 8
    _ = (bswap32 x).toUInt8.toNat := (UInt32.toNat_toUInt8 _).symm
    _ = exponentByte x := by
        rw [hlow, UInt32.toNat_toUInt8]
        exact Nat.mod_eq_of_lt hexp

theorem mantissa_lt (nbits : UInt32) : mantissa nbits < 2 ^ 24 := by
  rw [mantissa, UInt32.toNat_and]
  exact Nat.and_lt_two_pow _ (by decide)

theorem shl128_eq {x s : Nat} (h : x * 2 ^ s < 2 ^ 128) : shl128 x s = x * 2 ^ s := by
  rw [shl128, Nat.shiftLeft_eq, Nat.mod_eq_of_lt h]

theorem keepsBits {bits : Nat} (hbits : bits < 2 ^ 24) (shiftOff : Int) :
    KeepsBits bits shiftOff := by
  constructor
  · intro hlo hneg
    apply shl128_eq
    have hs : (-shiftOff * 8).toNat ≤ 104 := by omega
    calc 0xffff * 2 ^ (-shiftOff * 8).toNat ≤ 0xffff * 2 ^ 104 :=
          Nat.mul_le_mul_left _ (Nat.pow_le_pow_right (by decide) hs)
      _ < 2 ^ 128 := by decide
  · intro hpos hhi
    apply shl128_eq
    have hs : (shiftOff * 8).toNat ≤ 96 := by omega
    calc bits * 2 ^ (shiftOff * 8).toNat ≤ bits * 2 ^ 96 :=
          Nat.mul_le_mul_left _ (Nat.pow_le_pow_right (by decide) hs)
      _ < 2 ^ 24 * 2 ^ 96 := Nat.mul_lt_mul_of_pos_right hbits (by decide)
      _ < 2 ^ 128 := by decide

theorem two_pow_eight_mul (n : Nat) : (2 : ℚ) ^ (n * 8) = 256 ^ n := by
  rw [Nat.mul_comm, pow_mul]
  norm_num

theorem iterate_mul_256 (n : Nat) (x : ℚ) : (· * (256 : ℚ))^[n] x = x * 256 ^ n := by
  rw [mul_right_iterate]

theorem iterate_div_256 (n : Nat) (x : ℚ) : (· / (256 : ℚ))^[n] x = x / 256 ^ n := by
  induction n generalizing x with
  | zero => rw [Function.iterate_zero, id, pow_zero, div_one]
  | succ n ih => rw [Function.iterate_succ, Function.comp, ih, div_div, pow_succ']

theorem compactDifficulty_pos {nbits : UInt32} (hb : mantissa nbits ≠ 0) :
    0 < compactDifficulty nbits := by
  have : (0 : ℚ) < mantissa nbits := Nat.cast_pos.mpr (Nat.pos_of_ne_zero hb)
  exact div_pos (mul_pos (by norm_num) (zpow_pos (by norm_num) _)) this

theorem zpow_of_nonneg {z : Int} (h : 0 ≤ z) : (256 : ℚ) ^ z = 256 ^ z.toNat := by
  obtain ⟨n, rfl⟩ := Int.eq_ofNat_of_zero_le h
  exact zpow_natCast _ n

theorem zpow_of_nonpos {z : Int} (h : z ≤ 0) : (256 : ℚ) ^ z = (256 ^ (-z).toNat)⁻¹ := by
  rw [← zpow_of_nonneg (Int.neg_nonneg_of_nonpos h), zpow_neg, inv_inv]

/-- The loops of `nbits_to_diff_clean` are right for every exponent. -/
theorem nbitsToDiffClean_eq {nbits : UInt32} (hb : mantissa nbits ≠ 0) :
    nbitsToDiffClean nbits = compactDifficulty nbits := by
  have hconst : ((0x1d00ffff : UInt32) >>> 24).toNat = 29 ∧
      ((0x1d00ffff : UInt32) &&& 0x00ffffff).toNat = 0xffff := ⟨rfl, rfl⟩
  unfold nbitsToDiffClean compactDifficulty
  rw [mantissa] at hb ⊢
  simp only [if_neg hb, hconst.1, hconst.2, exponentByte, iterate_mul_256, iterate_div_256]
  generalize hz : ((29 : Nat) : Int) - ((nbits >>> 24).toNat : Int) = z
  rcases lt_trichotomy 0 z with h | h | h
  · rw [if_pos h, zpow_of_nonneg h.le, div_mul_eq_mul_div]
    rfl
  · subst h
    rw [if_neg (lt_irrefl _), if_neg (lt_irrefl _), zpow_zero, mul_one]
    rfl
  · rw [if_neg (not_lt_of_gt h), if_pos h, zpow_of_nonpos h.le, div_right_comm, ← div_eq_mul_inv]
    rfl

/-- The fast path is right, and the slow one, which starts from zero, leaves zero. -/
theorem nbitsToDiff_eq (nbits : UInt32) :
    nbitsToDiff (bswap32 nbits) =
      if 16 ≤ exponentByte nbits ∧ exponentByte nbits ≤ 41 then compactDifficulty nbits
      else 0 := by
  have keeps := keepsBits (mantissa_lt nbits)
  unfold nbitsToDiff compactDifficulty
  simp only [bswap32_and_ff, bswap32_bswap32, iterate_mul_256, iterate_div_256, zero_mul,
    zero_div]
  rw [← mantissa]
  generalize hz : (exponentByte nbits : Int) - 29 = z
  have hexp : (29 : Int) - exponentByte nbits = -z := by omega
  have hrange : 16 ≤ exponentByte nbits ∧ exponentByte nbits ≤ 41 ↔ -13 ≤ z ∧ z ≤ 12 := by omega
  rw [hexp, if_congr hrange rfl rfl]
  by_cases hfast : -13 ≤ z ∧ z ≤ 12
  · rw [if_pos hfast, if_pos hfast]
    rcases lt_trichotomy z 0 with h | h | h
    · have hpow : (2 : ℚ) ^ (-z * 8).toNat = 256 ^ (-z).toNat := by
        rw [← two_pow_eight_mul]
        congr 1
        omega
      rw [if_neg h.ne, if_pos h, (keeps z).left hfast.1 h, Nat.cast_mul, Nat.cast_pow,
        Nat.cast_ofNat, Nat.cast_ofNat, hpow, zpow_of_nonneg (by omega)]
    · subst h
      rw [if_pos rfl, neg_zero, zpow_zero, mul_one]
    · have hpow : (2 : ℚ) ^ (z * 8).toNat = 256 ^ z.toNat := by
        rw [← two_pow_eight_mul]
        congr 1
        omega
      rw [if_neg h.ne', if_neg (not_lt_of_gt h), (keeps z).right h hfast.2, Nat.cast_mul,
        Nat.cast_pow, Nat.cast_ofNat, hpow, zpow_of_nonpos (by omega), neg_neg, ← div_eq_mul_inv,
        div_div, mul_comm]
  · rw [if_neg hfast, if_neg hfast]

/-- The two agree with the difficulty, and no shift loses a bit, exactly where the fast path
of `nbits_to_diff` is taken. -/
theorem difficulties_agree_iff (nbits : UInt32) (hb : mantissa nbits ≠ 0) :
    (nbitsToDiff (bswap32 nbits) = compactDifficulty nbits ∧
      nbitsToDiffClean nbits = compactDifficulty nbits ∧
      KeepsBits (mantissa nbits) ((exponentByte nbits : Int) - 29)) ↔
    16 ≤ exponentByte nbits ∧ exponentByte nbits ≤ 41 := by
  rw [nbitsToDiff_eq]
  constructor
  · rintro ⟨hdiff, -, -⟩
    by_contra hslow
    rw [if_neg hslow] at hdiff
    exact (compactDifficulty_pos hb).ne hdiff
  · intro hfast
    exact ⟨if_pos hfast, nbitsToDiffClean_eq hb, keepsBits (mantissa_lt nbits) _⟩

theorem difficulties_agree_1d00ffff :
    nbitsToDiff (bswap32 0x1d00ffff) = compactDifficulty 0x1d00ffff :=
  ((difficulties_agree_iff 0x1d00ffff (by decide)).mpr (by decide)).1

/-- A target below the fast path's range has the difficulty zero. -/
theorem slow_path_zero :
    mantissa 0x0f00ffff ≠ 0 ∧ nbitsToDiff (bswap32 0x0f00ffff) = 0 ∧
      nbitsToDiffClean 0x0f00ffff = 256 ^ 14 ∧
      nbitsToDiff (bswap32 0x0f00ffff) ≠ compactDifficulty 0x0f00ffff := by
  have hb : mantissa 0x0f00ffff ≠ 0 := by decide
  have hexp : exponentByte 0x0f00ffff = 15 := rfl
  have hdiff : nbitsToDiff (bswap32 0x0f00ffff) = 0 := by
    rw [nbitsToDiff_eq, hexp, if_neg (by decide)]
  refine ⟨hb, hdiff, ?_, ?_⟩
  · rw [nbitsToDiffClean_eq hb, compactDifficulty, hexp, show mantissa 0x0f00ffff = 0xffff from rfl]
    norm_num
  · rw [hdiff]
    exact (compactDifficulty_pos hb).ne

end SojCivicLight.Util
