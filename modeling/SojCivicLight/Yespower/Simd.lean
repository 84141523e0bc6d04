import Mathlib.Data.UInt

/-! The SSE2 and AVX2 registers and intrinsics the yespower kernels use.  A 128-bit
register is its four 32-bit words, lowest first; a 256-bit register is its two
128-bit halves, on each of which every intrinsic used here acts separately. -/

namespace SojCivicLight.Yespower

-- for the numerals of two lanes and of four words
scoped instance instNeZeroTwo : NeZero 2 := ⟨Nat.succ_ne_zero 1⟩

scoped instance instNeZeroFour : NeZero 4 := ⟨Nat.succ_ne_zero 3⟩

@[ext] structure M128 where
  w0 : UInt32
  w1 : UInt32
  w2 : UInt32
  w3 : UInt32
deriving DecidableEq, Repr

namespace M128

def d0 (x : M128) : UInt64 := x.w0.toUInt64 ||| (x.w1.toUInt64 <<< 32)

def d1 (x : M128) : UInt64 := x.w2.toUInt64 ||| (x.w3.toUInt64 <<< 32)

def ofQuads (lo hi : UInt64) : M128 :=
  ⟨lo.toUInt32, (lo >>> 32).toUInt32, hi.toUInt32, (hi >>> 32).toUInt32⟩

def word (x : M128) (i : Nat) : UInt32 :=
  match i % 4 with
  | 0 => x.w0
  | 1 => x.w1
  | 2 => x.w2
  | _ => x.w3

end M128

def mmAddEpi32 (x y : M128) : M128 :=
  ⟨x.w0 + y.w0, x.w1 + y.w1, x.w2 + y.w2, x.w3 + y.w3⟩

def mmAddEpi64 (x y : M128) : M128 := .ofQuads (x.d0 + y.d0) (x.d1 + y.d1)

def mmXorSi128 (x y : M128) : M128 :=
  ⟨x.w0 ^^^ y.w0, x.w1 ^^^ y.w1, x.w2 ^^^ y.w2, x.w3 ^^^ y.w3⟩

def mmSlliEpi32 (x : M128) (s : UInt32) : M128 :=
  ⟨x.w0 <<< s, x.w1 <<< s, x.w2 <<< s, x.w3 <<< s⟩

def mmSrliEpi32 (x : M128) (s : UInt32) : M128 :=
  ⟨x.w0 >>> s, x.w1 >>> s, x.w2 >>> s, x.w3 >>> s⟩

/-- `_mm_shuffle_epi32`: two bits of the immediate select each destination word. -/
def mmShuffleEpi32 (x : M128) (imm : Nat) : M128 :=
  ⟨x.word imm, x.word (imm / 4), x.word (imm / 16), x.word (imm / 64)⟩

/-- `_mm_mul_epu32`: the products of the low words of each quadword. -/
def mmMulEpu32 (x y : M128) : M128 :=
  .ofQuads (x.w0.toUInt64 * y.w0.toUInt64) (x.w2.toUInt64 * y.w2.toUInt64)

/-- `HI32(X)`, `_mm_srli_si128(X, 4)`: the register shifted right by four bytes. -/
def hi32 (x : M128) : M128 := ⟨x.w1, x.w2, x.w3, 0⟩

def extract64 (x : M128) : UInt64 := x.d0

theorem mmXorSi128_assoc (x y z : M128) :
    mmXorSi128 (mmXorSi128 x y) z = mmXorSi128 x (mmXorSi128 y z) := by
  simp [mmXorSi128, UInt32.xor_assoc]

theorem mmXorSi128_comm (x y : M128) : mmXorSi128 x y = mmXorSi128 y x := by
  simp [mmXorSi128, UInt32.xor_comm]

@[ext] structure M256 where
  lo : M128
  hi : M128
deriving DecidableEq, Repr

/-- An AVX2 intrinsic that acts on each half alone. -/
def M256.map₂ (f : M128 → M128 → M128) (x y : M256) : M256 :=
  ⟨f x.lo y.lo, f x.hi y.hi⟩

/-- `civic_salsa_pack`, `_mm256_set_m128i(high, low)` -/
def civicSalsaPack (low high : M128) : M256 := ⟨low, high⟩

def mm256AddEpi32 (x y : M256) : M256 := x.map₂ mmAddEpi32 y

def mm256XorSi256 (x y : M256) : M256 := x.map₂ mmXorSi128 y

def mm256SlliEpi32 (x : M256) (s : UInt32) : M256 :=
  ⟨mmSlliEpi32 x.lo s, mmSlliEpi32 x.hi s⟩

def mm256SrliEpi32 (x : M256) (s : UInt32) : M256 :=
  ⟨mmSrliEpi32 x.lo s, mmSrliEpi32 x.hi s⟩

def mm256ShuffleEpi32 (x : M256) (imm : Nat) : M256 :=
  ⟨mmShuffleEpi32 x.lo imm, mmShuffleEpi32 x.hi imm⟩

/-- The half of a packed register that belongs to a lane: `_mm256_castsi256_si128`
for lane 0, `_mm256_extracti128_si256(X, 1)` for lane 1. -/
def M256.half (x : M256) (l : Fin 2) : M128 := if l = 0 then x.lo else x.hi

section Halves

variable (x y : M256) (l : Fin 2)

@[simp] theorem half_civicSalsaPack (a : Fin 2 → M128) :
    (civicSalsaPack (a 0) (a 1)).half l = a l := by
  match l with
  | 0 => rfl
  | 1 => rfl

@[simp] theorem half_mm256AddEpi32 :
    (mm256AddEpi32 x y).half l = mmAddEpi32 (x.half l) (y.half l) := by
  match l with
  | 0 => rfl
  | 1 => rfl

@[simp] theorem half_mm256XorSi256 :
    (mm256XorSi256 x y).half l = mmXorSi128 (x.half l) (y.half l) := by
  match l with
  | 0 => rfl
  | 1 => rfl

@[simp] theorem half_mm256SlliEpi32 (s : UInt32) :
    (mm256SlliEpi32 x s).half l = mmSlliEpi32 (x.half l) s := by
  match l with
  | 0 => rfl
  | 1 => rfl

@[simp] theorem half_mm256SrliEpi32 (s : UInt32) :
    (mm256SrliEpi32 x s).half l = mmSrliEpi32 (x.half l) s := by
  match l with
  | 0 => rfl
  | 1 => rfl

@[simp] theorem half_mm256ShuffleEpi32 (imm : Nat) :
    (mm256ShuffleEpi32 x imm).half l = mmShuffleEpi32 (x.half l) imm := by
  match l with
  | 0 => rfl
  | 1 => rfl

end Halves

end SojCivicLight.Yespower
