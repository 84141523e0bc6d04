import SojCivicLight.CivicLight.Fips
import SojCivicLight.Yespower.Simd

/-! The transforms of a build with the SHA instructions of x86. -/

namespace SojCivicLight.CivicLight

open SojCivicLight.Library
open SojCivicLight.Util
open SojCivicLight.Yespower (M128 mmAddEpi32 mmShuffleEpi32)

/-! The instructions. -/

/-- `_mm_alignr_epi8(a, b, 4 * n)` -/
def mmAlignrEpi8 (a b : M128) (bytes : Nat) : M128 :=
  let word := fun i => if i < 4 then b.word i else a.word (i - 4)
  ⟨word (bytes / 4), word (bytes / 4 + 1), word (bytes / 4 + 2), word (bytes / 4 + 3)⟩

/-- Two bits of `_mm_blend_epi16`, those of the two halves of a word. -/
def blendWord (a b : UInt32) (low high : Bool) : UInt32 :=
  ((if low then b else a) &&& 0xffff) ||| ((if high then b else a) &&& 0xffff0000)

def mmBlendEpi16 (a b : M128) (imm : Nat) : M128 :=
  ⟨blendWord a.w0 b.w0 (imm.testBit 0) (imm.testBit 1),
    blendWord a.w1 b.w1 (imm.testBit 2) (imm.testBit 3),
    blendWord a.w2 b.w2 (imm.testBit 4) (imm.testBit 5),
    blendWord a.w3 b.w3 (imm.testBit 6) (imm.testBit 7)⟩

def mmSetEpi64x (high low : UInt64) : M128 := .ofQuads low high

/-- One of the two rounds of `_mm_sha256rnds2_epu32`. -/
def rnds2Round (v : Work UInt32) (wk : UInt32) : Work UInt32 :=
  let t := sha256.ch v.e v.f v.g + sha256.bigSigma1 v.e + wk + v.h
  ⟨t + sha256.maj v.a v.b v.c + sha256.bigSigma0 v.a, v.a, v.b, v.c, t + v.d, v.e, v.f, v.g⟩

/-- `_mm_sha256rnds2_epu32(a, b, k)`, with C, D, G, H in `a` and A, B, E, F in `b`. -/
def mmSha256rnds2Epu32 (a b k : M128) : M128 :=
  let v : Work UInt32 := ⟨b.w3, b.w2, a.w3, a.w2, b.w1, b.w0, a.w1, a.w0⟩
  let v := rnds2Round (rnds2Round v k.w0) k.w1
  ⟨v.f, v.e, v.b, v.a⟩

def mmSha256msg1Epu32 (a b : M128) : M128 :=
  ⟨a.w0 + sha256.smallSigma0 a.w1, a.w1 + sha256.smallSigma0 a.w2,
    a.w2 + sha256.smallSigma0 a.w3, a.w3 + sha256.smallSigma0 b.w0⟩

def mmSha256msg2Epu32 (a b : M128) : M128 :=
  let w16 := a.w0 + sha256.smallSigma1 b.w2
  let w17 := a.w1 + sha256.smallSigma1 b.w3
  ⟨w16, w17, a.w2 + sha256.smallSigma1 w16, a.w3 + sha256.smallSigma1 w17⟩

/-! One message. -/

/-- Four rounds, without what is done to the message between the two instructions. -/
def niRounds (s : M128 × M128) (tmsg k : M128) : M128 × M128 :=
  let msg := mmAddEpi32 tmsg k
  let state1 := mmSha256rnds2Epu32 s.2 s.1 msg
  let msg := mmShuffleEpi32 msg 0x0E
  let state0 := mmSha256rnds2Epu32 s.1 state1 msg
  (state0, state1)

/-- The three lines that finish the next four words of the message. -/
def niNext (a c b : M128) : M128 :=
  let tmp := mmAlignrEpi8 a c 4
  let b := mmAddEpi32 b tmp
  mmSha256msg2Epu32 b a

/-- Rounds 0 to 63 of `sha256_opt_rounds`. -/
def niMix (s : M128 × M128) (tmsg0 tmsg1 tmsg2 tmsg3 : M128) : M128 × M128 :=
  let s := niRounds s tmsg0 (mmSetEpi64x 0xE9B5DBA5B5C0FBCF 0x71374491428A2F98)
  let s := niRounds s tmsg1 (mmSetEpi64x 0xAB1C5ED5923F82A4 0x59F111F13956C25B)
  let tmsg0 := mmSha256msg1Epu32 tmsg0 tmsg1
  let s := niRounds s tmsg2 (mmSetEpi64x 0x550C7DC3243185BE 0x12835B01D807AA98)
  let tmsg1 := mmSha256msg1Epu32 tmsg1 tmsg2
  let s := niRounds s tmsg3 (mmSetEpi64x 0xC19BF1749BDC06A7 0x80DEB1FE72BE5D74)
  let tmsg0 := niNext tmsg3 tmsg2 tmsg0
  let tmsg2 := mmSha256msg1Epu32 tmsg2 tmsg3
  let s := niRounds s tmsg0 (mmSetEpi64x 0x240CA1CC0FC19DC6 0xEFBE4786E49B69C1)
  let tmsg1 := niNext tmsg0 tmsg3 tmsg1
  let tmsg3 := mmSha256msg1Epu32 tmsg3 tmsg0
  let s := niRounds s tmsg1 (mmSetEpi64x 0x76F988DA5CB0A9DC 0x4A7484AA2DE92C6F)
  let tmsg2 := niNext tmsg1 tmsg0 tmsg2
  let tmsg0 := mmSha256msg1Epu32 tmsg0 tmsg1
  let s := niRounds s tmsg2 (mmSetEpi64x 0xBF597FC7B00327C8 0xA831C66D983E5152)
  let tmsg3 := niNext tmsg2 tmsg1 tmsg3
  let tmsg1 := mmSha256msg1Epu32 tmsg1 tmsg2
  let s := niRounds s tmsg3 (mmSetEpi64x 0x1429296706CA6351 0xD5A79147C6E00BF3)
  let tmsg0 := niNext tmsg3 tmsg2 tmsg0
  let tmsg2 := mmSha256msg1Epu32 tmsg2 tmsg3
  let s := niRounds s tmsg0 (mmSetEpi64x 0x53380D134D2C6DFC 0x2E1B213827B70A85)
  let tmsg1 := niNext tmsg0 tmsg3 tmsg1
  let tmsg3 := mmSha256msg1Epu32 tmsg3 tmsg0
  let s := niRounds s tmsg1 (mmSetEpi64x 0x92722C8581C2C92E 0x766A0ABB650A7354)
  let tmsg2 := niNext tmsg1 tmsg0 tmsg2
  let tmsg0 := mmSha256msg1Epu32 tmsg0 tmsg1
  let s := niRounds s tmsg2 (mmSetEpi64x 0xC76C51A3C24B8B70 0xA81A664BA2BFE8A1)
  let tmsg3 := niNext tmsg2 tmsg1 tmsg3
  let tmsg1 := mmSha256msg1Epu32 tmsg1 tmsg2
  let s := niRounds s tmsg3 (mmSetEpi64x 0x106AA070F40E3585 0xD6990624D192E819)
  let tmsg0 := niNext tmsg3 tmsg2 tmsg0
  let tmsg2 := mmSha256msg1Epu32 tmsg2 tmsg3
  let s := niRounds s tmsg0 (mmSetEpi64x 0x34B0BCB52748774C 0x1E376C0819A4C116)
  let tmsg1 := niNext tmsg0 tmsg3 tmsg1
  let tmsg3 := mmSha256msg1Epu32 tmsg3 tmsg0
  let s := niRounds s tmsg1 (mmSetEpi64x 0x682E6FF35B9CCA4F 0x4ED8AA4A391C0CB3)
  let tmsg2 := niNext tmsg1 tmsg0 tmsg2
  let s := niRounds s tmsg2 (mmSetEpi64x 0x8CC7020884C87814 0x78A5636F748F82EE)
  let tmsg3 := niNext tmsg2 tmsg1 tmsg3
  niRounds s tmsg3 (mmSetEpi64x 0xC67178F2BEF9A3F7 0xA4506CEB90BEFFFA)

/-- The two registers of a state in memory, and the shuffles that order them for the
instructions. -/
def niLoad (stateIn : ShaState) : M128 × M128 :=
  let tmp : M128 := ⟨stateIn 0, stateIn 1, stateIn 2, stateIn 3⟩
  let state1 : M128 := ⟨stateIn 4, stateIn 5, stateIn 6, stateIn 7⟩
  let tmp := mmShuffleEpi32 tmp 0xB1
  let state1 := mmShuffleEpi32 state1 0x1B
  let state0 := mmAlignrEpi8 tmp state1 8
  let state1 := mmBlendEpi16 state1 tmp 0xF0
  (state0, state1)

def niStore (s : M128 × M128) : ShaState :=
  let tmp := mmShuffleEpi32 s.1 0x1B
  let state1 := mmShuffleEpi32 s.2 0xB1
  let state0 := mmBlendEpi16 tmp state1 0xF0
  let state1 := mmAlignrEpi8 state1 tmp 8
  ![state0.w0, state0.w1, state0.w2, state0.w3, state1.w0, state1.w1, state1.w2, state1.w3]

def sha256OptRounds (loadMsg : Nat → M128) (stateIn : ShaState) : ShaState :=
  let s := niLoad stateIn
  let save := s
  let s := niMix s (loadMsg 0) (loadMsg 1) (loadMsg 2) (loadMsg 3)
  niStore (mmAddEpi32 s.1 save.1, mmAddEpi32 s.2 save.2)

def castiV128 (m : Nat → UInt32) (i : Nat) : M128 :=
  ⟨m (4 * i), m (4 * i + 1), m (4 * i + 2), m (4 * i + 3)⟩

def v128Bswap32 (v : M128) : M128 := ⟨bswap32 v.w0, bswap32 v.w1, bswap32 v.w2, bswap32 v.w3⟩

def sha256X86ShaTransformLe : WordTransform :=
  fun state m => sha256OptRounds (castiV128 m) state

def sha256X86ShaTransformBe : Transform := fun state block =>
  sha256OptRounds (fun i => v128Bswap32 (castiV128 (wordAt le32dec (List.ofFn block)) i)) state

/-! Two messages, with the instructions of one between those of the other. -/

def ni2xRounds (s : (M128 × M128) × M128 × M128) (tmsgX tmsgY k : M128) :
    (M128 × M128) × M128 × M128 :=
  let tmpX := k
  let msgX := mmAddEpi32 tmsgX tmpX
  let msgY := mmAddEpi32 tmsgY tmpX
  let state1X := mmSha256rnds2Epu32 s.1.2 s.1.1 msgX
  let state1Y := mmSha256rnds2Epu32 s.2.2 s.2.1 msgY
  let msgX := mmShuffleEpi32 msgX 0x0E
  let msgY := mmShuffleEpi32 msgY 0x0E
  let state0X := mmSha256rnds2Epu32 s.1.1 state1X msgX
  let state0Y := mmSha256rnds2Epu32 s.2.1 state1Y msgY
  ((state0X, state1X), (state0Y, state1Y))

/-- Rounds 0 to 63 of `sha256_ni2x_rounds`. -/
def ni2xMix (s : (M128 × M128) × M128 × M128)
    (tmsg0X tmsg1X tmsg2X tmsg3X tmsg0Y tmsg1Y tmsg2Y tmsg3Y : M128) :
    (M128 × M128) × M128 × M128 :=
  let s := ni2xRounds s tmsg0X tmsg0Y (mmSetEpi64x 0xE9B5DBA5B5C0FBCF 0x71374491428A2F98)
  let s := ni2xRounds s tmsg1X tmsg1Y (mmSetEpi64x 0xAB1C5ED5923F82A4 0x59F111F13956C25B)
  let tmsg0X := mmSha256msg1Epu32 tmsg0X tmsg1X
  let tmsg0Y := mmSha256msg1Epu32 tmsg0Y tmsg1Y
  let s := ni2xRounds s tmsg2X tmsg2Y (mmSetEpi64x 0x550C7DC3243185BE 0x12835B01D807AA98)
  let tmsg1X := mmSha256msg1Epu32 tmsg1X tmsg2X
  let tmsg1Y := mmSha256msg1Epu32 tmsg1Y tmsg2Y
  let s := ni2xRounds s tmsg3X tmsg3Y (mmSetEpi64x 0xC19BF1749BDC06A7 0x80DEB1FE72BE5D74)
  let tmsg0X := niNext tmsg3X tmsg2X tmsg0X
  let tmsg0Y := niNext tmsg3Y tmsg2Y tmsg0Y
  let tmsg2X := mmSha256msg1Epu32 tmsg2X tmsg3X
  let tmsg2Y := mmSha256msg1Epu32 tmsg2Y tmsg3Y
  let s := ni2xRounds s tmsg0X tmsg0Y (mmSetEpi64x 0x240CA1CC0FC19DC6 0xEFBE4786E49B69C1)
  let tmsg1X := niNext tmsg0X tmsg3X tmsg1X
  let tmsg1Y := niNext tmsg0Y tmsg3Y tmsg1Y
  let tmsg3X := mmSha256msg1Epu32 tmsg3X tmsg0X
  let tmsg3Y := mmSha256msg1Epu32 tmsg3Y tmsg0Y
  let s := ni2xRounds s tmsg1X tmsg1Y (mmSetEpi64x 0x76F988DA5CB0A9DC 0x4A7484AA2DE92C6F)
  let tmsg2X := niNext tmsg1X tmsg0X tmsg2X
  let tmsg2Y := niNext tmsg1Y tmsg0Y tmsg2Y
  let tmsg0X := mmSha256msg1Epu32 tmsg0X tmsg1X
  let tmsg0Y := mmSha256msg1Epu32 tmsg0Y tmsg1Y
  let s := ni2xRounds s tmsg2X tmsg2Y (mmSetEpi64x 0xBF597FC7B00327C8 0xA831C66D983E5152)
  let tmsg3X := niNext tmsg2X tmsg1X tmsg3X
  let tmsg3Y := niNext tmsg2Y tmsg1Y tmsg3Y
  let tmsg1X := mmSha256msg1Epu32 tmsg1X tmsg2X
  let tmsg1Y := mmSha256msg1Epu32 tmsg1Y tmsg2Y
  let s := ni2xRounds s tmsg3X tmsg3Y (mmSetEpi64x 0x1429296706CA6351 0xD5A79147C6E00BF3)
  let tmsg0X := niNext tmsg3X tmsg2X tmsg0X
  let tmsg0Y := niNext tmsg3Y tmsg2Y tmsg0Y
  let tmsg2X := mmSha256msg1Epu32 tmsg2X tmsg3X
  let tmsg2Y := mmSha256msg1Epu32 tmsg2Y tmsg3Y
  let s := ni2xRounds s tmsg0X tmsg0Y (mmSetEpi64x 0x53380D134D2C6DFC 0x2E1B213827B70A85)
  let tmsg1X := niNext tmsg0X tmsg3X tmsg1X
  let tmsg1Y := niNext tmsg0Y tmsg3Y tmsg1Y
  let tmsg3X := mmSha256msg1Epu32 tmsg3X tmsg0X
  let tmsg3Y := mmSha256msg1Epu32 tmsg3Y tmsg0Y
  let s := ni2xRounds s tmsg1X tmsg1Y (mmSetEpi64x 0x92722C8581C2C92E 0x766A0ABB650A7354)
  let tmsg2X := niNext tmsg1X tmsg0X tmsg2X
  let tmsg2Y := niNext tmsg1Y tmsg0Y tmsg2Y
  let tmsg0X := mmSha256msg1Epu32 tmsg0X tmsg1X
  let tmsg0Y := mmSha256msg1Epu32 tmsg0Y tmsg1Y
  let s := ni2xRounds s tmsg2X tmsg2Y (mmSetEpi64x 0xC76C51A3C24B8B70 0xA81A664BA2BFE8A1)
  let tmsg3X := niNext tmsg2X tmsg1X tmsg3X
  let tmsg3Y := niNext tmsg2Y tmsg1Y tmsg3Y
  let tmsg1X := mmSha256msg1Epu32 tmsg1X tmsg2X
  let tmsg1Y := mmSha256msg1Epu32 tmsg1Y tmsg2Y
  let s := ni2xRounds s tmsg3X tmsg3Y (mmSetEpi64x 0x106AA070F40E3585 0xD6990624D192E819)
  let tmsg0X := niNext tmsg3X tmsg2X tmsg0X
  let tmsg0Y := niNext tmsg3Y tmsg2Y tmsg0Y
  let tmsg2X := mmSha256msg1Epu32 tmsg2X tmsg3X
  let tmsg2Y := mmSha256msg1Epu32 tmsg2Y tmsg3Y
  let s := ni2xRounds s tmsg0X tmsg0Y (mmSetEpi64x 0x34B0BCB52748774C 0x1E376C0819A4C116)
  let tmsg1X := niNext tmsg0X tmsg3X tmsg1X
  let tmsg1Y := niNext tmsg0Y tmsg3Y tmsg1Y
  let tmsg3X := mmSha256msg1Epu32 tmsg3X tmsg0X
  let tmsg3Y := mmSha256msg1Epu32 tmsg3Y tmsg0Y
  let s := ni2xRounds s tmsg1X tmsg1Y (mmSetEpi64x 0x682E6FF35B9CCA4F 0x4ED8AA4A391C0CB3)
  let tmsg2X := niNext tmsg1X tmsg0X tmsg2X
  let tmsg2Y := niNext tmsg1Y tmsg0Y tmsg2Y
  let s := ni2xRounds s tmsg2X tmsg2Y (mmSetEpi64x 0x8CC7020884C87814 0x78A5636F748F82EE)
  let tmsg3X := niNext tmsg2X tmsg1X tmsg3X
  let tmsg3Y := niNext tmsg2Y tmsg1Y tmsg3Y
  ni2xRounds s tmsg3X tmsg3Y (mmSetEpi64x 0xC67178F2BEF9A3F7 0xA4506CEB90BEFFFA)

def sha256Ni2xRounds (loadX loadY : Nat → M128) (inX inY : ShaState) : ShaState × ShaState :=
  let s := (niLoad inX, niLoad inY)
  let save := s
  let s := ni2xMix s (loadX 0) (loadX 1) (loadX 2) (loadX 3) (loadY 0) (loadY 1) (loadY 2)
    (loadY 3)
  (niStore (mmAddEpi32 s.1.1 save.1.1, mmAddEpi32 s.1.2 save.1.2),
    niStore (mmAddEpi32 s.2.1 save.2.1, mmAddEpi32 s.2.2 save.2.2))

def sha256X86X2shaTransformLe (inX inY : ShaState) (msgX msgY : Nat → UInt32) :
    ShaState × ShaState :=
  sha256Ni2xRounds (castiV128 msgX) (castiV128 msgY) inX inY

def sha256X86X2shaTransformBe (inX inY : ShaState) (msgX msgY : ShaBlock) :
    ShaState × ShaState :=
  sha256Ni2xRounds (fun i => v128Bswap32 (castiV128 (wordAt le32dec (List.ofFn msgX)) i))
    (fun i => v128Bswap32 (castiV128 (wordAt le32dec (List.ofFn msgY)) i)) inX inY

/-! What the registers hold. -/

/-- The state registers over the working variables. -/
def niRegs (v : Work UInt32) : M128 × M128 := (⟨v.f, v.e, v.b, v.a⟩, ⟨v.h, v.g, v.d, v.c⟩)

/-- Four words from the `t`-th on. -/
def words4 (w : Nat → UInt32) (t : Nat) : M128 := ⟨w t, w (t + 1), w (t + 2), w (t + 3)⟩

/-- The words that `_mm_sha256msg1_epu32` leaves: two terms of the recurrence. -/
def started4 (w : Nat → UInt32) (t : Nat) : M128 :=
  ⟨w t + sha256.smallSigma0 (w (t + 1)), w (t + 1) + sha256.smallSigma0 (w (t + 2)),
    w (t + 2) + sha256.smallSigma0 (w (t + 3)), w (t + 3) + sha256.smallSigma0 (w (t + 4))⟩

theorem rnds2Round_eq (v : Work UInt32) (k w : UInt32) :
    rnds2Round v (w + k) = sha256.step v k w := by
  unfold rnds2Round Sha2.step
  ac_rfl

theorem niRounds_run (w : Nat → UInt32) (v : Work UInt32) (t : Nat) :
    niRounds (niRegs (sha256.run w v t)) (words4 w t) (words4 sha256.k t) =
      niRegs (sha256.run w v (t + 4)) := by
  have hround : ∀ n, sha256.run w v (n + 1) =
      rnds2Round (sha256.run w v n) (w n + sha256.k n) :=
    fun n => (rnds2Round_eq _ _ _).symm
  rw [hround (t + 3), hround (t + 2), hround (t + 1), hround t]
  rfl

theorem niNext_schedule (m : Nat → UInt32) (t : Nat) :
    niNext (words4 (sha256.schedule m) (t + 12)) (words4 (sha256.schedule m) (t + 8))
        (started4 (sha256.schedule m) t) =
      words4 (sha256.schedule m) (t + 16) := by
  have word : ∀ n, sha256.schedule m (n + 16) =
      sha256.schedule m n + sha256.smallSigma0 (sha256.schedule m (n + 1)) +
        sha256.schedule m (n + 9) + sha256.smallSigma1 (sha256.schedule m (n + 14)) := by
    intro n
    rw [sha256.schedule_add]
    ac_rfl
  -- the last two words take the first two in
  have hsecond : sha256.schedule m (t + 18) = _ := word (t + 2)
  have hthird : sha256.schedule m (t + 19) = _ := word (t + 3)
  rw [show t + 2 + 14 = t + 16 from rfl] at hsecond
  rw [show t + 3 + 14 = t + 1 + 16 from rfl] at hthird
  rw [words4, words4, words4, hsecond, hthird, word t, word (t + 1)]
  rfl

theorem msg1_words4 (w : Nat → UInt32) (t : Nat) :
    mmSha256msg1Epu32 (words4 w t) (words4 w (t + 4)) = started4 w t := rfl

/-- The constants of the macro are those of the standard. -/
theorem niConstants :
    mmSetEpi64x 0xE9B5DBA5B5C0FBCF 0x71374491428A2F98 = words4 sha256.k 0 ∧
      mmSetEpi64x 0xAB1C5ED5923F82A4 0x59F111F13956C25B = words4 sha256.k 4 ∧
      mmSetEpi64x 0x550C7DC3243185BE 0x12835B01D807AA98 = words4 sha256.k 8 ∧
      mmSetEpi64x 0xC19BF1749BDC06A7 0x80DEB1FE72BE5D74 = words4 sha256.k 12 ∧
      mmSetEpi64x 0x240CA1CC0FC19DC6 0xEFBE4786E49B69C1 = words4 sha256.k 16 ∧
      mmSetEpi64x 0x76F988DA5CB0A9DC 0x4A7484AA2DE92C6F = words4 sha256.k 20 ∧
      mmSetEpi64x 0xBF597FC7B00327C8 0xA831C66D983E5152 = words4 sha256.k 24 ∧
      mmSetEpi64x 0x1429296706CA6351 0xD5A79147C6E00BF3 = words4 sha256.k 28 ∧
      mmSetEpi64x 0x53380D134D2C6DFC 0x2E1B213827B70A85 = words4 sha256.k 32 ∧
      mmSetEpi64x 0x92722C8581C2C92E 0x766A0ABB650A7354 = words4 sha256.k 36 ∧
      mmSetEpi64x 0xC76C51A3C24B8B70 0xA81A664BA2BFE8A1 = words4 sha256.k 40 ∧
      mmSetEpi64x 0x106AA070F40E3585 0xD6990624D192E819 = words4 sha256.k 44 ∧
      mmSetEpi64x 0x34B0BCB52748774C 0x1E376C0819A4C116 = words4 sha256.k 48 ∧
      mmSetEpi64x 0x682E6FF35B9CCA4F 0x4ED8AA4A391C0CB3 = words4 sha256.k 52 ∧
      mmSetEpi64x 0x8CC7020884C87814 0x78A5636F748F82EE = words4 sha256.k 56 ∧
      mmSetEpi64x 0xC67178F2BEF9A3F7 0xA4506CEB90BEFFFA = words4 sha256.k 60 := by
  decide

theorem niMix_eq (m : Nat → UInt32) (v : Work UInt32) :
    niMix (niRegs v) (words4 (sha256.schedule m) 0) (words4 (sha256.schedule m) 4)
        (words4 (sha256.schedule m) 8) (words4 (sha256.schedule m) 12) =
      niRegs (sha256.run (sha256.schedule m) v 64) := by
  obtain ⟨k0, k4, k8, k12, k16, k20, k24, k28, k32, k36, k40, k44, k48, k52, k56, k60⟩ :=
    niConstants
  have start : niRegs v = niRegs (sha256.run (sha256.schedule m) v 0) := rfl
  rw [niMix, start]
  simp only [k0, k4, k8, k12, k16, k20, k24, k28, k32, k36, k40, k44, k48, k52, k56, k60,
    niRounds_run, msg1_words4, niNext_schedule, Nat.reduceAdd]

theorem blendWord_same (a b : UInt32) (bit : Bool) :
    blendWord a b bit bit = if bit then b else a := by
  have halves : ∀ x : UInt32, (x &&& 0xffff) ||| (x &&& 0xffff0000) = x := by
    intro x
    apply UInt32.eq_of_toBitVec_eq
    rw [UInt32.toBitVec_or, UInt32.toBitVec_and, UInt32.toBitVec_and, ← BitVec.and_or_distrib_left]
    exact BitVec.and_allOnes
  exact halves _

/-- The upper half of one register over that of another. -/
theorem mmBlendEpi16_upper (a b : M128) : mmBlendEpi16 a b 0xF0 = ⟨a.w0, a.w1, b.w2, b.w3⟩ := by
  have low := fun x y => blendWord_same x y false
  have high := fun x y => blendWord_same x y true
  calc mmBlendEpi16 a b 0xF0
      = ⟨blendWord a.w0 b.w0 false false, blendWord a.w1 b.w1 false false,
          blendWord a.w2 b.w2 true true, blendWord a.w3 b.w3 true true⟩ := rfl
    _ = ⟨a.w0, a.w1, b.w2, b.w3⟩ := by
        rw [low, low, high, high]
        rfl

theorem niLoad_eq (stateIn : ShaState) : niLoad stateIn = niRegs (Work.ofFn stateIn) := by
  rw [niLoad, mmBlendEpi16_upper]
  rfl

theorem niStore_niRegs (v : Work UInt32) : niStore (niRegs v) = v.toFn := by
  rw [niStore, mmBlendEpi16_upper]
  rfl

theorem niRegs_add (v w : Work UInt32) :
    (mmAddEpi32 (niRegs v).1 (niRegs w).1, mmAddEpi32 (niRegs v).2 (niRegs w).2) =
      niRegs (v + w) := rfl

theorem words4_schedule (m : Nat → UInt32) {t : Nat} (ht : t + 3 < 16) :
    words4 (sha256.schedule m) t = words4 m t := by
  rw [words4, words4, sha256.schedule_lt m (by omega), sha256.schedule_lt m (by omega),
    sha256.schedule_lt m (by omega), sha256.schedule_lt m ht]

/-- The macro computes the transform of the standard on the words it loads. -/
theorem sha256OptRounds_eq {loadMsg : Nat → M128} {m : Nat → UInt32}
    (load : ∀ i, loadMsg i = words4 m (4 * i)) (stateIn : ShaState) :
    sha256OptRounds loadMsg stateIn = fipsWordTransform stateIn m := by
  have mix := niMix_eq m (Work.ofFn stateIn)
  rw [words4_schedule m (by decide), words4_schedule m (by decide), words4_schedule m (by decide),
    words4_schedule m (by decide)] at mix
  unfold sha256OptRounds
  rw [load 0, load 1, load 2, load 3, niLoad_eq]
  dsimp only
  rw [mix, niRegs_add, niStore_niRegs]
  rfl

theorem ni2xMix_eq (x y : M128 × M128) (tmsg0X tmsg1X tmsg2X tmsg3X tmsg0Y tmsg1Y tmsg2Y
    tmsg3Y : M128) :
    ni2xMix (x, y) tmsg0X tmsg1X tmsg2X tmsg3X tmsg0Y tmsg1Y tmsg2Y tmsg3Y =
      (niMix x tmsg0X tmsg1X tmsg2X tmsg3X, niMix y tmsg0Y tmsg1Y tmsg2Y tmsg3Y) := by
  have both : ∀ x y tmsgX tmsgY k, ni2xRounds (x, y) tmsgX tmsgY k =
      (niRounds x tmsgX k, niRounds y tmsgY k) := fun _ _ _ _ _ => rfl
  simp only [ni2xMix, niMix, both]

/-- Each lane of the interleaved rounds is what the single ones compute. -/
theorem sha256Ni2xRounds_eq (loadX loadY : Nat → M128) (inX inY : ShaState) :
    sha256Ni2xRounds loadX loadY inX inY =
      (sha256OptRounds loadX inX, sha256OptRounds loadY inY) := by
  unfold sha256Ni2xRounds
  dsimp only
  rw [ni2xMix_eq]
  rfl

theorem bswap32_le32dec (p : List UInt8) : bswap32 (le32dec p) = be32dec p := by
  have bytes : le32enc (le32dec p) = [p.getD 0 0, p.getD 1 0, p.getD 2 0, p.getD 3 0] :=
    le32enc_le32dec _ _ _ _
  rw [bswap32, bytes]
  rfl

theorem v128Bswap32_block (block : ShaBlock) (i : Nat) :
    v128Bswap32 (castiV128 (wordAt le32dec (List.ofFn block)) i) =
      words4 (blockWords block) (4 * i) := by
  simp only [v128Bswap32, castiV128, wordAt, bswap32_le32dec]
  rfl

theorem sha256X86ShaTransformLe_eq : sha256X86ShaTransformLe = fipsWordTransform := by
  funext state m
  exact sha256OptRounds_eq (fun _ => rfl) state

theorem sha256X86ShaTransformBe_eq : sha256X86ShaTransformBe = fipsTransform := by
  funext state block
  exact sha256OptRounds_eq (v128Bswap32_block block) state

theorem sha256X86X2shaTransformLe_eq (inX inY : ShaState) (msgX msgY : Nat → UInt32) :
    sha256X86X2shaTransformLe inX inY msgX msgY =
      (fipsWordTransform inX msgX, fipsWordTransform inY msgY) := by
  rw [sha256X86X2shaTransformLe, sha256Ni2xRounds_eq, ← sha256X86ShaTransformLe_eq]
  rfl

/-- Both lanes of the interleaved transform are the transform of the standard, whatever the
two states and the two blocks are. -/
theorem sha256X86X2shaTransformBe_eq (inX inY : ShaState) (msgX msgY : ShaBlock) :
    sha256X86X2shaTransformBe inX inY msgX msgY =
      (fipsTransform inX msgX, fipsTransform inY msgY) := by
  rw [sha256X86X2shaTransformBe, sha256Ni2xRounds_eq, ← sha256X86ShaTransformBe_eq]
  rfl

end SojCivicLight.CivicLight
