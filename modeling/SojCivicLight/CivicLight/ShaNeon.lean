import SojCivicLight.CivicLight.ShaNi

/-! The transforms of a build with the SHA instructions of ARM. -/

namespace SojCivicLight.CivicLight

open SojCivicLight.Library
open SojCivicLight.Util
open SojCivicLight.Yespower (M128 mmAddEpi32)

/-! The instructions. -/

def vaddqU32 (a b : M128) : M128 := mmAddEpi32 a b

/-- `SHAmajority` of the instructions. -/
def shaMajority (x y z : UInt32) : UInt32 := (x &&& y) ||| ((x ||| y) &&& z)

/-- `SHAchoose` -/
def shaChoose (x y z : UInt32) : UInt32 := ((y ^^^ z) &&& x) ^^^ z

/-- One of the four rounds of the hash update, on the registers of A to D and of E to H. -/
def shaHashRound (s : M128 × M128) (wk : UInt32) : M128 × M128 :=
  let (x, y) := s
  let t := y.w3 + sha256.bigSigma1 y.w0 + shaChoose y.w0 y.w1 y.w2 + wk
  let x3 := t + x.w3
  let y3 := t + sha256.bigSigma0 x.w0 + shaMajority x.w0 x.w1 x.w2
  (⟨y3, x.w0, x.w1, x.w2⟩, ⟨x3, y.w0, y.w1, y.w2⟩)

def shaHash (s : M128 × M128) (wk : M128) : M128 × M128 :=
  shaHashRound (shaHashRound (shaHashRound (shaHashRound s wk.w0) wk.w1) wk.w2) wk.w3

def vsha256hqU32 (hashAbcd hashEfgh wk : M128) : M128 := (shaHash (hashAbcd, hashEfgh) wk).1

def vsha256h2qU32 (hashEfgh hashAbcd wk : M128) : M128 := (shaHash (hashAbcd, hashEfgh) wk).2

def vsha256su0qU32 (w03 w47 : M128) : M128 :=
  ⟨sha256.smallSigma0 w03.w1 + w03.w0, sha256.smallSigma0 w03.w2 + w03.w1,
    sha256.smallSigma0 w03.w3 + w03.w2, sha256.smallSigma0 w47.w0 + w03.w3⟩

def vsha256su1qU32 (tw03 w811 w1215 : M128) : M128 :=
  let e0 := sha256.smallSigma1 w1215.w2 + (tw03.w0 + w811.w1)
  let e1 := sha256.smallSigma1 w1215.w3 + (tw03.w1 + w811.w2)
  ⟨e0, e1, sha256.smallSigma1 e0 + (tw03.w2 + w811.w3),
    sha256.smallSigma1 e1 + (tw03.w3 + w1215.w0)⟩

/-! One message. -/

def k256 : List UInt32 :=
  [0x428A2F98, 0x71374491, 0xB5C0FBCF, 0xE9B5DBA5, 0x3956C25B, 0x59F111F1, 0x923F82A4, 0xAB1C5ED5,
    0xD807AA98, 0x12835B01, 0x243185BE, 0x550C7DC3, 0x72BE5D74, 0x80DEB1FE, 0x9BDC06A7, 0xC19BF174,
    0xE49B69C1, 0xEFBE4786, 0x0FC19DC6, 0x240CA1CC, 0x2DE92C6F, 0x4A7484AA, 0x5CB0A9DC, 0x76F988DA,
    0x983E5152, 0xA831C66D, 0xB00327C8, 0xBF597FC7, 0xC6E00BF3, 0xD5A79147, 0x06CA6351, 0x14292967,
    0x27B70A85, 0x2E1B2138, 0x4D2C6DFC, 0x53380D13, 0x650A7354, 0x766A0ABB, 0x81C2C92E, 0x92722C85,
    0xA2BFE8A1, 0xA81A664B, 0xC24B8B70, 0xC76C51A3, 0xD192E819, 0xD6990624, 0xF40E3585, 0x106AA070,
    0x19A4C116, 0x1E376C08, 0x2748774C, 0x34B0BCB5, 0x391C0CB3, 0x4ED8AA4A, 0x5B9CCA4F, 0x682E6FF3,
    0x748F82EE, 0x78A5636F, 0x84C87814, 0x8CC70208, 0x90BEFFFA, 0xA4506CEB, 0xBEF9A3F7, 0xC67178F2]

/-- `casti_v128(K256, i)` -/
def k256Vec (i : Nat) : M128 := castiV128 (fun t => k256.getD t 0) i

/-- The three lines that take the state through four rounds. -/
def neonRounds (s : M128 × M128) (tmp : M128) : M128 × M128 :=
  let tmp2 := s.1
  let state0 := vsha256hqU32 s.1 s.2 tmp
  let state1 := vsha256h2qU32 s.2 tmp2 tmp
  (state0, state1)

/-- Rounds 0 to 63 of `sha256_neon_rounds`. -/
def neonMix (s : M128 × M128) (msg0 msg1 msg2 msg3 : M128) : M128 × M128 :=
  let tmp0 := vaddqU32 msg0 (k256Vec 0)
  let msg0 := vsha256su0qU32 msg0 msg1
  let tmp1 := vaddqU32 msg1 (k256Vec 1)
  let s := neonRounds s tmp0
  let msg0 := vsha256su1qU32 msg0 msg2 msg3
  let msg1 := vsha256su0qU32 msg1 msg2
  let tmp0 := vaddqU32 msg2 (k256Vec 2)
  let s := neonRounds s tmp1
  let msg1 := vsha256su1qU32 msg1 msg3 msg0
  let msg2 := vsha256su0qU32 msg2 msg3
  let tmp1 := vaddqU32 msg3 (k256Vec 3)
  let s := neonRounds s tmp0
  let msg2 := vsha256su1qU32 msg2 msg0 msg1
  let msg3 := vsha256su0qU32 msg3 msg0
  let tmp0 := vaddqU32 msg0 (k256Vec 4)
  let s := neonRounds s tmp1
  let msg3 := vsha256su1qU32 msg3 msg1 msg2
  let msg0 := vsha256su0qU32 msg0 msg1
  let tmp1 := vaddqU32 msg1 (k256Vec 5)
  let s := neonRounds s tmp0
  let msg0 := vsha256su1qU32 msg0 msg2 msg3
  let msg1 := vsha256su0qU32 msg1 msg2
  let tmp0 := vaddqU32 msg2 (k256Vec 6)
  let s := neonRounds s tmp1
  let msg1 := vsha256su1qU32 msg1 msg3 msg0
  let msg2 := vsha256su0qU32 msg2 msg3
  let tmp1 := vaddqU32 msg3 (k256Vec 7)
  let s := neonRounds s tmp0
  let msg2 := vsha256su1qU32 msg2 msg0 msg1
  let msg3 := vsha256su0qU32 msg3 msg0
  let tmp0 := vaddqU32 msg0 (k256Vec 8)
  let s := neonRounds s tmp1
  let msg3 := vsha256su1qU32 msg3 msg1 msg2
  let msg0 := vsha256su0qU32 msg0 msg1
  let tmp1 := vaddqU32 msg1 (k256Vec 9)
  let s := neonRounds s tmp0
  let msg0 := vsha256su1qU32 msg0 msg2 msg3
  let msg1 := vsha256su0qU32 msg1 msg2
  let tmp0 := vaddqU32 msg2 (k256Vec 10)
  let s := neonRounds s tmp1
  let msg1 := vsha256su1qU32 msg1 msg3 msg0
  let msg2 := vsha256su0qU32 msg2 msg3
  let tmp1 := vaddqU32 msg3 (k256Vec 11)
  let s := neonRounds s tmp0
  let msg2 := vsha256su1qU32 msg2 msg0 msg1
  let msg3 := vsha256su0qU32 msg3 msg0
  let tmp0 := vaddqU32 msg0 (k256Vec 12)
  let s := neonRounds s tmp1
  let msg3 := vsha256su1qU32 msg3 msg1 msg2
  let tmp1 := vaddqU32 msg1 (k256Vec 13)
  let s := neonRounds s tmp0
  let tmp0 := vaddqU32 msg2 (k256Vec 14)
  let s := neonRounds s tmp1
  let tmp1 := vaddqU32 msg3 (k256Vec 15)
  let s := neonRounds s tmp0
  neonRounds s tmp1

def neonLoad (stateIn : ShaState) : M128 × M128 :=
  (⟨stateIn 0, stateIn 1, stateIn 2, stateIn 3⟩, ⟨stateIn 4, stateIn 5, stateIn 6, stateIn 7⟩)

def neonStore (s : M128 × M128) : ShaState :=
  ![s.1.w0, s.1.w1, s.1.w2, s.1.w3, s.2.w0, s.2.w1, s.2.w2, s.2.w3]

def sha256NeonRounds (loadMsg : Nat → M128) (stateIn : ShaState) : ShaState :=
  let s := neonLoad stateIn
  let save := s
  let s := neonMix s (loadMsg 0) (loadMsg 1) (loadMsg 2) (loadMsg 3)
  neonStore (vaddqU32 s.1 save.1, vaddqU32 s.2 save.2)

def sha256NeonShaTransformBe : Transform := fun state block =>
  sha256NeonRounds (fun i => v128Bswap32 (castiV128 (wordAt le32dec (List.ofFn block)) i)) state

def sha256NeonShaTransformLe : WordTransform :=
  fun state m => sha256NeonRounds (castiV128 m) state

/-! Two messages, with the instructions of one between those of the other. -/

/-- Rounds 0 to 63 of `sha256_neon_x2sha_rounds`. -/
def neonX2Mix (s : (M128 × M128) × M128 × M128)
    (msg0X msg1X msg2X msg3X msg0Y msg1Y msg2Y msg3Y : M128) : (M128 × M128) × M128 × M128 :=
  let tmp0X := vaddqU32 msg0X (k256Vec 0)
  let tmp0Y := vaddqU32 msg0Y (k256Vec 0)
  let msg0X := vsha256su0qU32 msg0X msg1X
  let msg0Y := vsha256su0qU32 msg0Y msg1Y
  let tmp1X := vaddqU32 msg1X (k256Vec 1)
  let tmp1Y := vaddqU32 msg1Y (k256Vec 1)
  let s := (neonRounds s.1 tmp0X, neonRounds s.2 tmp0Y)
  let msg0X := vsha256su1qU32 msg0X msg2X msg3X
  let msg0Y := vsha256su1qU32 msg0Y msg2Y msg3Y
  let msg1X := vsha256su0qU32 msg1X msg2X
  let msg1Y := vsha256su0qU32 msg1Y msg2Y
  let tmp0X := vaddqU32 msg2X (k256Vec 2)
  let tmp0Y := vaddqU32 msg2Y (k256Vec 2)
  let s := (neonRounds s.1 tmp1X, neonRounds s.2 tmp1Y)
  let msg1X := vsha256su1qU32 msg1X msg3X msg0X
  let msg1Y := vsha256su1qU32 msg1Y msg3Y msg0Y
  let msg2X := vsha256su0qU32 msg2X msg3X
  let msg2Y := vsha256su0qU32 msg2Y msg3Y
  let tmp1X := vaddqU32 msg3X (k256Vec 3)
  let tmp1Y := vaddqU32 msg3Y (k256Vec 3)
  let s := (neonRounds s.1 tmp0X, neonRounds s.2 tmp0Y)
  let msg2X := vsha256su1qU32 msg2X msg0X msg1X
  let msg2Y := vsha256su1qU32 msg2Y msg0Y msg1Y
  let msg3X := vsha256su0qU32 msg3X msg0X
  let msg3Y := vsha256su0qU32 msg3Y msg0Y
  let tmp0X := vaddqU32 msg0X (k256Vec 4)
  let tmp0Y := vaddqU32 msg0Y (k256Vec 4)
  let s := (neonRounds s.1 tmp1X, neonRounds s.2 tmp1Y)
  let msg3X := vsha256su1qU32 msg3X msg1X msg2X
  let msg3Y := vsha256su1qU32 msg3Y msg1Y msg2Y
  let msg0X := vsha256su0qU32 msg0X msg1X
  let msg0Y := vsha256su0qU32 msg0Y msg1Y
  let tmp1X := vaddqU32 msg1X (k256Vec 5)
  let tmp1Y := vaddqU32 msg1Y (k256Vec 5)
  let s := (neonRounds s.1 tmp0X, neonRounds s.2 tmp0Y)
  let msg0X := vsha256su1qU32 msg0X msg2X msg3X
  let msg0Y := vsha256su1qU32 msg0Y msg2Y msg3Y
  let msg1X := vsha256su0qU32 msg1X msg2X
  let msg1Y := vsha256su0qU32 msg1Y msg2Y
  let tmp0X := vaddqU32 msg2X (k256Vec 6)
  let tmp0Y := vaddqU32 msg2Y (k256Vec 6)
  let s := (neonRounds s.1 tmp1X, neonRounds s.2 tmp1Y)
  let msg1X := vsha256su1qU32 msg1X msg3X msg0X
  let msg1Y := vsha256su1qU32 msg1Y msg3Y msg0Y
  let msg2X := vsha256su0qU32 msg2X msg3X
  let msg2Y := vsha256su0qU32 msg2Y msg3Y
  let tmp1X := vaddqU32 msg3X (k256Vec 7)
  let tmp1Y := vaddqU32 msg3Y (k256Vec 7)
  let s := (neonRounds s.1 tmp0X, neonRounds s.2 tmp0Y)
  let msg2X := vsha256su1qU32 msg2X msg0X msg1X
  let msg2Y := vsha256su1qU32 msg2Y msg0Y msg1Y
  let msg3X := vsha256su0qU32 msg3X msg0X
  let msg3Y := vsha256su0qU32 msg3Y msg0Y
  let tmp0X := vaddqU32 msg0X (k256Vec 8)
  let tmp0Y := vaddqU32 msg0Y (k256Vec 8)
  let s := (neonRounds s.1 tmp1X, neonRounds s.2 tmp1Y)
  let msg3X := vsha256su1qU32 msg3X msg1X msg2X
  let msg3Y := vsha256su1qU32 msg3Y msg1Y msg2Y
  let msg0X := vsha256su0qU32 msg0X msg1X
  let msg0Y := vsha256su0qU32 msg0Y msg1Y
  let tmp1X := vaddqU32 msg1X (k256Vec 9)
  let tmp1Y := vaddqU32 msg1Y (k256Vec 9)
  let s := (neonRounds s.1 tmp0X, neonRounds s.2 tmp0Y)
  let msg0X := vsha256su1qU32 msg0X msg2X msg3X
  let msg0Y := vsha256su1qU32 msg0Y msg2Y msg3Y
  let msg1X := vsha256su0qU32 msg1X msg2X
  let msg1Y := vsha256su0qU32 msg1Y msg2Y
  let tmp0X := vaddqU32 msg2X (k256Vec 10)
  let tmp0Y := vaddqU32 msg2Y (k256Vec 10)
  let s := (neonRounds s.1 tmp1X, neonRounds s.2 tmp1Y)
  let msg1X := vsha256su1qU32 msg1X msg3X msg0X
  let msg1Y := vsha256su1qU32 msg1Y msg3Y msg0Y
  let msg2X := vsha256su0qU32 msg2X msg3X
  let msg2Y := vsha256su0qU32 msg2Y msg3Y
  let tmp1X := vaddqU32 msg3X (k256Vec 11)
  let tmp1Y := vaddqU32 msg3Y (k256Vec 11)
  let s := (neonRounds s.1 tmp0X, neonRounds s.2 tmp0Y)
  let msg2X := vsha256su1qU32 msg2X msg0X msg1X
  let msg2Y := vsha256su1qU32 msg2Y msg0Y msg1Y
  let msg3X := vsha256su0qU32 msg3X msg0X
  let msg3Y := vsha256su0qU32 msg3Y msg0Y
  let tmp0X := vaddqU32 msg0X (k256Vec 12)
  let tmp0Y := vaddqU32 msg0Y (k256Vec 12)
  let s := (neonRounds s.1 tmp1X, neonRounds s.2 tmp1Y)
  let msg3X := vsha256su1qU32 msg3X msg1X msg2X
  let msg3Y := vsha256su1qU32 msg3Y msg1Y msg2Y
  let tmp1X := vaddqU32 msg1X (k256Vec 13)
  let tmp1Y := vaddqU32 msg1Y (k256Vec 13)
  let s := (neonRounds s.1 tmp0X, neonRounds s.2 tmp0Y)
  let tmp0X := vaddqU32 msg2X (k256Vec 14)
  let tmp0Y := vaddqU32 msg2Y (k256Vec 14)
  let s := (neonRounds s.1 tmp1X, neonRounds s.2 tmp1Y)
  let tmp1X := vaddqU32 msg3X (k256Vec 15)
  let tmp1Y := vaddqU32 msg3Y (k256Vec 15)
  let s := (neonRounds s.1 tmp0X, neonRounds s.2 tmp0Y)
  (neonRounds s.1 tmp1X, neonRounds s.2 tmp1Y)

def sha256NeonX2shaRounds (loadX loadY : Nat → M128) (inX inY : ShaState) : ShaState × ShaState :=
  let s := (neonLoad inX, neonLoad inY)
  let save := s
  let s := neonX2Mix s (loadX 0) (loadX 1) (loadX 2) (loadX 3) (loadY 0) (loadY 1) (loadY 2)
    (loadY 3)
  (neonStore (vaddqU32 s.1.1 save.1.1, vaddqU32 s.1.2 save.1.2),
    neonStore (vaddqU32 s.2.1 save.2.1, vaddqU32 s.2.2 save.2.2))

def sha256NeonX2shaTransformLe (inX inY : ShaState) (msgX msgY : Nat → UInt32) :
    ShaState × ShaState :=
  sha256NeonX2shaRounds (castiV128 msgX) (castiV128 msgY) inX inY

def sha256NeonX2shaTransformBe (inX inY : ShaState) (msgX msgY : ShaBlock) :
    ShaState × ShaState :=
  sha256NeonX2shaRounds (fun i => v128Bswap32 (castiV128 (wordAt le32dec (List.ofFn msgX)) i))
    (fun i => v128Bswap32 (castiV128 (wordAt le32dec (List.ofFn msgY)) i)) inX inY

/-! What the registers hold. -/

def neonRegs (v : Work UInt32) : M128 × M128 := (⟨v.a, v.b, v.c, v.d⟩, ⟨v.e, v.f, v.g, v.h⟩)

theorem shaMajority_eq (x y z : UInt32) : shaMajority x y z = sha256.maj x y z := by
  apply UInt32.eq_of_toBitVec_eq
  apply BitVec.eq_of_getLsbD_eq
  intro i _
  simp only [shaMajority, sha256, UInt32.toBitVec_xor, UInt32.toBitVec_and, UInt32.toBitVec_or,
    BitVec.getLsbD_xor, BitVec.getLsbD_and, BitVec.getLsbD_or]
  cases x.toBitVec.getLsbD i <;> cases y.toBitVec.getLsbD i <;> cases z.toBitVec.getLsbD i <;> rfl

theorem shaChoose_eq (x y z : UInt32) : shaChoose x y z = sha256.ch x y z := by
  rw [shaChoose, sha256_ch, UInt32.and_comm]

theorem shaHashRound_eq (v : Work UInt32) (k w : UInt32) :
    shaHashRound (neonRegs v) (w + k) = neonRegs (sha256.step v k w) := by
  simp only [shaHashRound, neonRegs, shaMajority_eq, shaChoose_eq, Sha2.step]
  ac_rfl

theorem neonRounds_run (w : Nat → UInt32) (v : Work UInt32) (t : Nat) :
    neonRounds (neonRegs (sha256.run w v t)) (vaddqU32 (words4 w t) (words4 sha256.k t)) =
      neonRegs (sha256.run w v (t + 4)) := by
  have hround : ∀ n, neonRegs (sha256.run w v (n + 1)) =
      shaHashRound (neonRegs (sha256.run w v n)) (w n + sha256.k n) :=
    fun n => (shaHashRound_eq _ _ _).symm
  rw [hround (t + 3), hround (t + 2), hround (t + 1), hround t]
  rfl

theorem su0_words4 (w : Nat → UInt32) (t : Nat) :
    vsha256su0qU32 (words4 w t) (words4 w (t + 4)) = started4 w t := by
  simp only [vsha256su0qU32, words4, started4, UInt32.add_comm]

theorem su1_eq_niNext (tw03 w811 w1215 : M128) :
    vsha256su1qU32 tw03 w811 w1215 = niNext w1215 w811 tw03 := by
  simp only [vsha256su1qU32, UInt32.add_comm (sha256.smallSigma1 _)]
  rfl

theorem k256Vec_eq (i : Nat) : k256Vec i = words4 sha256.k (4 * i) := rfl

theorem neonMix_eq (m : Nat → UInt32) (v : Work UInt32) :
    neonMix (neonRegs v) (words4 (sha256.schedule m) 0) (words4 (sha256.schedule m) 4)
        (words4 (sha256.schedule m) 8) (words4 (sha256.schedule m) 12) =
      neonRegs (sha256.run (sha256.schedule m) v 64) := by
  have start : neonRegs v = neonRegs (sha256.run (sha256.schedule m) v 0) := rfl
  rw [neonMix, start]
  simp only [k256Vec_eq, Nat.reduceMul, neonRounds_run, su0_words4, su1_eq_niNext,
    niNext_schedule, Nat.reduceAdd]

theorem neonRegs_add (v w : Work UInt32) :
    (vaddqU32 (neonRegs v).1 (neonRegs w).1, vaddqU32 (neonRegs v).2 (neonRegs w).2) =
      neonRegs (v + w) := rfl

theorem sha256NeonRounds_eq {loadMsg : Nat → M128} {m : Nat → UInt32}
    (load : ∀ i, loadMsg i = words4 m (4 * i)) (stateIn : ShaState) :
    sha256NeonRounds loadMsg stateIn = fipsWordTransform stateIn m := by
  have mix := neonMix_eq m (Work.ofFn stateIn)
  rw [words4_schedule m (by decide), words4_schedule m (by decide), words4_schedule m (by decide),
    words4_schedule m (by decide)] at mix
  have hload : neonLoad stateIn = neonRegs (Work.ofFn stateIn) := rfl
  unfold sha256NeonRounds
  rw [load 0, load 1, load 2, load 3, hload]
  dsimp only
  rw [mix, neonRegs_add]
  rfl

theorem neonX2Mix_eq (x y : M128 × M128) (msg0X msg1X msg2X msg3X msg0Y msg1Y msg2Y
    msg3Y : M128) :
    neonX2Mix (x, y) msg0X msg1X msg2X msg3X msg0Y msg1Y msg2Y msg3Y =
      (neonMix x msg0X msg1X msg2X msg3X, neonMix y msg0Y msg1Y msg2Y msg3Y) := rfl

theorem sha256NeonX2shaRounds_eq (loadX loadY : Nat → M128) (inX inY : ShaState) :
    sha256NeonX2shaRounds loadX loadY inX inY =
      (sha256NeonRounds loadX inX, sha256NeonRounds loadY inY) := by
  unfold sha256NeonX2shaRounds
  dsimp only
  rw [neonX2Mix_eq]
  rfl

theorem sha256NeonShaTransformLe_eq : sha256NeonShaTransformLe = fipsWordTransform := by
  funext state m
  exact sha256NeonRounds_eq (fun _ => rfl) state

theorem sha256NeonShaTransformBe_eq : sha256NeonShaTransformBe = fipsTransform := by
  funext state block
  exact sha256NeonRounds_eq (v128Bswap32_block block) state

theorem sha256NeonX2shaTransformLe_eq (inX inY : ShaState) (msgX msgY : Nat → UInt32) :
    sha256NeonX2shaTransformLe inX inY msgX msgY =
      (fipsWordTransform inX msgX, fipsWordTransform inY msgY) := by
  rw [sha256NeonX2shaTransformLe, sha256NeonX2shaRounds_eq, ← sha256NeonShaTransformLe_eq]
  rfl

/-- The two-way transform of ARM is in both lanes the transform of the standard. -/
theorem sha256NeonX2shaTransformBe_eq (inX inY : ShaState) (msgX msgY : ShaBlock) :
    sha256NeonX2shaTransformBe inX inY msgX msgY =
      (fipsTransform inX msgX, fipsTransform inY msgY) := by
  rw [sha256NeonX2shaTransformBe, sha256NeonX2shaRounds_eq, ← sha256NeonShaTransformBe_eq]
  rfl

end SojCivicLight.CivicLight
