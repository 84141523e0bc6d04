import SojCivicLight.CivicLight.Fips
import SojCivicLight.Library.Loop

/-! The SHA-256 of a build without hardware support. -/

namespace SojCivicLight.CivicLight

open SojCivicLight.Library
open SojCivicLight.Util

/-! The compression function. -/

def sphRotl32 (x n : UInt32) : UInt32 := (x <<< n) ||| (x >>> (32 - n))

def sphRotr32 (x n : UInt32) : UInt32 := sphRotl32 x (32 - n)

def sphCh (x y z : UInt32) : UInt32 := ((y ^^^ z) &&& x) ^^^ z

def bsg20 (x : UInt32) : UInt32 := sphRotr32 x 2 ^^^ sphRotr32 x 13 ^^^ sphRotr32 x 22

def bsg21 (x : UInt32) : UInt32 := sphRotr32 x 6 ^^^ sphRotr32 x 11 ^^^ sphRotr32 x 25

def ssg20 (x : UInt32) : UInt32 := sphRotr32 x 7 ^^^ sphRotr32 x 18 ^^^ (x >>> 3)

def ssg21 (x : UInt32) : UInt32 := sphRotr32 x 17 ^^^ sphRotr32 x 19 ^^^ (x >>> 10)

/-- The constants of the 64 groups of lines, in their order. -/
def sphK : List UInt32 :=
  [0x428A2F98, 0x71374491, 0xB5C0FBCF, 0xE9B5DBA5, 0x3956C25B, 0x59F111F1, 0x923F82A4, 0xAB1C5ED5,
    0xD807AA98, 0x12835B01, 0x243185BE, 0x550C7DC3, 0x72BE5D74, 0x80DEB1FE, 0x9BDC06A7, 0xC19BF174,
    0xE49B69C1, 0xEFBE4786, 0x0FC19DC6, 0x240CA1CC, 0x2DE92C6F, 0x4A7484AA, 0x5CB0A9DC, 0x76F988DA,
    0x983E5152, 0xA831C66D, 0xB00327C8, 0xBF597FC7, 0xC6E00BF3, 0xD5A79147, 0x06CA6351, 0x14292967,
    0x27B70A85, 0x2E1B2138, 0x4D2C6DFC, 0x53380D13, 0x650A7354, 0x766A0ABB, 0x81C2C92E, 0x92722C85,
    0xA2BFE8A1, 0xA81A664B, 0xC24B8B70, 0xC76C51A3, 0xD192E819, 0xD6990624, 0xF40E3585, 0x106AA070,
    0x19A4C116, 0x1E376C08, 0x2748774C, 0x34B0BCB5, 0x391C0CB3, 0x4ED8AA4A, 0x5B9CCA4F, 0x682E6FF3,
    0x748F82EE, 0x78A5636F, 0x84C87814, 0x8CC70208, 0x90BEFFFA, 0xA4506CEB, 0xBEF9A3F7, 0xC67178F2]

/-- The variables A to H, W00 to W15 and `Y_xor_Z`. -/
structure SphVars where
  r : Fin 8 → UInt32
  W : Nat → UInt32
  yXorZ : UInt32

/-- The `n`-th of the 64 groups of lines of `SHA2_ROUND_BODY`: the letters of its variables
are those of the first, each `n` places back, and its word is W`n`, counted around. -/
def sphGroup (inWord : Nat → UInt32) (n : Nat) (s : SphVars) : SphVars :=
  let a := Fin.ofNat 8 (64 - n)
  let b := Fin.ofNat 8 (65 - n)
  let d := Fin.ofNat 8 (67 - n)
  let e := Fin.ofNat 8 (68 - n)
  let f := Fin.ofNat 8 (69 - n)
  let g := Fin.ofNat 8 (70 - n)
  let h := Fin.ofNat 8 (71 - n)
  let word :=
    if n < 16 then inWord n
    else ssg21 (s.W ((n + 14) % 16)) + s.W ((n + 9) % 16) + ssg20 (s.W ((n + 1) % 16)) +
      s.W (n % 16)
  let W := Function.update s.W (n % 16) word
  let t1 := s.r h + bsg21 (s.r e) + sphCh (s.r e) (s.r f) (s.r g) + sphK.getD n 0 + W (n % 16)
  let xXorY := s.r a ^^^ s.r b
  let t2 := bsg20 (s.r a) + (s.r b ^^^ (xXorY &&& s.yXorZ))
  let yXorZ := xXorY
  let r := Function.update s.r d (s.r d + t1)
  let r := Function.update r h (t1 + t2)
  { r, W, yXorZ }

/-- `SHA2_ROUND_BODY`; `W` is what its sixteen variables held before. -/
def sha2RoundBody (W : Nat → UInt32) (inWord : Nat → UInt32) (r : ShaState) : ShaState :=
  let s := forUp 0 64 1 (sphGroup inWord) { r, W, yXorZ := r 1 ^^^ r 2 }
  fun i => r i + s.r i

def sha2Round (W : Nat → UInt32) : Transform :=
  fun r data => sha2RoundBody W (wordAt be32dec (List.ofFn data)) r

def sphSha256TransformLe (W : Nat → UInt32) : WordTransform :=
  fun stateIn data => sha2RoundBody W data stateIn

def sphSha256TransformBe (W : Nat → UInt32) : Transform :=
  fun stateIn data => sha2RoundBody W (wordAt be32dec (List.ofFn data)) stateIn

/-! What the groups leave. -/

theorem sphRotr32_eq (x : UInt32) {n : UInt32} (hn : 32 - (32 - n) = n) :
    sphRotr32 x n = rotr32 x n := by
  rw [sphRotr32, sphRotl32, hn, UInt32.or_comm, rotr32]

theorem bsg20_eq (x : UInt32) : bsg20 x = sha256.bigSigma0 x := by
  rw [bsg20, sphRotr32_eq x rfl, sphRotr32_eq x rfl, sphRotr32_eq x rfl]
  rfl

theorem bsg21_eq (x : UInt32) : bsg21 x = sha256.bigSigma1 x := by
  rw [bsg21, sphRotr32_eq x rfl, sphRotr32_eq x rfl, sphRotr32_eq x rfl]
  rfl

theorem ssg20_eq (x : UInt32) : ssg20 x = sha256.smallSigma0 x := by
  rw [ssg20, sphRotr32_eq x rfl, sphRotr32_eq x rfl]
  rfl

theorem ssg21_eq (x : UInt32) : ssg21 x = sha256.smallSigma1 x := by
  rw [ssg21, sphRotr32_eq x rfl, sphRotr32_eq x rfl]
  rfl

theorem sphCh_eq (x y z : UInt32) : sphCh x y z = sha256.ch x y z := by
  rw [sphCh, sha256_ch, UInt32.and_comm]

theorem sphK_eq (n : Nat) : sphK.getD n 0 = sha256.k n := rfl

/-- Before group `n`: the roles have moved `n` places, the last sixteen words are kept, and
the difference of the next majority is at hand. -/
structure SphAt (m : Nat → UInt32) (v : Work UInt32) (n : Nat) (s : SphVars) : Prop where
  roles : Work.rotated s.r (Fin.ofNat 8 n) = sha256.run (sha256.schedule m) v n
  words : ∀ t, t < n → n ≤ t + 16 → s.W (t % 16) = sha256.schedule m t
  cached : s.yXorZ = (sha256.run (sha256.schedule m) v n).b ^^^
    (sha256.run (sha256.schedule m) v n).c

theorem sph_role : ∀ n : Fin 64, ∀ j : Fin 8,
    Fin.ofNat 8 (64 + j.val - n.val) = j - Fin.ofNat 8 n.val := by decide +kernel

theorem sph_next : ∀ n : Fin 64, Fin.ofNat 8 (n.val + 1) = Fin.ofNat 8 n.val + 1 := by decide

/-- The word of a group. -/
theorem SphAt.word {m : Nat → UInt32} {v : Work UInt32} {n : Nat} {s : SphVars}
    (h : SphAt m v n s) :
    (if n < 16 then m n
      else ssg21 (s.W ((n + 14) % 16)) + s.W ((n + 9) % 16) + ssg20 (s.W ((n + 1) % 16)) +
        s.W (n % 16)) = sha256.schedule m n := by
  by_cases hlow : n < 16
  · rw [if_pos hlow, sha256.schedule_lt m hlow]
  · obtain ⟨t, rfl⟩ := Nat.exists_eq_add_of_le' (Nat.le_of_not_lt hlow)
    have back : ∀ j, j < 16 → s.W ((t + 16 + j) % 16) = sha256.schedule m (t + j) := by
      intro j hj
      rw [← h.words (t + j) (by omega) (by omega)]
      congr 1
      omega
    rw [if_neg hlow, back 14 (by decide), back 9 (by decide), back 1 (by decide), ssg20_eq,
      ssg21_eq, sha256.schedule_add, ← Nat.add_zero (t + 16), back 0 (by decide)]
    rfl

/-- The lines of a group but for that of its word, on an array whose roles have moved. -/
theorem sphRound_eq {r r' : Fin 8 → UInt32} {n : Fin 8} {k w t1 t2 yXorZ : UInt32}
    (cached : yXorZ = (Work.rotated r n).b ^^^ (Work.rotated r n).c)
    (ht1 : t1 = r (7 - n) + bsg21 (r (4 - n)) + sphCh (r (4 - n)) (r (5 - n)) (r (6 - n)) + k + w)
    (ht2 : t2 = bsg20 (r (0 - n)) + (r (1 - n) ^^^ ((r (0 - n) ^^^ r (1 - n)) &&& yXorZ)))
    (hr' : r' = Function.update (Function.update r (3 - n) (r (3 - n) + t1)) (7 - n) (t1 + t2)) :
    Work.rotated r' (n + 1) = sha256.step (Work.rotated r n) k w := by
  have apart : ∀ n : Fin 8, 3 - n ≠ 7 - n := by decide
  subst cached ht1 ht2 hr'
  refine sha256.rotated_step (fun i h3 h7 => ?_) ?_ ?_
  · rw [Function.update_of_ne h7, Function.update_of_ne h3]
  · rw [Function.update_of_ne (apart n), Function.update_self, bsg21_eq, sphCh_eq]
    rfl
  · rw [Function.update_self, bsg20_eq, bsg21_eq, sphCh_eq]
    simp only [Sha2.step, sha256_maj]
    rfl

theorem SphAt.group {m : Nat → UInt32} {v : Work UInt32} {n : Nat} (hn : n < 64) {s : SphVars}
    (h : SphAt m v n s) : SphAt m v (n + 1) (sphGroup m n s) := by
  have index := sph_role ⟨n, hn⟩
  have hcached : s.yXorZ = (Work.rotated s.r (Fin.ofNat 8 n)).b ^^^
      (Work.rotated s.r (Fin.ofNat 8 n)).c := by
    rw [h.roles]
    exact h.cached
  have hvars : sphGroup m n s = sphGroup m n s := rfl
  conv_rhs at hvars =>
    unfold sphGroup
    rw [h.word,
      show Fin.ofNat 8 (64 - n) = _ from index 0, show Fin.ofNat 8 (65 - n) = _ from index 1,
      show Fin.ofNat 8 (67 - n) = _ from index 3, show Fin.ofNat 8 (68 - n) = _ from index 4,
      show Fin.ofNat 8 (69 - n) = _ from index 5, show Fin.ofNat 8 (70 - n) = _ from index 6,
      show Fin.ofNat 8 (71 - n) = _ from index 7]
  have hround := @sphRound_eq s.r (sphGroup m n s).r (Fin.ofNat 8 n) _ _ _ _ _ hcached rfl rfl
    (by rw [hvars])
  rw [Function.update_self, h.roles, sphK_eq, ← Sha2.run_succ] at hround
  have hW : (sphGroup m n s).W = Function.update s.W (n % 16) (sha256.schedule m n) := by rw [hvars]
  refine ⟨?_, fun t ht hkept => ?_, ?_⟩
  · rw [show Fin.ofNat 8 (n + 1) = _ from sph_next ⟨n, hn⟩]
    exact hround
  · rw [hW]
    rcases Nat.lt_or_eq_of_le (Nat.le_of_lt_succ ht) with hlt | rfl
    · rw [Function.update_of_ne (by omega)]
      exact h.words t hlt (by omega)
    · rw [Function.update_self]
  · have hab : (sphGroup m n s).yXorZ = (Work.rotated s.r (Fin.ofNat 8 n)).a ^^^
        (Work.rotated s.r (Fin.ofNat 8 n)).b := by
      rw [hvars]
      rfl
    rw [hab, h.roles]
    rfl

/-- Whatever the variables held, the transform is that of the standard. -/
theorem sha2RoundBody_eq (W m : Nat → UInt32) (r : ShaState) :
    sha2RoundBody W m r = fipsWordTransform r m := by
  have start : SphAt m (Work.ofFn r) 0 { r, W, yXorZ := r 1 ^^^ r 2 } :=
    ⟨Work.rotated_zero r, fun t ht => absurd ht (Nat.not_lt_zero t), rfl⟩
  have groups : SphAt m (Work.ofFn r) 64 (forUp 0 64 1 (sphGroup m) _) :=
    forUp_inv_unit (by decide) (fun n s => SphAt m (Work.ofFn r) n s) start
      fun n s _ hn h => h.group hn
  have roles := groups.roles
  rw [show Fin.ofNat 8 64 = 0 from rfl, Work.rotated_zero] at roles
  funext i
  rw [fipsWordTransform_apply, ← roles, Work.toFn_ofFn, UInt32.add_comm]
  rfl

theorem sha2Round_eq (W : Nat → UInt32) : sha2Round W = fipsTransform := by
  funext r data
  exact sha2RoundBody_eq W _ r

theorem sphSha256TransformLe_eq (W : Nat → UInt32) :
    sphSha256TransformLe W = fipsWordTransform := by
  funext stateIn data
  exact sha2RoundBody_eq W data stateIn

theorem sphSha256TransformBe_eq (W : Nat → UInt32) : sphSha256TransformBe W = fipsTransform := by
  funext stateIn data
  exact sha2RoundBody_eq W _ stateIn

end SojCivicLight.CivicLight
