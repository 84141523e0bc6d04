import SojCivicLight.CivicLight.Fips
import SojCivicLight.Library.Loop

/-! The SHA-256 that yespower has of its own. -/

namespace SojCivicLight.Yespower

open SojCivicLight.Library
open SojCivicLight.CivicLight
open SojCivicLight.Util

/-! The block compression function. -/

def krnd : List UInt32 :=
  [0x428a2f98, 0x71374491, 0xb5c0fbcf, 0xe9b5dba5, 0x3956c25b, 0x59f111f1, 0x923f82a4, 0xab1c5ed5,
    0xd807aa98, 0x12835b01, 0x243185be, 0x550c7dc3, 0x72be5d74, 0x80deb1fe, 0x9bdc06a7, 0xc19bf174,
    0xe49b69c1, 0xefbe4786, 0x0fc19dc6, 0x240ca1cc, 0x2de92c6f, 0x4a7484aa, 0x5cb0a9dc, 0x76f988da,
    0x983e5152, 0xa831c66d, 0xb00327c8, 0xbf597fc7, 0xc6e00bf3, 0xd5a79147, 0x06ca6351, 0x14292967,
    0x27b70a85, 0x2e1b2138, 0x4d2c6dfc, 0x53380d13, 0x650a7354, 0x766a0abb, 0x81c2c92e, 0x92722c85,
    0xa2bfe8a1, 0xa81a664b, 0xc24b8b70, 0xc76c51a3, 0xd192e819, 0xd6990624, 0xf40e3585, 0x106aa070,
    0x19a4c116, 0x1e376c08, 0x2748774c, 0x34b0bcb5, 0x391c0cb3, 0x4ed8aa4a, 0x5b9cca4f, 0x682e6ff3,
    0x748f82ee, 0x78a5636f, 0x84c87814, 0x8cc70208, 0x90befffa, 0xa4506ceb, 0xbef9a3f7, 0xc67178f2]

def chMacro (x y z : UInt32) : UInt32 := (x &&& (y ^^^ z)) ^^^ z

def rotr (x n : UInt32) : UInt32 := (x >>> n) ||| (x <<< (32 - n))

def bigS0 (x : UInt32) : UInt32 := rotr x 2 ^^^ rotr x 13 ^^^ rotr x 22

def bigS1 (x : UInt32) : UInt32 := rotr x 6 ^^^ rotr x 11 ^^^ rotr x 25

def smallS0 (x : UInt32) : UInt32 := rotr x 7 ^^^ rotr x 18 ^^^ (x >>> 3)

def smallS1 (x : UInt32) : UInt32 := rotr x 17 ^^^ rotr x 19 ^^^ (x >>> 10)

/-- `RND` on the elements of `S`; `Maj` sets `x_xor_y` and reads `y_xor_z`. -/
def rnd (S : Fin 8 → UInt32) (yXorZ : UInt32) (a b _c d e f g h : Fin 8) (k : UInt32) :
    (Fin 8 → UInt32) × UInt32 :=
  let S := Function.update S h (S h + (bigS1 (S e) + chMacro (S e) (S f) (S g) + k))
  let S := Function.update S d (S d + S h)
  let xXorY := S a ^^^ S b
  let S := Function.update S h (S h + (bigS0 (S a) + (S b ^^^ (xXorY &&& yXorZ))))
  (S, xXorY)

def rndr (W : Nat → UInt32) (i ii : Nat) (s : (Fin 8 → UInt32) × UInt32) :
    (Fin 8 → UInt32) × UInt32 :=
  rnd s.1 s.2 (Fin.ofNat 8 (64 - i)) (Fin.ofNat 8 (65 - i)) (Fin.ofNat 8 (66 - i))
    (Fin.ofNat 8 (67 - i)) (Fin.ofNat 8 (68 - i)) (Fin.ofNat 8 (69 - i)) (Fin.ofNat 8 (70 - i))
    (Fin.ofNat 8 (71 - i)) (W (i + ii) + krnd.getD (i + ii) 0)

def msch (ii i : Nat) (W : Nat → UInt32) : Nat → UInt32 :=
  Function.update W (i + ii + 16)
    (smallS1 (W (i + ii + 14)) + W (i + ii + 9) + smallS0 (W (i + ii + 1)) + W (i + ii))

/-- The body of the loop over `i`: sixteen rounds, and sixteen words unless it breaks. -/
def sha256Mix (i : Nat) (s : (Fin 8 → UInt32) × (Nat → UInt32)) :
    (Fin 8 → UInt32) × (Nat → UInt32) :=
  let yXorZ := s.1 (Fin.ofNat 8 (65 - i)) ^^^ s.1 (Fin.ofNat 8 (66 - i))
  let S := (forUp 0 16 1 (fun j => rndr s.2 j i) (s.1, yXorZ)).1
  if i = 48 then (S, s.2) else (S, forUp 0 16 1 (fun j => msch j i) s.2)

/-- `SHA256_Transform`; `W` is what the scratch held before. -/
def sha256Transform (W : Nat → UInt32) : Transform := fun state block =>
  let W := fun t => if t < 16 then wordAt be32dec (List.ofFn block) t else W t
  let S := (forUp 0 64 16 sha256Mix (state, W)).1
  fun i => state i + S i

/-! What the loops leave. -/

theorem bigS0_eq : bigS0 = sha256.bigSigma0 := rfl

theorem bigS1_eq : bigS1 = sha256.bigSigma1 := rfl

theorem krnd_eq (t : Nat) : krnd.getD t 0 = sha256.k t := rfl

/-- A round on an array whose roles have moved by `n` is a round of the standard, and what
it hands on is the difference that the next one needs. -/
theorem rnd_eq (S : Fin 8 → UInt32) (n : Fin 8) (k w : UInt32) {yXorZ : UInt32}
    (cached : yXorZ = (Work.rotated S n).b ^^^ (Work.rotated S n).c) :
    let r := rnd S yXorZ (0 - n) (1 - n) (2 - n) (3 - n) (4 - n) (5 - n) (6 - n) (7 - n) (w + k)
    Work.rotated r.1 (n + 1) = sha256.step (Work.rotated S n) k w ∧
      r.2 = (sha256.step (Work.rotated S n) k w).b ^^^
        (sha256.step (Work.rotated S n) k w).c := by
  have apart : ∀ i j n : Fin 8, i ≠ j → i - n ≠ j - n := by decide
  have a_h := apart 0 7 n (by decide)
  have a_d := apart 0 3 n (by decide)
  have b_h := apart 1 7 n (by decide)
  have b_d := apart 1 3 n (by decide)
  have d_h := apart 3 7 n (by decide)
  subst cached
  intro r
  have keep : ∀ i, i ≠ 3 - n → i ≠ 7 - n → r.1 i = S i := fun i h3 h7 =>
    (Function.update_of_ne h7 _ _).trans
      ((Function.update_of_ne h3 _ _).trans (Function.update_of_ne h7 _ _))
  have hd : r.1 (3 - n) = (sha256.step (Work.rotated S n) k w).e := by
    simp only [r, rnd, Function.update_self, Function.update_of_ne d_h, Sha2.step, sha256_ch,
      bigS1_eq, chMacro, Work.rotated, Work.ofFn]
    ac_rfl
  have hh : r.1 (7 - n) = (sha256.step (Work.rotated S n) k w).a := by
    simp only [r, rnd, Function.update_self, Function.update_of_ne d_h.symm,
      Function.update_of_ne a_h, Function.update_of_ne a_d, Function.update_of_ne b_h,
      Function.update_of_ne b_d, Sha2.step, sha256_ch, sha256_maj, bigS0_eq, bigS1_eq, chMacro,
      Work.rotated, Work.ofFn]
    ac_rfl
  refine ⟨?_, ?_⟩
  · exact sha256.rotated_step keep hd hh
  · simp only [r, rnd, Function.update_of_ne a_h, Function.update_of_ne a_d,
      Function.update_of_ne b_h, Function.update_of_ne b_d]
    rfl

theorem role_index : ∀ i : Fin 16, ∀ j : Fin 8,
    Fin.ofNat 8 (64 + j.val - i.val) = j - Fin.ofNat 8 i.val := by decide

theorem role_next : ∀ i : Fin 16, Fin.ofNat 8 (i.val + 1) = Fin.ofNat 8 i.val + 1 := by decide

/-- What the array and the cached difference hold after `n` rounds. -/
structure RolesAt (w : Nat → UInt32) (v : Work UInt32) (i n : Nat)
    (s : (Fin 8 → UInt32) × UInt32) : Prop where
  roles : Work.rotated s.1 (Fin.ofNat 8 i) = sha256.run w v n
  cached : s.2 = (sha256.run w v n).b ^^^ (sha256.run w v n).c

theorem RolesAt.round {W w : Nat → UInt32} {v : Work UInt32} {i ii : Nat} (hi : i < 16)
    {s : (Fin 8 → UInt32) × UInt32} (h : RolesAt w v i (i + ii) s)
    (word : W (i + ii) = w (i + ii)) :
    RolesAt w v (i + 1) (i + 1 + ii) (rndr W i ii s) := by
  have index := role_index ⟨i, hi⟩
  have hcached : s.2 = (Work.rotated s.1 (Fin.ofNat 8 i)).b ^^^
      (Work.rotated s.1 (Fin.ofNat 8 i)).c := by
    rw [h.roles]
    exact h.cached
  obtain ⟨roles, cached⟩ := rnd_eq s.1 (Fin.ofNat 8 i) (krnd.getD (i + ii) 0) (W (i + ii)) hcached
  have next : sha256.step (Work.rotated s.1 (Fin.ofNat 8 i)) (krnd.getD (i + ii) 0)
      (W (i + ii)) = sha256.run w v (i + 1 + ii) := by
    rw [h.roles, word, krnd_eq, Nat.add_right_comm, Sha2.run_succ]
  have place : rndr W i ii s = rnd s.1 s.2 (0 - Fin.ofNat 8 i) (1 - Fin.ofNat 8 i)
      (2 - Fin.ofNat 8 i) (3 - Fin.ofNat 8 i) (4 - Fin.ofNat 8 i) (5 - Fin.ofNat 8 i)
      (6 - Fin.ofNat 8 i) (7 - Fin.ofNat 8 i) (W (i + ii) + krnd.getD (i + ii) 0) := by
    unfold rndr
    rw [show Fin.ofNat 8 (64 - i) = _ from index 0, show Fin.ofNat 8 (65 - i) = _ from index 1,
      show Fin.ofNat 8 (66 - i) = _ from index 2, show Fin.ofNat 8 (67 - i) = _ from index 3,
      show Fin.ofNat 8 (68 - i) = _ from index 4, show Fin.ofNat 8 (69 - i) = _ from index 5,
      show Fin.ofNat 8 (70 - i) = _ from index 6, show Fin.ofNat 8 (71 - i) = _ from index 7]
  rw [place]
  refine ⟨?_, ?_⟩
  · rw [show Fin.ofNat 8 (i + 1) = _ from role_next ⟨i, hi⟩]
    exact roles.trans next
  · rw [← next]
    exact cached

theorem rolesAt_rounds {W w : Nat → UInt32} {v : Work UInt32} {ii : Nat}
    (words : ∀ i, i < 16 → W (i + ii) = w (i + ii)) {s : (Fin 8 → UInt32) × UInt32}
    (h : RolesAt w v 0 ii s) :
    RolesAt w v 16 (16 + ii) (forUp 0 16 1 (fun j => rndr W j ii) s) := by
  have start : RolesAt w v 0 (0 + ii) s := by
    rw [Nat.zero_add]
    exact h
  exact forUp_inv_unit (by decide) (fun i s => RolesAt w v i (i + ii) s) start
    fun i s _ hi at_i => at_i.round hi (words i hi)

/-- The words up to the `n`-th are those of the schedule. -/
def ScheduledTo (m : Nat → UInt32) (n : Nat) (W : Nat → UInt32) : Prop :=
  ∀ t, t < n → W t = sha256.schedule m t

theorem ScheduledTo.next {m W : Nat → UInt32} {ii i : Nat}
    (h : ScheduledTo m (i + ii + 16) W) : ScheduledTo m (i + ii + 17) (msch ii i W) := by
  intro t ht
  rcases Nat.lt_or_eq_of_le (Nat.le_of_lt_succ ht) with hlt | rfl
  · exact (Function.update_of_ne (Nat.ne_of_lt hlt) _ _).trans (h t hlt)
  · rw [msch, Function.update_self, h _ (by omega), h _ (by omega), h _ (by omega),
      h _ (by omega), sha256.schedule_add]
    rfl

theorem scheduledTo_words {m W : Nat → UInt32} {i : Nat} (h : ScheduledTo m (i + 16) W) :
    ScheduledTo m (i + 32) (forUp 0 16 1 (fun j => msch j i) W) := by
  have start : ScheduledTo m (i + 0 + 16) W := h
  exact forUp_inv_unit (by decide) (fun j W => ScheduledTo m (i + j + 16) W) start
    fun j W _ _ at_j => at_j.next

/-- Where the loop over `i` stands. -/
structure MixAt (m : Nat → UInt32) (v : Work UInt32) (i : Nat)
    (s : (Fin 8 → UInt32) × (Nat → UInt32)) : Prop where
  state : Work.ofFn s.1 = sha256.run (sha256.schedule m) v i
  words : i < 64 → ScheduledTo m (i + 16) s.2

theorem MixAt.round {m : Nat → UInt32} {v : Work UInt32} {q : Nat} (hq : q < 4)
    {s : (Fin 8 → UInt32) × (Nat → UInt32)} (h : MixAt m v (16 * q) s) :
    MixAt m v (16 * (q + 1)) (sha256Mix (16 * q) s) := by
  have second : ∀ q : Fin 4, Fin.ofNat 8 (65 - 16 * q.val) = 1 := by decide
  have third : ∀ q : Fin 4, Fin.ofNat 8 (66 - 16 * q.val) = 2 := by decide
  have words := h.words (by omega)
  have start : RolesAt (sha256.schedule m) v 0 (16 * q)
      (s.1, s.1 (Fin.ofNat 8 (65 - 16 * q)) ^^^ s.1 (Fin.ofNat 8 (66 - 16 * q))) := by
    refine ⟨(Work.rotated_zero s.1).trans h.state, ?_⟩
    rw [← h.state, second ⟨q, hq⟩, third ⟨q, hq⟩]
    rfl
  have rounds := (rolesAt_rounds (fun i hi => words (i + 16 * q) (by omega)) start).roles
  have whole : ∀ S : Fin 8 → UInt32, Work.rotated S (Fin.ofNat 8 16) = Work.ofFn S :=
    fun S => Work.rotated_zero S
  rw [whole, show 16 + 16 * q = 16 * (q + 1) by omega] at rounds
  unfold sha256Mix
  by_cases last : 16 * q = 48
  · rw [if_pos last]
    exact ⟨rounds, fun hlt => by omega⟩
  · rw [if_neg last]
    exact ⟨rounds, fun _ => scheduledTo_words words⟩

/-- Whatever the scratch holds, the transform is that of the standard. -/
theorem sha256Transform_eq (W : Nat → UInt32) : sha256Transform W = fipsTransform := by
  funext state block i
  have start : MixAt (blockWords block) (Work.ofFn state) 0
      (state, fun t => if t < 16 then wordAt be32dec (List.ofFn block) t else W t) := by
    refine ⟨rfl, fun _ t ht => ?_⟩
    rw [sha256.schedule_lt _ ht]
    exact if_pos ht
  have loop : MixAt (blockWords block) (Work.ofFn state) 64 (forUp 0 64 16 sha256Mix _) :=
    @forUp_inv _ 0 64 16 sha256Mix _ (fun i s => MixAt (blockWords block) (Work.ofFn state) i s)
      start (fun q s hlt h => by
        rw [Nat.zero_add] at hlt h ⊢
        rw [Nat.zero_add]
        exact h.round (by omega))
  rw [fipsTransform, fipsWordTransform_apply, ← loop.state, Work.toFn_ofFn, UInt32.add_comm]
  rfl

end SojCivicLight.Yespower
