import Mathlib.Data.Fin.VecNotation
import Mathlib.Data.UInt
import Mathlib.Tactic.FinCases

/-! The compression function of the SHA-2 family as FIPS 180-4 states it, and what
implementations of it share: the message schedule as a recurrence, runs of rounds, and
the cheaper forms of the choice and majority functions. -/

namespace SojCivicLight.Library

-- for the numerals of the eight working variables
scoped instance instNeZeroEight : NeZero 8 := ⟨Nat.succ_ne_zero 7⟩

/-- The functions and constants of one member of the family. -/
structure Sha2 (α : Type) where
  bigSigma0 : α → α
  bigSigma1 : α → α
  smallSigma0 : α → α
  smallSigma1 : α → α
  ch : α → α → α → α
  maj : α → α → α → α
  k : Nat → α
  rounds : Nat

/-- The working variables. -/
@[ext] structure Work (α : Type) where
  a : α
  b : α
  c : α
  d : α
  e : α
  f : α
  g : α
  h : α

namespace Work

variable {α : Type}

def ofFn (s : Fin 8 → α) : Work α := ⟨s 0, s 1, s 2, s 3, s 4, s 5, s 6, s 7⟩

def toFn (v : Work α) : Fin 8 → α := ![v.a, v.b, v.c, v.d, v.e, v.f, v.g, v.h]

@[simp] theorem ofFn_toFn (v : Work α) : ofFn v.toFn = v := rfl

theorem toFn_ofFn (s : Fin 8 → α) : (ofFn s).toFn = s := by
  funext i
  fin_cases i <;> rfl

instance [Add α] : Add (Work α) :=
  ⟨fun v w => ⟨v.a + w.a, v.b + w.b, v.c + w.c, v.d + w.d, v.e + w.e, v.f + w.f, v.g + w.g,
    v.h + w.h⟩⟩

theorem toFn_add [Add α] (v w : Work α) : (v + w).toFn = fun i => v.toFn i + w.toFn i := by
  funext i
  fin_cases i <;> rfl

/-- The working variables in an array whose roles move by one place each round, so that
only two of its elements change. -/
def rotated (s : Fin 8 → α) (n : Fin 8) : Work α := ofFn fun j => s (j - n)

theorem rotated_zero (s : Fin 8 → α) : rotated s 0 = ofFn s := by
  have same : ∀ j : Fin 8, j - 0 = j := by decide
  simp only [rotated, same]

theorem rotated_succ {s s' : Fin 8 → α} {n : Fin 8}
    (keep : ∀ i, i ≠ 3 - n → i ≠ 7 - n → s' i = s i) :
    rotated s' (n + 1) =
      ⟨s' (7 - n), (rotated s n).a, (rotated s n).b, (rotated s n).c, s' (3 - n),
        (rotated s n).e, (rotated s n).f, (rotated s n).g⟩ := by
  have inj : ∀ i j n : Fin 8, i - n = j - n → i = j := by decide
  have moved : ∀ i j : Fin 8, j - (n + 1) = i - n → i ≠ 3 → i ≠ 7 →
      s' (j - (n + 1)) = s (i - n) := by
    intro i j hj h3 h7
    rw [hj]
    exact keep _ (fun h => h3 (inj _ _ n h)) (fun h => h7 (inj _ _ n h))
  have place : ∀ i n : Fin 8, i + 1 - (n + 1) = i - n := by decide
  have first : ∀ n : Fin 8, 0 - (n + 1) = 7 - n := by decide
  have fifth : ∀ n : Fin 8, 4 - (n + 1) = 3 - n := by decide
  ext
  · exact congrArg s' (first n)
  · exact moved 0 1 (place 0 n) (by decide) (by decide)
  · exact moved 1 2 (place 1 n) (by decide) (by decide)
  · exact moved 2 3 (place 2 n) (by decide) (by decide)
  · exact congrArg s' (fifth n)
  · exact moved 4 5 (place 4 n) (by decide) (by decide)
  · exact moved 5 6 (place 5 n) (by decide) (by decide)
  · exact moved 6 7 (place 6 n) (by decide) (by decide)

end Work

namespace Sha2

variable {α : Type} (p : Sha2 α)

section Definitions

variable [Add α]

def step (v : Work α) (k w : α) : Work α :=
  let t1 := v.h + p.bigSigma1 v.e + p.ch v.e v.f v.g + k + w
  let t2 := p.bigSigma0 v.a + p.maj v.a v.b v.c
  ⟨t1 + t2, v.a, v.b, v.c, v.d + t1, v.e, v.f, v.g⟩

/-- The working variables after the first `n` rounds. -/
def run (w : Nat → α) (v : Work α) : Nat → Work α
  | 0 => v
  | n + 1 => p.step (run w v n) (p.k n) (w n)

/-- The message schedule of a block. -/
def schedule (m : Nat → α) (t : Nat) : α :=
  if t < 16 then m t
  else
    p.smallSigma1 (schedule m (t - 2)) + schedule m (t - 7) +
      p.smallSigma0 (schedule m (t - 15)) + schedule m (t - 16)

/-- The hash value after a block. -/
def compress (m : Nat → α) (h : Work α) : Work α :=
  p.run (p.schedule m) h p.rounds + h

theorem schedule_lt (m : Nat → α) {t : Nat} (ht : t < 16) : p.schedule m t = m t := by
  rw [schedule, if_pos ht]

theorem schedule_add (m : Nat → α) (t : Nat) :
    p.schedule m (t + 16) =
      p.smallSigma1 (p.schedule m (t + 14)) + p.schedule m (t + 9) +
        p.smallSigma0 (p.schedule m (t + 1)) + p.schedule m t := by
  rw [schedule, if_neg (by omega)]
  rfl

theorem run_succ (w : Nat → α) (v : Work α) (n : Nat) :
    p.run w v (n + 1) = p.step (p.run w v n) (p.k n) (w n) := rfl

/-- A round on an array whose roles move: only the element of `d` and that of `h` change. -/
theorem rotated_step {s s' : Fin 8 → α} {n : Fin 8} {k w : α}
    (keep : ∀ i, i ≠ 3 - n → i ≠ 7 - n → s' i = s i)
    (hd : s' (3 - n) = (p.step (Work.rotated s n) k w).e)
    (hh : s' (7 - n) = (p.step (Work.rotated s n) k w).a) :
    Work.rotated s' (n + 1) = p.step (Work.rotated s n) k w := by
  rw [Work.rotated_succ keep, hd, hh]
  rfl

end Definitions

end Sha2

/-! SHA-256. -/

/-- `ROTR` of the standard. -/
def rotr32 (x n : UInt32) : UInt32 := (x >>> n) ||| (x <<< (32 - n))

def sha256K : List UInt32 :=
  [0x428a2f98, 0x71374491, 0xb5c0fbcf, 0xe9b5dba5, 0x3956c25b, 0x59f111f1, 0x923f82a4,
    0xab1c5ed5, 0xd807aa98, 0x12835b01, 0x243185be, 0x550c7dc3, 0x72be5d74, 0x80deb1fe,
    0x9bdc06a7, 0xc19bf174, 0xe49b69c1, 0xefbe4786, 0x0fc19dc6, 0x240ca1cc, 0x2de92c6f,
    0x4a7484aa, 0x5cb0a9dc, 0x76f988da, 0x983e5152, 0xa831c66d, 0xb00327c8, 0xbf597fc7,
    0xc6e00bf3, 0xd5a79147, 0x06ca6351, 0x14292967, 0x27b70a85, 0x2e1b2138, 0x4d2c6dfc,
    0x53380d13, 0x650a7354, 0x766a0abb, 0x81c2c92e, 0x92722c85, 0xa2bfe8a1, 0xa81a664b,
    0xc24b8b70, 0xc76c51a3, 0xd192e819, 0xd6990624, 0xf40e3585, 0x106aa070, 0x19a4c116,
    0x1e376c08, 0x2748774c, 0x34b0bcb5, 0x391c0cb3, 0x4ed8aa4a, 0x5b9cca4f, 0x682e6ff3,
    0x748f82ee, 0x78a5636f, 0x84c87814, 0x8cc70208, 0x90befffa, 0xa4506ceb, 0xbef9a3f7,
    0xc67178f2]

def sha256 : Sha2 UInt32 where
  bigSigma0 x := rotr32 x 2 ^^^ rotr32 x 13 ^^^ rotr32 x 22
  bigSigma1 x := rotr32 x 6 ^^^ rotr32 x 11 ^^^ rotr32 x 25
  smallSigma0 x := rotr32 x 7 ^^^ rotr32 x 18 ^^^ (x >>> 3)
  smallSigma1 x := rotr32 x 17 ^^^ rotr32 x 19 ^^^ (x >>> 10)
  ch x y z := (x &&& y) ^^^ (~~~x &&& z)
  maj x y z := (x &&& y) ^^^ (x &&& z) ^^^ (y &&& z)
  k t := sha256K.getD t 0
  rounds := 64

/-- The choice function with one operation less. -/
theorem sha256_ch (x y z : UInt32) : sha256.ch x y z = (x &&& (y ^^^ z)) ^^^ z := by
  apply UInt32.eq_of_toBitVec_eq
  apply BitVec.eq_of_getLsbD_eq
  intro i hi
  simp only [sha256, UInt32.toBitVec_xor, UInt32.toBitVec_and, UInt32.toBitVec_not,
    BitVec.getLsbD_xor, BitVec.getLsbD_and, BitVec.getLsbD_not, hi, decide_true, Bool.true_and]
  cases x.toBitVec.getLsbD i <;> simp

/-- The majority function through the differences of neighbours, of which one round can
hand one to the next. -/
theorem sha256_maj (x y z : UInt32) :
    sha256.maj x y z = y ^^^ ((x ^^^ y) &&& (y ^^^ z)) := by
  apply UInt32.eq_of_toBitVec_eq
  apply BitVec.eq_of_getLsbD_eq
  intro i _
  simp only [sha256, UInt32.toBitVec_xor, UInt32.toBitVec_and, BitVec.getLsbD_xor,
    BitVec.getLsbD_and]
  cases x.toBitVec.getLsbD i <;> cases y.toBitVec.getLsbD i <;> cases z.toBitVec.getLsbD i <;> rfl

end SojCivicLight.Library
