import Mathlib.Data.List.Basic
import Mathlib.Data.Nat.Bitwise
import Mathlib.Tactic.Ring

/-! Byte lanes packed into one number, lowest lane first, and the word operations that
act on all lanes at once: bitwise ones always, sums and differences where no lane
carries or borrows. -/

namespace SojCivicLight.Library

def pack : List UInt8 → Nat
  | [] => 0
  | lane :: lanes => lane.toNat + 256 * pack lanes

@[simp] theorem pack_nil : pack [] = 0 := rfl

@[simp] theorem pack_cons (lane : UInt8) (lanes : List UInt8) :
    pack (lane :: lanes) = lane.toNat + 256 * pack lanes := rfl

theorem pack_lt (lanes : List UInt8) : pack lanes < 256 ^ lanes.length := by
  induction lanes with
  | nil => simp
  | cons lane lanes ih =>
      have := lane.toNat_lt
      rw [pack_cons, List.length_cons, Nat.pow_succ]
      omega

theorem pack_append (xs ys : List UInt8) :
    pack (xs ++ ys) = pack xs + 256 ^ xs.length * pack ys := by
  induction xs with
  | nil => simp
  | cons x xs ih =>
      rw [List.cons_append, pack_cons, ih, pack_cons, List.length_cons, Nat.pow_succ]
      ring

/-- Numbers compare by their high lanes first. -/
theorem pack_le_pack_iff (k : Nat) (xs ys : List UInt8) :
    pack xs ≤ pack ys ↔ pack (xs.drop k) < pack (ys.drop k) ∨
      pack (xs.drop k) = pack (ys.drop k) ∧ pack (xs.take k) ≤ pack (ys.take k) := by
  have split : ∀ zs : List UInt8, pack zs = pack (zs.take k) + 256 ^ k * pack (zs.drop k) := by
    intro zs
    by_cases hk : k ≤ zs.length
    · conv_lhs => rw [← List.take_append_drop k zs]
      rw [pack_append, List.length_take, Nat.min_eq_left hk]
    · rw [List.drop_eq_nil_of_le (by omega), List.take_of_length_le (by omega)]
      simp
  have low : ∀ zs : List UInt8, pack (zs.take k) < 256 ^ k := fun zs =>
    (pack_lt _).trans_le (Nat.pow_le_pow_right (by decide) (List.length_take_le k zs))
  have hx := low xs
  have hy := low ys
  rw [split xs, split ys]
  rcases Nat.lt_trichotomy (pack (xs.drop k)) (pack (ys.drop k)) with h | h | h
  · have := Nat.mul_le_mul_left (256 ^ k) (Nat.succ_le_of_lt h)
    rw [Nat.mul_succ] at this
    simp only [h, true_or, iff_true]
    omega
  · rw [h]
    omega
  · have := Nat.mul_le_mul_left (256 ^ k) (Nat.succ_le_of_lt h)
    rw [Nat.mul_succ] at this
    omega

/-- Bit `i` of a packed word is bit `i % 8` of lane `i / 8`. -/
theorem testBit_pack (lanes : List UInt8) (i : Nat) :
    (pack lanes).testBit i = (lanes.getD (i / 8) 0).toNat.testBit (i % 8) := by
  induction lanes generalizing i with
  | nil => simp
  | cons lane lanes ih =>
      have hlane : lane.toNat < 2 ^ 8 := lane.toNat_lt
      rw [pack_cons, Nat.add_comm, show 256 = 2 ^ 8 from rfl,
        Nat.testBit_two_pow_mul_add _ hlane]
      by_cases hi : i < 8
      · rw [if_pos hi, Nat.div_eq_of_lt hi, Nat.mod_eq_of_lt hi, List.getD_cons_zero]
      · obtain ⟨j, rfl⟩ : ∃ j, i = j + 8 := ⟨i - 8, by omega⟩
        rw [if_neg hi, Nat.add_sub_cancel, ih, Nat.add_div_right _ (by omega),
          List.getD_cons_succ, Nat.add_mod_right]

theorem pack_and {xs ys : List UInt8} :
    pack (List.zipWith (· &&& ·) xs ys) = pack xs &&& pack ys := by
  apply Nat.eq_of_testBit_eq
  intro i
  simp only [Nat.testBit_and, testBit_pack, List.getD_eq_getElem?_getD,
    List.getElem?_zipWith]
  cases xs[i / 8]? <;> cases ys[i / 8]? <;> simp

theorem pack_or {xs ys : List UInt8} (hlen : xs.length = ys.length) :
    pack (List.zipWith (· ||| ·) xs ys) = pack xs ||| pack ys := by
  apply Nat.eq_of_testBit_eq
  intro i
  simp only [Nat.testBit_or, testBit_pack, List.getD_eq_getElem?_getD,
    List.getElem?_zipWith]
  by_cases hi : i / 8 < xs.length
  · simp [List.getElem?_eq_getElem hi, List.getElem?_eq_getElem (hlen ▸ hi)]
  · simp [List.getElem?_eq_none (Nat.le_of_not_lt hi),
      List.getElem?_eq_none (hlen ▸ Nat.le_of_not_lt hi)]

theorem pack_eq_zero {lanes : List UInt8} : pack lanes = 0 ↔ ∀ lane ∈ lanes, lane = 0 := by
  induction lanes with
  | nil => simp
  | cons lane lanes ih =>
      rw [pack_cons, List.forall_mem_cons, ← ih, ← UInt8.toNat_inj, UInt8.toNat_zero]
      omega

/-- The lowest `n` lanes of a number. -/
def unpack : Nat → Nat → List UInt8
  | 0, _ => []
  | n + 1, k => UInt8.ofNat k :: unpack n (k / 256)

theorem pack_unpack (n k : Nat) : pack (unpack n k) = k % 256 ^ n := by
  induction n generalizing k with
  | zero => rw [unpack, pack_nil, Nat.pow_zero, Nat.mod_one]
  | succ n ih =>
      have hlane : (UInt8.ofNat k).toNat = k % 256 := rfl
      rw [unpack, pack_cons, ih, hlane, Nat.pow_succ, Nat.mul_comm _ 256, Nat.mod_mul]

theorem unpack_zero (n : Nat) : unpack n 0 = List.replicate n 0 := by
  induction n with
  | zero => rfl
  | succ n ih => rw [unpack, Nat.zero_div, ih, List.replicate_succ]; rfl

/-! Sums in which a lane carries into the next. -/

def carries (k : UInt8) (carry : Bool) (lane : UInt8) : Bool :=
  256 ≤ lane.toNat + k.toNat + carry.toNat

def ripple (k : UInt8) : Bool → List UInt8 → List UInt8
  | _, [] => []
  | carry, lane :: lanes =>
      (lane + k + if carry then 1 else 0) :: ripple k (carries k carry lane) lanes

def rippleCarry (k : UInt8) : Bool → List UInt8 → Bool
  | carry, [] => carry
  | carry, lane :: lanes => rippleCarry k (carries k carry lane) lanes

@[simp] theorem length_ripple (k : UInt8) (carry : Bool) (lanes : List UInt8) :
    (ripple k carry lanes).length = lanes.length := by
  induction lanes generalizing carry with
  | nil => rfl
  | cons lane lanes ih => simp [ripple, ih]

theorem toNat_lane_add (k : UInt8) (carry : Bool) (lane : UInt8) :
    (lane + k + if carry then 1 else 0).toNat + 256 * (carries k carry lane).toNat =
      lane.toNat + k.toNat + carry.toNat := by
  have hlane := lane.toNat_lt
  have hk := k.toNat_lt
  cases carry with
  | false =>
      by_cases h : 256 ≤ lane.toNat + k.toNat
      all_goals simp [carries, UInt8.toNat_add, h]
      all_goals omega
  | true =>
      by_cases h : 256 ≤ lane.toNat + k.toNat + 1
      all_goals simp [carries, UInt8.toNat_add, h]
      all_goals omega

/-- The sum of the words is the lanes' sums with the last carry on top. -/
theorem pack_ripple (k : UInt8) (carry : Bool) (lanes : List UInt8) :
    pack (ripple k carry lanes) + 256 ^ lanes.length * (rippleCarry k carry lanes).toNat =
      pack lanes + pack (List.replicate lanes.length k) + carry.toNat := by
  induction lanes generalizing carry with
  | nil => simp [ripple, rippleCarry]
  | cons lane lanes ih =>
      have hlane := toNat_lane_add k carry lane
      have hrest := ih (carries k carry lane)
      simp only [ripple, rippleCarry, pack_cons, List.length_cons, List.replicate_succ,
        Nat.pow_succ, Nat.mul_assoc, Nat.mul_left_comm _ 256]
      omega

theorem toNat_add_lanes {lanes : List UInt8} (hlanes : lanes.length = 8) {k : UInt8}
    {x y : UInt64} (hx : x.toNat = pack lanes) (hy : y.toNat = pack (List.replicate 8 k)) :
    (x + y).toNat = pack (ripple k false lanes) := by
  have hsum := pack_ripple k false lanes
  have hlt := pack_lt (ripple k false lanes)
  rw [length_ripple] at hlt
  rw [hlanes] at hsum hlt
  have hword : (256 : Nat) ^ 8 = 2 ^ 64 := by norm_num
  rw [hword] at hsum hlt
  rw [UInt64.toNat_add, hx, hy]
  simp only [Bool.toNat_false, Nat.add_zero] at hsum
  rw [← hsum, Nat.add_mul_mod_self_left, Nat.mod_eq_of_lt hlt]

/-- A word that holds `f` of each lane. -/
def Packed (lanes : List UInt8) (f : UInt8 → UInt8) (x : UInt64) : Prop :=
  x.toNat = pack (lanes.map f)

namespace Packed

variable {lanes : List UInt8} {f g h : UInt8 → UInt8} {x y : UInt64}

theorem const (hlanes : lanes.length = 8) {c : UInt8}
    (hx : x.toNat = pack (List.replicate 8 c)) : Packed lanes (fun _ => c) x := by
  rw [Packed, List.map_const', hlanes, hx]

theorem eq_zero (hx : Packed lanes f x) (hzero : ∀ b ∈ lanes, f b = 0) : x = 0 := by
  have hpack : ∀ n, pack (List.replicate n 0) = 0 := fun n => by
    induction n with
    | zero => rfl
    | succ n ih => simp [List.replicate_succ, ih]
  rw [Packed, List.map_eq_replicate_iff.mpr hzero, hpack] at hx
  exact UInt64.toNat_inj.mp hx

theorem and (hx : Packed lanes f x) (hy : Packed lanes g y) :
    Packed lanes (fun b => f b &&& g b) (x &&& y) := by
  rw [Packed, UInt64.toNat_and, hx, hy, ← pack_and, List.zipWith_map, List.zipWith_self]

theorem or (hx : Packed lanes f x) (hy : Packed lanes g y) :
    Packed lanes (fun b => f b ||| g b) (x ||| y) := by
  rw [Packed, UInt64.toNat_or, hx, hy, ← pack_or (by simp), List.zipWith_map,
    List.zipWith_self]

theorem pack_map_add (hadd : ∀ b ∈ lanes, (h b).toNat = (f b).toNat + (g b).toNat) :
    pack (lanes.map h) = pack (lanes.map f) + pack (lanes.map g) := by
  induction lanes with
  | nil => rfl
  | cons b lanes ih =>
      simp only [List.map_cons, pack_cons]
      rw [hadd b List.mem_cons_self, ih fun c hc => hadd c (List.mem_cons_of_mem b hc)]
      omega

theorem pack_map_lt (hlanes : lanes.length = 8) : pack (lanes.map f) < 2 ^ 64 := by
  have := pack_lt (lanes.map f)
  rw [List.length_map, hlanes] at this
  exact this

theorem add (hlanes : lanes.length = 8) (hx : Packed lanes f x) (hy : Packed lanes g y)
    (hadd : ∀ b ∈ lanes, (h b).toNat = (f b).toNat + (g b).toNat) : Packed lanes h (x + y) := by
  have hlt := pack_map_lt (f := h) hlanes
  rw [pack_map_add hadd] at hlt
  rw [Packed, UInt64.toNat_add, hx, hy, Nat.mod_eq_of_lt hlt, pack_map_add hadd]

theorem sub (hx : Packed lanes f x) (hy : Packed lanes g y)
    (hadd : ∀ b ∈ lanes, (f b).toNat = (h b).toNat + (g b).toNat) : Packed lanes h (x - y) := by
  have hsum := pack_map_add hadd
  have hle : y ≤ x := by
    rw [UInt64.le_iff_toNat_le, hx, hy]
    omega
  rw [Packed, UInt64.toNat_sub_of_le _ _ hle, hx, hy]
  omega

theorem not (hlanes : lanes.length = 8) (hx : Packed lanes f x) :
    Packed lanes (fun b => ~~~ f b) (~~~ x) := by
  have hsum := @pack_map_add lanes (fun b => ~~~ f b) f (fun _ => 255) (fun b _ => by
    have := (f b).toNat_lt
    rw [UInt8.toNat_not]
    simp
    omega)
  rw [List.map_const', hlanes, show pack (List.replicate 8 255) = 2 ^ 64 - 1 from rfl] at hsum
  rw [Packed, UInt64.toNat_not, hx]
  simp
  omega

theorem pack_map_mul {c : Nat} (hmul : ∀ b ∈ lanes, (h b).toNat = (f b).toNat * c) :
    pack (lanes.map h) = pack (lanes.map f) * c := by
  induction lanes with
  | nil => simp
  | cons b lanes ih =>
      simp only [List.map_cons, pack_cons]
      rw [hmul b List.mem_cons_self, ih fun d hd => hmul d (List.mem_cons_of_mem b hd),
        Nat.add_mul, Nat.mul_assoc]

theorem mul (hlanes : lanes.length = 8) (hx : Packed lanes f x)
    (hmul : ∀ b ∈ lanes, (h b).toNat = (f b).toNat * y.toNat) : Packed lanes h (x * y) := by
  have hlt := pack_map_lt (f := h) hlanes
  rw [pack_map_mul hmul] at hlt
  rw [Packed, UInt64.toNat_mul, hx, Nat.mod_eq_of_lt hlt, pack_map_mul hmul]

/-- A right shift by `k` brings the low bits of the next lane in from above; a mask that
keeps none of them leaves a shift in every lane. -/
theorem shiftRight_and {mask k : UInt8} {s : UInt64} (hk : k.toNat < 8)
    (hs : s.toNat = k.toNat) (hmask : mask.toNat < 2 ^ (8 - k.toNat))
    (hx : Packed lanes f x) (hy : Packed lanes (fun _ => mask) y) :
    Packed lanes (fun b => (f b >>> k) &&& mask) ((x >>> s) &&& y) := by
  have hs64 : s.toNat % 64 = k.toNat := by omega
  rw [Packed, UInt64.toNat_and, UInt64.toNat_shiftRight, hx, hy, hs64]
  apply Nat.eq_of_testBit_eq
  intro i
  rw [Nat.testBit_and, Nat.testBit_shiftRight, testBit_pack, testBit_pack, testBit_pack]
  by_cases hi : i % 8 < 8 - k.toNat
  · -- the shift stays inside lane `i / 8`
    have hdiv : (k.toNat + i) / 8 = i / 8 := by omega
    have hmod : (k.toNat + i) % 8 = k.toNat + i % 8 := by omega
    rw [hdiv, hmod]
    cases hlane : lanes[i / 8]? with
    | none => simp [List.getD_eq_getElem?_getD, hlane, -List.map_const']
    | some b =>
        simp [List.getD_eq_getElem?_getD, hlane, Nat.testBit_shiftRight, Nat.mod_eq_of_lt hk,
          -List.map_const']
  · have hhigh : mask.toNat.testBit (i % 8) = false :=
      Nat.testBit_eq_false_of_lt
        (Nat.lt_of_lt_of_le hmask (Nat.pow_le_pow_right (by omega) (by omega)))
    cases hlane : lanes[i / 8]? with
    | none => simp [List.getD_eq_getElem?_getD, hlane, -List.map_const']
    | some b => simp [List.getD_eq_getElem?_getD, hlane, hhigh, -List.map_const']

end Packed

end SojCivicLight.Library
