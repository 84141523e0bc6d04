import SojCivicLight.Yespower.Functional
import SojCivicLight.Yespower.Tables

/-! A pwxform in memory is a pwxform of tables that are values. -/

namespace SojCivicLight.Yespower

open SojCivicLight.Library

/-- The table `f` lies at `p`. -/
def TableAt (m : Region M128) (p : Nat) (f : Nat → M128) : Prop :=
  ∀ k < 2048, load m (p + 16 * k) = f k

/-- Two tables that do not overlap. -/
def TablesApart (p q : Nat) : Prop := p + 32768 ≤ q ∨ q + 32768 ≤ p

/-- The memory and the locals of a block mix show its block and its tables. -/
structure Shows (s : Region M128 × Yp2State) (a : Mixed) : Prop where
  x : s.2.x = a.1
  S0 : TableAt s.1 s.2.S0 a.2.S0
  S1 : TableAt s.1 s.2.S1 a.2.S1
  S2 : TableAt s.1 s.2.S2 a.2.S2
  w : s.2.w = 16 * a.2.w
  apart01 : TablesApart s.2.S0 s.2.S1
  apart02 : TablesApart s.2.S0 s.2.S2
  apart12 : TablesApart s.2.S1 s.2.S2

section Table

variable {m : Region M128} {p q : Nat} {f : Nat → M128}

theorem TableAt.store_self (h : TableAt m p f) {w : Nat} (v : M128) :
    TableAt (store m (p + 16 * w) v) p (Function.update f w v) := by
  intro k hk
  rcases eq_or_ne k w with rfl | hne
  · rw [load_store_self, Function.update_self]
  · rw [Function.update_of_ne hne, ← h k hk]
    apply load_store_apart
    unfold Apart
    omega

theorem TableAt.store_apart (h : TableAt m p f) (apart : TablesApart q p) {w : Nat}
    (hw : w < 2048) (v : M128) : TableAt (store m (q + 16 * w) v) p f := by
  intro k hk
  rw [← h k hk]
  apply load_store_apart
  unfold TablesApart at apart
  unfold Apart
  omega

theorem TablesApart.symm (h : TablesApart p q) : TablesApart q p := Or.symm h

end Table

/-- The byte offset that the mask leaves of a word. -/
theorem masked_word (x : UInt32) : (x &&& 0x7ff0).toNat = 16 * (x.toNat / 16 % 2048) := by
  have hmask : (0x7ff0 : UInt32).toNat = 2 ^ 4 * (2 ^ 11 - 1) := rfl
  rw [UInt32.toNat_and, hmask]
  apply Nat.eq_of_testBit_eq
  intro i
  rw [Nat.testBit_and, Nat.testBit_two_pow_mul, Nat.testBit_two_pow_sub_one,
    show 16 * (x.toNat / 16 % 2048) = 2 ^ 4 * (x.toNat / 2 ^ 4 % 2 ^ 11) from rfl,
    Nat.testBit_two_pow_mul, Nat.testBit_mod_two_pow, Nat.testBit_div_two_pow]
  by_cases hi : 4 ≤ i
  · rw [Nat.sub_add_cancel hi, Bool.and_comm, Bool.and_assoc]
  · rw [decide_eq_false hi, Bool.false_and, Bool.false_and, Bool.and_false]

namespace Shows

variable {s : Region M128 × Yp2State} {a : Mixed}

theorem look (h : Shows s a) (X : M128) : pwxformSimd s.1 s.2.S0 s.2.S1 X = a.2.look X := by
  obtain ⟨low, high⟩ := masked_words X
  have hlow : (X.d0 &&& smask2_1_0).toUInt32.toNat = 16 * (X.w0.toNat / 16 % 2048) := by
    rw [low]
    exact masked_word X.w0
  have hhigh : ((X.d0 &&& smask2_1_0) >>> 32).toUInt32.toNat = 16 * (X.w1.toNat / 16 % 2048) := by
    rw [high]
    exact masked_word X.w1
  unfold pwxformSimd extract64
  dsimp only
  rw [mulAddXor_eq, hlow, hhigh, h.S0 _ (Nat.mod_lt _ (by decide)),
    h.S1 _ (Nat.mod_lt _ (by decide))]
  rfl

theorem step (h : Shows s a) (k : Fin 4) : Shows (pwxformStep k s) (mixColumn k a) := by
  have hx : (s.2.setX k (pwxformSimd s.1 s.2.S0 s.2.S1 (s.2.x k))).x =
      Function.update a.1 k (a.2.look (a.1 k)) := by
    rw [h.look, h.x]
    exact congrArg (Function.update · k _) h.x
  exact { h with x := hx }

theorem stepWrite0 (h : Shows s a) (k : Fin 4) (hw : a.2.w < 2048) :
    Shows (pwxformStepWrite k Yp2State.S0 s) (keep0 k (mixColumn k a)) := by
  have hv : pwxformSimd s.1 s.2.S0 s.2.S1 (s.2.x k) = (mixColumn k a).1 k := by
    rw [h.look, h.x]
    exact (Function.update_self k _ a.1).symm
  have hx := (h.step k).x
  have hmem : (pwxformStepWrite k Yp2State.S0 s).1 =
      store s.1 (s.2.S0 + 16 * a.2.w) ((mixColumn k a).1 k) := by
    rw [← hv, ← h.w]
    rfl
  refine ⟨hx, ?_, ?_, ?_, h.w, h.apart01, h.apart02, h.apart12⟩
  · rw [hmem]
    exact h.S0.store_self _
  · rw [hmem]
    exact h.S1.store_apart h.apart01 hw _
  · rw [hmem]
    exact h.S2.store_apart h.apart02 hw _

theorem stepWrite1 (h : Shows s a) (k : Fin 4) (hw : a.2.w < 2048) :
    Shows (pwxformStepWrite k Yp2State.S1 s) (keep1 k (mixColumn k a)) := by
  have hv : pwxformSimd s.1 s.2.S0 s.2.S1 (s.2.x k) = (mixColumn k a).1 k := by
    rw [h.look, h.x]
    exact (Function.update_self k _ a.1).symm
  have hx := (h.step k).x
  have hmem : (pwxformStepWrite k Yp2State.S1 s).1 =
      store s.1 (s.2.S1 + 16 * a.2.w) ((mixColumn k a).1 k) := by
    rw [← hv, ← h.w]
    rfl
  refine ⟨hx, ?_, ?_, ?_, h.w, h.apart01, h.apart02, h.apart12⟩
  · rw [hmem]
    exact h.S0.store_apart h.apart01.symm hw _
  · rw [hmem]
    exact h.S1.store_self _
  · rw [hmem]
    exact h.S2.store_apart h.apart12 hw _

theorem bump (h : Shows s a) : Shows (bumpW s) (keepNext a) := by
  refine { h with w := ?_ }
  change s.2.w + 16 = 16 * (a.2.w + 1)
  rw [h.w, Nat.mul_succ]

theorem pairKeep (h : Shows s a) (k k' : Fin 4) (hw : a.2.w < 2048) :
    Shows (bumpW (pwxformStepWrite k' Yp2State.S1 (pwxformStepWrite k Yp2State.S0 s)))
      (mixPairKeep k k' a) :=
  ((h.stepWrite0 k hw).stepWrite1 k' hw).bump

theorem roundWrite4 (h : Shows s a) (hw : a.2.w + 1 < 2048) :
    Shows (pwxformRoundWrite4 s) (mixPairKeep 2 3 (mixPairKeep 0 1 a)) :=
  (h.pairKeep 0 1 (Nat.lt_of_succ_lt hw)).pairKeep 2 3 hw

theorem roundWrite2 (h : Shows s a) (hw : a.2.w < 2048) :
    Shows (pwxformRoundWrite2 s) (mixPair 2 3 (mixPairKeep 0 1 a)) :=
  ((h.pairKeep 0 1 hw).step 2).step 3

theorem turn (h : Shows s a) (hroom : a.2.w % 4 = 0) (hw : a.2.w ≤ 2048) :
    Shows (maskAndRotate s) (turnTables a) := by
  have hbytes := h.w
  refine ⟨h.x, h.S2, h.S0, h.S1, ?_, h.apart02.symm, h.apart12.symm, h.apart01⟩
  change s.2.w &&& smask2_1_0.toNat = 16 * (a.2.w % 2048)
  rw [and_smask2_1_0 (by omega) (by omega)]
  omega

/-- A pwxform, with room for the four pairs it puts into the tables. -/
theorem pwxform (h : Shows s a) (hroom : a.2.w % 4 = 0) (hw : a.2.w < 2048) :
    Shows (pwxform s) (mixOne a) := by
  have first := h.roundWrite4 (show a.2.w + 1 < 2048 by omega)
  have second := first.roundWrite2 (show a.2.w + 2 < 2048 by omega)
  have third := second.roundWrite2 (show a.2.w + 3 < 2048 by omega)
  exact third.turn (show (a.2.w + 4) % 4 = 0 by omega) (show a.2.w + 4 ≤ 2048 by omega)

end Shows

end SojCivicLight.Yespower
