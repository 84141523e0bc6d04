import Mathlib.Data.Nat.Prime.Basic
import Mathlib.Tactic.Ring
import SojCivicLight.Yespower.Advance

/-! Where the four-lane SMix goes wrong: at the start of `smix1`.  Its plain mixes leave
out the blocks that the scalar ones add, and spread the input over the first slot with
mixes of the full width.  What comes after is the scalar code, from wherever it starts. -/

namespace SojCivicLight.Yespower

open SojCivicLight.Library

/-- `smix1_1_0` with a context, and then `smix2_1_0`. -/
def smix1Smix2 (m : Region M128) (B r N Nloop V XY : Nat) (ctx : PwxformCtx) :
    Region M128 × PwxformCtx :=
  let (m, ctx') := smix1 m B r N V XY (some ctx)
  smix2 m B r N Nloop V XY (ctx'.getD ctx)

/-- `civic_smix1_1_0_4way` and then `civic_smix2_1_0_4way`. -/
def civicSmix1Smix2_4way {ρ : Type} [DecidableEq ρ] (reg : Fin 4 → ρ) (B : Fin 4 → Nat)
    (r N Nloop : Nat) (V XY : Fin 4 → Nat) (P : Lanes 4 ρ M128 PwxformCtx) :
    Lanes 4 ρ M128 PwxformCtx :=
  civicSmix2_1_0_4way reg B r N Nloop V XY (civicSmix1_1_0_4way reg B r N V XY P)

theorem smix1Smix2_eq (m : Region M128) (B r N Nloop V XY : Nat) (ctx : PwxformCtx) :
    smix1Smix2 m B r N Nloop V XY ctx =
      smixRest B r N Nloop V XY (smix1StartWith ctxKernels B r V (m, ctx)) := by
  simp only [smix1Smix2, smix1_some, Option.getD_some]
  exact smixRest_ctxKernels B r N Nloop V XY (m, ctx)

theorem lane_civicSmix1Smix2_4way {ρ : Type} [DecidableEq ρ] {reg : Fin 4 → ρ}
    (hreg : Function.Injective reg) (B : Fin 4 → Nat) {r : Nat} (hr : 1 ≤ r) {N : Nat}
    (hN : 4 ≤ N) (heven : N % 2 = 0) (Nloop : Nat) (V XY : Fin 4 → Nat)
    (P : Lanes 4 ρ M128 PwxformCtx) (l : Fin 4) :
    (civicSmix1Smix2_4way reg B r N Nloop V XY P).lane reg l =
      smixRest (B l) r N Nloop (V l) (XY l)
        (smix1StartWith (fourKernels r) (B l) r (V l) (P.lane reg l)) := by
  have hfill := Prod.ext_iff.mp (lane_civicSmix1_1_0_4way hreg B hr hN heven V XY P l)
  simp only [Lanes.lane] at hfill
  rw [civicSmix1Smix2_4way, lane_civicSmix2_1_0_4way hreg B hr, hfill.1, hfill.2]
  exact smixRest_fourKernels (B l) r N Nloop (V l) (XY l) (P.lane reg l)

/-! The width of the spreading mixes. -/

theorem dvd_of_dvd_mul_self {n : Nat} (h : 768 ∣ n * n) : 48 ∣ n := by
  have h16 : 16 ∣ n := by
    have : 16 ^ 2 ∣ n ^ 2 := by
      rw [Nat.pow_two n]
      exact Nat.dvd_trans (by decide) h
    exact (Nat.pow_dvd_pow_iff (by decide)).mp this
  have h3 : 3 ∣ n := by
    have : 3 ∣ n * n := Nat.dvd_trans (by decide) h
    exact (Nat.prime_three.dvd_mul.mp this).elim id id
  exact Nat.Coprime.mul_dvd_of_dvd_of_dvd (by decide) h16 h3

/-- Twice a square is a multiple of 1536 when its root is one of 48. -/
theorem twice_square_mod {n : Nat} : 2 * n * n % 1536 = 0 ↔ n % 48 = 0 := by
  constructor
  · intro h
    have hdvd : 2 * 768 ∣ 2 * (n * n) := by
      rw [← Nat.mul_assoc]
      exact Nat.dvd_of_mod_eq_zero h
    exact Nat.mod_eq_zero_of_dvd
      (dvd_of_dvd_mul_self (Nat.dvd_of_mul_dvd_mul_left (by decide) hdvd))
  · intro h
    obtain ⟨k, rfl⟩ := Nat.dvd_of_mod_eq_zero h
    rw [show 2 * (48 * k) * (48 * k) = 1536 * (3 * (k * k)) by ring]
    exact Nat.mul_mod_right 1536 _

/-- On every input the four lanes leave the contexts of the scalar code exactly when `r`
is one more than a multiple of 48. -/
theorem smixRest_ctx_eq_iff {S r : Nat} (hr : 1 ≤ r) (B N Nloop V XY : Nat)
    (m : Region M128) {ctx : PwxformCtx} (hok : ctx.TablesOk S) :
    (smixRest B r N Nloop V XY (smix1StartWith (fourKernels r) B r V (m, ctx))).2 =
        (smixRest B r N Nloop V XY (smix1StartWith ctxKernels B r V (m, ctx))).2 ↔
      r % 48 = 1 := by
  obtain ⟨k, rfl⟩ : ∃ k, r = k + 1 := ⟨r - 1, by omega⟩
  have hfour := @smix1StartWith_ctx (fourKernels (k + 1)) (k + 1) (2 * (k + 1)) hr
    (fun Bin Bout s => blockmixPlain_ctx s.1 Bin Bout s.2 hr)
    (fun Bin Bout s => blockmixPlain_ctx s.1 Bin Bout s.2 hr) B V (m, ctx)
  have hscalar := @smix1StartWith_ctx ctxKernels (k + 1) 2 hr
    (fun Bin Bout s => blockmixPwxform_ctx s.1 Bin Bout s.2 (Nat.le_refl 1))
    (fun Bin Bout s => blockmixPwxform_ctx s.1 Bin Bout s.2 hr) B V (m, ctx)
  -- the spreading mixes of the lanes run `2 * k * k` pwxforms more than the scalar ones
  have hapart : 4 * (k + 1) + 2 * (k + 1) * (k + 1 - 1) =
      2 * k * k + (4 * (k + 1) + 2 * (k + 1 - 1)) := by
    rw [Nat.add_sub_cancel]
    ring
  rw [hapart, Function.iterate_add_apply, ← hscalar] at hfour
  have hok' : (smix1StartWith ctxKernels B (k + 1) V (m, ctx)).2.ctx.TablesOk S := by
    rw [hscalar]
    exact hok.advance_iterate _
  obtain ⟨hrest, hdone⟩ := @smixRest_ctx
    (fun c c' => c = PwxformCtx.advance^[2 * k * k] c' ∧ c'.TablesOk S)
    (fun c c' h => ⟨by
      rw [h.1, ← Function.iterate_succ_apply' PwxformCtx.advance, Function.iterate_succ_apply],
      h.2.advance⟩) _ hr B N Nloop V XY _ _ ⟨hfour, hok'⟩
  rw [hrest, advance_iterate_eq_iff hdone, twice_square_mod]
  omega

/-! The blocks left out. -/

def mixState (m : Region M128) (Bin Bout r : Nat) (ctx : PwxformCtx) (i : Nat) :
    Region M128 × Yp2State :=
  forUp 0 i 1 (blockmixRound Bin Bout (r * 2 - 1))
    (m, ctx.load (loadBlk m (Bin + 64 * (r * 2 - 1))))

/-- No block that the mix adds makes a difference to the pwxform after it. -/
def MixIdle (m : Region M128) (Bin Bout r : Nat) (ctx : PwxformCtx) : Prop :=
  ∀ i < 2 * r, pwxform (xorX (Bin + 64 * i) (mixState m Bin Bout r ctx i)) =
    pwxform (mixState m Bin Bout r ctx i)

/-- At width one, no block that the two mixes at the start of `smix1` add makes a
difference: neither the two blocks of input nor the two blocks of the slot mixed from
them. -/
def StartIdle (m : Region M128) (B V : Nat) (ctx : PwxformCtx) : Prop :=
  let m := forUp 0 2 1 (fun i => shuffleIn (B + 64 * i) (V + 128) (V + 64 * i)) m
  let s := blockmixPwxform m V (V + 128) 1 ctx
  MixIdle m V (V + 128) 1 ctx ∧ MixIdle s.1 (V + 128) (V + 256) 1 s.2

theorem mixState_succ (m : Region M128) (Bin Bout r : Nat) (ctx : PwxformCtx) (i : Nat) :
    mixState m Bin Bout r ctx (i + 1) =
      blockmixRound Bin Bout (r * 2 - 1) i (mixState m Bin Bout r ctx i) :=
  forUp_succ (Nat.zero_le i) _ _

theorem blockmixPwxform_eq_mixState (m : Region M128) (Bin Bout r : Nat) (ctx : PwxformCtx) :
    blockmixPwxform m Bin Bout r ctx =
      let s := mixState m Bin Bout r ctx (r * 2 - 1 + 1)
      (storeBlk s.1 (Bout + 64 * (r * 2 - 1)) (salsa20Two s.2.x), ctx.save s.2) :=
  blockmixPwxform_eq m Bin Bout r ctx

theorem plain_rounds_eq {m : Region M128} {Bin Bout r : Nat} {ctx : PwxformCtx} {count : Nat}
    (idle : ∀ i < count, pwxform (xorX (Bin + 64 * i) (mixState m Bin Bout r ctx i)) =
      pwxform (mixState m Bin Bout r ctx i)) :
    forUp 0 count 1 (blockmixPlainRound Bout (r * 2 - 1))
        (m, ctx.load (loadBlk m (Bin + 64 * (r * 2 - 1)))) =
      mixState m Bin Bout r ctx count := by
  induction count with
  | zero => rw [mixState, forUp_of_le (Nat.le_refl 0), forUp_of_le (Nat.le_refl 0)]
  | succ count ih =>
      have hround := idle count (Nat.lt_succ_self count)
      rw [forUp_succ (Nat.zero_le count), ih fun i hi => idle i (by omega), mixState_succ]
      simp only [blockmixPlainRound, blockmixRound, hround]

theorem MixIdle.blockmixPlain_eq {m : Region M128} {Bin Bout r : Nat} {ctx : PwxformCtx}
    (hr : 1 ≤ r) (idle : MixIdle m Bin Bout r ctx) :
    blockmixPlain m Bin Bout r ctx = blockmixPwxform m Bin Bout r ctx := by
  have hrounds := plain_rounds_eq fun i (hi : i < r * 2 - 1 + 1) => idle i (by omega)
  rw [blockmixPlain, blockmixPwxform_eq_mixState, hrounds]

theorem smix1StartWith_one {κ : Type} (K : FillKernels κ) (B V : Nat) (s : Region M128 × κ) :
    smix1StartWith K B 1 V s =
      let m := forUp 0 2 1 (fun i => shuffleIn (B + 64 * i) (V + 128) (V + 64 * i)) s.1
      let s := K.mix (V + 128) (V + 256) 1 (K.mix V (V + 128) 1 (m, s.2))
      (s.1, { ctx := s.2, X := V + 256, Y := V + 128,
              j := (integerify s.1 (V + 256) 1).toNat }) := by
  rw [smix1StartWith, forUp_of_le (Nat.le_refl 1)]

theorem StartIdle.start_eq {m : Region M128} {B V : Nat} {ctx : PwxformCtx}
    (idle : StartIdle m B V ctx) :
    smix1StartWith (fourKernels 1) B 1 V (m, ctx) =
      smix1StartWith ctxKernels B 1 V (m, ctx) := by
  obtain ⟨first, second⟩ := idle
  rw [smix1StartWith_one, smix1StartWith_one]
  simp only [fourKernels, ctxKernels, first.blockmixPlain_eq (Nat.le_refl 1),
    second.blockmixPlain_eq (Nat.le_refl 1)]

end SojCivicLight.Yespower
