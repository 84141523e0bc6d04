import SojCivicLight.Yespower.FourWay
import SojCivicLight.Yespower.Kernels

/-! The lanes of the four-lane SMix: its two mixes that add two inputs are the scalar
ones, lane by lane, and so is the random walk; its plain mix is the scalar one without
the blocks that the scalar one adds, `r` pairs of them wherever it is called. -/

namespace SojCivicLight.Yespower

open SojCivicLight.Library

/-- One block of `civic_blockmix_4way` in one lane. -/
def blockmixPlainRound (Bout last i : Nat) (s : Region M128 × Yp2State) :
    Region M128 × Yp2State :=
  let s := pwxform s
  if i ≠ last then writeX (Bout + 64 * i) s else s

/-- `civic_blockmix_4way` in one lane. -/
def blockmixPlain (m : Region M128) (Bin Bout r : Nat) (ctx : PwxformCtx) :
    Region M128 × PwxformCtx :=
  let last := r * 2 - 1
  let s := forUp 0 (last + 1) 1 (blockmixPlainRound Bout last)
    (m, ctx.load (loadBlk m (Bin + 64 * last)))
  (storeBlk s.1 (Bout + 64 * last) (salsa20Two s.2.x), ctx.save s.2)

/-- The kernels of one of the four lanes, in a hash of width `r`. -/
def fourKernels (r : Nat) : FillKernels PwxformCtx where
  mix := fun Bin Bout _ s => blockmixPlain s.1 Bin Bout r s.2
  mixXor := fun Bin1 Bin2 Bout r s => blockmixXorPwxform s.1 Bin1 Bin2 Bout r s.2

variable {ρ : Type} [DecidableEq ρ] {reg : Fin 4 → ρ}

omit [DecidableEq ρ] in
theorem lane_civicYp4Step (k : Fin 4) (P : Lanes 4 ρ M128 Yp2State) (l : Fin 4) :
    (civicYp4Step reg k P).lane reg l = pwxformStep k (P.lane reg l) :=
  rfl

theorem lane_civicYp4StepWrite (hreg : Function.Injective reg) (k : Fin 4)
    {member : Yp2State → Nat} (hmember : ∀ st v, member (st.setX k v) = member st)
    (P : Lanes 4 ρ M128 Yp2State) (l : Fin 4) :
    (civicYp4StepWrite reg k member P).lane reg l =
      pwxformStepWrite k member (P.lane reg l) := by
  rw [civicYp4StepWrite, Lanes.lane_all hreg, lane_civicYp4Step]
  simp only [pwxformStep, pwxformStepWrite, hmember]
  simp only [Yp2State.setX, Function.update_self]

theorem lane_civicPwxform4way (hreg : Function.Injective reg) (P : Lanes 4 ρ M128 Yp2State)
    (l : Fin 4) : (civicPwxform4way reg P).lane reg l = pwxform (P.lane reg l) := by
  have hS0 := fun k => @lane_civicYp4StepWrite ρ _ reg hreg k Yp2State.S0 fun _ _ => rfl
  have hS1 := fun k => @lane_civicYp4StepWrite ρ _ reg hreg k Yp2State.S1 fun _ _ => rfl
  simp only [civicPwxform4way, Lanes.lane_all hreg, hS0, hS1, lane_civicYp4Step, pwxform,
    pwxformRoundWrite4, pwxformRoundWrite2]

theorem lane_civicFinish4way (hreg : Function.Injective reg) (Bout : Fin 4 → Nat)
    (last : Nat) (ctx : Fin 4 → PwxformCtx) (Q : Lanes 4 ρ M128 Yp2State) (l : Fin 4) :
    (civicFinish4way reg Bout last ctx Q).lane reg l =
      (storeBlk (Q.lane reg l).1 (Bout l + 64 * last) (salsa20Two (Q.lane reg l).2.x),
        (ctx l).save (Q.lane reg l).2) := by
  have hstored := Prod.ext_iff.mp (Lanes.lane_all hreg
    (fun l s => (storeBlk s.1 (Bout l + 64 * last) (salsa20Two s.2.x), s.2)) Q l)
  simp only [Lanes.lane] at hstored
  simp only [civicFinish4way, Lanes.lane, hstored.1, hstored.2]

/-- The word read back after a lane has finished is the first word it stored. -/
theorem lane_civicResult4way (hreg : Function.Injective reg) (Bout : Fin 4 → Nat)
    (last : Nat) (ctx : Fin 4 → PwxformCtx) (Q : Lanes 4 ρ M128 Yp2State) (l : Fin 4) :
    (civicResult4way reg Bout last (civicFinish4way reg Bout last ctx Q)).lane reg l =
      (storeBlk (Q.lane reg l).1 (Bout l + 64 * last) (salsa20Two (Q.lane reg l).2.x),
        (ctx l).save (Q.lane reg l).2, (salsa20Two (Q.lane reg l).2.x 0).w0) := by
  have hfinish := Prod.ext_iff.mp (lane_civicFinish4way hreg Bout last ctx Q l)
  simp only [Lanes.lane] at hfinish
  simp only [civicResult4way, Lanes.lane, hfinish.1, hfinish.2, M128.d0_toUInt32,
    load_storeBlk_self]

theorem lane_civicBlockmix4way (hreg : Function.Injective reg) (Bin Bout : Fin 4 → Nat)
    (r : Nat) (P : Lanes 4 ρ M128 PwxformCtx) (l : Fin 4) :
    (civicBlockmix4way reg Bin Bout r P).lane reg l =
      blockmixPlain (P.heap (reg l)) (Bin l) (Bout l) r (P.st l) := by
  have hround : ∀ i Q, (civicBlockmix4wayRound reg Bout (r * 2 - 1) i Q).lane reg l =
      blockmixPlainRound (Bout l) (r * 2 - 1) i (Q.lane reg l) := by
    intro i Q
    simp only [civicBlockmix4wayRound, blockmixPlainRound]
    split
    · rw [Lanes.lane_all hreg, lane_civicPwxform4way hreg]
    · rw [lane_civicPwxform4way hreg]
  rw [civicBlockmix4way, lane_civicFinish4way hreg,
    Lanes.lane_forUp (fun k Q _ => hround (0 + 1 * k) Q)]
  rfl

theorem lane_civicBlockmixXor4way (hreg : Function.Injective reg)
    (Bin1 Bin2 Bout : Fin 4 → Nat) {r : Nat} (hr : 1 ≤ r) (P : Lanes 4 ρ M128 PwxformCtx)
    (l : Fin 4) :
    (civicBlockmixXor4way reg Bin1 Bin2 Bout r P).lane reg l =
      blockmixXorPwxform (P.heap (reg l)) (Bin1 l) (Bin2 l) (Bout l) r (P.st l) := by
  -- the lanes add the two inputs to each other before they add them to the state
  have hpair : ∀ Bin1 Bin2 s, xorPair Bin1 Bin2 s = xorX Bin2 (xorX Bin1 s) := by
    intro Bin1 Bin2 s
    rw [xorPair, xorBlk_comm (loadBlk s.1 Bin2), ← xorBlk_assoc]
    rfl
  have hround : ∀ i Q,
      (civicBlockmixXor4wayRound reg Bin1 Bin2 Bout (r * 2 - 1) i Q).lane reg l =
        blockmixXorRound (Bin1 l) (Bin2 l) (Bout l) (r * 2 - 1) i (Q.lane reg l) := by
    intro i Q
    simp only [civicBlockmixXor4wayRound, blockmixXorRound, ← hpair]
    split
    · rw [Lanes.lane_all hreg, lane_civicPwxform4way hreg, Lanes.lane_all hreg]
    · rw [lane_civicPwxform4way hreg, Lanes.lane_all hreg]
  rw [civicBlockmixXor4way, lane_civicResult4way hreg,
    Lanes.lane_forUp (fun k Q _ => hround (0 + 1 * k) Q), blockmixXorPwxform_eq _ _ _ _ hr]
  rfl

theorem lane_civicBlockmixXorSave4way (hreg : Function.Injective reg)
    (Bin1out Bin2 : Fin 4 → Nat) {r : Nat} (hr : 1 ≤ r) (P : Lanes 4 ρ M128 PwxformCtx)
    (l : Fin 4) :
    (civicBlockmixXorSave4way reg Bin1out Bin2 r P).lane reg l =
      blockmixXorSave (P.heap (reg l)) (Bin1out l) (Bin2 l) r (P.st l) := by
  have hround : ∀ i Q,
      (civicBlockmixXorSave4wayRound reg Bin1out Bin2 (r * 2 - 1) i Q).lane reg l =
        blockmixXorSaveRound (Bin1out l) (Bin2 l) (r * 2 - 1) i (Q.lane reg l) := by
    intro i Q
    simp only [civicBlockmixXorSave4wayRound, blockmixXorSaveRound]
    split
    · rw [Lanes.lane_all hreg, lane_civicPwxform4way hreg, Lanes.lane_all hreg]
    · rw [lane_civicPwxform4way hreg, Lanes.lane_all hreg]
  rw [civicBlockmixXorSave4way, lane_civicResult4way hreg,
    Lanes.lane_forUp (fun k Q _ => hround (0 + 1 * k) Q), blockmixXorSave_eq _ _ _ hr]
  rfl

/-! The two SMix phases. -/

theorem lane_civicSmix1_1_0_4wayRound (hreg : Function.Injective reg) {r : Nat} (hr : 1 ≤ r)
    (V : Fin 4 → Nat) {n i : Nat} (hi : 1 ≤ i)
    (P : Lanes 4 ρ M128 (Smix1Vars PwxformCtx)) (l : Fin 4) :
    (civicSmix1_1_0_4wayRound reg r V n i P).lane reg l =
      smix1RoundWith (fourKernels r) r (V l) n i (P.lane reg l) := by
  have hindex : ∀ j, (j &&& (n - 1)) + i - 1 = (j &&& (n - 1)) + (i - 1) := by omega
  have hmix := fun Bin1 Bin2 Bout Q => Prod.ext_iff.mp
    (lane_civicBlockmixXor4way hreg Bin1 Bin2 Bout hr Q l)
  simp only [Lanes.lane] at hmix
  simp only [civicSmix1_1_0_4wayRound, smix1RoundWith, fourKernels, Lanes.lane, hindex,
    (hmix _ _ _ _).1, (hmix _ _ _ _).2]

theorem lane_civicSmix1_1_0_4wayStart (hreg : Function.Injective reg) (B : Fin 4 → Nat)
    (r : Nat) (V : Fin 4 → Nat) (P : Lanes 4 ρ M128 PwxformCtx) (l : Fin 4) :
    (civicSmix1_1_0_4wayStart reg B r V P).lane reg l =
      smix1StartWith (fourKernels r) (B l) r (V l) (P.lane reg l) := by
  have hmix := fun Bin Bout Q => Prod.ext_iff.mp (lane_civicBlockmix4way hreg Bin Bout r Q l)
  simp only [Lanes.lane] at hmix
  have hloop := fun (X : Fin 4 → Nat) Q => Prod.ext_iff.mp
    (@Lanes.lane_forUp 4 ρ M128 PwxformCtx reg l
      (fun i => civicBlockmix4way reg (fun l => X l + 64 * ((i - 1) * 2))
        (fun l => X l + 64 * (i * 2)) r)
      (fun i => (fourKernels r).mix (X l + 64 * ((i - 1) * 2)) (X l + 64 * (i * 2)) 1) 1 r 1
      (fun k Q _ => lane_civicBlockmix4way hreg _ _ r Q l) Q)
  simp only [Lanes.lane] at hloop
  have hin := fun f Q => Prod.ext_iff.mp (@Lanes.lane_all 4 ρ M128 PwxformCtx _ reg hreg f Q l)
  simp only [Lanes.lane] at hin
  simp only [civicSmix1_1_0_4wayStart, smix1StartWith, Lanes.lane, (hmix _ _ _).1,
    (hmix _ _ _).2, (hloop _ _).1, (hloop _ _).2, (hin _ _).1, (hin _ _).2]
  rfl

theorem lane_civicSmix1_1_0_4wayEnd (hreg : Function.Injective reg) (B : Fin 4 → Nat)
    {r : Nat} (hr : 1 ≤ r) (V XY : Fin 4 → Nat) {N n : Nat} (hn : n + 2 ≤ N)
    (P : Lanes 4 ρ M128 (Smix1Vars PwxformCtx)) (l : Fin 4) :
    (civicSmix1_1_0_4wayEnd reg B r N V XY n P).lane reg l =
      smix1EndWith (fourKernels r) (B l) r N (V l) (XY l) n (P.lane reg l) := by
  have hindex2 : ∀ j, (j &&& (n - 1)) + N - 2 - n = (j &&& (n - 1)) + (N - 2 - n) := by omega
  have hindex1 : ∀ j, (j &&& (n - 1)) + N - 1 - n = (j &&& (n - 1)) + (N - 1 - n) := by omega
  have hmix := fun Bin1 Bin2 Bout Q => Prod.ext_iff.mp
    (lane_civicBlockmixXor4way hreg Bin1 Bin2 Bout hr Q l)
  simp only [Lanes.lane] at hmix
  rw [civicSmix1_1_0_4wayEnd, Lanes.lane_all hreg]
  simp only [smix1EndWith, fourKernels, Lanes.lane, hindex1, hindex2, (hmix _ _ _ _).1,
    (hmix _ _ _ _).2]

theorem lane_civicSmix1_1_0_4way (hreg : Function.Injective reg) (B : Fin 4 → Nat)
    {r : Nat} (hr : 1 ≤ r) {N : Nat} (hN : 4 ≤ N) (heven : N % 2 = 0) (V XY : Fin 4 → Nat)
    (P : Lanes 4 ρ M128 PwxformCtx) (l : Fin 4) :
    (civicSmix1_1_0_4way reg B r N V XY P).lane reg l =
      smix1With (fourKernels r) (B l) r N (V l) (XY l) (P.lane reg l) := by
  have hfill := @Lanes.lane_forDoubling 4 ρ M128 (Smix1Vars PwxformCtx) reg l N
    (fun n P => forUp 1 (if n < N / 2 then n else N - 1 - n) 2
      (civicSmix1_1_0_4wayRound reg r V n) P)
    (smix1FillWith (fourKernels r) r N (V l))
    (fun n P => Lanes.lane_forUp (fun k P _ =>
      lane_civicSmix1_1_0_4wayRound hreg hr V (by omega) P l) P) 2
    (civicSmix1_1_0_4wayStart reg B r V P)
  rw [lane_civicSmix1_1_0_4wayStart hreg] at hfill
  obtain ⟨n, hexit, _, _, hroom, _⟩ := fill_exit hN heven
    (smix1FillWith (fourKernels r) r N (V l))
    (smix1StartWith (fourKernels r) (B l) r (V l) (P.lane reg l))
  have hhalf : n * 2 / 2 = n := by omega
  simp only [civicSmix1_1_0_4way, smix1With, hfill.1, hexit, hhalf]
  rw [lane_civicSmix1_1_0_4wayEnd hreg _ hr _ _ hroom, hfill.2]

theorem lane_civicSmix2_1_0_4way (hreg : Function.Injective reg) (B : Fin 4 → Nat)
    {r : Nat} (hr : 1 ≤ r) (N Nloop : Nat) (V XY : Fin 4 → Nat)
    (P : Lanes 4 ρ M128 PwxformCtx) (l : Fin 4) :
    (civicSmix2_1_0_4way reg B r N Nloop V XY P).lane reg l =
      smix2 (P.heap (reg l)) (B l) r N Nloop (V l) (XY l) (P.st l) := by
  have hmix := fun Bin1 Bin2 Q => Prod.ext_iff.mp
    (lane_civicBlockmixXorSave4way hreg Bin1 Bin2 hr Q l)
  simp only [Lanes.lane] at hmix
  have hround : ∀ Q, (civicSmix2_1_0_4wayRound reg r N V XY Q).lane reg l =
      smix2Round r N (V l) (XY l) (Q.lane reg l) := by
    intro Q
    simp only [civicSmix2_1_0_4wayRound, smix2Round, Lanes.lane, (hmix _ _ _).1,
      (hmix _ _ _).2]
  have hwalk := fun Q => Prod.ext_iff.mp (Lanes.lane_doWhileMinusTwo hround Nloop Q)
  simp only [Lanes.lane] at hwalk
  have hin := fun f Q => Prod.ext_iff.mp (@Lanes.lane_all 4 ρ M128 PwxformCtx _ reg hreg f Q l)
  simp only [Lanes.lane] at hin
  rw [civicSmix2_1_0_4way, Lanes.lane_all hreg]
  simp only [smix2, Lanes.lane, (hwalk _).1, (hwalk _).2, (hin _ _).1, (hin _ _).2]

end SojCivicLight.Yespower
