import SojCivicLight.Yespower.SharedLanes
import SojCivicLight.Yespower.TwoLane

/-! The one-way build: the pipelined kernels with a single lane, their SMix, which still
starts with the paired Salsa20/2 initialiser, and the fixed-parameter hash over them. -/

namespace SojCivicLight.Yespower

open SojCivicLight.Library

def civicY1StepWrite (k : Fin 4) (member : Yp2State → Nat) (s : Region M128 × Yp2State) :
    Region M128 × Yp2State :=
  let a := s.2
  let xa := extract64 (a.x k) &&& smask2_1_0
  let X := mmMulEpu32 (hi32 (a.x k)) (a.x k)
  let X := mmAddEpi64 X (load s.1 (a.S0 + xa.toUInt32.toNat))
  let X := mmXorSi128 X (load s.1 (a.S1 + (xa >>> 32).toUInt32.toNat))
  (store s.1 (member a + a.w) X, a.setX k X)

def civicY1Step (k : Fin 4) (s : Region M128 × Yp2State) : Region M128 × Yp2State :=
  let a := s.2
  let xa := extract64 (a.x k) &&& smask2_1_0
  let X := mmMulEpu32 (hi32 (a.x k)) (a.x k)
  let X := mmAddEpi64 X (load s.1 (a.S0 + xa.toUInt32.toNat))
  let X := mmXorSi128 X (load s.1 (a.S1 + (xa >>> 32).toUInt32.toNat))
  (s.1, a.setX k X)

def civicPwxform1way (s : Region M128 × Yp2State) : Region M128 × Yp2State :=
  let s := civicY1StepWrite 0 Yp2State.S0 s
  let s := bumpW (civicY1StepWrite 1 Yp2State.S1 s)
  let s := civicY1StepWrite 2 Yp2State.S0 s
  let s := bumpW (civicY1StepWrite 3 Yp2State.S1 s)
  let s := civicY1StepWrite 0 Yp2State.S0 s
  let s := bumpW (civicY1StepWrite 1 Yp2State.S1 s)
  let s := civicY1Step 3 (civicY1Step 2 s)
  let s := civicY1StepWrite 0 Yp2State.S0 s
  let s := bumpW (civicY1StepWrite 1 Yp2State.S1 s)
  let s := civicY1Step 3 (civicY1Step 2 s)
  maskAndRotate s

def civicBlockmix1wayRound (Bin Bout last i : Nat) (s : Region M128 × Yp2State) :
    Region M128 × Yp2State :=
  let s := civicPwxform1way (xorX (Bin + 64 * i) s)
  if i ≠ last then writeX (Bout + 64 * i) s else s

def civicBlockmix1way (m : Region M128) (Bin Bout : Nat) (ctx : PwxformCtx) (r : Nat) :
    Region M128 × PwxformCtx :=
  let last := r * 2 - 1
  let a := ctx.load (loadBlk m (Bin + 64 * last))
  let s := forUp 0 (last + 1) 1 (civicBlockmix1wayRound Bin Bout last) (m, a)
  (storeBlk s.1 (Bout + 64 * last) (salsa20Two s.2.x), ctx.save s.2)

/-- The end of a pipelined single-lane kernel: store the context, finish with Salsa20 and
read the result back. -/
def pipeFinish1way (Bout last : Nat) (ctx : PwxformCtx) (q : Region M128 × PipeState) :
    Region M128 × PwxformCtx × UInt32 :=
  let m := storeBlk q.1 (Bout + 64 * last) (salsa20Two q.2.st.x)
  (m, ctx.save q.2.st, (load m (Bout + 64 * last)).d0.toUInt32)

def civicBlockmixXorSave1wayPipeRound (Bin1out Bin2 last i : Nat)
    (q : Region M128 × PipeState) : Region M128 × PipeState :=
  let q := if i ≠ last then pipeFetch (Bin2 + 64 * (i + 1)) q else q
  let q := pipeXorSave (Bin1out + 64 * i) (Bin2 + 64 * i) q
  let q := PipeState.onState civicPwxform1way q
  let q := if i ≠ last then PipeState.onState (writeX (Bin1out + 64 * i)) q else q
  pipeShift q

def civicBlockmixXorSave1wayPipe (m : Region M128) (Bin1out Bin2 : Nat) (ctx : PwxformCtx)
    (r : Nat) : Region M128 × PwxformCtx × UInt32 :=
  let last := r * 2 - 1
  let q := forUp 0 (last + 1) 1 (civicBlockmixXorSave1wayPipeRound Bin1out Bin2 last)
    (pipeStart Bin1out Bin2 last m ctx)
  pipeFinish1way Bin1out last ctx q

def civicBlockmixXor1wayPipeRound (Bin1 Bin2 Bout last i : Nat)
    (q : Region M128 × PipeState) : Region M128 × PipeState :=
  let q := if i ≠ last then pipeFetch (Bin2 + 64 * (i + 1)) q else q
  let q := pipeXor (Bin1 + 64 * i) q
  let q := PipeState.onState civicPwxform1way q
  let q := if i ≠ last then PipeState.onState (writeX (Bout + 64 * i)) q else q
  pipeShift q

def civicBlockmixXor1wayPipe (m : Region M128) (Bin1 Bin2 Bout : Nat) (ctx : PwxformCtx)
    (r : Nat) : Region M128 × PwxformCtx × UInt32 :=
  let last := r * 2 - 1
  let q := forUp 0 (last + 1) 1 (civicBlockmixXor1wayPipeRound Bin1 Bin2 Bout last)
    (pipeStart Bin1 Bin2 last m ctx)
  pipeFinish1way Bout last ctx q

def civicSmix1_1_0_1wayRound (r V n i : Nat) (s : Region M128 × Smix1Vars PwxformCtx) :
    Region M128 × Smix1Vars PwxformCtx :=
  let blk := 64 * (2 * r)
  let X := s.2.X
  let Y := X + blk
  let Vj := V + blk * ((s.2.j &&& (n - 1)) + i - 1)
  let (m, ctx, result) := civicBlockmixXor1wayPipe s.1 X Vj Y s.2.ctx r
  let Vj := V + blk * ((result.toNat &&& (n - 1)) + i)
  let X := Y + blk
  let (m, ctx, result) := civicBlockmixXor1wayPipe m Y Vj X ctx r
  (m, { ctx, X, Y, j := result.toNat })

def civicSmix1_1_0_1way (m : Region M128) (B r N V XY : Nat) (ctx : PwxformCtx) :
    Region M128 × PwxformCtx :=
  let blk := 64 * (2 * r)
  let X := V
  let Y := V + blk
  let m := forUp 0 2 1 (fun i => shuffleIn (B + 64 * i) Y (X + 64 * i)) m
  let s := forUp 1 r 1 (fun i s =>
    civicBlockmix1way s.1 (X + 64 * ((i - 1) * 2)) (X + 64 * (i * 2)) s.2 1) (m, ctx)
  let s := civicBlockmix1way s.1 X Y s.2 r
  let X := Y + blk
  let s := civicBlockmix1way s.1 Y X s.2 r
  let s := (s.1, ({ ctx := s.2, X, Y, j := (integerify s.1 X r).toNat } :
    Smix1Vars PwxformCtx))
  let (s, n) := forDoubling N (fun n s =>
    let m := if n < N / 2 then n else N - 1 - n
    forUp 1 m 2 (civicSmix1_1_0_1wayRound r V n) s) 2 s
  let n := n / 2
  let X := s.2.X
  let Y := X + blk
  let Vj := V + blk * ((s.2.j &&& (n - 1)) + N - 2 - n)
  let (m, ctx, result) := civicBlockmixXor1wayPipe s.1 X Vj Y s.2.ctx r
  let Vj := V + blk * ((result.toNat &&& (n - 1)) + N - 1 - n)
  let (m, ctx, _) := civicBlockmixXor1wayPipe m Y Vj XY ctx r
  (forUp 0 (2 * r) 1 (fun i => unshuffleOut (XY + 64 * i) (XY + blk) (B + 64 * i)) m, ctx)

def civicSmix2_1_0_1wayRound (r N V X : Nat) (s : Region M128 × Smix2Vars) :
    Region M128 × Smix2Vars :=
  let blk := 64 * (2 * r)
  let (m, ctx, result) := civicBlockmixXorSave1wayPipe s.1 X (V + blk * s.2.j) s.2.ctx r
  let j := result.toNat &&& (N - 1)
  let (m, ctx, result) := civicBlockmixXorSave1wayPipe m X (V + blk * j) ctx r
  (m, { ctx, j := result.toNat &&& (N - 1) })

def civicSmix2_1_0_1way (m : Region M128) (B r N Nloop V XY : Nat) (ctx : PwxformCtx) :
    Region M128 × PwxformCtx :=
  let X := XY
  let Y := XY + 64 * (2 * r)
  let m := forUp 0 (2 * r) 1 (fun i => shuffleIn (B + 64 * i) Y (X + 64 * i)) m
  let s := (m, ({ ctx, j := (integerify m X r).toNat &&& (N - 1) } : Smix2Vars))
  let s := doWhileMinusTwo (civicSmix2_1_0_1wayRound r N V X) Nloop s
  (forUp 0 (2 * r) 1 (fun i => unshuffleOut (X + 64 * i) Y (B + 64 * i)) s.1, s.2.ctx)

/-- `civic_smix_1_0_oneway`: the initialiser gets the same block, tables and scratch for
both of its lanes. -/
def civicSmix_1_0_oneway (m : Region M128) (B r N V XY : Nat) (ctx : PwxformCtx) :
    Region M128 × PwxformCtx :=
  let h := civicSmix1Salsa2way (fun _ => ()) (fun _ => B) (fun _ => ctx.S0) (fun _ => XY)
    (fun _ => m)
  let (m, ctx) := civicSmix1_1_0_1way (h ()) B r N V XY ctx
  civicSmix2_1_0_1way m B r N (nloopRw N) V XY ctx

def civicYespowerFixed1way (prim : Primitives) (sys : System) (region : Local)
    (src : List UInt8) : HashResult :=
  let N := 2048
  let r := 8
  let required := requireRegion sys region (need N r)
  if required.1 then
    let region := required.2
    let seeded := seedB prim (prim.sha256Buf src) [] (offsetB N r) region.aligned
    let m := (civicSmix_1_0_oneway seeded.1 (offsetB N r) r N 0 (offsetXY N r)
      (initCtx (offsetS N r))).1
    { dst := prim.hmacSha256Buf (loadBytes m (offsetB N r + bSize r - 64) 4) seeded.2
      rc := 0
      region := { region with aligned := m } }
  else
    hashFailed required.2

/-! The single-lane kernels are the lanes of the two-lane ones. -/

theorem civicY1StepWrite_eq (k : Fin 4) (member : Yp2State → Nat)
    (s : Region M128 × Yp2State) :
    civicY1StepWrite k member s = pwxformStepWrite k member s :=
  rfl

theorem civicY1Step_eq (k : Fin 4) (s : Region M128 × Yp2State) :
    civicY1Step k s = pwxformStep k s :=
  rfl

theorem civicPwxform1way_eq : civicPwxform1way = pwxform := by
  funext s
  simp only [civicPwxform1way, civicY1StepWrite_eq, civicY1Step_eq, pwxform,
    pwxformRoundWrite4, pwxformRoundWrite2]

theorem civicBlockmix1way_eq (m : Region M128) (Bin Bout : Nat) (ctx : PwxformCtx) (r : Nat) :
    civicBlockmix1way m Bin Bout ctx r = blockmixPwxform m Bin Bout r ctx := by
  have hround : civicBlockmix1wayRound Bin Bout (r * 2 - 1) =
      blockmixRound Bin Bout (r * 2 - 1) := by
    funext i s
    simp only [civicBlockmix1wayRound, blockmixRound, civicPwxform1way_eq]
  simp only [civicBlockmix1way, blockmixPwxform_eq, hround]

theorem pipeFinish1way_eq (Bout last : Nat) (ctx : PwxformCtx) (q : Region M128 × PipeState) :
    pipeFinish1way Bout last ctx q = pipeEnd Bout last ctx q := by
  simp only [pipeFinish1way, pipeEnd, M128.d0_toUInt32, load_storeBlk_self]

theorem civicBlockmixXorSave1wayPipe_eq (m : Region M128) (Bin1out Bin2 : Nat)
    (ctx : PwxformCtx) (r : Nat) :
    civicBlockmixXorSave1wayPipe m Bin1out Bin2 ctx r =
      blockmixXorSavePipe m Bin1out Bin2 r ctx := by
  have hround : civicBlockmixXorSave1wayPipeRound Bin1out Bin2 (r * 2 - 1) =
      pipeXorSaveRound Bin1out Bin2 (r * 2 - 1) := by
    funext i q
    simp only [civicBlockmixXorSave1wayPipeRound, pipeXorSaveRound, civicPwxform1way_eq]
  simp only [civicBlockmixXorSave1wayPipe, blockmixXorSavePipe, hround, pipeFinish1way_eq]

theorem civicBlockmixXor1wayPipe_eq (m : Region M128) (Bin1 Bin2 Bout : Nat)
    (ctx : PwxformCtx) (r : Nat) :
    civicBlockmixXor1wayPipe m Bin1 Bin2 Bout ctx r =
      blockmixXorPipe m Bin1 Bin2 Bout r ctx := by
  have hround : civicBlockmixXor1wayPipeRound Bin1 Bin2 Bout (r * 2 - 1) =
      pipeXorRound Bin1 Bin2 Bout (r * 2 - 1) := by
    funext i q
    simp only [civicBlockmixXor1wayPipeRound, pipeXorRound, civicPwxform1way_eq]
  simp only [civicBlockmixXor1wayPipe, blockmixXorPipe, hround, pipeFinish1way_eq]

theorem civicSmix1_1_0_1wayRound_eq (r V n : Nat) {i : Nat} (hi : 1 ≤ i)
    (s : Region M128 × Smix1Vars PwxformCtx) :
    civicSmix1_1_0_1wayRound r V n i s = smix1RoundWith pipeKernels r V n i s := by
  have hindex : ∀ j, (j &&& (n - 1)) + i - 1 = (j &&& (n - 1)) + (i - 1) := by omega
  simp only [civicSmix1_1_0_1wayRound, smix1RoundWith, pipeKernels,
    civicBlockmixXor1wayPipe_eq, hindex]

theorem civicSmix1_1_0_1way_eq (m : Region M128) (B r : Nat) {N : Nat} (hN : 4 ≤ N)
    (heven : N % 2 = 0) (V XY : Nat) (ctx : PwxformCtx) :
    civicSmix1_1_0_1way m B r N V XY ctx = smix1With pipeKernels B r N V XY (m, ctx) := by
  have hfill : ∀ n s, forUp 1 (if n < N / 2 then n else N - 1 - n) 2
      (civicSmix1_1_0_1wayRound r V n) s = smix1FillWith pipeKernels r N V n s := by
    intro n s
    refine forUp_rel (fun _ s t => s = t) rfl (fun k s t _ h => ?_)
    rw [h]
    exact civicSmix1_1_0_1wayRound_eq r V n (by omega) t
  obtain ⟨n, hexit, _, _, hroom, _⟩ := fill_exit hN heven (smix1FillWith pipeKernels r N V)
    (smix1StartWith pipeKernels B r V (m, ctx))
  have hhalf : n * 2 / 2 = n := by omega
  have hindex2 : ∀ j, (j &&& (n - 1)) + N - 2 - n = (j &&& (n - 1)) + (N - 2 - n) := by omega
  have hindex1 : ∀ j, (j &&& (n - 1)) + N - 1 - n = (j &&& (n - 1)) + (N - 1 - n) := by omega
  simp only [smix1StartWith, pipeKernels] at hexit
  simp only [civicSmix1_1_0_1way, smix1With, smix1StartWith, smix1EndWith, pipeKernels, hfill,
    civicBlockmix1way_eq, civicBlockmixXor1wayPipe_eq, hexit, hhalf, hindex1, hindex2]

theorem civicSmix2_1_0_1way_eq (m : Region M128) (B r N Nloop V XY : Nat) (ctx : PwxformCtx) :
    civicSmix2_1_0_1way m B r N Nloop V XY ctx =
      smix2With pipeSave B r N Nloop V XY (m, ctx) := by
  have hround : civicSmix2_1_0_1wayRound r N V XY = smix2RoundWith pipeSave r N V XY := by
    funext s
    simp only [civicSmix2_1_0_1wayRound, smix2RoundWith, pipeSave,
      civicBlockmixXorSave1wayPipe_eq]
  simp only [civicSmix2_1_0_1way, smix2With, hround]

/-! The one-way hash. -/

theorem SmixLayout.shared {S r N B V XY : Nat} (layout : SmixLayout S r N B V XY)
    (block : B + 128 ≤ XY) (scratch : XY + 192 ≤ S) : SharedLayout B S XY :=
  { alignedB := layout.fill.alignedB
    alignedV := layout.alignedS
    alignedXY := layout.fill.alignedXY
    input := Or.inl (by omega)
    output := Or.inl block }

/-- The one-way SMix and the scalar SMix, from memories that agree on the 128 bytes of
input, leave the same block at `B`. -/
theorem civicSmix_1_0_oneway_agree {S r N B V XY : Nat} {ctx : PwxformCtx}
    {m m' : Region M128} (layout : SmixLayout S r N B V XY) (block : B + 128 ≤ XY)
    (scratch : XY + 192 ≤ S) (hS : ctx.S0 = S) (hsize : ctx.Sbytes = 98304)
    (hok : ctx.TablesOk S) (hmem : Agree (Set.Ico B (B + 128)) m m') :
    Agree (Set.Ico B (B + 128 * r)) (civicSmix_1_0_oneway m B r N V XY ctx).1
      (smix m' B r N V XY ctx).1 := by
  have hfill := layout.fill
  have hshared := civicSmix1Salsa2way_shared (layout.shared block scratch) m
  have honeway : civicSmix_1_0_oneway m B r N V XY ctx =
      smix2With pipeSave B r N (nloopRw N) V XY (smix1With pipeKernels B r N V XY
        ((smix1With salsaKernels B 1 768 S XY (m, ())).1, ctx)) := by
    simp only [civicSmix_1_0_oneway, hS, hshared,
      civicSmix1_1_0_1way_eq _ B r hfill.slots hfill.even, civicSmix2_1_0_1way_eq]
  rw [honeway]
  exact smix_agree layout hS hsize hok hmem

/-- The one-way hash writes what the scalar hash writes, whatever the two regions held
before, and where there is no region both write the same failure. -/
theorem civicYespowerFixed1way_dst (prim : Primitives) (sys sys' : System)
    (region region' : Local) (src : List UInt8)
    (available : (requireRegion sys region (need 2048 8)).1 =
      (requireRegion sys' region' (need 2048 8)).1) :
    (civicYespowerFixed1way prim sys region src).dst =
      (civicYespower prim sys' region' src fixedParams).dst := by
  have hvalid : fixedParams.invalid = false := by decide
  have hlayout : SmixLayout (offsetS 2048 8) 8 2048 (offsetB 2048 8) 0 (offsetXY 2048 8) :=
    smixLayout (by omega) (by omega) rfl
  cases found : (requireRegion sys' region' (need 2048 8)).1 with
  | false =>
      rw [found] at available
      have hN : fixedParams.N = 2048 := rfl
      have hr : fixedParams.r = 8 := rfl
      simp only [civicYespowerFixed1way, civicYespower, hvalid, hN, hr, available, found,
        Bool.false_eq_true, if_false, hashFailed]
  | true =>
      rw [found] at available
      obtain ⟨hseed, hkey⟩ := agree_seedB prim (prim.sha256Buf src) []
        hlayout.fill.alignedB (requireRegion sys region (need 2048 8)).2.aligned
        (requireRegion sys' region' (need 2048 8)).2.aligned
      have hok := initCtx_tablesOk (offsetS 2048 8)
      have hsmix := civicSmix_1_0_oneway_agree hlayout (by decide) (by decide) rfl rfl hok hseed
      have hbytes := agree_loadBytes hsmix
        (show Set.Ico (offsetB 2048 8 + bSize 8 - 64) (offsetB 2048 8 + bSize 8 - 64 + 16 * 4) ⊆
          Set.Ico (offsetB 2048 8) (offsetB 2048 8 + 128 * 8) from
            Set.Ico_subset_Ico (by decide) (by decide))
      rw [civicYespower_available prim src hvalid found]
      simp only [civicYespowerFixed1way, available, if_true, civicYespowerIn, fixedParams,
        hbytes, hkey]

/-- A new mapping for the one-way hash beside a region left over from an earlier hash. -/
theorem civicYespowerFixed1way_dst_fresh :
    let prim : Primitives :=
      { sha256Buf := fun b => b.take 32
        pbkdf2Sha256 := fun passwd salt dkLen => (passwd ++ salt).take dkLen
        hmacSha256Buf := fun K input => (K ++ input).take 32 }
    let sys : System := { unmaps := true, mapping := some fun _ => ⟨5, 0, 0, 0⟩ }
    let unmapped : Local := { alignedSize := 0, aligned := fun _ => ⟨0, 0, 0, 0⟩ }
    let stale : Local := { alignedSize := need 2048 8, aligned := fun _ => ⟨7, 7, 7, 7⟩ }
    (civicYespowerFixed1way prim sys unmapped (List.replicate 32 1)).dst =
      (civicYespower prim sys stale (List.replicate 32 1) fixedParams).dst := by
  intro prim sys unmapped stale
  have hsize : 0 < need 2048 8 := by decide
  refine civicYespowerFixed1way_dst prim sys sys unmapped stale (List.replicate 32 1) ?_
  simp [requireRegion, freeRegion, allocRegion, unmapped, stale, sys, hsize]

end SojCivicLight.Yespower
