import SojCivicLight.Yespower.LaneKernels

/-! The two-lane kernels that read V directly: the plain ones, and the register-promoted
ones, which keep their state in locals with a 32-bit `w`.  The three kernels of the random walk
are the scalar one in each lane, and so are the three kernels of the fill. -/

namespace SojCivicLight.Yespower

open SojCivicLight.Library

variable {ρ : Type} [DecidableEq ρ]

/-- The end of a two-lane kernel without a pipeline: store the contexts, finish both lanes
with Salsa20 and read both results back. -/
def finish2way (reg : Fin 2 → ρ) (Bout : Fin 2 → Nat) (last : Nat) (ctx : Fin 2 → PwxformCtx)
    (Q : Lanes 2 ρ M128 Yp2State) : Lanes 2 ρ M128 (PwxformCtx × UInt32) :=
  let heap := Heap.storeBlks reg Q.heap (fun l => Bout l + 64 * last)
    (fun l => salsa20Two (Q.st l).x)
  { heap
    st := fun l =>
      ((ctx l).save (Q.st l), (load (heap (reg l)) (Bout l + 64 * last)).d0.toUInt32) }

def start2way (reg : Fin 2 → ρ) (Bin1 Bin2 : Fin 2 → Nat) (last : Nat)
    (P : Lanes 2 ρ M128 PwxformCtx) : Lanes 2 ρ M128 Yp2State :=
  { heap := P.heap
    st := fun l =>
      let m := P.heap (reg l)
      (P.st l).load (xorBlk (loadBlk m (Bin1 l + 64 * last)) (loadBlk m (Bin2 l + 64 * last))) }

def civicBlockmixXor2wayRound (reg : Fin 2 → ρ) (Bin1 Bin2 Bout : Fin 2 → Nat) (last i : Nat)
    (Q : Lanes 2 ρ M128 Yp2State) : Lanes 2 ρ M128 Yp2State :=
  let Q := Lanes.both reg (fun l s => xorX (Bin2 l + 64 * i) (xorX (Bin1 l + 64 * i) s)) Q
  let Q := civicPwxform2wayIlv reg Q
  if i ≠ last then Lanes.both reg (fun l => writeX (Bout l + 64 * i)) Q else Q

def civicBlockmixXor2way (reg : Fin 2 → ρ) (Bin1 Bin2 Bout : Fin 2 → Nat) (r : Nat)
    (P : Lanes 2 ρ M128 PwxformCtx) : Lanes 2 ρ M128 (PwxformCtx × UInt32) :=
  let last := r * 2 - 1
  let Q := forUp 0 (last + 1) 1 (civicBlockmixXor2wayRound reg Bin1 Bin2 Bout last)
    (start2way reg Bin1 Bin2 last P)
  finish2way reg Bout last P.st Q

/-- `ya`, `yb`, both stores and both updates of the loop `for q`. -/
def xorSaveQ (reg : Fin 2 → ρ) (Bin1out Bin2 : Fin 2 → Nat) (q : Fin 4)
    (P : Lanes 2 ρ M128 Yp2State) : Lanes 2 ρ M128 Yp2State :=
  let a := P.st 0
  let b := P.st 1
  let ya := mmXorSi128 (load (P.heap (reg 0)) (Bin2 0 + 16 * q.val))
    (load (P.heap (reg 0)) (Bin1out 0 + 16 * q.val))
  let yb := mmXorSi128 (load (P.heap (reg 1)) (Bin2 1 + 16 * q.val))
    (load (P.heap (reg 1)) (Bin1out 1 + 16 * q.val))
  let heap := Heap.storeLane reg 0 P.heap (Bin2 0 + 16 * q.val) ya
  let heap := Heap.storeLane reg 1 heap (Bin2 1 + 16 * q.val) yb
  { heap, st := ![a.setX q (mmXorSi128 (a.x q) ya), b.setX q (mmXorSi128 (b.x q) yb)] }

def xorSaveLoop (reg : Fin 2 → ρ) (Bin1out Bin2 : Fin 2 → Nat) (P : Lanes 2 ρ M128 Yp2State) :
    Lanes 2 ρ M128 Yp2State :=
  let P := xorSaveQ reg Bin1out Bin2 0 P
  let P := xorSaveQ reg Bin1out Bin2 1 P
  let P := xorSaveQ reg Bin1out Bin2 2 P
  xorSaveQ reg Bin1out Bin2 3 P

def civicBlockmixXorSave2wayRound (reg : Fin 2 → ρ) (Bin1out Bin2 : Fin 2 → Nat)
    (last i : Nat) (Q : Lanes 2 ρ M128 Yp2State) : Lanes 2 ρ M128 Yp2State :=
  let Q := xorSaveLoop reg (fun l => Bin1out l + 64 * i) (fun l => Bin2 l + 64 * i) Q
  let Q := civicPwxform2wayIlv reg Q
  if i ≠ last then Lanes.both reg (fun l => writeX (Bin1out l + 64 * i)) Q else Q

def civicBlockmixXorSave2way (reg : Fin 2 → ρ) (Bin1out Bin2 : Fin 2 → Nat) (r : Nat)
    (P : Lanes 2 ρ M128 PwxformCtx) : Lanes 2 ρ M128 (PwxformCtx × UInt32) :=
  let last := r * 2 - 1
  let Q := forUp 0 (last + 1) 1 (civicBlockmixXorSave2wayRound reg Bin1out Bin2 last)
    (start2way reg Bin1out Bin2 last P)
  finish2way reg Bin1out last P.st Q

/-! The register-promoted kernels.  Their locals are the fields of `Yp2State`, with a `w` that
stays below `2 ^ 32`. -/

/-- `CIVIC_RSTEP(I)`; `ilvReg` is whether `CIVIC_PWX_ILV_REG` is defined. -/
def civicRstep (ilvReg : Bool) (reg : Fin 2 → ρ) (k : Fin 4) (P : Lanes 2 ρ M128 Yp2State) :
    Lanes 2 ρ M128 Yp2State :=
  let a := P.st 0
  let b := P.st 1
  if ilvReg then
    let xai := extract64 (a.x k) &&& smask2_1_0
    let xbi := extract64 (b.x k) &&& smask2_1_0
    let adda := load (P.heap (reg 0)) (a.S0 + xai.toUInt32.toNat)
    let addb := load (P.heap (reg 1)) (b.S0 + xbi.toUInt32.toNat)
    let xora := load (P.heap (reg 0)) (a.S1 + (xai >>> 32).toUInt32.toNat)
    let xorb := load (P.heap (reg 1)) (b.S1 + (xbi >>> 32).toUInt32.toNat)
    let Ya := mmMulEpu32 (hi32 (a.x k)) (a.x k)
    let Yb := mmMulEpu32 (hi32 (b.x k)) (b.x k)
    let va := mmXorSi128 (mmAddEpi64 Ya adda) xora
    let vb := mmXorSi128 (mmAddEpi64 Yb addb) xorb
    { heap := P.heap, st := ![a.setX k va, b.setX k vb] }
  else
    let xai := extract64 (a.x k) &&& smask2_1_0
    let Xa := mmMulEpu32 (hi32 (a.x k)) (a.x k)
    let Xa := mmAddEpi64 Xa (load (P.heap (reg 0)) (a.S0 + xai.toUInt32.toNat))
    let va := mmXorSi128 Xa (load (P.heap (reg 0)) (a.S1 + (xai >>> 32).toUInt32.toNat))
    let xbi := extract64 (b.x k) &&& smask2_1_0
    let Xb := mmMulEpu32 (hi32 (b.x k)) (b.x k)
    let Xb := mmAddEpi64 Xb (load (P.heap (reg 1)) (b.S0 + xbi.toUInt32.toNat))
    let vb := mmXorSi128 Xb (load (P.heap (reg 1)) (b.S1 + (xbi >>> 32).toUInt32.toNat))
    { heap := P.heap, st := ![a.setX k va, b.setX k vb] }

/-- `CIVIC_RSTEP_W(I, T, T)` -/
def civicRstepW (ilvReg : Bool) (reg : Fin 2 → ρ) (k : Fin 4) (T : Yp2State → Nat)
    (P : Lanes 2 ρ M128 Yp2State) : Lanes 2 ρ M128 Yp2State :=
  let P := civicRstep ilvReg reg k P
  let a := P.st 0
  let b := P.st 1
  let heap := Heap.storeLane reg 0 P.heap (T a + a.w) (a.x k)
  let heap := Heap.storeLane reg 1 heap (T b + b.w) (b.x k)
  { heap, st := P.st }

def bumpW32 (s : Region M128 × Yp2State) : Region M128 × Yp2State :=
  (s.1, { s.2 with w := (s.2.w + 16) % 2 ^ 32 })

/-- `w &= Smask2_1_0` in 32 bits, and the rotation of the three table pointers. -/
def maskAndRotate32 (s : Region M128 × Yp2State) : Region M128 × Yp2State :=
  (s.1, { s.2 with
    w := (s.2.w &&& smask2_1_0.toNat) % 2 ^ 32
    S2 := s.2.S1
    S1 := s.2.S0
    S0 := s.2.S2 })

/-- `CIVIC_RFORM()` -/
def civicRform (ilvReg : Bool) (reg : Fin 2 → ρ) (P : Lanes 2 ρ M128 Yp2State) :
    Lanes 2 ρ M128 Yp2State :=
  let bump := Lanes.both reg (fun _ => bumpW32)
  let P := civicRstepW ilvReg reg 0 Yp2State.S0 P
  let P := bump (civicRstepW ilvReg reg 1 Yp2State.S1 P)
  let P := civicRstepW ilvReg reg 2 Yp2State.S0 P
  let P := bump (civicRstepW ilvReg reg 3 Yp2State.S1 P)
  let P := civicRstepW ilvReg reg 0 Yp2State.S0 P
  let P := bump (civicRstepW ilvReg reg 1 Yp2State.S1 P)
  let P := civicRstep ilvReg reg 3 (civicRstep ilvReg reg 2 P)
  let P := civicRstepW ilvReg reg 0 Yp2State.S0 P
  let P := bump (civicRstepW ilvReg reg 1 Yp2State.S1 P)
  let P := civicRstep ilvReg reg 3 (civicRstep ilvReg reg 2 P)
  Lanes.both reg (fun _ => maskAndRotate32) P

def civicBlockmixXorSave2wayRegRound (ilvReg : Bool) (reg : Fin 2 → ρ)
    (Bin1out Bin2 : Fin 2 → Nat) (last i : Nat) (Q : Lanes 2 ρ M128 Yp2State) :
    Lanes 2 ρ M128 Yp2State :=
  let Q := xorSaveLoop reg (fun l => Bin1out l + 64 * i) (fun l => Bin2 l + 64 * i) Q
  let Q := civicRform ilvReg reg Q
  if i ≠ last then Lanes.both reg (fun l => writeX (Bin1out l + 64 * i)) Q else Q

/-- `w = ctx->w` in 32 bits. -/
def truncateW (st : Yp2State) : Yp2State := { st with w := st.w % 2 ^ 32 }

def civicBlockmixXorSave2wayReg (ilvReg : Bool) (reg : Fin 2 → ρ) (Bin1out Bin2 : Fin 2 → Nat)
    (r : Nat) (P : Lanes 2 ρ M128 PwxformCtx) : Lanes 2 ρ M128 (PwxformCtx × UInt32) :=
  let last := r * 2 - 1
  let Q := start2way reg Bin1out Bin2 last P
  let Q := forUp 0 (last + 1) 1
    (civicBlockmixXorSave2wayRegRound ilvReg reg Bin1out Bin2 last)
    { heap := Q.heap, st := fun l => truncateW (Q.st l) }
  finish2way reg Bin1out last P.st Q

/-- The loop `for q` of the kernel of the fill, which writes nothing back to V. -/
def xorQ (reg : Fin 2 → ρ) (Bin1 Bin2 : Fin 2 → Nat) (q : Fin 4) (P : Lanes 2 ρ M128 Yp2State) :
    Lanes 2 ρ M128 Yp2State :=
  let a := P.st 0
  let b := P.st 1
  let ya := mmXorSi128 (load (P.heap (reg 0)) (Bin2 0 + 16 * q.val))
    (load (P.heap (reg 0)) (Bin1 0 + 16 * q.val))
  let yb := mmXorSi128 (load (P.heap (reg 1)) (Bin2 1 + 16 * q.val))
    (load (P.heap (reg 1)) (Bin1 1 + 16 * q.val))
  { heap := P.heap, st := ![a.setX q (mmXorSi128 (a.x q) ya), b.setX q (mmXorSi128 (b.x q) yb)] }

def xorLoop (reg : Fin 2 → ρ) (Bin1 Bin2 : Fin 2 → Nat) (P : Lanes 2 ρ M128 Yp2State) :
    Lanes 2 ρ M128 Yp2State :=
  let P := xorQ reg Bin1 Bin2 0 P
  let P := xorQ reg Bin1 Bin2 1 P
  let P := xorQ reg Bin1 Bin2 2 P
  xorQ reg Bin1 Bin2 3 P

def civicBlockmixXor2wayRegRound (ilvReg : Bool) (reg : Fin 2 → ρ) (Bin1 Bin2 Bout : Fin 2 → Nat)
    (last i : Nat) (Q : Lanes 2 ρ M128 Yp2State) : Lanes 2 ρ M128 Yp2State :=
  let Q := xorLoop reg (fun l => Bin1 l + 64 * i) (fun l => Bin2 l + 64 * i) Q
  let Q := civicRform ilvReg reg Q
  if i ≠ last then Lanes.both reg (fun l => writeX (Bout l + 64 * i)) Q else Q

def civicBlockmixXor2wayReg (ilvReg : Bool) (reg : Fin 2 → ρ) (Bin1 Bin2 Bout : Fin 2 → Nat)
    (r : Nat) (P : Lanes 2 ρ M128 PwxformCtx) : Lanes 2 ρ M128 (PwxformCtx × UInt32) :=
  let last := r * 2 - 1
  let Q := start2way reg Bin1 Bin2 last P
  let Q := forUp 0 (last + 1) 1 (civicBlockmixXor2wayRegRound ilvReg reg Bin1 Bin2 Bout last)
    { heap := Q.heap, st := fun l => truncateW (Q.st l) }
  finish2way reg Bout last P.st Q

/-! The lanes. -/

section Lane

variable {reg : Fin 2 → ρ} {Bin1 Bin2 Bin1out Bout : Fin 2 → Nat}

omit [DecidableEq ρ] in
theorem storeLane_both [DecidableEq ρ] (hreg : Function.Injective reg) (h : Heap ρ M128)
    (p : Fin 2 → Nat) (v : Fin 2 → M128) (l : Fin 2) :
    Heap.storeLane reg 1 (Heap.storeLane reg 0 h (p 0) (v 0)) (p 1) (v 1) (reg l) =
      store (h (reg l)) (p l) (v l) := by
  have h01 : reg 0 ≠ reg 1 := fun h => absurd (hreg h) (by decide)
  match l with
  | 0 => simp only [Heap.storeLane, Function.update_of_ne h01, Function.update_self]
  | 1 => simp only [Heap.storeLane, Function.update_of_ne h01.symm, Function.update_self]

theorem lane_finish2way (hreg : Function.Injective reg) (last : Nat)
    (ctx : Fin 2 → PwxformCtx) (Q : Lanes 2 ρ M128 Yp2State) (l : Fin 2) :
    (finish2way reg Bout last ctx Q).lane reg l =
      (storeBlk (Q.lane reg l).1 (Bout l + 64 * last) (salsa20Two (Q.lane reg l).2.x),
        (ctx l).save (Q.lane reg l).2, (salsa20Two (Q.lane reg l).2.x 0).w0) := by
  simp only [finish2way, Lanes.lane, storeBlks_lane hreg, M128.d0_toUInt32,
    load_storeBlk_self]

def xorSaveQLane (Bin1out Bin2 : Nat) (q : Fin 4) (s : Region M128 × Yp2State) :
    Region M128 × Yp2State :=
  let y := mmXorSi128 (load s.1 (Bin2 + 16 * q.val)) (load s.1 (Bin1out + 16 * q.val))
  (store s.1 (Bin2 + 16 * q.val) y, s.2.setX q (mmXorSi128 (s.2.x q) y))

theorem lane_xorSaveQ (hreg : Function.Injective reg) (q : Fin 4)
    (P : Lanes 2 ρ M128 Yp2State) (l : Fin 2) :
    (xorSaveQ reg Bin1out Bin2 q P).lane reg l =
      xorSaveQLane (Bin1out l) (Bin2 l) q (P.lane reg l) := by
  have hstore := storeLane_both hreg P.heap (fun l => Bin2 l + 16 * q.val)
    (fun l => mmXorSi128 (load (P.heap (reg l)) (Bin2 l + 16 * q.val))
      (load (P.heap (reg l)) (Bin1out l + 16 * q.val))) l
  match l with
  | 0 => exact Prod.ext hstore rfl
  | 1 => exact Prod.ext hstore rfl

theorem update_four (f g : Blk) :
    Function.update (Function.update (Function.update (Function.update f 0 (g 0)) 1 (g 1)) 2
      (g 2)) 3 (g 3) = g := by
  funext k
  match k with
  | 0 | 1 | 2 | 3 => rfl

/-- The four rounds of the loop `for q` add and save a block, where the two blocks do not
overlap. -/
theorem xorSaveQLane_four {Bin1out Bin2 : Nat}
    (apart : Bin2 + 64 ≤ Bin1out ∨ Bin1out + 64 ≤ Bin2) (s : Region M128 × Yp2State) :
    xorSaveQLane Bin1out Bin2 3 (xorSaveQLane Bin1out Bin2 2
      (xorSaveQLane Bin1out Bin2 1 (xorSaveQLane Bin1out Bin2 0 s))) =
      xorXWriteXorY2 Bin2 Bin1out s := by
  have h1 : ((1 : Fin 4) : Nat) = 1 := rfl
  have h2 : ((2 : Fin 4) : Nat) = 2 := rfl
  have h3 : ((3 : Fin 4) : Nat) = 3 := rfl
  -- what a round stores is read by none of the later ones
  have hmem : ∀ j k : Nat, j < 4 → k < 4 → j ≠ k → Apart (Bin2 + 16 * k) (Bin2 + 16 * j) := by
    intro j k hj hk hne
    unfold Apart
    omega
  have hout : ∀ j k : Nat, j < 4 → k < 4 → Apart (Bin1out + 16 * k) (Bin2 + 16 * j) := by
    intro j k hj hk
    unfold Apart
    omega
  simp (disch := first | exact hmem _ _ (by decide) (by decide) (by decide) |
    exact hout _ _ (by decide) (by decide)) only
    [xorSaveQLane, Fin.val_zero, h1, h2, h3, load_store_apart, xorXWriteXorY2, Yp2State.setX]
  apply Prod.ext
  · rfl
  · exact congrArg (fun x => { s.2 with x := x }) (update_four s.2.x
      (xorBlk s.2.x (xorBlk (loadBlk s.1 Bin2) (loadBlk s.1 Bin1out))))

theorem lane_xorSaveLoop (hreg : Function.Injective reg) (Bin1out Bin2 : Fin 2 → Nat)
    (P : Lanes 2 ρ M128 Yp2State) {l : Fin 2}
    (apart : Bin2 l + 64 ≤ Bin1out l ∨ Bin1out l + 64 ≤ Bin2 l) :
    (xorSaveLoop reg Bin1out Bin2 P).lane reg l =
      xorXWriteXorY2 (Bin2 l) (Bin1out l) (P.lane reg l) := by
  simp only [xorSaveLoop, lane_xorSaveQ hreg]
  exact xorSaveQLane_four apart (P.lane reg l)

def xorQLane (Bin1 Bin2 : Nat) (q : Fin 4) (s : Region M128 × Yp2State) :
    Region M128 × Yp2State :=
  (s.1, s.2.setX q (mmXorSi128 (s.2.x q)
    (mmXorSi128 (load s.1 (Bin2 + 16 * q.val)) (load s.1 (Bin1 + 16 * q.val)))))

omit [DecidableEq ρ] in
theorem lane_xorQ (reg : Fin 2 → ρ) (Bin1 Bin2 : Fin 2 → Nat) (q : Fin 4)
    (P : Lanes 2 ρ M128 Yp2State) (l : Fin 2) :
    (xorQ reg Bin1 Bin2 q P).lane reg l = xorQLane (Bin1 l) (Bin2 l) q (P.lane reg l) := by
  match l with
  | 0 => rfl
  | 1 => rfl

theorem xorQLane_four (Bin1 Bin2 : Nat) (s : Region M128 × Yp2State) :
    xorQLane Bin1 Bin2 3 (xorQLane Bin1 Bin2 2 (xorQLane Bin1 Bin2 1 (xorQLane Bin1 Bin2 0 s))) =
      xorX Bin2 (xorX Bin1 s) := by
  apply Prod.ext
  · rfl
  · refine (congrArg (fun x => { s.2 with x := x }) (update_four s.2.x
      (xorBlk s.2.x (xorBlk (loadBlk s.1 Bin2) (loadBlk s.1 Bin1))))).trans ?_
    rw [xorBlk_comm (loadBlk s.1 Bin2), ← xorBlk_assoc]
    rfl

omit [DecidableEq ρ] in
theorem lane_xorLoop (reg : Fin 2 → ρ) (Bin1 Bin2 : Fin 2 → Nat) (P : Lanes 2 ρ M128 Yp2State)
    (l : Fin 2) :
    (xorLoop reg Bin1 Bin2 P).lane reg l = xorX (Bin2 l) (xorX (Bin1 l) (P.lane reg l)) := by
  simp only [xorLoop, lane_xorQ]
  exact xorQLane_four (Bin1 l) (Bin2 l) (P.lane reg l)

omit [DecidableEq ρ] in
theorem lane_civicRstep (reg : Fin 2 → ρ) (ilvReg : Bool) (k : Fin 4)
    (P : Lanes 2 ρ M128 Yp2State) (l : Fin 2) :
    (civicRstep ilvReg reg k P).lane reg l = pwxformStep k (P.lane reg l) := by
  cases ilvReg with
  | false =>
      match l with
      | 0 => rfl
      | 1 => rfl
  | true =>
      match l with
      | 0 => rfl
      | 1 => rfl

theorem lane_civicRstepW (hreg : Function.Injective reg) (ilvReg : Bool) (k : Fin 4)
    {T : Yp2State → Nat} (hT : ∀ st v, T (st.setX k v) = T st) (P : Lanes 2 ρ M128 Yp2State)
    (l : Fin 2) :
    (civicRstepW ilvReg reg k T P).lane reg l = pwxformStepWrite k T (P.lane reg l) := by
  have hstep := lane_civicRstep reg ilvReg k P l
  have hheap := congrArg Prod.fst hstep
  have hst := congrArg Prod.snd hstep
  simp only [Lanes.lane] at hheap hst
  have hstore := storeLane_both hreg (civicRstep ilvReg reg k P).heap
    (fun l => T ((civicRstep ilvReg reg k P).st l) + ((civicRstep ilvReg reg k P).st l).w)
    (fun l => ((civicRstep ilvReg reg k P).st l).x k) l
  apply Prod.ext
  · refine hstore.trans ?_
    simp only [hheap, hst, pwxformStep, hT]
    simp only [pwxformStepWrite, Yp2State.setX, Function.update_self, Lanes.lane]
  · exact hst

theorem bumpW32_eq {s : Region M128 × Yp2State} (hw : s.2.w + 16 < 2 ^ 32) :
    bumpW32 s = bumpW s := by
  rw [bumpW32, bumpW, Nat.mod_eq_of_lt hw]

theorem maskAndRotate32_eq {s : Region M128 × Yp2State} (hw : s.2.w < 2 ^ 32) :
    maskAndRotate32 s = maskAndRotate s := by
  have hmask : s.2.w &&& smask2_1_0.toNat < 2 ^ 32 := Nat.lt_of_le_of_lt Nat.and_le_left hw
  rw [maskAndRotate32, maskAndRotate, Nat.mod_eq_of_lt hmask]

theorem bumpW32_writes {s : Region M128 × Yp2State} (hw : s.2.w + 16 < 2 ^ 32) (j k : Fin 4)
    (T U : Yp2State → Nat) :
    bumpW32 (pwxformStepWrite k U (pwxformStepWrite j T s)) =
      bumpW (pwxformStepWrite k U (pwxformStepWrite j T s)) := by
  apply bumpW32_eq
  rw [pwxformStepWrite_w, pwxformStepWrite_w]
  exact hw

theorem pwxformRoundWrite4_32 {s : Region M128 × Yp2State} (hw : s.2.w + 32 < 2 ^ 32) :
    bumpW32 (pwxformStepWrite 3 Yp2State.S1 (pwxformStepWrite 2 Yp2State.S0
      (bumpW32 (pwxformStepWrite 1 Yp2State.S1 (pwxformStepWrite 0 Yp2State.S0 s))))) =
      pwxformRoundWrite4 s := by
  have hfirst : s.2.w + 16 < 2 ^ 32 := by omega
  rw [bumpW32_writes hfirst 0 1]
  apply bumpW32_writes
  rw [bumpW_w, pwxformStepWrite_w, pwxformStepWrite_w]
  exact hw

theorem pwxformRoundWrite2_32 {s : Region M128 × Yp2State} (hw : s.2.w + 16 < 2 ^ 32) :
    pwxformStep 3 (pwxformStep 2 (bumpW32 (pwxformStepWrite 1 Yp2State.S1
      (pwxformStepWrite 0 Yp2State.S0 s)))) = pwxformRoundWrite2 s := by
  rw [bumpW32_writes hw]
  rfl

/-- With `w` below the size of a table nothing is lost in 32 bits. -/
theorem lane_civicRform (hreg : Function.Injective reg) (ilvReg : Bool)
    (P : Lanes 2 ρ M128 Yp2State) (l : Fin 2) (hw : (P.st l).w < 32768) :
    (civicRform ilvReg reg P).lane reg l = pwxform (P.lane reg l) := by
  have hS0 : ∀ (st : Yp2State) k v, (st.setX k v).S0 = st.S0 := fun _ _ _ => rfl
  have hS1 : ∀ (st : Yp2State) k v, (st.setX k v).S1 = st.S1 := fun _ _ _ => rfl
  have hstart : (P.lane reg l).2.w = (P.st l).w := rfl
  simp only [civicRform, Lanes.lane_both hreg, lane_civicRstep,
    lane_civicRstepW hreg ilvReg _ (fun st v => hS0 st _ v),
    lane_civicRstepW hreg ilvReg _ (fun st v => hS1 st _ v)]
  generalize P.lane reg l = s at hstart ⊢
  let s₁ := pwxformRoundWrite4 s
  let s₂ := pwxformRoundWrite2 s₁
  have h₁ : s₁.2.w = s.2.w + 32 := pwxformRoundWrite4_w s
  have h₂ : s₂.2.w = s₁.2.w + 16 := pwxformRoundWrite2_w s₁
  have h₃ : (pwxformRoundWrite2 s₂).2.w = s₂.2.w + 16 := pwxformRoundWrite2_w s₂
  rw [pwxformRoundWrite4_32 (s := s) (by omega), pwxformRoundWrite2_32 (s := s₁) (by omega),
    pwxformRoundWrite2_32 (s := s₂) (by omega), maskAndRotate32_eq (by omega)]
  rfl

/-! The kernels. -/

theorem lane_civicBlockmixXor2wayRound (hreg : Function.Injective reg)
    (Bin1 Bin2 Bout : Fin 2 → Nat) (last i : Nat) (Q : Lanes 2 ρ M128 Yp2State) (l : Fin 2) :
    (civicBlockmixXor2wayRound reg Bin1 Bin2 Bout last i Q).lane reg l =
      blockmixXorRound (Bin1 l) (Bin2 l) (Bout l) last i (Q.lane reg l) := by
  simp only [civicBlockmixXor2wayRound, blockmixXorRound]
  split
  · rw [Lanes.lane_both hreg, lane_civicPwxform2wayIlv hreg, Lanes.lane_both hreg]
  · rw [lane_civicPwxform2wayIlv hreg, Lanes.lane_both hreg]

theorem lane_civicBlockmixXorSave2wayRound (hreg : Function.Injective reg) {last i : Nat}
    (Q : Lanes 2 ρ M128 Yp2State) {l : Fin 2}
    (apart : Bin2 l + 64 * i + 64 ≤ Bin1out l + 64 * i ∨
      Bin1out l + 64 * i + 64 ≤ Bin2 l + 64 * i) :
    (civicBlockmixXorSave2wayRound reg Bin1out Bin2 last i Q).lane reg l =
      blockmixXorSaveRound (Bin1out l) (Bin2 l) last i (Q.lane reg l) := by
  have hsave := lane_xorSaveLoop hreg (fun l => Bin1out l + 64 * i)
    (fun l => Bin2 l + 64 * i) Q apart
  simp only [civicBlockmixXorSave2wayRound, blockmixXorSaveRound]
  split
  · rw [Lanes.lane_both hreg, lane_civicPwxform2wayIlv hreg, hsave]
  · rw [lane_civicPwxform2wayIlv hreg, hsave]

theorem lane_civicBlockmixXorSave2wayRegRound (hreg : Function.Injective reg) (ilvReg : Bool)
    {last i : Nat} (Q : Lanes 2 ρ M128 Yp2State) {l : Fin 2}
    (apart : Bin2 l + 64 * i + 64 ≤ Bin1out l + 64 * i ∨
      Bin1out l + 64 * i + 64 ≤ Bin2 l + 64 * i) (hw : (Q.st l).w < 32768) :
    (civicBlockmixXorSave2wayRegRound ilvReg reg Bin1out Bin2 last i Q).lane reg l =
      blockmixXorSaveRound (Bin1out l) (Bin2 l) last i (Q.lane reg l) := by
  have hsave := lane_xorSaveLoop hreg (fun l => Bin1out l + 64 * i)
    (fun l => Bin2 l + 64 * i) Q apart
  have hw' : ((xorSaveLoop reg (fun l => Bin1out l + 64 * i) (fun l => Bin2 l + 64 * i) Q).st
      l).w < 32768 := by
    have hst := congrArg (fun s => s.2.w) hsave
    exact Nat.lt_of_le_of_lt (Nat.le_of_eq hst) hw
  simp only [civicBlockmixXorSave2wayRegRound, blockmixXorSaveRound]
  split
  · rw [Lanes.lane_both hreg, lane_civicRform hreg ilvReg _ l hw', hsave]
  · rw [lane_civicRform hreg ilvReg _ l hw', hsave]

theorem lane_civicBlockmixXor2wayRegRound (hreg : Function.Injective reg) (ilvReg : Bool)
    {last i : Nat} (Q : Lanes 2 ρ M128 Yp2State) {l : Fin 2} (hw : (Q.st l).w < 32768) :
    (civicBlockmixXor2wayRegRound ilvReg reg Bin1 Bin2 Bout last i Q).lane reg l =
      blockmixXorRound (Bin1 l) (Bin2 l) (Bout l) last i (Q.lane reg l) := by
  have hxor := lane_xorLoop reg (fun l => Bin1 l + 64 * i) (fun l => Bin2 l + 64 * i) Q l
  have hw' : ((xorLoop reg (fun l => Bin1 l + 64 * i) (fun l => Bin2 l + 64 * i) Q).st l).w <
      32768 := by
    have hst := congrArg (fun s => s.2.w) hxor
    exact Nat.lt_of_le_of_lt (Nat.le_of_eq hst) hw
  simp only [civicBlockmixXor2wayRegRound, blockmixXorRound]
  split
  · rw [Lanes.lane_both hreg, lane_civicRform hreg ilvReg _ l hw', hxor]
  · rw [lane_civicRform hreg ilvReg _ l hw', hxor]

theorem lane_civicBlockmixXor2way (hreg : Function.Injective reg) {r : Nat} (hr : 1 ≤ r)
    (P : Lanes 2 ρ M128 PwxformCtx) (l : Fin 2) :
    (civicBlockmixXor2way reg Bin1 Bin2 Bout r P).lane reg l =
      blockmixXorPwxform (P.heap (reg l)) (Bin1 l) (Bin2 l) (Bout l) r (P.st l) := by
  have hloop := @Lanes.lane_forUp 2 ρ M128 _ reg l _ _ 0 (r * 2 - 1 + 1) 1
    (fun k Q _ => lane_civicBlockmixXor2wayRound hreg Bin1 Bin2 Bout (r * 2 - 1) (0 + 1 * k) Q l)
    (start2way reg Bin1 Bin2 (r * 2 - 1) P)
  rw [civicBlockmixXor2way, lane_finish2way hreg, hloop, blockmixXorPwxform_eq _ _ _ _ hr]
  rfl

theorem tablesAt_blockmixXorSaveRound {T : Fin 3 → Nat} {Bin1out Bin2 last i : Nat}
    {s : Region M128 × Yp2State} (h : s.2.TablesAt T) :
    (blockmixXorSaveRound Bin1out Bin2 last i s).2.TablesAt T := by
  have hpwxform := tablesAt_pwxform (s := xorXWriteXorY2 (Bin2 + 64 * i) (Bin1out + 64 * i) s) h
  simp only [blockmixXorSaveRound]
  split
  · exact hpwxform
  · exact hpwxform

theorem tablesAt_blockmixXorRound {T : Fin 3 → Nat} {Bin1 Bin2 Bout last i : Nat}
    {s : Region M128 × Yp2State} (h : s.2.TablesAt T) :
    (blockmixXorRound Bin1 Bin2 Bout last i s).2.TablesAt T := by
  have hpwxform := tablesAt_pwxform (s := xorX (Bin2 + 64 * i) (xorX (Bin1 + 64 * i) s)) h
  simp only [blockmixXorRound]
  split
  · exact hpwxform
  · exact hpwxform

/-- A kernel whose rounds are the scalar rounds as long as the tables are in order. -/
theorem lane_kernel (hreg : Function.Injective reg) {T : Fin 3 → Nat} {last : Nat}
    (P : Lanes 2 ρ M128 PwxformCtx) {l : Fin 2} (hok : (P.st l).TablesAt T)
    {round : Nat → Lanes 2 ρ M128 Yp2State → Lanes 2 ρ M128 Yp2State}
    {scalarRound : Nat → Region M128 × Yp2State → Region M128 × Yp2State}
    (hround : ∀ i Q, i ≤ last → (Q.st l).TablesAt T →
      (round i Q).lane reg l = scalarRound i (Q.lane reg l))
    (hkeeps : ∀ i (s : Region M128 × Yp2State), s.2.TablesAt T →
      (scalarRound i s).2.TablesAt T)
    {start : Lanes 2 ρ M128 Yp2State}
    (hstart : start.lane reg l = (start2way reg Bin1 Bin2 last P).lane reg l) :
    (finish2way reg Bout last P.st (forUp 0 (last + 1) 1 round start)).lane reg l =
      let s := forUp 0 (last + 1) 1 scalarRound ((start2way reg Bin1 Bin2 last P).lane reg l)
      (storeBlk s.1 (Bout l + 64 * last) (salsa20Two s.2.x), (P.st l).save s.2,
        (salsa20Two s.2.x 0).w0) := by
  obtain ⟨hloop, -⟩ := @forUp_rel_unit _ _ 0 (last + 1) (Nat.zero_le _) round scalarRound start
    ((start2way reg Bin1 Bin2 last P).lane reg l)
    (fun _ Q s => Q.lane reg l = s ∧ s.2.TablesAt T) ⟨hstart, hok⟩ (by
      rintro i Q s - hi ⟨rfl, htables⟩
      exact ⟨hround i Q (by omega) htables, hkeeps i _ htables⟩)
  rw [lane_finish2way hreg, hloop]

theorem lane_saveKernel (hreg : Function.Injective reg) {T : Fin 3 → Nat} {r : Nat} (hr : 1 ≤ r)
    (P : Lanes 2 ρ M128 PwxformCtx) {l : Fin 2} (hok : (P.st l).TablesAt T)
    {round : Nat → Lanes 2 ρ M128 Yp2State → Lanes 2 ρ M128 Yp2State}
    (hround : ∀ i Q, i ≤ r * 2 - 1 → (Q.st l).TablesAt T → (round i Q).lane reg l =
      blockmixXorSaveRound (Bin1out l) (Bin2 l) (r * 2 - 1) i (Q.lane reg l))
    {start : Lanes 2 ρ M128 Yp2State}
    (hstart : start.lane reg l = (start2way reg Bin1out Bin2 (r * 2 - 1) P).lane reg l) :
    (finish2way reg Bin1out (r * 2 - 1) P.st
      (forUp 0 (r * 2 - 1 + 1) 1 round start)).lane reg l =
      blockmixXorSave (P.heap (reg l)) (Bin1out l) (Bin2 l) r (P.st l) := by
  rw [lane_kernel hreg P hok hround (fun _ _ => tablesAt_blockmixXorSaveRound) hstart,
    blockmixXorSave_eq _ _ _ hr]
  rfl

theorem lane_xorKernel (hreg : Function.Injective reg) {T : Fin 3 → Nat} {r : Nat} (hr : 1 ≤ r)
    (P : Lanes 2 ρ M128 PwxformCtx) {l : Fin 2} (hok : (P.st l).TablesAt T)
    {round : Nat → Lanes 2 ρ M128 Yp2State → Lanes 2 ρ M128 Yp2State}
    (hround : ∀ i Q, i ≤ r * 2 - 1 → (Q.st l).TablesAt T → (round i Q).lane reg l =
      blockmixXorRound (Bin1 l) (Bin2 l) (Bout l) (r * 2 - 1) i (Q.lane reg l))
    {start : Lanes 2 ρ M128 Yp2State}
    (hstart : start.lane reg l = (start2way reg Bin1 Bin2 (r * 2 - 1) P).lane reg l) :
    (finish2way reg Bout (r * 2 - 1) P.st (forUp 0 (r * 2 - 1 + 1) 1 round start)).lane reg l =
      blockmixXorPwxform (P.heap (reg l)) (Bin1 l) (Bin2 l) (Bout l) r (P.st l) := by
  rw [lane_kernel hreg P hok hround (fun _ _ => tablesAt_blockmixXorRound) hstart,
    blockmixXorPwxform_eq _ _ _ _ hr]
  rfl

end Lane

/-- A lane as its callers prepare it: `w` is a multiple of 64 inside a table, and the block of
V lies outside the three tables and outside the other block. -/
structure SaveLane (ctx : PwxformCtx) (Bin1out Bin2 r : Nat) : Prop where
  aligned : ctx.w % 64 = 0
  bound : ctx.w < 2 ^ 15
  block : AheadOf ![ctx.S0, ctx.S1, ctx.S2] Bin2 Bin1out (r * 2 - 1)

theorem SaveLane.tables {ctx : PwxformCtx} {Bin1out Bin2 r : Nat}
    (h : SaveLane ctx Bin1out Bin2 r) : ctx.TablesAt ![ctx.S0, ctx.S1, ctx.S2] :=
  { perm := List.Perm.refl _
    aligned := h.aligned
    bound := h.bound }

theorem SaveLane.apart {ctx : PwxformCtx} {Bin1out Bin2 r i : Nat}
    (h : SaveLane ctx Bin1out Bin2 r) (hi : i ≤ r * 2 - 1) :
    Bin2 + 64 * i + 64 ≤ Bin1out + 64 * i ∨ Bin1out + 64 * i + 64 ≤ Bin2 + 64 * i := by
  have hout := h.block.out
  omega

/-- The plain, the pipelined and the register-promoted kernel, the last one with either order
of its steps, are the scalar kernel in each lane. -/
theorem save_kernels_agree {reg : Fin 2 → ρ} (hreg : Function.Injective reg) {r : Nat}
    (hr : 1 ≤ r) (ilvReg : Bool) (Bin1out Bin2 : Fin 2 → Nat) (P : Lanes 2 ρ M128 PwxformCtx)
    (lanes : ∀ l, SaveLane (P.st l) (Bin1out l) (Bin2 l) r) (l : Fin 2) :
    let scalar := blockmixXorSave (P.heap (reg l)) (Bin1out l) (Bin2 l) r (P.st l)
    (civicBlockmixXorSave2way reg Bin1out Bin2 r P).lane reg l = scalar ∧
      (civicBlockmixXorSave2wayPipe reg Bin1out Bin2 r P).lane reg l = scalar ∧
      (civicBlockmixXorSave2wayReg ilvReg reg Bin1out Bin2 r P).lane reg l = scalar := by
  intro scalar
  have hlane := lanes l
  have hw32 : (P.st l).w % 2 ^ 32 = (P.st l).w :=
    Nat.mod_eq_of_lt (Nat.lt_trans hlane.bound (by decide))
  refine ⟨?_, ?_, ?_⟩
  · exact lane_saveKernel hreg hr P hlane.tables
      (fun i Q hi _ => lane_civicBlockmixXorSave2wayRound hreg Q (hlane.apart hi)) rfl
  · rw [lane_civicBlockmixXorSave2wayPipe hreg]
    exact blockmixXorSavePipe_eq_of_out hr _ hlane.tables hlane.block
  · refine lane_saveKernel hreg hr P hlane.tables (fun i Q hi htables =>
      lane_civicBlockmixXorSave2wayRegRound hreg ilvReg Q (hlane.apart hi) htables.bound) ?_
    simp only [Lanes.lane, start2way, truncateW, PwxformCtx.load, hw32]

/-- Sixteen blocks over tables that have gone round once, with the V block between two of
them. -/
theorem save_kernels_agree_eight :
    let P : Lanes 2 (Fin 2) M128 PwxformCtx :=
      { heap := fun lane _ => ⟨lane.val.toUInt32, 0, 0, 0⟩
        st := fun _ => ⟨70000, 1024, 36000, 32704, 98304⟩ }
    let scalar := blockmixXorSave (P.heap 1) 0 34000 8 (P.st 1)
    (civicBlockmixXorSave2way id (fun _ => 0) (fun _ => 34000) 8 P).lane id 1 = scalar ∧
      (civicBlockmixXorSave2wayPipe id (fun _ => 0) (fun _ => 34000) 8 P).lane id 1 = scalar ∧
      (civicBlockmixXorSave2wayReg false id (fun _ => 0) (fun _ => 34000) 8 P).lane id 1 =
        scalar := by
  have hlane : SaveLane ⟨70000, 1024, 36000, 32704, 98304⟩ 0 34000 8 := by
    refine ⟨by decide, by decide, fun i => ?_, Or.inr (by decide)⟩
    match i with
    | 0 => exact Or.inl (by decide)
    | 1 => exact Or.inr (by decide)
    | 2 => exact Or.inl (by decide)
  intro P scalar
  exact save_kernels_agree Function.injective_id (by decide) false _ _ P (fun _ => hlane) 1

/-- The kernels of the fill, with the same condition on the block of V and the output blocks; what
they read as `Bin1` may lie anywhere. -/
theorem xor_kernels_agree {reg : Fin 2 → ρ} (hreg : Function.Injective reg) {r : Nat}
    (hr : 1 ≤ r) (ilvReg : Bool) (Bin1 Bin2 Bout : Fin 2 → Nat) (P : Lanes 2 ρ M128 PwxformCtx)
    (lanes : ∀ l, SaveLane (P.st l) (Bout l) (Bin2 l) r) (l : Fin 2) :
    let scalar := blockmixXorPwxform (P.heap (reg l)) (Bin1 l) (Bin2 l) (Bout l) r (P.st l)
    (civicBlockmixXor2way reg Bin1 Bin2 Bout r P).lane reg l = scalar ∧
      (civicBlockmixXor2wayPipe reg Bin1 Bin2 Bout r P).lane reg l = scalar ∧
      (civicBlockmixXor2wayReg ilvReg reg Bin1 Bin2 Bout r P).lane reg l = scalar := by
  intro scalar
  have hlane := lanes l
  have hw32 : (P.st l).w % 2 ^ 32 = (P.st l).w :=
    Nat.mod_eq_of_lt (Nat.lt_trans hlane.bound (by decide))
  refine ⟨lane_civicBlockmixXor2way hreg hr P l, ?_, ?_⟩
  · rw [lane_civicBlockmixXor2wayPipe hreg]
    exact blockmixXorPipe_eq_of_out hr _ hlane.tables hlane.block
  · refine lane_xorKernel hreg hr P hlane.tables (fun i Q hi htables =>
      lane_civicBlockmixXor2wayRegRound hreg ilvReg Q htables.bound) ?_
    simp only [Lanes.lane, start2way, truncateW, PwxformCtx.load, hw32]

/-- Two blocks that are mixed with a block of V into the two behind them. -/
theorem xor_kernels_agree_one :
    let P : Lanes 2 (Fin 2) M128 PwxformCtx :=
      { heap := fun lane c => ⟨lane.val.toUInt32, UInt32.ofNat c, 0, 0⟩
        st := fun _ => ⟨70000, 1024, 36000, 32704, 98304⟩ }
    let scalar := blockmixXorPwxform (P.heap 1) 0 34000 128 1 (P.st 1)
    (civicBlockmixXor2way id (fun _ => 0) (fun _ => 34000) (fun _ => 128) 1 P).lane id 1 =
        scalar ∧
      (civicBlockmixXor2wayPipe id (fun _ => 0) (fun _ => 34000) (fun _ => 128) 1 P).lane id 1 =
        scalar ∧
      (civicBlockmixXor2wayReg true id (fun _ => 0) (fun _ => 34000) (fun _ => 128) 1 P).lane id
        1 = scalar := by
  have hlane : SaveLane ⟨70000, 1024, 36000, 32704, 98304⟩ 128 34000 1 := by
    refine ⟨by decide, by decide, fun i => ?_, Or.inr (by decide)⟩
    match i with
    | 0 => exact Or.inl (by decide)
    | 1 => exact Or.inr (by decide)
    | 2 => exact Or.inl (by decide)
  intro P scalar
  exact xor_kernels_agree Function.injective_id (by decide) true _ _ _ P (fun _ => hlane) 1

end SojCivicLight.Yespower
