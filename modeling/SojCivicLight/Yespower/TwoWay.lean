import SojCivicLight.Yespower.Scalar

/-! The two-lane kernels of the AVX2 build.  Lane `l` works on the pointers with index
`l`, which are offsets into the region `reg l`; the statements of the two lanes are
interleaved as the source has them, and nothing here assumes that the two regions
differ. -/

namespace SojCivicLight.Yespower

open SojCivicLight.Library

variable {ρ : Type} [DecidableEq ρ]

def Heap.storeLane (reg : Fin 2 → ρ) (l : Fin 2) (h : Heap ρ M128) (p : Nat) (v : M128) :
    Heap ρ M128 :=
  Function.update h (reg l) (store (h (reg l)) p v)

def Heap.storeBlks (reg : Fin 2 → ρ) (h : Heap ρ M128) (p : Fin 2 → Nat) (b : Fin 2 → Blk) :
    Heap ρ M128 :=
  let h := Function.update h (reg 0) (storeBlk (h (reg 0)) (p 0) (b 0))
  Function.update h (reg 1) (storeBlk (h (reg 1)) (p 1) (b 1))

/-- `CIVIC_ILV_STEP(I, MEMBER)`: the loads of both lanes, the arithmetic of both
lanes, then both stores. -/
def civicIlvStep (reg : Fin 2 → ρ) (k : Fin 4) (member : Yp2State → Nat)
    (P : Lanes 2 ρ M128 Yp2State) : Lanes 2 ρ M128 Yp2State :=
  let a := P.st 0
  let b := P.st 1
  let xa := extract64 (a.x k) &&& smask2_1_0
  let xb := extract64 (b.x k) &&& smask2_1_0
  let adda := load (P.heap (reg 0)) (a.S0 + xa.toUInt32.toNat)
  let addb := load (P.heap (reg 1)) (b.S0 + xb.toUInt32.toNat)
  let xora := load (P.heap (reg 0)) (a.S1 + (xa >>> 32).toUInt32.toNat)
  let xorb := load (P.heap (reg 1)) (b.S1 + (xb >>> 32).toUInt32.toNat)
  let Ya := mmMulEpu32 (hi32 (a.x k)) (a.x k)
  let Yb := mmMulEpu32 (hi32 (b.x k)) (b.x k)
  let va := mmXorSi128 (mmAddEpi64 Ya adda) xora
  let vb := mmXorSi128 (mmAddEpi64 Yb addb) xorb
  let heap := Heap.storeLane reg 0 P.heap (member a + a.w) va
  let heap := Heap.storeLane reg 1 heap (member b + b.w) vb
  { heap, st := ![a.setX k va, b.setX k vb] }

/-- `civic_pwx_1_0_2way` on column `k` of both lanes. -/
def civicPwx_1_0_2way (reg : Fin 2 → ρ) (k : Fin 4) (P : Lanes 2 ρ M128 Yp2State) :
    Lanes 2 ρ M128 Yp2State :=
  let a := P.st 0
  let b := P.st 1
  let xa := extract64 (a.x k) &&& smask2_1_0
  let xb := extract64 (b.x k) &&& smask2_1_0
  let X := mmMulEpu32 (hi32 (a.x k)) (a.x k)
  let X := mmAddEpi64 X (load (P.heap (reg 0)) (a.S0 + xa.toUInt32.toNat))
  let va := mmXorSi128 X (load (P.heap (reg 0)) (a.S1 + (xa >>> 32).toUInt32.toNat))
  let X := mmMulEpu32 (hi32 (b.x k)) (b.x k)
  let X := mmAddEpi64 X (load (P.heap (reg 1)) (b.S0 + xb.toUInt32.toNat))
  let vb := mmXorSi128 X (load (P.heap (reg 1)) (b.S1 + (xb >>> 32).toUInt32.toNat))
  { heap := P.heap, st := ![a.setX k va, b.setX k vb] }

/-- `civic_pwxform_2way_ilv`, which `civic_pwxform_2way` names in the AVX2 build. -/
def civicPwxform2wayIlv (reg : Fin 2 → ρ) (P : Lanes 2 ρ M128 Yp2State) :
    Lanes 2 ρ M128 Yp2State :=
  let bump := Lanes.both reg (fun _ => bumpW)
  let P := civicIlvStep reg 0 Yp2State.S0 P
  let P := bump (civicIlvStep reg 1 Yp2State.S1 P)
  let P := civicIlvStep reg 2 Yp2State.S0 P
  let P := bump (civicIlvStep reg 3 Yp2State.S1 P)
  let P := civicIlvStep reg 0 Yp2State.S0 P
  let P := bump (civicIlvStep reg 1 Yp2State.S1 P)
  let P := civicPwx_1_0_2way reg 3 (civicPwx_1_0_2way reg 2 P)
  let P := civicIlvStep reg 0 Yp2State.S0 P
  let P := bump (civicIlvStep reg 1 Yp2State.S1 P)
  let P := civicPwx_1_0_2way reg 3 (civicPwx_1_0_2way reg 2 P)
  Lanes.both reg (fun _ => maskAndRotate) P

def civicBlockmix2wayRound (reg : Fin 2 → ρ) (Bin Bout : Fin 2 → Nat) (last i : Nat)
    (Q : Lanes 2 ρ M128 Yp2State) : Lanes 2 ρ M128 Yp2State :=
  let Q := Lanes.both reg (fun l => xorX (Bin l + 64 * i)) Q
  let Q := civicPwxform2wayIlv reg Q
  if i ≠ last then Lanes.both reg (fun l => writeX (Bout l + 64 * i)) Q else Q

def civicBlockmix2way (reg : Fin 2 → ρ) (Bin Bout : Fin 2 → Nat) (r : Nat)
    (P : Lanes 2 ρ M128 PwxformCtx) : Lanes 2 ρ M128 PwxformCtx :=
  let last := r * 2 - 1
  let Q : Lanes 2 ρ M128 Yp2State :=
    { heap := P.heap
      st := fun l => (P.st l).load (loadBlk (P.heap (reg l)) (Bin l + 64 * last)) }
  let Q := forUp 0 (last + 1) 1 (civicBlockmix2wayRound reg Bin Bout last) Q
  { heap := Heap.storeBlks reg Q.heap (fun l => Bout l + 64 * last)
      (fun l => salsa20Two (Q.st l).x)
    st := fun l => (P.st l).save (Q.st l) }

/-- The locals of one lane of a software-pipelined kernel: the state and the blocks
`v` and `nv`. -/
structure PipeState where
  st : Yp2State
  v : Blk
  nv : Blk

/-- Apply a statement about the state alone. -/
def PipeState.onState (f : Region M128 × Yp2State → Region M128 × Yp2State)
    (s : Region M128 × PipeState) : Region M128 × PipeState :=
  let t := f (s.1, s.2.st)
  (t.1, { s.2 with st := t.2 })

/-- `nv[q] = Bin2[i + 1].q[q]` -/
def pipeFetch (p : Nat) (s : Region M128 × PipeState) : Region M128 × PipeState :=
  (s.1, { s.2 with nv := loadBlk s.1 p })

/-- `v[q] = nv[q]` -/
def pipeShift (s : Region M128 × PipeState) : Region M128 × PipeState :=
  (s.1, { s.2 with v := s.2.nv })

/-- `x[q] ^= v[q] ^ Bin1[i].q[q]` -/
def pipeXor (Bin1 : Nat) (s : Region M128 × PipeState) : Region M128 × PipeState :=
  let y := xorBlk s.2.v (loadBlk s.1 Bin1)
  (s.1, { s.2 with st := { s.2.st with x := xorBlk s.2.st.x y } })

/-- `pipeXor` with the write-back `Bin2[i].q[q] = v[q] ^ Bin1out[i].q[q]`. -/
def pipeXorSave (Bin1out Bin2 : Nat) (s : Region M128 × PipeState) :
    Region M128 × PipeState :=
  let y := xorBlk s.2.v (loadBlk s.1 Bin1out)
  (storeBlk s.1 Bin2 y, { s.2 with st := { s.2.st with x := xorBlk s.2.st.x y } })

/-- The state a pipelined kernel enters its loop with.  The source leaves `nv`
uninitialised; the first round fetches it before it is read. -/
def pipeInit (reg : Fin 2 → ρ) (Bin1 Bin2 : Fin 2 → Nat) (last : Nat)
    (P : Lanes 2 ρ M128 PwxformCtx) : Lanes 2 ρ M128 PipeState :=
  { heap := P.heap
    st := fun l =>
      let m := P.heap (reg l)
      let x := xorBlk (loadBlk m (Bin1 l + 64 * last)) (loadBlk m (Bin2 l + 64 * last))
      { st := (P.st l).load x, v := loadBlk m (Bin2 l), nv := loadBlk m (Bin2 l) } }

/-- The end of a two-lane kernel: store the contexts, finish both lanes with Salsa20
and read both results back. -/
def pipeFinish (reg : Fin 2 → ρ) (Bout : Fin 2 → Nat) (last : Nat)
    (ctx : Fin 2 → PwxformCtx) (Q : Lanes 2 ρ M128 PipeState) :
    Lanes 2 ρ M128 (PwxformCtx × UInt32) :=
  let heap := Heap.storeBlks reg Q.heap (fun l => Bout l + 64 * last)
    (fun l => salsa20Two (Q.st l).st.x)
  { heap
    st := fun l =>
      ((ctx l).save (Q.st l).st,
        (load (heap (reg l)) (Bout l + 64 * last)).d0.toUInt32) }

/-- `civic_pwxform_2way` inside a pipelined kernel. -/
def pipePwxform (reg : Fin 2 → ρ) (Q : Lanes 2 ρ M128 PipeState) :
    Lanes 2 ρ M128 PipeState :=
  let R := civicPwxform2wayIlv reg { heap := Q.heap, st := fun l => (Q.st l).st }
  { heap := R.heap, st := fun l => { Q.st l with st := R.st l } }

def civicBlockmixXor2wayPipeRound (reg : Fin 2 → ρ) (Bin1 Bin2 Bout : Fin 2 → Nat)
    (last i : Nat) (Q : Lanes 2 ρ M128 PipeState) : Lanes 2 ρ M128 PipeState :=
  let Q := if i ≠ last then
    Lanes.both reg (fun l => pipeFetch (Bin2 l + 64 * (i + 1))) Q else Q
  let Q := Lanes.both reg (fun l => pipeXor (Bin1 l + 64 * i)) Q
  let Q := pipePwxform reg Q
  let Q := if i ≠ last then
    Lanes.both reg (fun l => PipeState.onState (writeX (Bout l + 64 * i))) Q else Q
  Lanes.both reg (fun _ => pipeShift) Q

/-- `civic_blockmix_xor_2way_pipe`, which is `CIVIC_SMIX1_BLKXOR`. -/
def civicBlockmixXor2wayPipe (reg : Fin 2 → ρ) (Bin1 Bin2 Bout : Fin 2 → Nat) (r : Nat)
    (P : Lanes 2 ρ M128 PwxformCtx) : Lanes 2 ρ M128 (PwxformCtx × UInt32) :=
  let last := r * 2 - 1
  let Q := forUp 0 (last + 1) 1
    (civicBlockmixXor2wayPipeRound reg Bin1 Bin2 Bout last)
    (pipeInit reg Bin1 Bin2 last P)
  pipeFinish reg Bout last P.st Q

/-- One round of `civic_blockmix_xor_save_2way_pipe`; its loop for `r == 8` and its
general loop have this one body. -/
def civicBlockmixXorSave2wayPipeRound (reg : Fin 2 → ρ) (Bin1out Bin2 : Fin 2 → Nat)
    (last i : Nat) (Q : Lanes 2 ρ M128 PipeState) : Lanes 2 ρ M128 PipeState :=
  let Q := if i ≠ last then
    Lanes.both reg (fun l => pipeFetch (Bin2 l + 64 * (i + 1))) Q else Q
  let Q := Lanes.both reg (fun l => pipeXorSave (Bin1out l + 64 * i) (Bin2 l + 64 * i)) Q
  let Q := pipePwxform reg Q
  let Q := if i ≠ last then
    Lanes.both reg (fun l => PipeState.onState (writeX (Bin1out l + 64 * i))) Q else Q
  Lanes.both reg (fun _ => pipeShift) Q

/-- `civic_blockmix_xor_save_2way_pipe`, which is `CIVIC_SMIX2_BLKXOR`. -/
def civicBlockmixXorSave2wayPipe (reg : Fin 2 → ρ) (Bin1out Bin2 : Fin 2 → Nat) (r : Nat)
    (P : Lanes 2 ρ M128 PwxformCtx) : Lanes 2 ρ M128 (PwxformCtx × UInt32) :=
  let last := r * 2 - 1
  let Q := forUp 0 (last + 1) 1
    (civicBlockmixXorSave2wayPipeRound reg Bin1out Bin2 last)
    (pipeInit reg Bin1out Bin2 last P)
  pipeFinish reg Bin1out last P.st Q

/-! The paired Salsa20/2 kernels. -/

def civicSalsaArx (out in1 in2 : M256) (s : UInt32) : M256 :=
  let tmp := mm256AddEpi32 in1 in2
  mm256XorSi256 (mm256XorSi256 out (mm256SlliEpi32 tmp s)) (mm256SrliEpi32 tmp (32 - s))

/-- The registers `civic_salsa2_2way` computes. -/
def civicSalsa2Rounds (X : Fin 4 → M256) : Fin 4 → M256 :=
  let X0 := X 0
  let X1 := X 1
  let X2 := X 2
  let X3 := X 3
  let X1 := civicSalsaArx X1 X0 X3 7
  let X2 := civicSalsaArx X2 X1 X0 9
  let X3 := civicSalsaArx X3 X2 X1 13
  let X0 := civicSalsaArx X0 X3 X2 18
  let X1 := mm256ShuffleEpi32 X1 0x93
  let X2 := mm256ShuffleEpi32 X2 0x4e
  let X3 := mm256ShuffleEpi32 X3 0x39
  let X3 := civicSalsaArx X3 X0 X1 7
  let X2 := civicSalsaArx X2 X3 X0 9
  let X1 := civicSalsaArx X1 X2 X3 13
  let X0 := civicSalsaArx X0 X1 X2 18
  let X1 := mm256ShuffleEpi32 X1 0x39
  let X2 := mm256ShuffleEpi32 X2 0x4e
  let X3 := mm256ShuffleEpi32 X3 0x93
  fun k => mm256AddEpi32 (![X0, X1, X2, X3] k) (X k)

/-- `civic_salsa2_2way`: the new registers, and both output blocks stored. -/
def civicSalsa2_2way (reg : Fin 2 → ρ) (X : Fin 4 → M256) (out : Fin 2 → Nat)
    (h : Heap ρ M128) : Heap ρ M128 × (Fin 4 → M256) :=
  let X := civicSalsa2Rounds X
  (Heap.storeBlks reg h out (fun l k => (X k).half l), X)

def packBlks (block : Fin 2 → Blk) : Fin 4 → M256 :=
  fun k => civicSalsaPack (block 0 k) (block 1 k)

def civicSalsaXorPair (X : Fin 4 → M256) (block : Fin 2 → Blk) : Fin 4 → M256 :=
  fun k => mm256XorSi256 (X k) (packBlks block k)

def laneBlks (reg : Fin 2 → ρ) (h : Heap ρ M128) (p : Fin 2 → Nat) : Fin 2 → Blk :=
  fun l => loadBlk (h (reg l)) (p l)

def civicBlockmixSalsa2way (reg : Fin 2 → ρ) (Bin Bout : Fin 2 → Nat) (h : Heap ρ M128) :
    Heap ρ M128 :=
  let X := packBlks (laneBlks reg h (fun l => Bin l + 64))
  let X := civicSalsaXorPair X (laneBlks reg h Bin)
  let (h, X) := civicSalsa2_2way reg X Bout h
  let X := civicSalsaXorPair X (laneBlks reg h (fun l => Bin l + 64))
  (civicSalsa2_2way reg X (fun l => Bout l + 64) h).1

def civicBlockmixSalsaXor2way (reg : Fin 2 → ρ) (Bin1 Bin2 Bout : Fin 2 → Nat)
    (h : Heap ρ M128) : Heap ρ M128 × (Fin 2 → UInt32) :=
  let xorFour (h : Heap ρ M128) (off : Nat) : Fin 2 → Blk := fun l =>
    xorBlk (loadBlk (h (reg l)) (Bin1 l + off)) (loadBlk (h (reg l)) (Bin2 l + off))
  let X := packBlks (xorFour h 64)
  let X := civicSalsaXorPair X (xorFour h 0)
  let (h, X) := civicSalsa2_2way reg X Bout h
  let X := civicSalsaXorPair X (xorFour h 64)
  let (h, _) := civicSalsa2_2way reg X (fun l => Bout l + 64) h
  (h, fun l => (load (h (reg l)) (Bout l + 64)).d0.toUInt32)

/-! The two-lane SMix. -/

/-- The loops `for lane, for i` that load, shuffle, unshuffle or store: lane 0 runs to
its end before lane 1 starts. -/
def eachLane (reg : Fin 2 → ρ) (f : Fin 2 → Region M128 → Region M128) (h : Heap ρ M128) :
    Heap ρ M128 :=
  let h := Function.update h (reg 0) (f 0 (h (reg 0)))
  Function.update h (reg 1) (f 1 (h (reg 1)))

def civicSmix1Salsa2wayRound (reg : Fin 2 → ρ) (V : Fin 2 → Nat) (n i : Nat)
    (P : Lanes 2 ρ M128 (Smix1Vars Unit)) : Lanes 2 ρ M128 (Smix1Vars Unit) :=
  let X := fun l => (P.st l).X
  let Y := fun l => X l + 128
  let Vj := fun l => V l + 128 * (((P.st l).j &&& (n - 1)) + i - 1)
  let (h, result) := civicBlockmixSalsaXor2way reg X Vj Y P.heap
  let Vj := fun l => V l + 128 * (((result l).toNat &&& (n - 1)) + i)
  let X := fun l => Y l + 128
  let (h, result) := civicBlockmixSalsaXor2way reg Y Vj X h
  { heap := h, st := fun l => { ctx := (), X := X l, Y := Y l, j := (result l).toNat } }

def civicSmix1Salsa2wayStart (reg : Fin 2 → ρ) (B V : Fin 2 → Nat) (h : Heap ρ M128) :
    Lanes 2 ρ M128 (Smix1Vars Unit) :=
  let X := V
  let Y := fun l => V l + 128
  let h := eachLane reg (fun l =>
    forUp 0 2 1 (fun i => shuffleIn (B l + 64 * i) (Y l) (X l + 64 * i))) h
  let h := civicBlockmixSalsa2way reg X Y h
  let X := fun l => Y l + 128
  let h := civicBlockmixSalsa2way reg Y X h
  { heap := h
    st := fun l =>
      { ctx := (), X := X l, Y := Y l, j := (integerify (h (reg l)) (X l) 1).toNat } }

def civicSmix1Salsa2wayEnd (reg : Fin 2 → ρ) (B V XY : Fin 2 → Nat) (N n : Nat)
    (P : Lanes 2 ρ M128 (Smix1Vars Unit)) : Heap ρ M128 :=
  let X := fun l => (P.st l).X
  let Y := fun l => X l + 128
  let Vj := fun l => V l + 128 * (((P.st l).j &&& (n - 1)) + N - 2 - n)
  let (h, result) := civicBlockmixSalsaXor2way reg X Vj Y P.heap
  let Vj := fun l => V l + 128 * (((result l).toNat &&& (n - 1)) + N - 1 - n)
  let (h, _) := civicBlockmixSalsaXor2way reg Y Vj XY h
  eachLane reg (fun l =>
    forUp 0 2 1 (fun i => unshuffleOut (XY l + 64 * i) (XY l + 128) (B l + 64 * i))) h

/-- `civic_smix1_salsa_2way`, with `civic_salsa_N = 768` and `civic_salsa_s = 2`. -/
def civicSmix1Salsa2way (reg : Fin 2 → ρ) (B V XY : Fin 2 → Nat) (h : Heap ρ M128) :
    Heap ρ M128 :=
  let N := 768
  let P := civicSmix1Salsa2wayStart reg B V h
  let (P, n) := forDoubling N (fun n P =>
    let m := if n < N / 2 then n else N - 1 - n
    forUp 1 m 2 (civicSmix1Salsa2wayRound reg V n) P) 2 P
  civicSmix1Salsa2wayEnd reg B V XY N (n / 2) P

def ctxLanes (h : Heap ρ M128) (ctx : Fin 2 → PwxformCtx) : Lanes 2 ρ M128 PwxformCtx :=
  { heap := h, st := ctx }

def civicSmix1_1_0_2wayRound (reg : Fin 2 → ρ) (r : Nat) (V : Fin 2 → Nat) (n i : Nat)
    (P : Lanes 2 ρ M128 (Smix1Vars PwxformCtx)) : Lanes 2 ρ M128 (Smix1Vars PwxformCtx) :=
  let blk := 64 * (2 * r)
  let X := fun l => (P.st l).X
  let Y := fun l => X l + blk
  let Vj := fun l => V l + blk * (((P.st l).j &&& (n - 1)) + i - 1)
  let Q := civicBlockmixXor2wayPipe reg X Vj Y r (ctxLanes P.heap fun l => (P.st l).ctx)
  let Vj := fun l => V l + blk * (((Q.st l).2.toNat &&& (n - 1)) + i)
  let X := fun l => Y l + blk
  let Q := civicBlockmixXor2wayPipe reg Y Vj X r (ctxLanes Q.heap fun l => (Q.st l).1)
  { heap := Q.heap
    st := fun l => { ctx := (Q.st l).1, X := X l, Y := Y l, j := (Q.st l).2.toNat } }

def civicSmix1_1_0_2wayStart (reg : Fin 2 → ρ) (B : Fin 2 → Nat) (r : Nat) (V : Fin 2 → Nat)
    (P : Lanes 2 ρ M128 PwxformCtx) : Lanes 2 ρ M128 (Smix1Vars PwxformCtx) :=
  let blk := 64 * (2 * r)
  let X := V
  let Y := fun l => V l + blk
  let h := eachLane reg (fun l =>
    forUp 0 2 1 (fun i => shuffleIn (B l + 64 * i) (Y l) (X l + 64 * i))) P.heap
  let P := forUp 1 r 1 (fun i =>
    civicBlockmix2way reg (fun l => X l + 64 * ((i - 1) * 2)) (fun l => X l + 64 * (i * 2)) 1)
    (ctxLanes h P.st)
  let P := civicBlockmix2way reg X Y r P
  let X := fun l => Y l + blk
  let P := civicBlockmix2way reg Y X r P
  { heap := P.heap
    st := fun l =>
      { ctx := P.st l, X := X l, Y := Y l
        j := (integerify (P.heap (reg l)) (X l) r).toNat } }

def civicSmix1_1_0_2wayEnd (reg : Fin 2 → ρ) (B : Fin 2 → Nat) (r N : Nat)
    (V XY : Fin 2 → Nat) (n : Nat) (P : Lanes 2 ρ M128 (Smix1Vars PwxformCtx)) :
    Lanes 2 ρ M128 PwxformCtx :=
  let blk := 64 * (2 * r)
  let X := fun l => (P.st l).X
  let Y := fun l => X l + blk
  let Vj := fun l => V l + blk * (((P.st l).j &&& (n - 1)) + N - 2 - n)
  let Q := civicBlockmixXor2wayPipe reg X Vj Y r (ctxLanes P.heap fun l => (P.st l).ctx)
  let Vj := fun l => V l + blk * (((Q.st l).2.toNat &&& (n - 1)) + N - 1 - n)
  let Q := civicBlockmixXor2wayPipe reg Y Vj XY r (ctxLanes Q.heap fun l => (Q.st l).1)
  let h := eachLane reg (fun l =>
    forUp 0 (2 * r) 1 (fun i => unshuffleOut (XY l + 64 * i) (XY l + blk) (B l + 64 * i)))
    Q.heap
  ctxLanes h fun l => (Q.st l).1

def civicSmix1_1_0_2way (reg : Fin 2 → ρ) (B : Fin 2 → Nat) (r N : Nat)
    (V XY : Fin 2 → Nat) (P : Lanes 2 ρ M128 PwxformCtx) : Lanes 2 ρ M128 PwxformCtx :=
  let P := civicSmix1_1_0_2wayStart reg B r V P
  let (P, n) := forDoubling N (fun n P =>
    let m := if n < N / 2 then n else N - 1 - n
    forUp 1 m 2 (civicSmix1_1_0_2wayRound reg r V n) P) 2 P
  civicSmix1_1_0_2wayEnd reg B r N V XY (n / 2) P

def civicSmix2_1_0_2wayRound (reg : Fin 2 → ρ) (r N : Nat) (V X : Fin 2 → Nat)
    (P : Lanes 2 ρ M128 Smix2Vars) : Lanes 2 ρ M128 Smix2Vars :=
  let blk := 64 * (2 * r)
  let Vj := fun l => V l + blk * (P.st l).j
  let Q := civicBlockmixXorSave2wayPipe reg X Vj r (ctxLanes P.heap fun l => (P.st l).ctx)
  let Vj := fun l => V l + blk * ((Q.st l).2.toNat &&& (N - 1))
  let Q := civicBlockmixXorSave2wayPipe reg X Vj r (ctxLanes Q.heap fun l => (Q.st l).1)
  { heap := Q.heap
    st := fun l => { ctx := (Q.st l).1, j := (Q.st l).2.toNat &&& (N - 1) } }

def civicSmix2_1_0_2way (reg : Fin 2 → ρ) (B : Fin 2 → Nat) (r N Nloop : Nat)
    (V XY : Fin 2 → Nat) (P : Lanes 2 ρ M128 PwxformCtx) : Lanes 2 ρ M128 PwxformCtx :=
  let X := XY
  let Y := fun l => XY l + 64 * (2 * r)
  let h := eachLane reg (fun l =>
    forUp 0 (2 * r) 1 (fun i => shuffleIn (B l + 64 * i) (Y l) (X l + 64 * i))) P.heap
  let P : Lanes 2 ρ M128 Smix2Vars :=
    { heap := h
      st := fun l =>
        { ctx := P.st l, j := (integerify (h (reg l)) (X l) r).toNat &&& (N - 1) } }
  let P := doWhileMinusTwo (civicSmix2_1_0_2wayRound reg r N V X) Nloop P
  let h := eachLane reg (fun l =>
    forUp 0 (2 * r) 1 (fun i => unshuffleOut (X l + 64 * i) (Y l) (B l + 64 * i))) P.heap
  ctxLanes h fun l => (P.st l).ctx

def civicSmix_1_0_2way (reg : Fin 2 → ρ) (B : Fin 2 → Nat) (N r : Nat)
    (V XY : Fin 2 → Nat) (P : Lanes 2 ρ M128 PwxformCtx) : Lanes 2 ρ M128 PwxformCtx :=
  let h := civicSmix1Salsa2way reg B (fun l => (P.st l).S0) XY P.heap
  let P := civicSmix1_1_0_2way reg B r N V XY (ctxLanes h P.st)
  civicSmix2_1_0_2way reg B r N (nloopRw N) V XY P

end SojCivicLight.Yespower
