import SojCivicLight.Yespower.TwoWay

/-! The four-lane kernels of the benchmark build, as the source has them.  They fetch
nothing ahead, so a round reads its blocks where it uses them. -/

namespace SojCivicLight.Yespower

open SojCivicLight.Library

variable {ρ : Type} [DecidableEq ρ]

def civicYp4Step (reg : Fin 4 → ρ) (k : Fin 4) (P : Lanes 4 ρ M128 Yp2State) :
    Lanes 4 ρ M128 Yp2State :=
  let step (l : Fin 4) : Yp2State :=
    let a := P.st l
    let xa := extract64 (a.x k) &&& smask2_1_0
    let Xa := mmMulEpu32 (hi32 (a.x k)) (a.x k)
    let Xa := mmAddEpi64 Xa (load (P.heap (reg l)) (a.S0 + xa.toUInt32.toNat))
    a.setX k (mmXorSi128 Xa (load (P.heap (reg l)) (a.S1 + (xa >>> 32).toUInt32.toNat)))
  { heap := P.heap, st := step }

def civicYp4StepWrite (reg : Fin 4 → ρ) (k : Fin 4) (member : Yp2State → Nat)
    (P : Lanes 4 ρ M128 Yp2State) : Lanes 4 ρ M128 Yp2State :=
  let P := civicYp4Step reg k P
  P.all reg (fun _ s => (store s.1 (member s.2 + s.2.w) (s.2.x k), s.2))

def civicPwxform4way (reg : Fin 4 → ρ) (P : Lanes 4 ρ M128 Yp2State) :
    Lanes 4 ρ M128 Yp2State :=
  let bump := Lanes.all reg (fun _ => bumpW)
  let P := civicYp4StepWrite reg 0 Yp2State.S0 P
  let P := bump (civicYp4StepWrite reg 1 Yp2State.S1 P)
  let P := civicYp4StepWrite reg 2 Yp2State.S0 P
  let P := bump (civicYp4StepWrite reg 3 Yp2State.S1 P)
  let P := civicYp4StepWrite reg 0 Yp2State.S0 P
  let P := bump (civicYp4StepWrite reg 1 Yp2State.S1 P)
  let P := civicYp4Step reg 3 (civicYp4Step reg 2 P)
  let P := civicYp4StepWrite reg 0 Yp2State.S0 P
  let P := bump (civicYp4StepWrite reg 1 Yp2State.S1 P)
  let P := civicYp4Step reg 3 (civicYp4Step reg 2 P)
  Lanes.all reg (fun _ => maskAndRotate) P

/-- The end of a four-lane kernel: store the contexts and finish the lanes with
Salsa20. -/
def civicFinish4way (reg : Fin 4 → ρ) (Bout : Fin 4 → Nat) (last : Nat)
    (ctx : Fin 4 → PwxformCtx) (Q : Lanes 4 ρ M128 Yp2State) : Lanes 4 ρ M128 PwxformCtx :=
  let Q := Q.all reg (fun l s => (storeBlk s.1 (Bout l + 64 * last) (salsa20Two s.2.x), s.2))
  { heap := Q.heap, st := fun l => (ctx l).save (Q.st l) }

/-- `civic_yp2_read` from `Bin1[last]` and `civic_yp2_xor` with `Bin2[last]`, then
`civic_yp2_ctx_load`. -/
def civicStartXor4way (reg : Fin 4 → ρ) (Bin1 Bin2 : Fin 4 → Nat) (last : Nat)
    (P : Lanes 4 ρ M128 PwxformCtx) : Lanes 4 ρ M128 Yp2State :=
  { heap := P.heap
    st := fun l =>
      let m := P.heap (reg l)
      (P.st l).load
        (xorBlk (loadBlk m (Bin1 l + 64 * last)) (loadBlk m (Bin2 l + 64 * last))) }

/-- `result[l] = (uint32_t)Bout[last].d[0]` -/
def civicResult4way (reg : Fin 4 → ρ) (Bout : Fin 4 → Nat) (last : Nat)
    (P : Lanes 4 ρ M128 PwxformCtx) : Lanes 4 ρ M128 (PwxformCtx × UInt32) :=
  { heap := P.heap
    st := fun l => (P.st l, (load (P.heap (reg l)) (Bout l + 64 * last)).d0.toUInt32) }

def civicBlockmixXorSave4wayRound (reg : Fin 4 → ρ) (Bin1out Bin2 : Fin 4 → Nat)
    (last i : Nat) (Q : Lanes 4 ρ M128 Yp2State) : Lanes 4 ρ M128 Yp2State :=
  let Q := Q.all reg (fun l => xorXWriteXorY2 (Bin2 l + 64 * i) (Bin1out l + 64 * i))
  let Q := civicPwxform4way reg Q
  if i ≠ last then Q.all reg (fun l => writeX (Bin1out l + 64 * i)) else Q

def civicBlockmixXorSave4way (reg : Fin 4 → ρ) (Bin1out Bin2 : Fin 4 → Nat) (r : Nat)
    (P : Lanes 4 ρ M128 PwxformCtx) : Lanes 4 ρ M128 (PwxformCtx × UInt32) :=
  let last := r * 2 - 1
  let Q := forUp 0 (last + 1) 1 (civicBlockmixXorSave4wayRound reg Bin1out Bin2 last)
    (civicStartXor4way reg Bin1out Bin2 last P)
  civicResult4way reg Bin1out last (civicFinish4way reg Bin1out last P.st Q)

/-- `ya = Bin2[i] ^ Bin1[i]` and `x ^= ya` -/
def xorPair (Bin1 Bin2 : Nat) (s : Region M128 × Yp2State) : Region M128 × Yp2State :=
  (s.1, { s.2 with x := xorBlk s.2.x (xorBlk (loadBlk s.1 Bin2) (loadBlk s.1 Bin1)) })

def civicBlockmixXor4wayRound (reg : Fin 4 → ρ) (Bin1 Bin2 Bout : Fin 4 → Nat)
    (last i : Nat) (Q : Lanes 4 ρ M128 Yp2State) : Lanes 4 ρ M128 Yp2State :=
  let Q := Q.all reg (fun l => xorPair (Bin1 l + 64 * i) (Bin2 l + 64 * i))
  let Q := civicPwxform4way reg Q
  if i ≠ last then Q.all reg (fun l => writeX (Bout l + 64 * i)) else Q

def civicBlockmixXor4way (reg : Fin 4 → ρ) (Bin1 Bin2 Bout : Fin 4 → Nat) (r : Nat)
    (P : Lanes 4 ρ M128 PwxformCtx) : Lanes 4 ρ M128 (PwxformCtx × UInt32) :=
  let last := r * 2 - 1
  let Q := forUp 0 (last + 1) 1 (civicBlockmixXor4wayRound reg Bin1 Bin2 Bout last)
    (civicStartXor4way reg Bin1 Bin2 last P)
  civicResult4way reg Bout last (civicFinish4way reg Bout last P.st Q)

/-- One round of `civic_blockmix_4way`, which adds no block to the state. -/
def civicBlockmix4wayRound (reg : Fin 4 → ρ) (Bout : Fin 4 → Nat) (last i : Nat)
    (Q : Lanes 4 ρ M128 Yp2State) : Lanes 4 ρ M128 Yp2State :=
  let Q := civicPwxform4way reg Q
  if i ≠ last then Q.all reg (fun l => writeX (Bout l + 64 * i)) else Q

def civicBlockmix4way (reg : Fin 4 → ρ) (Bin Bout : Fin 4 → Nat) (r : Nat)
    (P : Lanes 4 ρ M128 PwxformCtx) : Lanes 4 ρ M128 PwxformCtx :=
  let last := r * 2 - 1
  let Q : Lanes 4 ρ M128 Yp2State :=
    { heap := P.heap
      st := fun l => (P.st l).load (loadBlk (P.heap (reg l)) (Bin l + 64 * last)) }
  let Q := forUp 0 (last + 1) 1 (civicBlockmix4wayRound reg Bout last) Q
  civicFinish4way reg Bout last P.st Q

def civicSmix1_1_0_4wayRound (reg : Fin 4 → ρ) (r : Nat) (V : Fin 4 → Nat) (n i : Nat)
    (P : Lanes 4 ρ M128 (Smix1Vars PwxformCtx)) : Lanes 4 ρ M128 (Smix1Vars PwxformCtx) :=
  let blk := 64 * (2 * r)
  let X := fun l => (P.st l).X
  let Y := fun l => X l + blk
  let Vj := fun l => V l + blk * (((P.st l).j &&& (n - 1)) + i - 1)
  let Q := civicBlockmixXor4way reg X Vj Y r { heap := P.heap, st := fun l => (P.st l).ctx }
  let Vj := fun l => V l + blk * (((Q.st l).2.toNat &&& (n - 1)) + i)
  let X := fun l => Y l + blk
  let Q := civicBlockmixXor4way reg Y Vj X r { heap := Q.heap, st := fun l => (Q.st l).1 }
  { heap := Q.heap
    st := fun l => { ctx := (Q.st l).1, X := X l, Y := Y l, j := (Q.st l).2.toNat } }

/-- `civic_smix1_1_0_4way` up to its fill loop.  The loop that spreads the input over the
first slot mixes `r` pairs of blocks at every step. -/
def civicSmix1_1_0_4wayStart (reg : Fin 4 → ρ) (B : Fin 4 → Nat) (r : Nat) (V : Fin 4 → Nat)
    (P : Lanes 4 ρ M128 PwxformCtx) : Lanes 4 ρ M128 (Smix1Vars PwxformCtx) :=
  let blk := 64 * (2 * r)
  let X := V
  let Y := fun l => V l + blk
  let P := P.all reg (fun l s =>
    (forUp 0 2 1 (fun i => shuffleIn (B l + 64 * i) (Y l) (X l + 64 * i)) s.1, s.2))
  let P := forUp 1 r 1 (fun i =>
    civicBlockmix4way reg (fun l => X l + 64 * ((i - 1) * 2)) (fun l => X l + 64 * (i * 2)) r)
    P
  let P := civicBlockmix4way reg X Y r P
  let X := fun l => Y l + blk
  let P := civicBlockmix4way reg Y X r P
  { heap := P.heap
    st := fun l =>
      { ctx := P.st l, X := X l, Y := Y l
        j := (integerify (P.heap (reg l)) (X l) r).toNat } }

def civicSmix1_1_0_4wayEnd (reg : Fin 4 → ρ) (B : Fin 4 → Nat) (r N : Nat)
    (V XY : Fin 4 → Nat) (n : Nat) (P : Lanes 4 ρ M128 (Smix1Vars PwxformCtx)) :
    Lanes 4 ρ M128 PwxformCtx :=
  let blk := 64 * (2 * r)
  let X := fun l => (P.st l).X
  let Y := fun l => X l + blk
  let Vj := fun l => V l + blk * (((P.st l).j &&& (n - 1)) + N - 2 - n)
  let Q := civicBlockmixXor4way reg X Vj Y r { heap := P.heap, st := fun l => (P.st l).ctx }
  let Vj := fun l => V l + blk * (((Q.st l).2.toNat &&& (n - 1)) + N - 1 - n)
  let Q := civicBlockmixXor4way reg Y Vj XY r { heap := Q.heap, st := fun l => (Q.st l).1 }
  let Q : Lanes 4 ρ M128 PwxformCtx := { heap := Q.heap, st := fun l => (Q.st l).1 }
  Q.all reg (fun l s =>
    (forUp 0 (2 * r) 1 (fun i => unshuffleOut (XY l + 64 * i) (XY l + blk) (B l + 64 * i)) s.1,
      s.2))

def civicSmix1_1_0_4way (reg : Fin 4 → ρ) (B : Fin 4 → Nat) (r N : Nat)
    (V XY : Fin 4 → Nat) (P : Lanes 4 ρ M128 PwxformCtx) : Lanes 4 ρ M128 PwxformCtx :=
  let P := civicSmix1_1_0_4wayStart reg B r V P
  let (P, n) := forDoubling N (fun n P =>
    let m := if n < N / 2 then n else N - 1 - n
    forUp 1 m 2 (civicSmix1_1_0_4wayRound reg r V n) P) 2 P
  civicSmix1_1_0_4wayEnd reg B r N V XY (n / 2) P

def civicSmix2_1_0_4wayRound (reg : Fin 4 → ρ) (r N : Nat) (V X : Fin 4 → Nat)
    (P : Lanes 4 ρ M128 Smix2Vars) : Lanes 4 ρ M128 Smix2Vars :=
  let blk := 64 * (2 * r)
  let Vj := fun l => V l + blk * (P.st l).j
  let Q := civicBlockmixXorSave4way reg X Vj r { heap := P.heap, st := fun l => (P.st l).ctx }
  let Vj := fun l => V l + blk * ((Q.st l).2.toNat &&& (N - 1))
  let Q := civicBlockmixXorSave4way reg X Vj r { heap := Q.heap, st := fun l => (Q.st l).1 }
  { heap := Q.heap
    st := fun l => { ctx := (Q.st l).1, j := (Q.st l).2.toNat &&& (N - 1) } }

def civicSmix2_1_0_4way (reg : Fin 4 → ρ) (B : Fin 4 → Nat) (r N Nloop : Nat)
    (V XY : Fin 4 → Nat) (P : Lanes 4 ρ M128 PwxformCtx) : Lanes 4 ρ M128 PwxformCtx :=
  let X := XY
  let Y := fun l => XY l + 64 * (2 * r)
  let P := P.all reg (fun l s =>
    (forUp 0 (2 * r) 1 (fun i => shuffleIn (B l + 64 * i) (Y l) (X l + 64 * i)) s.1, s.2))
  let P : Lanes 4 ρ M128 Smix2Vars :=
    { heap := P.heap
      st := fun l =>
        { ctx := P.st l, j := (integerify (P.heap (reg l)) (X l) r).toNat &&& (N - 1) } }
  let P := doWhileMinusTwo (civicSmix2_1_0_4wayRound reg r N V X) Nloop P
  let P : Lanes 4 ρ M128 PwxformCtx := { heap := P.heap, st := fun l => (P.st l).ctx }
  P.all reg (fun l s =>
    (forUp 0 (2 * r) 1 (fun i => unshuffleOut (X l + 64 * i) (Y l) (B l + 64 * i)) s.1, s.2))

end SojCivicLight.Yespower
