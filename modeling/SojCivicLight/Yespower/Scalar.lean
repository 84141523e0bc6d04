import Mathlib.Data.Fin.VecNotation
import SojCivicLight.Library.Loop
import SojCivicLight.Library.Memory
import SojCivicLight.Yespower.Simd

/-! The scalar yespower 1.0 kernels (the second pass of the source, where Salsa20 runs
two rounds and pwxform writes its tables).  Every pointer of this path lies in one
thread-local region, so a pointer is a byte offset into that region. -/

namespace SojCivicLight.Yespower

open SojCivicLight.Library

/-- `salsa20_blk_t`, seen as its four registers `q[0..3]`. -/
abbrev Blk := Fin 4 → M128

def Blk.w (b : Blk) (i : Nat) : UInt32 := (b (Fin.ofNat 4 (i / 4))).word i

def loadBlk (m : Region M128) (p : Nat) : Blk := fun k => load m (p + 16 * k.val)

def storeBlk (m : Region M128) (p : Nat) (b : Blk) : Region M128 :=
  store (store (store (store m p (b 0)) (p + 16) (b 1)) (p + 32) (b 2)) (p + 48) (b 3)

def salsa20SimdShuffle (b : Blk) : Blk :=
  let combine (in1 in2 in3 in4 : Nat) : M128 :=
    ⟨b.w (in1 * 2), b.w (in2 * 2 + 1), b.w (in3 * 2), b.w (in4 * 2 + 1)⟩
  ![combine 0 2 5 7, combine 2 4 7 1, combine 4 6 1 3, combine 6 0 3 5]

def salsa20SimdUnshuffle (b : Blk) : Blk :=
  let uncombine (in1 in2 in3 in4 : Nat) : M128 :=
    ⟨b.w (in1 * 2), b.w (in2 * 2 + 1), b.w (in3 * 2), b.w (in4 * 2 + 1)⟩
  ![uncombine 0 6 5 3, uncombine 2 0 7 5, uncombine 4 2 1 7, uncombine 6 4 3 1]

def arx (out in1 in2 : M128) (s : UInt32) : M128 :=
  let tmp := mmAddEpi32 in1 in2
  mmXorSi128 (mmXorSi128 out (mmSlliEpi32 tmp s)) (mmSrliEpi32 tmp (32 - s))

def salsa20TwoRounds (X : Blk) : Blk :=
  let X0 := X 0
  let X1 := X 1
  let X2 := X 2
  let X3 := X 3
  let X1 := arx X1 X0 X3 7
  let X2 := arx X2 X1 X0 9
  let X3 := arx X3 X2 X1 13
  let X0 := arx X0 X3 X2 18
  let X1 := mmShuffleEpi32 X1 0x93
  let X2 := mmShuffleEpi32 X2 0x4E
  let X3 := mmShuffleEpi32 X3 0x39
  let X3 := arx X3 X0 X1 7
  let X2 := arx X2 X3 X0 9
  let X1 := arx X1 X2 X3 13
  let X0 := arx X0 X1 X2 18
  let X1 := mmShuffleEpi32 X1 0x39
  let X2 := mmShuffleEpi32 X2 0x4E
  let X3 := mmShuffleEpi32 X3 0x93
  ![X0, X1, X2, X3]

/-- The value `SALSA20_2` leaves in `X` and in its output block. -/
def salsa20Two (X : Blk) : Blk := fun k => mmAddEpi32 (salsa20TwoRounds X k) (X k)

def xorBlk (X Y : Blk) : Blk := fun k => mmXorSi128 (X k) (Y k)

theorem xorBlk_assoc (X Y Z : Blk) : xorBlk (xorBlk X Y) Z = xorBlk X (xorBlk Y Z) :=
  funext fun k => mmXorSi128_assoc (X k) (Y k) (Z k)

theorem xorBlk_comm (X Y : Blk) : xorBlk X Y = xorBlk Y X :=
  funext fun k => mmXorSi128_comm (X k) (Y k)

structure PwxformCtx where
  S0 : Nat
  S1 : Nat
  S2 : Nat
  w : Nat
  Sbytes : Nat

/-- The locals of a block mix: `X0..X3`, `S0`, `S1`, `S2` and `w`, which are also the
fields of `civic_yp2_state_t`. -/
structure Yp2State where
  x : Blk
  S0 : Nat
  S1 : Nat
  S2 : Nat
  w : Nat

def swidth_1_0 : Nat := 11
def pwxSimple : Nat := 2

def swidthToSbytes1 (swidth : Nat) : Nat := (1 <<< swidth) * pwxSimple * 8
def swidthToSmask (swidth : Nat) : Nat := ((1 <<< swidth) - 1) * pwxSimple * 8
def smaskToSmask2 (smask : Nat) : UInt64 :=
  (UInt64.ofNat smask <<< 32) ||| UInt64.ofNat smask

def smask2_1_0 : UInt64 := smaskToSmask2 (swidthToSmask swidth_1_0)

/-- `PWXFORM_SIMD(X)`: the new value of `X`. -/
def pwxformSimd (m : Region M128) (S0 S1 : Nat) (X : M128) : M128 :=
  let x := extract64 X &&& smask2_1_0
  let lo := x.toUInt32.toNat
  let hi := (x >>> 32).toUInt32.toNat
  let X := mmMulEpu32 (hi32 X) X
  let X := mmAddEpi64 X (load m (S0 + lo))
  mmXorSi128 X (load m (S1 + hi))

def Yp2State.setX (st : Yp2State) (k : Fin 4) (v : M128) : Yp2State :=
  { st with x := Function.update st.x k v }

/-- `PWXFORM_SIMD(Xk)` -/
def pwxformStep (k : Fin 4) (s : Region M128 × Yp2State) : Region M128 × Yp2State :=
  (s.1, s.2.setX k (pwxformSimd s.1 s.2.S0 s.2.S1 (s.2.x k)))

/-- `PWXFORM_SIMD_WRITE(Xk, Sw)` -/
def pwxformStepWrite (k : Fin 4) (Sw : Yp2State → Nat) (s : Region M128 × Yp2State) :
    Region M128 × Yp2State :=
  let v := pwxformSimd s.1 s.2.S0 s.2.S1 (s.2.x k)
  (store s.1 (Sw s.2 + s.2.w) v, s.2.setX k v)

def bumpW (s : Region M128 × Yp2State) : Region M128 × Yp2State :=
  (s.1, { s.2 with w := s.2.w + 16 })

def pwxformRoundWrite4 (s : Region M128 × Yp2State) : Region M128 × Yp2State :=
  let s := pwxformStepWrite 0 Yp2State.S0 s
  let s := pwxformStepWrite 1 Yp2State.S1 s
  let s := bumpW s
  let s := pwxformStepWrite 2 Yp2State.S0 s
  let s := pwxformStepWrite 3 Yp2State.S1 s
  bumpW s

def pwxformRoundWrite2 (s : Region M128 × Yp2State) : Region M128 × Yp2State :=
  let s := pwxformStepWrite 0 Yp2State.S0 s
  let s := pwxformStepWrite 1 Yp2State.S1 s
  let s := bumpW s
  let s := pwxformStep 2 s
  pwxformStep 3 s

/-- `w &= Smask2` and the rotation of the three table pointers. -/
def maskAndRotate (s : Region M128 × Yp2State) : Region M128 × Yp2State :=
  (s.1, { s.2 with
    w := s.2.w &&& smask2_1_0.toNat
    S2 := s.2.S1
    S1 := s.2.S0
    S0 := s.2.S2 })

def pwxform (s : Region M128 × Yp2State) : Region M128 × Yp2State :=
  maskAndRotate (pwxformRoundWrite2 (pwxformRoundWrite2 (pwxformRoundWrite4 s)))

def xorX (p : Nat) (s : Region M128 × Yp2State) : Region M128 × Yp2State :=
  (s.1, { s.2 with x := xorBlk s.2.x (loadBlk s.1 p) })

def writeX (p : Nat) (s : Region M128 × Yp2State) : Region M128 × Yp2State :=
  (storeBlk s.1 p s.2.x, s.2)

def xorXWriteXorY2 (out inp : Nat) (s : Region M128 × Yp2State) :
    Region M128 × Yp2State :=
  let Y := xorBlk (loadBlk s.1 out) (loadBlk s.1 inp)
  (storeBlk s.1 out Y, { s.2 with x := xorBlk s.2.x Y })

def blockmixSalsa (m : Region M128) (Bin Bout : Nat) : Region M128 :=
  let X := loadBlk m (Bin + 64)
  let X := salsa20Two (xorBlk X (loadBlk m Bin))
  let m := storeBlk m Bout X
  let X := salsa20Two (xorBlk X (loadBlk m (Bin + 64)))
  storeBlk m (Bout + 64) X

/-- `blockmix_salsa_xor`, with `INTEGERIFY` as its value. -/
def blockmixSalsaXor (m : Region M128) (Bin1 Bin2 Bout : Nat) : Region M128 × UInt32 :=
  let X := xorBlk (loadBlk m (Bin1 + 64)) (loadBlk m (Bin2 + 64))
  let X := xorBlk X (loadBlk m Bin1)
  let X := salsa20Two (xorBlk X (loadBlk m Bin2))
  let m := storeBlk m Bout X
  let X := xorBlk X (loadBlk m (Bin1 + 64))
  let X := salsa20Two (xorBlk X (loadBlk m (Bin2 + 64)))
  (storeBlk m (Bout + 64) X, (X 0).w0)

def PwxformCtx.load (ctx : PwxformCtx) (x : Blk) : Yp2State :=
  ⟨x, ctx.S0, ctx.S1, ctx.S2, ctx.w⟩

def PwxformCtx.save (ctx : PwxformCtx) (st : Yp2State) : PwxformCtx :=
  { ctx with S0 := st.S0, S1 := st.S1, S2 := st.S2, w := st.w }

/-- The loop of `blockmix`; `r` is already the index of the last 64-byte block. -/
def blockmixLoop (Bin Bout r i : Nat) (s : Region M128 × Yp2State) :
    Region M128 × Yp2State × Nat :=
  let s := pwxform (xorX (Bin + 64 * i) s)
  if r ≤ i then
    (s.1, s.2, i)
  else
    blockmixLoop Bin Bout r (i + 1) (writeX (Bout + 64 * i) s)
termination_by r - i

def blockmixPwxform (m : Region M128) (Bin Bout r : Nat) (ctx : PwxformCtx) :
    Region M128 × PwxformCtx :=
  let r := r * 2 - 1
  let (m, st, i) := blockmixLoop Bin Bout r 0 (m, ctx.load (loadBlk m (Bin + 64 * r)))
  (storeBlk m (Bout + 64 * i) (salsa20Two st.x), ctx.save st)

/-- `blockmix`; `ctx` is absent where the source passes `NULL`. -/
def blockmix (m : Region M128) (Bin Bout r : Nat) (ctx : Option PwxformCtx) :
    Region M128 × Option PwxformCtx :=
  match ctx with
  | none => (blockmixSalsa m Bin Bout, none)
  | some ctx =>
      let (m, ctx) := blockmixPwxform m Bin Bout r ctx
      (m, some ctx)

/-- The loop of `blockmix_xor`, two blocks a round; `r` is already `2r - 2`. -/
def blockmixXorLoop (Bin1 Bin2 Bout r i : Nat) (s : Region M128 × Yp2State) :
    Region M128 × Yp2State × Nat :=
  let s := pwxform (xorX (Bin2 + 64 * i) (xorX (Bin1 + 64 * i) s))
  let s := writeX (Bout + 64 * i) s
  let s := pwxform (xorX (Bin2 + 64 * (i + 1)) (xorX (Bin1 + 64 * (i + 1)) s))
  if r ≤ i then
    (s.1, s.2, i)
  else
    blockmixXorLoop Bin1 Bin2 Bout r (i + 2) (writeX (Bout + 64 * (i + 1)) s)
termination_by r - i

def blockmixXorPwxform (m : Region M128) (Bin1 Bin2 Bout r : Nat) (ctx : PwxformCtx) :
    Region M128 × PwxformCtx × UInt32 :=
  let r := r * 2 - 1
  let X := xorBlk (loadBlk m (Bin1 + 64 * r)) (loadBlk m (Bin2 + 64 * r))
  let (m, st, i) := blockmixXorLoop Bin1 Bin2 Bout (r - 1) 0 (m, ctx.load X)
  let X := salsa20Two st.x
  (storeBlk m (Bout + 64 * (i + 1)) X, ctx.save st, (X 0).w0)

def blockmixXor (m : Region M128) (Bin1 Bin2 Bout r : Nat) (ctx : Option PwxformCtx) :
    Region M128 × Option PwxformCtx × UInt32 :=
  match ctx with
  | none =>
      let (m, j) := blockmixSalsaXor m Bin1 Bin2 Bout
      (m, none, j)
  | some ctx =>
      let (m, ctx, j) := blockmixXorPwxform m Bin1 Bin2 Bout r ctx
      (m, some ctx, j)

/-- The loop of `blockmix_xor_save`; `r` is already `2r - 2`. -/
def blockmixXorSaveLoop (Bin1out Bin2 r i : Nat) (s : Region M128 × Yp2State) :
    Region M128 × Yp2State × Nat :=
  let s := pwxform (xorXWriteXorY2 (Bin2 + 64 * i) (Bin1out + 64 * i) s)
  let s := writeX (Bin1out + 64 * i) s
  let s := pwxform (xorXWriteXorY2 (Bin2 + 64 * (i + 1)) (Bin1out + 64 * (i + 1)) s)
  if r ≤ i then
    (s.1, s.2, i)
  else
    blockmixXorSaveLoop Bin1out Bin2 r (i + 2) (writeX (Bin1out + 64 * (i + 1)) s)
termination_by r - i

def blockmixXorSave (m : Region M128) (Bin1out Bin2 r : Nat) (ctx : PwxformCtx) :
    Region M128 × PwxformCtx × UInt32 :=
  let r := r * 2 - 1
  let X := xorBlk (loadBlk m (Bin1out + 64 * r)) (loadBlk m (Bin2 + 64 * r))
  let (m, st, i) := blockmixXorSaveLoop Bin1out Bin2 (r - 1) 0 (m, ctx.load X)
  let X := salsa20Two st.x
  (storeBlk m (Bin1out + 64 * (i + 1)) X, ctx.save st, (X 0).w0)

def integerify (m : Region M128) (B r : Nat) : UInt32 :=
  (load m (B + 64 * (2 * r - 1))).d0.toUInt32

/-- One round of the load loops: `le32dec` the words of `src` into `tmp` (on a
little-endian machine a copy), then shuffle `tmp` into `dst`. -/
def shuffleIn (src tmp dst : Nat) (m : Region M128) : Region M128 :=
  let m := storeBlk m tmp (loadBlk m src)
  storeBlk m dst (salsa20SimdShuffle (loadBlk m tmp))

/-- One round of the store loops: `le32enc` the words of `src` into `tmp`, then
unshuffle `tmp` into `dst`. -/
def unshuffleOut (src tmp dst : Nat) (m : Region M128) : Region M128 :=
  let m := storeBlk m tmp (loadBlk m src)
  storeBlk m dst (salsa20SimdUnshuffle (loadBlk m tmp))

/-- The locals of the fill loop that change: `ctx`, `X`, `Y` and the 32-bit `j`, whose
arithmetic stays below the slot count and so does not wrap. -/
structure Smix1Vars (κ : Type) where
  ctx : κ
  X : Nat
  Y : Nat
  j : Nat

def smix1Round (r V n i : Nat) (s : Region M128 × Smix1Vars (Option PwxformCtx)) :
    Region M128 × Smix1Vars (Option PwxformCtx) :=
  let blk := 64 * (2 * r)
  let Y := s.2.X + blk
  let j := (s.2.j &&& (n - 1)) + (i - 1)
  let (m, ctx, j) := blockmixXor s.1 s.2.X (V + blk * j) Y r s.2.ctx
  let j := (j.toNat &&& (n - 1)) + i
  let X := Y + blk
  let (m, ctx, j) := blockmixXor m Y (V + blk * j) X r ctx
  (m, { ctx, X, Y, j := j.toNat })

def smix1 (m : Region M128) (B r N V XY : Nat) (ctx : Option PwxformCtx) :
    Region M128 × Option PwxformCtx :=
  let blk := 64 * (2 * r)
  let X := V
  let Y := V + blk
  let m := forUp 0 2 1 (fun i => shuffleIn (B + 64 * i) Y (X + 64 * i)) m
  let s := forUp 1 r 1 (fun i s =>
    blockmix s.1 (X + 64 * ((i - 1) * 2)) (X + 64 * (i * 2)) 1 s.2) (m, ctx)
  let s := blockmix s.1 X Y r s.2
  let X := Y + blk
  let (m, ctx) := blockmix s.1 Y X r s.2
  let s := (m, ({ ctx, X, Y, j := (integerify m X r).toNat } :
    Smix1Vars (Option PwxformCtx)))
  let (s, n) := forDoubling N (fun n s =>
    let bound := if n < N / 2 then n else N - 1 - n
    forUp 1 bound 2 (smix1Round r V n) s) 2 s
  let n := n / 2
  let X := s.2.X
  let Y := X + blk
  let j := (s.2.j &&& (n - 1)) + (N - 2 - n)
  let (m, ctx, j) := blockmixXor s.1 X (V + blk * j) Y r s.2.ctx
  let j := (j.toNat &&& (n - 1)) + (N - 1 - n)
  let (m, ctx, _) := blockmixXor m Y (V + blk * j) XY r ctx
  (forUp 0 (2 * r) 1 (fun i => unshuffleOut (XY + 64 * i) (XY + blk) (B + 64 * i)) m, ctx)

/-- The locals of the random-walk loop: `ctx` and the masked `j`. -/
structure Smix2Vars where
  ctx : PwxformCtx
  j : Nat

def smix2Round (r N V X : Nat) (s : Region M128 × Smix2Vars) : Region M128 × Smix2Vars :=
  let blk := 64 * (2 * r)
  let (m, ctx, j) := blockmixXorSave s.1 X (V + blk * s.2.j) r s.2.ctx
  let j := j.toNat &&& (N - 1)
  let (m, ctx, j) := blockmixXorSave m X (V + blk * j) r ctx
  (m, { ctx, j := j.toNat &&& (N - 1) })

def smix2 (m : Region M128) (B r N Nloop V XY : Nat) (ctx : PwxformCtx) :
    Region M128 × PwxformCtx :=
  let X := XY
  let Y := XY + 64 * (2 * r)
  let m := forUp 0 (2 * r) 1 (fun i => shuffleIn (B + 64 * i) Y (X + 64 * i)) m
  let s := (m, ({ ctx, j := (integerify m X r).toNat &&& (N - 1) } : Smix2Vars))
  let s := doWhileMinusTwo (smix2Round r N V X) Nloop s
  (forUp 0 (2 * r) 1 (fun i => unshuffleOut (X + 64 * i) Y (B + 64 * i)) s.1, s.2.ctx)

/-- `Nloop_rw`: a third of `N`, rounded up, then rounded up to even. -/
def nloopRw (N : Nat) : Nat := ((N + 2) / 3 + 1) / 2 * 2

def smix (m : Region M128) (B r N V XY : Nat) (ctx : PwxformCtx) :
    Region M128 × PwxformCtx :=
  let (m, _) := smix1 m B 1 (ctx.Sbytes / 128) ctx.S0 XY none
  let (m, ctx') := smix1 m B r N V XY (some ctx)
  smix2 m B r N (nloopRw N) V XY (ctx'.getD ctx)

end SojCivicLight.Yespower
