import SojCivicLight.Yespower.TwoWay
import SojCivicLight.Yespower.Tables

/-! Each lane of a two-lane kernel runs the scalar kernel, when the lanes' regions
differ.  The kernels without a pipeline need nothing else; the pipelined ones read a
block one round before it is used, so their lanes need that block to be out of reach
of what the round writes. -/

namespace SojCivicLight.Yespower

open SojCivicLight.Library

/-! The scalar loops, one block a round. -/

def blockmixRound (Bin Bout last i : Nat) (s : Region M128 × Yp2State) :
    Region M128 × Yp2State :=
  let s := pwxform (xorX (Bin + 64 * i) s)
  if i ≠ last then writeX (Bout + 64 * i) s else s

def blockmixXorRound (Bin1 Bin2 Bout last i : Nat) (s : Region M128 × Yp2State) :
    Region M128 × Yp2State :=
  let s := pwxform (xorX (Bin2 + 64 * i) (xorX (Bin1 + 64 * i) s))
  if i ≠ last then writeX (Bout + 64 * i) s else s

def blockmixXorSaveRound (Bin1out Bin2 last i : Nat) (s : Region M128 × Yp2State) :
    Region M128 × Yp2State :=
  let s := pwxform (xorXWriteXorY2 (Bin2 + 64 * i) (Bin1out + 64 * i) s)
  if i ≠ last then writeX (Bin1out + 64 * i) s else s

theorem blockmixLoop_eq (Bin Bout last : Nat) (i : Nat) (s : Region M128 × Yp2State)
    (hle : i ≤ last) :
    blockmixLoop Bin Bout last i s =
      ((forUp i (last + 1) 1 (blockmixRound Bin Bout last) s).1,
        (forUp i (last + 1) 1 (blockmixRound Bin Bout last) s).2, last) := by
  induction i, s using blockmixLoop.induct Bin Bout last with
  | case1 i s h =>
      have hi : i = last := by omega
      subst hi
      rw [blockmixLoop, if_pos (Nat.le_refl i), forUp_peel (by omega),
        forUp_of_le (by omega)]
      simp [blockmixRound]
  | case2 i s s' h ih =>
      have hround : blockmixRound Bin Bout last i s = writeX (Bout + 64 * i) s' := by
        simp [blockmixRound, s', show i ≠ last by omega]
      rw [blockmixLoop, if_neg h, forUp_peel (by omega), hround]
      exact ih (by omega)

theorem blockmixXorLoop_eq (Bin1 Bin2 Bout last : Nat) (hodd : last % 2 = 1) (i : Nat)
    (s : Region M128 × Yp2State) (hle : i ≤ last - 1) (heven : i % 2 = 0) :
    blockmixXorLoop Bin1 Bin2 Bout (last - 1) i s =
      ((forUp i (last + 1) 1 (blockmixXorRound Bin1 Bin2 Bout last) s).1,
        (forUp i (last + 1) 1 (blockmixXorRound Bin1 Bin2 Bout last) s).2, last - 1) := by
  induction i, s using blockmixXorLoop.induct Bin1 Bin2 Bout (last - 1) with
  | case1 i s h =>
      have hi : i = last - 1 := by omega
      subst hi
      rw [blockmixXorLoop, if_pos (Nat.le_refl _), forUp_peel (by omega),
        forUp_peel (by omega), forUp_of_le (by omega)]
      simp [blockmixXorRound, show last - 1 ≠ last by omega,
        show last - 1 + 1 = last by omega]
  | case2 i s s₁ s₂ s₃ h ih =>
      have hround : blockmixXorRound Bin1 Bin2 Bout last (i + 1)
          (blockmixXorRound Bin1 Bin2 Bout last i s) = writeX (Bout + 64 * (i + 1)) s₃ := by
        simp [blockmixXorRound, s₁, s₂, s₃, show i ≠ last by omega,
          show i + 1 ≠ last by omega]
      rw [blockmixXorLoop, if_neg h, forUp_peel (by omega), forUp_peel (by omega), hround]
      exact ih (by omega) (by omega)

theorem blockmixXorSaveLoop_eq (Bin1out Bin2 last : Nat) (hodd : last % 2 = 1) (i : Nat)
    (s : Region M128 × Yp2State) (hle : i ≤ last - 1) (heven : i % 2 = 0) :
    blockmixXorSaveLoop Bin1out Bin2 (last - 1) i s =
      ((forUp i (last + 1) 1 (blockmixXorSaveRound Bin1out Bin2 last) s).1,
        (forUp i (last + 1) 1 (blockmixXorSaveRound Bin1out Bin2 last) s).2, last - 1) := by
  induction i, s using blockmixXorSaveLoop.induct Bin1out Bin2 (last - 1) with
  | case1 i s h =>
      have hi : i = last - 1 := by omega
      subst hi
      rw [blockmixXorSaveLoop, if_pos (Nat.le_refl _), forUp_peel (by omega),
        forUp_peel (by omega), forUp_of_le (by omega)]
      simp [blockmixXorSaveRound, show last - 1 ≠ last by omega,
        show last - 1 + 1 = last by omega]
  | case2 i s s₁ s₂ s₃ h ih =>
      have hround : blockmixXorSaveRound Bin1out Bin2 last (i + 1)
          (blockmixXorSaveRound Bin1out Bin2 last i s) =
          writeX (Bin1out + 64 * (i + 1)) s₃ := by
        simp [blockmixXorSaveRound, s₁, s₂, s₃, show i ≠ last by omega,
          show i + 1 ≠ last by omega]
      rw [blockmixXorSaveLoop, if_neg h, forUp_peel (by omega), forUp_peel (by omega), hround]
      exact ih (by omega) (by omega)

theorem blockmixPwxform_eq (m : Region M128) (Bin Bout r : Nat) (ctx : PwxformCtx) :
    blockmixPwxform m Bin Bout r ctx =
      let last := r * 2 - 1
      let s := forUp 0 (last + 1) 1 (blockmixRound Bin Bout last)
        (m, ctx.load (loadBlk m (Bin + 64 * last)))
      (storeBlk s.1 (Bout + 64 * last) (salsa20Two s.2.x), ctx.save s.2) := by
  simp only [blockmixPwxform, blockmixLoop_eq _ _ _ 0 _ (Nat.zero_le _)]

theorem blockmixXorPwxform_eq (m : Region M128) (Bin1 Bin2 Bout : Nat) {r : Nat}
    (hr : 1 ≤ r) (ctx : PwxformCtx) :
    blockmixXorPwxform m Bin1 Bin2 Bout r ctx =
      let last := r * 2 - 1
      let s := forUp 0 (last + 1) 1 (blockmixXorRound Bin1 Bin2 Bout last)
        (m, ctx.load (xorBlk (loadBlk m (Bin1 + 64 * last)) (loadBlk m (Bin2 + 64 * last))))
      (storeBlk s.1 (Bout + 64 * last) (salsa20Two s.2.x), ctx.save s.2,
        (salsa20Two s.2.x 0).w0) := by
  simp only [blockmixXorPwxform,
    blockmixXorLoop_eq _ _ _ (r * 2 - 1) (by omega) 0 _ (Nat.zero_le _) rfl,
    show r * 2 - 1 - 1 + 1 = r * 2 - 1 by omega]

theorem blockmixXorSave_eq (m : Region M128) (Bin1out Bin2 : Nat) {r : Nat} (hr : 1 ≤ r)
    (ctx : PwxformCtx) :
    blockmixXorSave m Bin1out Bin2 r ctx =
      let last := r * 2 - 1
      let s := forUp 0 (last + 1) 1 (blockmixXorSaveRound Bin1out Bin2 last)
        (m, ctx.load
          (xorBlk (loadBlk m (Bin1out + 64 * last)) (loadBlk m (Bin2 + 64 * last))))
      (storeBlk s.1 (Bin1out + 64 * last) (salsa20Two s.2.x), ctx.save s.2,
        (salsa20Two s.2.x 0).w0) := by
  simp only [blockmixXorSave,
    blockmixXorSaveLoop_eq _ _ (r * 2 - 1) (by omega) 0 _ (Nat.zero_le _) rfl,
    show r * 2 - 1 - 1 + 1 = r * 2 - 1 by omega]

/-! The lanes. -/

variable {ρ : Type} [DecidableEq ρ] {reg : Fin 2 → ρ}

theorem lane_civicIlvStep (hreg : Function.Injective reg) (k : Fin 4)
    (member : Yp2State → Nat) (P : Lanes 2 ρ M128 Yp2State) (l : Fin 2) :
    (civicIlvStep reg k member P).lane reg l =
      pwxformStepWrite k member (P.lane reg l) := by
  have h01 : reg 0 ≠ reg 1 := fun h => absurd (hreg h) (by decide)
  match l with
  | 0 =>
      simp only [Lanes.lane, civicIlvStep, Heap.storeLane, pwxformStepWrite,
        Function.update_self, Function.update_of_ne h01]
      rfl
  | 1 =>
      simp only [Lanes.lane, civicIlvStep, Heap.storeLane, pwxformStepWrite,
        Function.update_self, Function.update_of_ne h01.symm]
      rfl

omit [DecidableEq ρ] in
theorem lane_civicPwx_1_0_2way (k : Fin 4) (P : Lanes 2 ρ M128 Yp2State) (l : Fin 2) :
    (civicPwx_1_0_2way reg k P).lane reg l = pwxformStep k (P.lane reg l) := by
  match l with
  | 0 => rfl
  | 1 => rfl

theorem lane_civicPwxform2wayIlv (hreg : Function.Injective reg)
    (P : Lanes 2 ρ M128 Yp2State) (l : Fin 2) :
    (civicPwxform2wayIlv reg P).lane reg l = pwxform (P.lane reg l) := by
  simp only [civicPwxform2wayIlv, Lanes.lane_both hreg, lane_civicIlvStep hreg,
    lane_civicPwx_1_0_2way, pwxform, pwxformRoundWrite4, pwxformRoundWrite2]

theorem storeBlks_lane (hreg : Function.Injective reg) (h : Heap ρ M128)
    (p : Fin 2 → Nat) (b : Fin 2 → Blk) (l : Fin 2) :
    Heap.storeBlks reg h p b (reg l) = storeBlk (h (reg l)) (p l) (b l) := by
  have h01 : reg 0 ≠ reg 1 := fun h => absurd (hreg h) (by decide)
  match l with
  | 0 => simp [Heap.storeBlks, Function.update_of_ne h01]
  | 1 => simp [Heap.storeBlks, Function.update_of_ne h01.symm]

theorem lane_eachLane (hreg : Function.Injective reg)
    (f : Fin 2 → Region M128 → Region M128) (h : Heap ρ M128) (l : Fin 2) :
    eachLane reg f h (reg l) = f l (h (reg l)) := by
  have h01 : reg 0 ≠ reg 1 := fun h => absurd (hreg h) (by decide)
  match l with
  | 0 => simp [eachLane, Function.update_of_ne h01]
  | 1 => simp [eachLane, Function.update_of_ne h01.symm]

theorem lane_civicBlockmix2wayRound (hreg : Function.Injective reg)
    (Bin Bout : Fin 2 → Nat) (last i : Nat) (Q : Lanes 2 ρ M128 Yp2State) (l : Fin 2) :
    (civicBlockmix2wayRound reg Bin Bout last i Q).lane reg l =
      blockmixRound (Bin l) (Bout l) last i (Q.lane reg l) := by
  simp only [civicBlockmix2wayRound, blockmixRound]
  split
  · rw [Lanes.lane_both hreg, lane_civicPwxform2wayIlv hreg, Lanes.lane_both hreg]
  · rw [lane_civicPwxform2wayIlv hreg, Lanes.lane_both hreg]

theorem lane_civicBlockmix2way (hreg : Function.Injective reg) (Bin Bout : Fin 2 → Nat)
    (r : Nat) (P : Lanes 2 ρ M128 PwxformCtx) (l : Fin 2) :
    (civicBlockmix2way reg Bin Bout r P).lane reg l =
      blockmixPwxform (P.heap (reg l)) (Bin l) (Bout l) r (P.st l) := by
  have joint := @Lanes.lane_forUp 2 ρ M128 _ reg l _ _ 0 (r * 2 - 1 + 1) 1
    (fun k Q _ => lane_civicBlockmix2wayRound hreg Bin Bout (r * 2 - 1) (0 + 1 * k) Q l)
    { heap := P.heap
      st := fun l => (P.st l).load (loadBlk (P.heap (reg l)) (Bin l + 64 * (r * 2 - 1))) }
  rw [blockmixPwxform_eq, civicBlockmix2way]
  simp only [Lanes.lane, storeBlks_lane hreg] at joint ⊢
  rw [← joint]

/-! The pipelined kernels. -/

theorem lane_pipePwxform (hreg : Function.Injective reg) (Q : Lanes 2 ρ M128 PipeState)
    (l : Fin 2) :
    (pipePwxform reg Q).lane reg l = PipeState.onState pwxform (Q.lane reg l) := by
  have hlane := lane_civicPwxform2wayIlv hreg
    { heap := Q.heap, st := fun l => (Q.st l).st } l
  simp only [Lanes.lane] at hlane
  simp only [pipePwxform, PipeState.onState, Lanes.lane, ← hlane]

def pipeXorRound (Bin1 Bin2 Bout last i : Nat) (q : Region M128 × PipeState) :
    Region M128 × PipeState :=
  let q := if i ≠ last then pipeFetch (Bin2 + 64 * (i + 1)) q else q
  let q := PipeState.onState pwxform (pipeXor (Bin1 + 64 * i) q)
  pipeShift (if i ≠ last then PipeState.onState (writeX (Bout + 64 * i)) q else q)

def pipeXorSaveRound (Bin1out Bin2 last i : Nat) (q : Region M128 × PipeState) :
    Region M128 × PipeState :=
  let q := if i ≠ last then pipeFetch (Bin2 + 64 * (i + 1)) q else q
  let q := PipeState.onState pwxform (pipeXorSave (Bin1out + 64 * i) (Bin2 + 64 * i) q)
  pipeShift (if i ≠ last then PipeState.onState (writeX (Bin1out + 64 * i)) q else q)

def pipeStart (Bin1 Bin2 last : Nat) (m : Region M128) (ctx : PwxformCtx) :
    Region M128 × PipeState :=
  let x := xorBlk (loadBlk m (Bin1 + 64 * last)) (loadBlk m (Bin2 + 64 * last))
  (m, { st := ctx.load x, v := loadBlk m Bin2, nv := loadBlk m Bin2 })

def pipeEnd (Bout last : Nat) (ctx : PwxformCtx) (q : Region M128 × PipeState) :
    Region M128 × PwxformCtx × UInt32 :=
  let X := salsa20Two q.2.st.x
  (storeBlk q.1 (Bout + 64 * last) X, ctx.save q.2.st, (X 0).w0)

def blockmixXorPipe (m : Region M128) (Bin1 Bin2 Bout r : Nat) (ctx : PwxformCtx) :
    Region M128 × PwxformCtx × UInt32 :=
  let last := r * 2 - 1
  pipeEnd Bout last ctx
    (forUp 0 (last + 1) 1 (pipeXorRound Bin1 Bin2 Bout last) (pipeStart Bin1 Bin2 last m ctx))

def blockmixXorSavePipe (m : Region M128) (Bin1out Bin2 r : Nat) (ctx : PwxformCtx) :
    Region M128 × PwxformCtx × UInt32 :=
  let last := r * 2 - 1
  pipeEnd Bin1out last ctx
    (forUp 0 (last + 1) 1 (pipeXorSaveRound Bin1out Bin2 last)
      (pipeStart Bin1out Bin2 last m ctx))

theorem lane_civicBlockmixXor2wayPipeRound (hreg : Function.Injective reg)
    (Bin1 Bin2 Bout : Fin 2 → Nat) (last i : Nat) (Q : Lanes 2 ρ M128 PipeState)
    (l : Fin 2) :
    (civicBlockmixXor2wayPipeRound reg Bin1 Bin2 Bout last i Q).lane reg l =
      pipeXorRound (Bin1 l) (Bin2 l) (Bout l) last i (Q.lane reg l) := by
  simp only [civicBlockmixXor2wayPipeRound, pipeXorRound]
  by_cases h : i ≠ last
  · simp only [if_pos h, Lanes.lane_both hreg, lane_pipePwxform hreg]
  · simp only [if_neg h, Lanes.lane_both hreg, lane_pipePwxform hreg]

theorem lane_civicBlockmixXorSave2wayPipeRound (hreg : Function.Injective reg)
    (Bin1out Bin2 : Fin 2 → Nat) (last i : Nat) (Q : Lanes 2 ρ M128 PipeState)
    (l : Fin 2) :
    (civicBlockmixXorSave2wayPipeRound reg Bin1out Bin2 last i Q).lane reg l =
      pipeXorSaveRound (Bin1out l) (Bin2 l) last i (Q.lane reg l) := by
  simp only [civicBlockmixXorSave2wayPipeRound, pipeXorSaveRound]
  by_cases h : i ≠ last
  · simp only [if_pos h, Lanes.lane_both hreg, lane_pipePwxform hreg]
  · simp only [if_neg h, Lanes.lane_both hreg, lane_pipePwxform hreg]

theorem lane_pipeFinish (hreg : Function.Injective reg) (Bout : Fin 2 → Nat) (last : Nat)
    (ctx : Fin 2 → PwxformCtx) (Q : Lanes 2 ρ M128 PipeState) (l : Fin 2) :
    (pipeFinish reg Bout last ctx Q).lane reg l =
      pipeEnd (Bout l) last (ctx l) (Q.lane reg l) := by
  simp only [pipeFinish, pipeEnd, Lanes.lane, storeBlks_lane hreg, M128.d0_toUInt32,
    load_storeBlk_self]

omit [DecidableEq ρ] in
theorem lane_pipeInit (Bin1 Bin2 : Fin 2 → Nat) (last : Nat) (P : Lanes 2 ρ M128 PwxformCtx)
    (l : Fin 2) :
    (pipeInit reg Bin1 Bin2 last P).lane reg l =
      pipeStart (Bin1 l) (Bin2 l) last (P.heap (reg l)) (P.st l) :=
  rfl

theorem lane_civicBlockmixXor2wayPipe (hreg : Function.Injective reg)
    (Bin1 Bin2 Bout : Fin 2 → Nat) (r : Nat) (P : Lanes 2 ρ M128 PwxformCtx) (l : Fin 2) :
    (civicBlockmixXor2wayPipe reg Bin1 Bin2 Bout r P).lane reg l =
      blockmixXorPipe (P.heap (reg l)) (Bin1 l) (Bin2 l) (Bout l) r (P.st l) := by
  have hloop := @Lanes.lane_forUp 2 ρ M128 _ reg l _ _ 0 (r * 2 - 1 + 1) 1
    (fun k Q _ => lane_civicBlockmixXor2wayPipeRound hreg Bin1 Bin2 Bout (r * 2 - 1)
      (0 + 1 * k) Q l)
    (pipeInit reg Bin1 Bin2 (r * 2 - 1) P)
  rw [civicBlockmixXor2wayPipe, lane_pipeFinish hreg, hloop, lane_pipeInit, blockmixXorPipe]

theorem lane_civicBlockmixXorSave2wayPipe (hreg : Function.Injective reg)
    (Bin1out Bin2 : Fin 2 → Nat) (r : Nat) (P : Lanes 2 ρ M128 PwxformCtx) (l : Fin 2) :
    (civicBlockmixXorSave2wayPipe reg Bin1out Bin2 r P).lane reg l =
      blockmixXorSavePipe (P.heap (reg l)) (Bin1out l) (Bin2 l) r (P.st l) := by
  have hloop := @Lanes.lane_forUp 2 ρ M128 _ reg l _ _ 0 (r * 2 - 1 + 1) 1
    (fun k Q _ => lane_civicBlockmixXorSave2wayPipeRound hreg Bin1out Bin2 (r * 2 - 1)
      (0 + 1 * k) Q l)
    (pipeInit reg Bin1out Bin2 (r * 2 - 1) P)
  rw [civicBlockmixXorSave2wayPipe, lane_pipeFinish hreg, hloop, lane_pipeInit,
    blockmixXorSavePipe]

/-- A block the pipeline may fetch early: out of the tables at `S` and out of the output
blocks. -/
structure Ahead (S Bin2 Bout last : Nat) : Prop where
  tables : Bin2 + 64 * (last + 1) ≤ S ∨ S + 98304 ≤ Bin2
  out : Bin2 + 64 * (last + 1) ≤ Bout ∨ Bout + 64 * (last + 1) ≤ Bin2

/-- The same for tables that need not lie behind each other. -/
structure AheadOf (T : Fin 3 → Nat) (Bin2 Bout last : Nat) : Prop where
  tables : OutOf T Bin2 (64 * (last + 1))
  out : Bin2 + 64 * (last + 1) ≤ Bout ∨ Bout + 64 * (last + 1) ≤ Bin2

theorem Ahead.of {S Bin2 Bout last : Nat} (ahead : Ahead S Bin2 Bout last) :
    AheadOf ![S, S + 32768, S + 65536] Bin2 Bout last :=
  ⟨outOf_tables ahead.tables, ahead.out⟩

/-- A lane of a pipelined kernel before round `i`, beside the scalar state. -/
structure PipeRel (T : Fin 3 → Nat) (Bin2 last i : Nat) (q : Region M128 × PipeState)
    (s : Region M128 × Yp2State) : Prop where
  mem : q.1 = s.1
  st : q.2.st = s.2
  fetched : i ≤ last → q.2.v = loadBlk s.1 (Bin2 + 64 * i)
  tables : s.2.TablesAt T

/-- What a round writes outside the block it stores stays out of the blocks ahead. -/
theorem loadBlk_round {T : Fin 3 → Nat} {Bin2 Bout last i : Nat}
    (ahead : AheadOf T Bin2 Bout last) (hi : i < last) {s : Region M128 × Yp2State}
    (hok : s.2.TablesAt T) :
    loadBlk (writeX (Bout + 64 * i) (pwxform s)).1 (Bin2 + 64 * (i + 1)) =
      loadBlk s.1 (Bin2 + 64 * (i + 1)) := by
  have hout := ahead.out
  have hnext : OutOf T (Bin2 + 64 * (i + 1)) 64 := by
    intro k
    have htables := ahead.tables k
    omega
  exact (loadBlk_writeX_apart (by omega) _).trans (loadBlk_pwxform hok hnext)

/-- A pipelined round and a scalar round, from the state `s` that both give to pwxform.
The pipeline has fetched the next block from memory that agrees with that of `s` there. -/
theorem pipeRel_round {T : Fin 3 → Nat} {Bin2 Bout last i : Nat}
    (ahead : AheadOf T Bin2 Bout last) (hi : i ≤ last) {s : Region M128 × Yp2State}
    (hok : s.2.TablesAt T) (v nv : Blk)
    (hnv : i < last → nv = loadBlk s.1 (Bin2 + 64 * (i + 1))) :
    PipeRel T Bin2 last (i + 1)
      (let q := PipeState.onState pwxform (s.1, { st := s.2, v, nv })
       pipeShift (if i ≠ last then PipeState.onState (writeX (Bout + 64 * i)) q else q))
      (let s := pwxform s
       if i ≠ last then writeX (Bout + 64 * i) s else s) := by
  have hnext := tablesAt_pwxform hok
  have hread : i < last → nv = loadBlk (writeX (Bout + 64 * i) (pwxform s)).1
      (Bin2 + 64 * (i + 1)) :=
    fun hlt => (hnv hlt).trans (loadBlk_round ahead hlt hok).symm
  dsimp only [PipeState.onState]
  generalize pwxform s = t at hnext hread ⊢
  rcases Nat.lt_or_eq_of_le hi with hlt | rfl
  · have hne : i ≠ last := by omega
    rw [if_pos hne, if_pos hne]
    exact ⟨rfl, rfl, fun _ => hread hlt, hnext⟩
  · rw [if_neg (not_not.mpr rfl), if_neg (not_not.mpr rfl)]
    exact ⟨rfl, rfl, fun h => absurd h (by omega), hnext⟩

theorem pipeXorRound_rel {T : Fin 3 → Nat} {Bin1 Bin2 Bout last i : Nat}
    (ahead : AheadOf T Bin2 Bout last) (hi : i ≤ last) {q : Region M128 × PipeState}
    {s : Region M128 × Yp2State} (h : PipeRel T Bin2 last i q s) :
    PipeRel T Bin2 last (i + 1) (pipeXorRound Bin1 Bin2 Bout last i q)
      (blockmixXorRound Bin1 Bin2 Bout last i s) := by
  obtain ⟨m, st⟩ := s
  obtain ⟨m', st', v, nv⟩ := q
  obtain ⟨hmem, hst, hv, hok⟩ := h
  dsimp only at hmem hst hv hok
  subst hmem hst
  -- the pipeline adds the two inputs to each other before it adds them to the state
  have hx : xorBlk st'.x (xorBlk v (loadBlk m' (Bin1 + 64 * i))) =
      xorBlk (xorBlk st'.x (loadBlk m' (Bin1 + 64 * i))) (loadBlk m' (Bin2 + 64 * i)) := by
    rw [hv hi, xorBlk_assoc, xorBlk_comm (loadBlk m' (Bin2 + 64 * i))]
  have hround : pipeXorRound Bin1 Bin2 Bout last i (m', ⟨st', v, nv⟩) =
      (let q := PipeState.onState pwxform
        ((xorX (Bin2 + 64 * i) (xorX (Bin1 + 64 * i) (m', st'))).1,
          { st := (xorX (Bin2 + 64 * i) (xorX (Bin1 + 64 * i) (m', st'))).2, v
            nv := if i ≠ last then loadBlk m' (Bin2 + 64 * (i + 1)) else nv })
       pipeShift (if i ≠ last then PipeState.onState (writeX (Bout + 64 * i)) q else q)) := by
    by_cases hne : i ≠ last
    · simp only [pipeXorRound, if_pos hne, pipeFetch, pipeXor, xorX, hx]
    · simp only [pipeXorRound, if_neg hne, pipeXor, xorX, hx]
  rw [hround]
  exact pipeRel_round ahead hi hok v _
    (fun hlt => if_pos (show i ≠ last by omega))

theorem pipeXorSaveRound_rel {T : Fin 3 → Nat} {Bin1out Bin2 last i : Nat}
    (ahead : AheadOf T Bin2 Bin1out last) (hi : i ≤ last) {q : Region M128 × PipeState}
    {s : Region M128 × Yp2State} (h : PipeRel T Bin2 last i q s) :
    PipeRel T Bin2 last (i + 1) (pipeXorSaveRound Bin1out Bin2 last i q)
      (blockmixXorSaveRound Bin1out Bin2 last i s) := by
  obtain ⟨m, st⟩ := s
  obtain ⟨m', st', v, nv⟩ := q
  obtain ⟨hmem, hst, hv, hok⟩ := h
  dsimp only at hmem hst hv hok
  subst hmem hst
  have hround : pipeXorSaveRound Bin1out Bin2 last i (m', ⟨st', v, nv⟩) =
      (let q := PipeState.onState pwxform
        ((xorXWriteXorY2 (Bin2 + 64 * i) (Bin1out + 64 * i) (m', st')).1,
          { st := (xorXWriteXorY2 (Bin2 + 64 * i) (Bin1out + 64 * i) (m', st')).2, v
            nv := if i ≠ last then loadBlk m' (Bin2 + 64 * (i + 1)) else nv })
       pipeShift
        (if i ≠ last then PipeState.onState (writeX (Bin1out + 64 * i)) q else q)) := by
    by_cases hne : i ≠ last
    · simp only [pipeXorSaveRound, if_pos hne, pipeFetch, pipeXorSave, xorXWriteXorY2, hv hi]
    · simp only [pipeXorSaveRound, if_neg hne, pipeXorSave, xorXWriteXorY2, hv hi]
  rw [hround]
  refine pipeRel_round ahead hi hok v _ (fun hlt => ?_)
  -- the block saved in this round is not the one fetched for the next
  rw [if_pos (show i ≠ last by omega), xorXWriteXorY2, loadBlk_storeBlk_apart (by omega)]

theorem pipeStart_rel {T : Fin 3 → Nat} (Bin1 Bin2 last : Nat) (m : Region M128)
    {ctx : PwxformCtx} (hok : ctx.TablesAt T) :
    PipeRel T Bin2 last 0 (pipeStart Bin1 Bin2 last m ctx)
      (m, ctx.load (xorBlk (loadBlk m (Bin1 + 64 * last)) (loadBlk m (Bin2 + 64 * last)))) :=
  ⟨rfl, rfl, fun _ => rfl, hok⟩

theorem blockmixXorPipe_eq_of_out {T : Fin 3 → Nat} {Bin1 Bin2 Bout r : Nat} (hr : 1 ≤ r)
    (m : Region M128) {ctx : PwxformCtx} (hok : ctx.TablesAt T)
    (ahead : AheadOf T Bin2 Bout (r * 2 - 1)) :
    blockmixXorPipe m Bin1 Bin2 Bout r ctx = blockmixXorPwxform m Bin1 Bin2 Bout r ctx := by
  have joint := @forUp_rel_unit _ _ 0 (r * 2 - 1 + 1) (Nat.zero_le _)
    (pipeXorRound Bin1 Bin2 Bout (r * 2 - 1)) (blockmixXorRound Bin1 Bin2 Bout (r * 2 - 1))
    _ _ (PipeRel T Bin2 (r * 2 - 1)) (pipeStart_rel Bin1 Bin2 (r * 2 - 1) m hok)
    (fun i q s _ hi h => pipeXorRound_rel ahead (by omega) h)
  obtain ⟨hmem, hst, _, _⟩ := joint
  simp only [blockmixXorPwxform_eq _ _ _ _ hr, blockmixXorPipe, pipeEnd, hmem, hst]

theorem blockmixXorPipe_eq {S Bin1 Bin2 Bout r : Nat} (hr : 1 ≤ r) (m : Region M128)
    {ctx : PwxformCtx} (hok : ctx.TablesOk S) (ahead : Ahead S Bin2 Bout (r * 2 - 1)) :
    blockmixXorPipe m Bin1 Bin2 Bout r ctx = blockmixXorPwxform m Bin1 Bin2 Bout r ctx :=
  blockmixXorPipe_eq_of_out hr m (tablesOk_iff.mp hok) ahead.of

theorem blockmixXorSavePipe_eq_of_out {T : Fin 3 → Nat} {Bin1out Bin2 r : Nat} (hr : 1 ≤ r)
    (m : Region M128) {ctx : PwxformCtx} (hok : ctx.TablesAt T)
    (ahead : AheadOf T Bin2 Bin1out (r * 2 - 1)) :
    blockmixXorSavePipe m Bin1out Bin2 r ctx = blockmixXorSave m Bin1out Bin2 r ctx := by
  have joint := @forUp_rel_unit _ _ 0 (r * 2 - 1 + 1) (Nat.zero_le _)
    (pipeXorSaveRound Bin1out Bin2 (r * 2 - 1)) (blockmixXorSaveRound Bin1out Bin2 (r * 2 - 1))
    _ _ (PipeRel T Bin2 (r * 2 - 1)) (pipeStart_rel Bin1out Bin2 (r * 2 - 1) m hok)
    (fun i q s _ hi h => pipeXorSaveRound_rel ahead (by omega) h)
  obtain ⟨hmem, hst, _, _⟩ := joint
  simp only [blockmixXorSave_eq _ _ _ hr, blockmixXorSavePipe, pipeEnd, hmem, hst]

theorem blockmixXorSavePipe_eq {S Bin1out Bin2 r : Nat} (hr : 1 ≤ r) (m : Region M128)
    {ctx : PwxformCtx} (hok : ctx.TablesOk S) (ahead : Ahead S Bin2 Bin1out (r * 2 - 1)) :
    blockmixXorSavePipe m Bin1out Bin2 r ctx = blockmixXorSave m Bin1out Bin2 r ctx :=
  blockmixXorSavePipe_eq_of_out hr m (tablesOk_iff.mp hok) ahead.of

/-! The paired Salsa20/2 kernels. -/

def halves (X : Fin 4 → M256) (l : Fin 2) : Blk := fun k => (X k).half l

theorem half_civicSalsaArx (out in1 in2 : M256) (s : UInt32) (l : Fin 2) :
    (civicSalsaArx out in1 in2 s).half l = arx (out.half l) (in1.half l) (in2.half l) s := by
  simp only [civicSalsaArx, arx, half_mm256AddEpi32, half_mm256XorSi256,
    half_mm256SlliEpi32, half_mm256SrliEpi32]

theorem halves_civicSalsa2Rounds (X : Fin 4 → M256) (l : Fin 2) :
    halves (civicSalsa2Rounds X) l = salsa20Two (halves X l) := by
  funext k
  match k with
  | 0 | 1 | 2 | 3 =>
      simp only [halves, civicSalsa2Rounds, salsa20Two, salsa20TwoRounds,
        half_mm256AddEpi32, half_civicSalsaArx, half_mm256ShuffleEpi32, Matrix.cons_val]

theorem halves_packBlks (block : Fin 2 → Blk) (l : Fin 2) :
    halves (packBlks block) l = block l :=
  funext fun k => half_civicSalsaPack l (fun l => block l k)

theorem halves_civicSalsaXorPair (X : Fin 4 → M256) (block : Fin 2 → Blk) (l : Fin 2) :
    halves (civicSalsaXorPair X block) l = xorBlk (halves X l) (block l) := by
  calc halves (civicSalsaXorPair X block) l
      = xorBlk (halves X l) (halves (packBlks block) l) :=
        funext fun k => half_mm256XorSi256 (X k) (packBlks block k) l
    _ = xorBlk (halves X l) (block l) := by rw [halves_packBlks]

theorem lane_civicSalsa2_2way (hreg : Function.Injective reg) (X : Fin 4 → M256)
    (out : Fin 2 → Nat) (h : Heap ρ M128) (l : Fin 2) :
    (civicSalsa2_2way reg X out h).1 (reg l) =
        storeBlk (h (reg l)) (out l) (salsa20Two (halves X l)) ∧
      halves (civicSalsa2_2way reg X out h).2 l = salsa20Two (halves X l) := by
  refine ⟨?_, halves_civicSalsa2Rounds X l⟩
  rw [← halves_civicSalsa2Rounds X l]
  exact storeBlks_lane hreg h out (fun l k => (civicSalsa2Rounds X k).half l) l

theorem lane_civicBlockmixSalsa2way (hreg : Function.Injective reg) (Bin Bout : Fin 2 → Nat)
    (h : Heap ρ M128) (l : Fin 2) :
    civicBlockmixSalsa2way reg Bin Bout h (reg l) =
      blockmixSalsa (h (reg l)) (Bin l) (Bout l) := by
  simp only [civicBlockmixSalsa2way, blockmixSalsa, lane_civicSalsa2_2way hreg,
    halves_civicSalsaXorPair, halves_packBlks, laneBlks]

theorem lane_civicBlockmixSalsaXor2way (hreg : Function.Injective reg)
    (Bin1 Bin2 Bout : Fin 2 → Nat) (h : Heap ρ M128) (l : Fin 2) :
    ((civicBlockmixSalsaXor2way reg Bin1 Bin2 Bout h).1 (reg l),
        (civicBlockmixSalsaXor2way reg Bin1 Bin2 Bout h).2 l) =
      blockmixSalsaXor (h (reg l)) (Bin1 l) (Bin2 l) (Bout l) := by
  simp only [civicBlockmixSalsaXor2way, blockmixSalsaXor, lane_civicSalsa2_2way hreg,
    halves_civicSalsaXorPair, halves_packBlks, M128.d0_toUInt32, load_storeBlk_self,
    xorBlk_assoc, Nat.add_zero]

end SojCivicLight.Yespower
