import SojCivicLight.Yespower.Agreement
import SojCivicLight.Yespower.Kernels

/-! The SMix of one set of kernels simulates the SMix of another when the kernels do,
whatever the two memories held before in the parts that SMix fills itself. -/

namespace SojCivicLight.Yespower

open SojCivicLight.Library

variable {κ κ' : Type}

/-- The block mixes `K` and `K'` of width `r` take agreeing memories and related contexts
to agreeing memories and related contexts.  Both read `base` besides their inputs, and a
second input must be `clear` and apart from the output. -/
structure KernelSim (base : Set Nat) (clear : Nat → Prop) (rel : κ → κ' → Prop) (r : Nat)
    (K : FillKernels κ) (K' : FillKernels κ') : Prop where
  mix : ∀ {known : Set Nat} {m m' : Region M128} {c : κ} {c' : κ'} {q : Nat} (Bin Bout : Nat),
    base ⊆ known → Agree known m m' → rel c c' → q = 1 ∨ q = r →
    Set.Ico Bin (Bin + 64 * (2 * q)) ⊆ known → Bout % 16 = 0 →
    Agree (known ∪ Set.Ico Bout (Bout + 64 * (2 * q)))
        (K.mix Bin Bout q (m, c)).1 (K'.mix Bin Bout q (m', c')).1 ∧
      rel (K.mix Bin Bout q (m, c)).2 (K'.mix Bin Bout q (m', c')).2
  mixXor : ∀ {known : Set Nat} {m m' : Region M128} {c : κ} {c' : κ'} (Bin1 Bin2 Bout : Nat),
    base ⊆ known → Agree known m m' → rel c c' →
    Set.Ico Bin1 (Bin1 + 64 * (2 * r)) ⊆ known → Set.Ico Bin2 (Bin2 + 64 * (2 * r)) ⊆ known →
    clear Bin2 → Bin2 + 64 * (2 * r) ≤ Bout ∨ Bout + 64 * (2 * r) ≤ Bin2 → Bout % 16 = 0 →
    Agree (known ∪ Set.Ico Bout (Bout + 64 * (2 * r)))
        (K.mixXor Bin1 Bin2 Bout r (m, c)).1 (K'.mixXor Bin1 Bin2 Bout r (m', c')).1 ∧
      rel (K.mixXor Bin1 Bin2 Bout r (m, c)).2.1 (K'.mixXor Bin1 Bin2 Bout r (m', c')).2.1 ∧
      (K.mixXor Bin1 Bin2 Bout r (m, c)).2.2 = (K'.mixXor Bin1 Bin2 Bout r (m', c')).2.2

/-- Where `smix1` works: its slots lie at `V`, its result goes through `XY` into `B`. -/
structure Smix1Layout (clear : Nat → Prop) (r N B V XY : Nat) : Prop where
  width : 1 ≤ r
  slots : 4 ≤ N
  even : N % 2 = 0
  alignedB : B % 16 = 0
  alignedV : V % 16 = 0
  alignedXY : XY % 16 = 0
  clear : ∀ j < N, clear (V + 64 * (2 * r) * j)
  apart : V + 64 * (2 * r) * N ≤ XY ∨ XY + 64 * (2 * r) ≤ V

/-- Two fill loops whose `X` is the slot `slot`, with all slots up to it filled. -/
structure FillRel (known : Set Nat) (rel : κ → κ' → Prop) (r V slot : Nat)
    (s : Region M128 × Smix1Vars κ) (s' : Region M128 × Smix1Vars κ') : Prop where
  mem : Agree (known ∪ Set.Ico V (V + 64 * (2 * r) * (slot + 1))) s.1 s'.1
  ctx : rel s.2.ctx s'.2.ctx
  X : s.2.X = V + 64 * (2 * r) * slot
  X' : s'.2.X = V + 64 * (2 * r) * slot
  j : s.2.j = s'.2.j

section Fill

variable {base known : Set Nat} {clear : Nat → Prop} {rel : κ → κ' → Prop} {r N B V XY : Nat}
  {K : FillKernels κ} {K' : FillKernels κ'}

theorem slot_subset {blk i n : Nat} (hi : i < n) :
    Set.Ico (V + blk * i) (V + blk * i + blk) ⊆ known ∪ Set.Ico V (V + blk * n) := by
  have hmul : blk * (i + 1) ≤ blk * n := Nat.mul_le_mul_left blk hi
  rw [Nat.mul_succ] at hmul
  exact (Set.Ico_subset_Ico (by omega) (by omega)).trans Set.subset_union_right

theorem slot_apart {blk i n : Nat} (hi : i < n) : V + blk * i + blk ≤ V + blk * n := by
  have hmul : blk * (i + 1) ≤ blk * n := Nat.mul_le_mul_left blk hi
  rw [Nat.mul_succ] at hmul
  omega

theorem and_pred_lt {j n : Nat} (hn : 0 < n) : j &&& (n - 1) < n := by
  have : j &&& (n - 1) ≤ n - 1 := Nat.and_le_right
  omega

/-- Filling the slot after `slot` from it and from an earlier slot `idx`. -/
theorem KernelSim.fillSlot (sim : KernelSim base clear rel r K K')
    (layout : Smix1Layout clear r N B V XY) (hbase : base ⊆ known) {m m' : Region M128}
    {c : κ} {c' : κ'} {slot : Nat} (idx : Nat)
    (hmem : Agree (known ∪ Set.Ico V (V + 64 * (2 * r) * (slot + 1))) m m') (hc : rel c c')
    (hidx : idx ≤ slot) (hslot : slot < N) :
    let blk := 64 * (2 * r)
    let t := K.mixXor (V + blk * slot) (V + blk * idx) (V + blk * (slot + 1)) r (m, c)
    let t' := K'.mixXor (V + blk * slot) (V + blk * idx) (V + blk * (slot + 1)) r (m', c')
    Agree (known ∪ Set.Ico V (V + blk * (slot + 2))) t.1 t'.1 ∧ rel t.2.1 t'.2.1 ∧
      t.2.2 = t'.2.2 := by
  have haligned := layout.alignedV
  have hblk : ∀ k, 64 * (2 * r) * k % 16 = 0 := fun k => by
    rw [Nat.mul_assoc, Nat.mul_assoc]
    omega
  obtain ⟨hagree, hrel, hj⟩ := sim.mixXor _ _ (V + 64 * (2 * r) * (slot + 1))
    (hbase.trans Set.subset_union_left) hmem hc (slot_subset (Nat.lt_succ_self slot))
    (slot_subset (Nat.lt_succ_of_le hidx)) (layout.clear idx (by omega))
    (Or.inl (slot_apart (Nat.lt_succ_of_le hidx))) (by have := hblk (slot + 1); omega)
  refine ⟨?_, hrel, hj⟩
  have hnext : V + 64 * (2 * r) * (slot + 2) =
      V + 64 * (2 * r) * (slot + 1) + 64 * (2 * r) := by
    rw [Nat.mul_succ, ← Nat.add_assoc]
  rw [hnext]
  exact hagree.mono union_Ico_extend

theorem next_slot {blk slot : Nat} : V + blk * slot + blk = V + blk * (slot + 1) := by
  rw [Nat.mul_succ, Nat.add_assoc]

/-- A round fills two slots: the indices it reads are below the slots it has. -/
theorem smix1RoundWith_rel (sim : KernelSim base clear rel r K K')
    (layout : Smix1Layout clear r N B V XY) (hbase : base ⊆ known) {n i slot : Nat}
    (hn : 0 < n) (hi : 1 ≤ i) (hslot : slot + 1 = n + i) (hroom : slot + 2 < N)
    {s : Region M128 × Smix1Vars κ} {s' : Region M128 × Smix1Vars κ'}
    (h : FillRel known rel r V slot s s') :
    FillRel known rel r V (slot + 2) (smix1RoundWith K r V n i s)
      (smix1RoundWith K' r V n i s') := by
  obtain ⟨m, c, X, Y, j⟩ := s
  obtain ⟨m', c', X', Y', j'⟩ := s'
  obtain ⟨hmem, hc, hX, hX', hj⟩ := h
  dsimp only at hmem hc hX hX' hj
  subst hX hX' hj
  simp only [smix1RoundWith, next_slot]
  have hmask := @and_pred_lt j n hn
  obtain ⟨hmem1, hc1, hj1⟩ := sim.fillSlot layout hbase ((j &&& (n - 1)) + (i - 1)) hmem hc
    (by omega) (by omega)
  rw [hj1]
  generalize K.mixXor _ _ _ r (m, c) = t at hmem1 hc1
  generalize K'.mixXor _ _ _ r (m', c') = t' at hmem1 hc1 ⊢
  have hmask1 := @and_pred_lt t'.2.2.toNat n hn
  obtain ⟨hmem2, hc2, hj2⟩ := sim.fillSlot layout hbase ((t'.2.2.toNat &&& (n - 1)) + i) hmem1
    hc1 (by omega) (by omega)
  exact ⟨hmem2, hc2, rfl, rfl, congrArg UInt32.toNat hj2⟩

theorem smix1StartWith_rel (sim : KernelSim base clear rel r K K')
    (layout : Smix1Layout clear r N B V XY) (hbase : base ⊆ known)
    (hB : Set.Ico B (B + 128) ⊆ known) {s : Region M128 × κ} {s' : Region M128 × κ'}
    (hmem : Agree known s.1 s'.1) (hc : rel s.2 s'.2) :
    FillRel known rel r V 2 (smix1StartWith K B r V s) (smix1StartWith K' B r V s') := by
  have hr := layout.width
  have hV := layout.alignedV
  have hin := agree_moveBlks (f := shuffleIn) agree_shuffleIn B (V + 64 * (2 * r)) V 2 hmem hB
    (by omega) hV
  -- the first two blocks are spread over the first slot, a pair at a time
  have hspread := @forUp_rel_unit _ _ 1 r hr
    (fun i => K.mix (V + 64 * ((i - 1) * 2)) (V + 64 * (i * 2)) 1)
    (fun i => K'.mix (V + 64 * ((i - 1) * 2)) (V + 64 * (i * 2)) 1) (_, s.2) (_, s'.2)
    (fun i s s' => Agree (known ∪ Set.Ico V (V + 64 * (i * 2))) s.1 s'.1 ∧ rel s.2 s'.2)
    ⟨hin, hc⟩
    (fun i s s' hlo hi h => by
      obtain ⟨hmem, hc⟩ := h
      have hsub : Set.Ico (V + 64 * ((i - 1) * 2)) (V + 64 * ((i - 1) * 2) + 64 * (2 * 1)) ⊆
          known ∪ Set.Ico V (V + 64 * (i * 2)) :=
        (Set.Ico_subset_Ico (by omega) (by omega)).trans Set.subset_union_right
      obtain ⟨hmem, hc⟩ :=
        sim.mix _ (V + 64 * (i * 2)) (hbase.trans Set.subset_union_left) hmem hc (Or.inl rfl) hsub
        (by omega)
      refine ⟨?_, hc⟩
      rw [show V + 64 * ((i + 1) * 2) = V + 64 * (i * 2) + 64 * (2 * 1) by omega]
      exact hmem.mono union_Ico_extend)
  obtain ⟨hmem0, hc0⟩ := hspread
  rw [show r * 2 = 2 * r by omega] at hmem0
  obtain ⟨hmem1, hc1⟩ := sim.mix V (V + 64 * (2 * r)) (hbase.trans Set.subset_union_left) hmem0 hc0
    (Or.inr rfl) Set.subset_union_right (by omega)
  have hmem1 := hmem1.mono union_Ico_extend
  obtain ⟨hmem2, hc2⟩ := sim.mix (V + 64 * (2 * r))
    (V + 64 * (2 * r) + 64 * (2 * r)) (hbase.trans Set.subset_union_left) hmem1 hc1 (Or.inr rfl)
    ((Set.Ico_subset_Ico (by omega) (by omega)).trans Set.subset_union_right) (by omega)
  have hmem2 := hmem2.mono union_Ico_extend
  have hj := agree_integerify (B := V + 64 * (2 * r) + 64 * (2 * r)) hmem2 hr
    ((Set.Ico_subset_Ico (by omega) (by omega)).trans Set.subset_union_right)
  have hslot : V + 64 * (2 * r) + 64 * (2 * r) = V + 64 * (2 * r) * 2 := by omega
  refine ⟨?_, hc2, hslot, hslot, congrArg UInt32.toNat hj⟩
  rw [show V + 64 * (2 * r) * (2 + 1) =
    V + 64 * (2 * r) + 64 * (2 * r) + 64 * (2 * r) by omega]
  exact hmem2

theorem smix1EndWith_rel (sim : KernelSim base clear rel r K K')
    (layout : Smix1Layout clear r N B V XY) (hbase : base ⊆ known) {n : Nat} (hn : 0 < n)
    (hroom : n + 2 ≤ N) {s : Region M128 × Smix1Vars κ} {s' : Region M128 × Smix1Vars κ'}
    (h : FillRel known rel r V (N - 2) s s') :
    Agree (known ∪ Set.Ico V (V + 64 * (2 * r) * N) ∪ Set.Ico B (B + 64 * (2 * r)))
        (smix1EndWith K B r N V XY n s).1 (smix1EndWith K' B r N V XY n s').1 ∧
      rel (smix1EndWith K B r N V XY n s).2 (smix1EndWith K' B r N V XY n s').2 := by
  have hXY := layout.alignedXY
  have hB := layout.alignedB
  obtain ⟨slot, rfl⟩ : ∃ slot, N = slot + 2 := ⟨N - 2, by omega⟩
  rw [show slot + 2 - 2 = slot by omega] at h
  obtain ⟨m, c, X, Y, j⟩ := s
  obtain ⟨m', c', X', Y', j'⟩ := s'
  obtain ⟨hmem, hc, hX, hX', hj⟩ := h
  dsimp only at hmem hc hX hX' hj
  subst hX hX' hj
  simp only [smix1EndWith, next_slot]
  have hmask := @and_pred_lt j n hn
  obtain ⟨hmem1, hc1, hj1⟩ := sim.fillSlot layout hbase
    ((j &&& (n - 1)) + (slot + 2 - 2 - n)) hmem hc (by omega) (by omega)
  rw [hj1]
  generalize K.mixXor _ _ _ r (m, c) = t at hmem1 hc1
  generalize K'.mixXor _ _ _ r (m', c') = t' at hmem1 hc1 ⊢
  have hmask1 := @and_pred_lt t'.2.2.toNat n hn
  have hidx : (t'.2.2.toNat &&& (n - 1)) + (slot + 2 - 1 - n) < slot + 2 := by omega
  have hlast := @slot_apart V (64 * (2 * r)) _ _ hidx
  obtain ⟨hmem2, hc2, _⟩ := sim.mixXor _ _ XY (hbase.trans Set.subset_union_left) hmem1
    hc1 (slot_subset (Nat.lt_succ_self (slot + 1))) (slot_subset hidx)
    (layout.clear _ hidx) (by have := layout.apart; omega) hXY
  refine ⟨?_, hc2⟩
  have hout := agree_moveBlks (f := unshuffleOut) agree_unshuffleOut XY
    (XY + 64 * (2 * r)) B (2 * r) hmem2 Set.subset_union_right
    (by omega) hB
  exact hout.mono (Set.union_subset_union_left _ Set.subset_union_left)

theorem smix1With_rel (sim : KernelSim base clear rel r K K')
    (layout : Smix1Layout clear r N B V XY) (hbase : base ⊆ known)
    (hB : Set.Ico B (B + 128) ⊆ known) {s : Region M128 × κ} {t : Region M128 × κ'}
    (hmem : Agree known s.1 t.1) (hc : rel s.2 t.2) :
    Agree (known ∪ Set.Ico V (V + 64 * (2 * r) * N) ∪ Set.Ico B (B + 64 * (2 * r)))
        (smix1With K B r N V XY s).1 (smix1With K' B r N V XY t).1 ∧
      rel (smix1With K B r N V XY s).2 (smix1With K' B r N V XY t).2 := by
  have start := smix1StartWith_rel sim layout hbase hB hmem hc
  obtain ⟨n, hn, hroom, hexit, hexit', hfill⟩ := fill_slots layout.slots layout.even
    (fun n i slot s s' hn hi hslot hroom h =>
      smix1RoundWith_rel sim layout hbase hn hi hslot hroom h) start
  simp only [smix1With, hexit, hexit', show n * 2 / 2 = n by omega]
  exact smix1EndWith_rel sim layout hbase hn hroom hfill

end Fill

/-! The kernels of the two-lane SMix simulate the scalar ones. -/

/-- A slot of `r` pairs of blocks outside the tables at `S`. -/
def OutOfTables (S r p : Nat) : Prop := p + 64 * (2 * r) ≤ S ∨ S + 98304 ≤ p

def CtxRel (S : Nat) (ctx : PwxformCtx) (ctx' : Option PwxformCtx) : Prop :=
  ctx' = some ctx ∧ ctx.TablesOk S

theorem pipeKernels_sim {S r : Nat} (hr : 1 ≤ r) :
    KernelSim (Set.Ico S (S + 98304)) (OutOfTables S r) (CtxRel S) r pipeKernels
      scalarKernels where
  mix := by
    rintro known m m' c _ q Bin Bout htab hmem ⟨rfl, hok⟩ hq hin aligned
    have hq1 : 1 ≤ q := by omega
    obtain ⟨⟨hagree, hctx⟩, hnext⟩ := agree_blockmixPwxform hmem htab hok hq1 hin aligned
    exact ⟨hagree, congrArg some hctx.symm, hnext⟩
  mixXor := by
    rintro known m m' c _ Bin1 Bin2 Bout htab hmem ⟨rfl, hok⟩ hin1 hin2 hclear hapart aligned
    have ahead : Ahead S Bin2 Bout (r * 2 - 1) :=
      ⟨by unfold OutOfTables at hclear; omega, by omega⟩
    obtain ⟨⟨hagree, hlocals⟩, hnext⟩ :=
      agree_blockmixXorPwxform hmem htab hok hr hin1 hin2 aligned
    obtain ⟨hctx, hj⟩ := Prod.ext_iff.mp hlocals
    simp only [pipeKernels, blockmixXorPipe_eq hr m hok ahead]
    exact ⟨hagree, ⟨congrArg some hctx.symm, hnext⟩, hj⟩

theorem salsaKernels_sim :
    KernelSim ∅ (fun _ => True) (fun _ ctx' => ctx' = none) 1 salsaKernels scalarKernels where
  mix := by
    rintro known m m' c _ q Bin Bout _ hmem rfl hq hin aligned
    obtain rfl : q = 1 := by omega
    exact ⟨agree_blockmixSalsa hmem hin aligned, rfl⟩
  mixXor := by
    rintro known m m' c _ Bin1 Bin2 Bout _ hmem rfl hin1 hin2 _ _ aligned
    obtain ⟨hagree, hj⟩ := agree_blockmixSalsaXor hmem hin1 hin2 aligned
    exact ⟨hagree, rfl, hj⟩

/-! The random walk. -/

section Walk

variable {S r N B V XY : Nat} {known : Set Nat}

structure Smix2Layout (S r N B V XY : Nat) : Prop where
  width : 1 ≤ r
  slots : 0 < N
  alignedB : B % 16 = 0
  alignedXY : XY % 16 = 0
  clear : ∀ j < N, OutOfTables S r (V + 64 * (2 * r) * j)
  apart : V + 64 * (2 * r) * N ≤ XY ∨ XY + 64 * (2 * r) ≤ V

structure WalkRel (S N : Nat) (known : Set Nat) (s s' : Region M128 × Smix2Vars) : Prop where
  mem : Agree known s.1 s'.1
  locals : s.2 = s'.2
  tablesOk : s.2.ctx.TablesOk S
  slot : s.2.j < N

theorem pipeSave_agree (layout : Smix2Layout S r N B V XY) {m m' : Region M128}
    {ctx : PwxformCtx} {j : Nat} (htab : Set.Ico S (S + 98304) ⊆ known)
    (hV : Set.Ico V (V + 64 * (2 * r) * N) ⊆ known)
    (hXY : Set.Ico XY (XY + 64 * (2 * r)) ⊆ known) (hmem : Agree known m m')
    (hok : ctx.TablesOk S) (hj : j < N) :
    AgreeOn known (pipeSave XY (V + 64 * (2 * r) * j) r (m, ctx))
        (scalarSave XY (V + 64 * (2 * r) * j) r (m', ctx)) ∧
      (pipeSave XY (V + 64 * (2 * r) * j) r (m, ctx)).2.1.TablesOk S := by
  have hslot := @slot_apart V (64 * (2 * r)) j N hj
  have hread : Set.Ico (V + 64 * (2 * r) * j) (V + 64 * (2 * r) * j + 64 * (2 * r)) ⊆ known :=
    (Set.Ico_subset_Ico (by omega) hslot).trans hV
  have ahead : Ahead S (V + 64 * (2 * r) * j) XY (r * 2 - 1) := by
    have hr := layout.width
    have hclear := layout.clear j hj
    have hapart := layout.apart
    unfold OutOfTables at hclear
    exact ⟨by omega, by omega⟩
  have hcalc := agree_blockmixXorSave hmem htab hok layout.width hXY hread layout.alignedXY
  simp only [pipeSave, scalarSave, blockmixXorSavePipe_eq layout.width m hok ahead]
  exact hcalc

theorem smix2RoundWith_rel (layout : Smix2Layout S r N B V XY)
    (htab : Set.Ico S (S + 98304) ⊆ known) (hV : Set.Ico V (V + 64 * (2 * r) * N) ⊆ known)
    (hXY : Set.Ico XY (XY + 64 * (2 * r)) ⊆ known) {s s' : Region M128 × Smix2Vars}
    (h : WalkRel S N known s s') :
    WalkRel S N known (smix2RoundWith pipeSave r N V XY s)
      (smix2RoundWith scalarSave r N V XY s') := by
  have hN := layout.slots
  obtain ⟨m, ctx, j⟩ := s
  obtain ⟨m', _, _⟩ := s'
  obtain ⟨hmem, hlocals, hok, hj⟩ := h
  obtain ⟨rfl, rfl⟩ := Smix2Vars.mk.inj hlocals
  simp only [smix2RoundWith]
  obtain ⟨⟨hmem1, hlocals1⟩, hok1⟩ := pipeSave_agree layout htab hV hXY hmem hok hj
  rw [← hlocals1]
  generalize pipeSave XY (V + 64 * (2 * r) * j) r (m, ctx) = t at hmem1 hok1 ⊢
  generalize scalarSave XY (V + 64 * (2 * r) * j) r (m', ctx) = t' at hmem1 ⊢
  obtain ⟨⟨hmem2, hlocals2⟩, hok2⟩ := pipeSave_agree layout htab hV hXY hmem1 hok1
    (@and_pred_lt t.2.2.toNat N hN)
  rw [← hlocals2]
  exact ⟨hmem2, rfl, hok2, and_pred_lt hN⟩

theorem smix2With_rel (layout : Smix2Layout S r N B V XY) (Nloop : Nat)
    (htab : Set.Ico S (S + 98304) ⊆ known) (hV : Set.Ico V (V + 64 * (2 * r) * N) ⊆ known)
    (hB : Set.Ico B (B + 64 * (2 * r)) ⊆ known) {m m' : Region M128} {ctx : PwxformCtx}
    (hmem : Agree known m m') (hok : ctx.TablesOk S) :
    Agree (known ∪ Set.Ico B (B + 64 * (2 * r)))
      (smix2With pipeSave B r N Nloop V XY (m, ctx)).1
      (smix2With scalarSave B r N Nloop V XY (m', ctx)).1 := by
  have hin := agree_moveBlks (f := shuffleIn) agree_shuffleIn B (XY + 64 * (2 * r)) XY (2 * r)
    hmem hB (by have := layout.alignedXY; omega) layout.alignedXY
  have hj := agree_integerify hin layout.width Set.subset_union_right
  have start : ∀ {j j' : UInt32}, j = j' →
      WalkRel S N (known ∪ Set.Ico XY (XY + 64 * (2 * r)))
        (_, { ctx, j := j.toNat &&& (N - 1) }) (_, { ctx, j := j'.toNat &&& (N - 1) }) :=
    fun hj => ⟨hin, by rw [hj], hok, and_pred_lt layout.slots⟩
  have walk := doWhileMinusTwo_rel (WalkRel S N (known ∪ Set.Ico XY (XY + 64 * (2 * r))))
    (fun s s' h => smix2RoundWith_rel layout (htab.trans Set.subset_union_left)
      (hV.trans Set.subset_union_left) Set.subset_union_right h) Nloop (start hj)
  have hout := agree_moveBlks (f := unshuffleOut) agree_unshuffleOut XY
    (XY + 64 * (2 * r)) B (2 * r) walk.mem Set.subset_union_right
    (by have := layout.alignedXY; omega) layout.alignedB
  exact hout.mono (Set.union_subset_union_left _ Set.subset_union_left)

end Walk

/-! The whole SMix. -/

/-- Where `smix` works: the slots at `V`, the block at `B`, the scratch at `XY` and the
tables at `S`. -/
structure SmixLayout (S r N B V XY : Nat) : Prop where
  fill : Smix1Layout (OutOfTables S r) r N B V XY
  alignedS : S % 16 = 0
  scratch : XY + 128 ≤ S

theorem SmixLayout.salsa {S r N B V XY : Nat} (layout : SmixLayout S r N B V XY) :
    Smix1Layout (fun _ => True) 1 768 B S XY :=
  { width := Nat.le_refl 1
    slots := by omega
    even := rfl
    alignedB := layout.fill.alignedB
    alignedV := layout.alignedS
    alignedXY := layout.fill.alignedXY
    clear := fun _ _ => trivial
    apart := Or.inr layout.scratch }

theorem SmixLayout.walk {S r N B V XY : Nat} (layout : SmixLayout S r N B V XY) :
    Smix2Layout S r N B V XY :=
  { width := layout.fill.width
    slots := by have := layout.fill.slots; omega
    alignedB := layout.fill.alignedB
    alignedXY := layout.fill.alignedXY
    clear := layout.fill.clear
    apart := layout.fill.apart }

/-- The three phases of SMix with the kernels of a lane and the scalar SMix, from memories
that agree on the 128 bytes of input, leave the same block at `B`. -/
theorem smix_agree {S r N B V XY : Nat} {ctx : PwxformCtx} {m m' : Region M128}
    (layout : SmixLayout S r N B V XY) (hS : ctx.S0 = S) (hsize : ctx.Sbytes = 98304)
    (hok : ctx.TablesOk S) (hmem : Agree (Set.Ico B (B + 128)) m m') :
    Agree (Set.Ico B (B + 128 * r))
      (smix2With pipeSave B r N (nloopRw N) V XY (smix1With pipeKernels B r N V XY
        ((smix1With salsaKernels B 1 768 S XY (m, ())).1, ctx))).1
      (smix m' B r N V XY ctx).1 := by
  have hr := layout.fill.width
  have hwidth : 64 * (2 * r) = 128 * r := by omega
  -- the S-tables are filled
  obtain ⟨htables, hnone⟩ := smix1With_rel salsaKernels_sim layout.salsa (Set.empty_subset _)
    (Set.Subset.refl _) (s := (m, ())) (t := (m', none)) hmem rfl
  have hB : Set.Ico B (B + 128) ⊆ Set.Ico B (B + 128) ∪
      Set.Ico S (S + 64 * (2 * 1) * 768) ∪ Set.Ico B (B + 64 * (2 * 1)) :=
    Set.subset_union_left.trans Set.subset_union_left
  have htab : Set.Ico S (S + 98304) ⊆ Set.Ico B (B + 128) ∪
      Set.Ico S (S + 64 * (2 * 1) * 768) ∪ Set.Ico B (B + 64 * (2 * 1)) :=
    Set.subset_union_right.trans Set.subset_union_left
  -- the slots are filled
  obtain ⟨hslots, hctx, hok'⟩ := smix1With_rel (pipeKernels_sim hr) layout.fill htab hB
    (s := (_, ctx)) (t := (_, some ctx)) htables ⟨rfl, hok⟩
  -- the walk
  have hwalk := smix2With_rel layout.walk (nloopRw N)
    ((htab.trans Set.subset_union_left).trans Set.subset_union_left)
    (Set.subset_union_right.trans Set.subset_union_left) Set.subset_union_right hslots hok'
  have hscalar : (smix m' B r N V XY ctx).1 =
      (smix2With scalarSave B r N (nloopRw N) V XY
        ((smix1With scalarKernels B r N V XY
          ((smix1With scalarKernels B 1 768 S XY (m', none)).1, some ctx)).1,
        (smix1With pipeKernels B r N V XY
          ((smix1With salsaKernels B 1 768 S XY (m, ())).1, ctx)).2)).1 := by
    simp only [smix, smix1_eq, smix2_eq, hS, hsize, hctx, Option.getD_some]
  rw [hscalar, ← hwidth]
  exact hwalk.mono Set.subset_union_right

/-- A lane of the two-lane SMix and the scalar SMix, from memories that agree on the 128
bytes of input, leave the same block at `B`. -/
theorem civicSmix_1_0_2way_agree {ρ : Type} [DecidableEq ρ] {reg : Fin 2 → ρ}
    (hreg : Function.Injective reg) {B V XY : Fin 2 → Nat} {r N S : Nat}
    {P : Lanes 2 ρ M128 PwxformCtx} {l : Fin 2} {m' : Region M128}
    (layout : SmixLayout S r N (B l) (V l) (XY l)) (hS : (P.st l).S0 = S)
    (hsize : (P.st l).Sbytes = 98304) (hok : (P.st l).TablesOk S)
    (hmem : Agree (Set.Ico (B l) (B l + 128)) (P.heap (reg l)) m') :
    Agree (Set.Ico (B l) (B l + 128 * r))
      ((civicSmix_1_0_2way reg B N r V XY P).heap (reg l))
      (smix m' (B l) r N (V l) (XY l) (P.st l)).1 := by
  have hlane : (civicSmix_1_0_2way reg B N r V XY P).heap (reg l) =
      (smix2With pipeSave (B l) r N (nloopRw N) (V l) (XY l)
        (smix1With pipeKernels (B l) r N (V l) (XY l)
          ((smix1With salsaKernels (B l) 1 768 S (XY l) (P.heap (reg l), ())).1, P.st l))).1 := by
    have hwalk := congrArg Prod.fst (lane_civicSmix2_1_0_2way hreg B r N (nloopRw N) V XY
      (civicSmix1_1_0_2way reg B r N V XY
        (ctxLanes (civicSmix1Salsa2way reg B (fun l => (P.st l).S0) XY P.heap) P.st)) l)
    rw [lane_civicSmix1_1_0_2way hreg B r layout.fill.slots layout.fill.even] at hwalk
    simp only [Lanes.lane, ctxLanes, lane_civicSmix1Salsa2way hreg, hS] at hwalk
    exact hwalk
  rw [hlane]
  exact smix_agree layout hS hsize hok hmem

end SojCivicLight.Yespower
