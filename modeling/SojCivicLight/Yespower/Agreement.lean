import SojCivicLight.Yespower.LaneKernels

/-! What the scalar kernels read.  Two runs over memories that agree on a kernel's
inputs and on the S-tables leave the same locals, and their memories then also agree
on the kernel's outputs; what the memories held elsewhere makes no difference. -/

namespace SojCivicLight.Yespower

open SojCivicLight.Library

section Blocks

variable {known : Set Nat} {m m' : Region M128}

theorem agree_loadBlk (h : Agree known m m') {p : Nat} (hp : Set.Ico p (p + 64) ⊆ known) :
    loadBlk m p = loadBlk m' p := by
  apply loadBlk_congr
  intro k
  have := k.isLt
  exact h _ (hp ⟨by omega, by omega⟩)

theorem agree_storeBlk_keep (h : Agree known m m') (q : Nat) (b : Blk) :
    Agree known (storeBlk m q b) (storeBlk m' q b) :=
  (((h.store_keep q (b 0)).store_keep (q + 16) (b 1)).store_keep (q + 32) (b 2)).store_keep
    (q + 48) (b 3)

theorem agree_storeBlk (h : Agree known m m') {q : Nat} (aligned : q % 16 = 0) (b : Blk) :
    Agree (known ∪ Set.Ico q (q + 64)) (storeBlk m q b) (storeBlk m' q b) := by
  have h0 := h.store aligned (b 0)
  have h1 := h0.store (q := q + 16) (by omega) (b 1)
  have h2 := h1.store (q := q + 32) (by omega) (b 2)
  have h3 := h2.store (q := q + 48) (by omega) (b 3)
  refine Agree.mono h3 (Set.union_subset ?_ ?_)
  · intro p hp
    exact Or.inl (Or.inl (Or.inl (Or.inl hp)))
  · intro p hp
    simp only [Set.mem_union, Set.mem_Ico] at hp ⊢
    omega

theorem agree_storeBlk_outside (m : Region M128) {q : Nat}
    (aligned : q % 16 = 0) (b : Blk) (outside : ∀ p ∈ known, p < q ∨ q + 64 ≤ p) :
    Agree known (storeBlk m q b) m := by
  intro p hp
  have hp := outside p hp
  have h0 : p / 16 ≠ q / 16 := by omega
  have h1 : p / 16 ≠ (q + 16) / 16 := by omega
  have h2 : p / 16 ≠ (q + 32) / 16 := by omega
  have h3 : p / 16 ≠ (q + 48) / 16 := by omega
  simp only [load, storeBlk, store, Function.update_of_ne h0, Function.update_of_ne h1,
    Function.update_of_ne h2, Function.update_of_ne h3]

end Blocks

/-- Two runs with equal locals over memories that agree on `known`. -/
structure AgreeOn {σ : Type} (known : Set Nat) (s s' : Region M128 × σ) : Prop where
  mem : Agree known s.1 s'.1
  locals : s.2 = s'.2

/-! Inside a pwxform. -/

/-- Two runs inside a pwxform: they agree on the tables at `S`, where `S0` and `S1` are. -/
structure StepAgree (S : Nat) (known : Set Nat) (s s' : Region M128 × Yp2State) : Prop where
  mem : Agree known s.1 s'.1
  locals : s.2 = s'.2
  tables : Set.Ico S (S + 98304) ⊆ known
  S0_mem : S ≤ s.2.S0 ∧ s.2.S0 + 32768 ≤ S + 98304
  S1_mem : S ≤ s.2.S1 ∧ s.2.S1 + 32768 ≤ S + 98304

namespace StepAgree

variable {S : Nat} {known : Set Nat} {s s' : Region M128 × Yp2State}

theorem simd (h : StepAgree S known s s') (X : M128) :
    pwxformSimd s.1 s'.2.S0 s'.2.S1 X = pwxformSimd s'.1 s'.2.S0 s'.2.S1 X := by
  have h0 := h.S0_mem
  have h1 := h.S1_mem
  have hlo := masked_lo_le (extract64 X)
  have hhi := masked_hi_le (extract64 X)
  rw [h.locals] at h0 h1
  simp only [pwxformSimd]
  rw [h.mem _ (h.tables ⟨by omega, by omega⟩), h.mem _ (h.tables ⟨by omega, by omega⟩)]

theorem step (h : StepAgree S known s s') (k : Fin 4) :
    StepAgree S known (pwxformStep k s) (pwxformStep k s') := by
  refine ⟨h.mem, ?_, h.tables, h.S0_mem, h.S1_mem⟩
  simp only [pwxformStep, h.simd, h.locals]

theorem stepWrite (h : StepAgree S known s s') (k : Fin 4) (Sw : Yp2State → Nat) :
    StepAgree S known (pwxformStepWrite k Sw s) (pwxformStepWrite k Sw s') := by
  refine ⟨?_, ?_, h.tables, h.S0_mem, h.S1_mem⟩
  · simp only [pwxformStepWrite, h.simd, h.locals]
    exact h.mem.store_keep _ _
  · simp only [pwxformStepWrite, h.simd, h.locals]

theorem bump (h : StepAgree S known s s') : StepAgree S known (bumpW s) (bumpW s') :=
  ⟨h.mem, by simp only [bumpW, h.locals], h.tables, h.S0_mem, h.S1_mem⟩

theorem mask (h : StepAgree S known s s') :
    AgreeOn known (maskAndRotate s) (maskAndRotate s') :=
  ⟨h.mem, by simp only [maskAndRotate, h.locals]⟩

theorem roundWrite4 (h : StepAgree S known s s') :
    StepAgree S known (pwxformRoundWrite4 s) (pwxformRoundWrite4 s') :=
  ((((h.stepWrite 0 _).stepWrite 1 _).bump.stepWrite 2 _).stepWrite 3 _).bump

theorem roundWrite2 (h : StepAgree S known s s') :
    StepAgree S known (pwxformRoundWrite2 s) (pwxformRoundWrite2 s') :=
  ((((h.stepWrite 0 _).stepWrite 1 _).bump.step 2).step 3)

end StepAgree

structure MixAgree (S : Nat) (known : Set Nat) (s s' : Region M128 × Yp2State) : Prop where
  mem : Agree known s.1 s'.1
  locals : s.2 = s'.2
  tables : Set.Ico S (S + 98304) ⊆ known
  tablesOk : s.2.TablesOk S

namespace MixAgree

variable {S : Nat} {known known' : Set Nat} {s s' : Region M128 × Yp2State}

theorem pwxform (h : MixAgree S known s s') :
    MixAgree S known (pwxform s) (Yespower.pwxform s') := by
  have entry : StepAgree S known s s' :=
    ⟨h.mem, h.locals, h.tables, h.tablesOk.S0_mem, h.tablesOk.S1_mem⟩
  have rounds : AgreeOn known (Yespower.pwxform s) (Yespower.pwxform s') :=
    entry.roundWrite4.roundWrite2.roundWrite2.mask
  exact ⟨rounds.mem, rounds.locals, h.tables, tablesOk_pwxform h.tablesOk⟩

theorem xorX (h : MixAgree S known s s') {p : Nat} (hp : Set.Ico p (p + 64) ⊆ known) :
    MixAgree S known (xorX p s) (Yespower.xorX p s') :=
  ⟨h.mem, by simp only [Yespower.xorX, h.locals, agree_loadBlk h.mem hp], h.tables, h.tablesOk⟩

theorem writeX (h : MixAgree S known s s') {p : Nat} (aligned : p % 16 = 0) :
    MixAgree S (known ∪ Set.Ico p (p + 64)) (writeX p s) (Yespower.writeX p s') := by
  refine ⟨?_, h.locals, h.tables.trans Set.subset_union_left, h.tablesOk⟩
  simp only [Yespower.writeX, h.locals]
  exact agree_storeBlk h.mem aligned _

theorem xorXWriteXorY2 (h : MixAgree S known s s') {out inp : Nat}
    (hout : Set.Ico out (out + 64) ⊆ known) (hinp : Set.Ico inp (inp + 64) ⊆ known) :
    MixAgree S known (xorXWriteXorY2 out inp s) (Yespower.xorXWriteXorY2 out inp s') := by
  refine ⟨?_, ?_, h.tables, h.tablesOk⟩
  · simp only [Yespower.xorXWriteXorY2, agree_loadBlk h.mem hout, agree_loadBlk h.mem hinp]
    exact agree_storeBlk_keep h.mem _ _
  · simp only [Yespower.xorXWriteXorY2, agree_loadBlk h.mem hout, agree_loadBlk h.mem hinp,
      h.locals]

theorem mono (h : MixAgree S known s s') (sub : known' ⊆ known)
    (tables : Set.Ico S (S + 98304) ⊆ known') : MixAgree S known' s s' :=
  ⟨h.mem.mono sub, h.locals, tables, h.tablesOk⟩

end MixAgree

/-! The block mixes with pwxform. -/

section Mixes

variable {S : Nat} {known : Set Nat} {m m' : Region M128} {ctx : PwxformCtx}
  {Bin Bin1 Bin2 Bout last r i : Nat} {s s' : Region M128 × Yp2State}

/-- What is known before round `i` of a kernel: the output blocks stored so far are
added, and the last one is not stored inside the loop. -/
abbrev written (known : Set Nat) (Bout last i : Nat) : Set Nat :=
  known ∪ Set.Ico Bout (Bout + 64 * min i last)

theorem block_known {p n : Nat} (hin : Set.Ico p (p + 64 * n) ⊆ known) (hi : i < n) :
    Set.Ico (p + 64 * i) (p + 64 * i + 64) ⊆ known :=
  (Set.Ico_subset_Ico (by omega) (by omega)).trans hin

theorem block_written {p n : Nat} (hin : Set.Ico p (p + 64 * n) ⊆ known) (hi : i < n) :
    Set.Ico (p + 64 * i) (p + 64 * i + 64) ⊆ written known Bout last i :=
  (block_known hin hi).trans Set.subset_union_left

theorem MixAgree.writeRound (h : MixAgree S (written known Bout last i) s s')
    (htab : Set.Ico S (S + 98304) ⊆ known) (hi : i ≤ last) (aligned : Bout % 16 = 0) :
    MixAgree S (written known Bout last (i + 1))
      (if i ≠ last then Yespower.writeX (Bout + 64 * i) s else s)
      (if i ≠ last then Yespower.writeX (Bout + 64 * i) s' else s') := by
  by_cases hne : i ≠ last
  · rw [if_pos hne, if_pos hne]
    have next := h.writeX (p := Bout + 64 * i) (by omega)
    rw [written, show min i last = i by omega] at next
    rw [written, show min (i + 1) last = i + 1 by omega]
    exact next.mono union_Ico_extend (htab.trans Set.subset_union_left)
  · rw [if_neg hne, if_neg hne]
    rw [written, show min (i + 1) last = min i last by omega]
    exact h

theorem MixAgree.finish (ctx : PwxformCtx)
    (h : MixAgree S (written known Bout last (last + 1)) s s')
    (aligned : Bout % 16 = 0) :
    Agree (known ∪ Set.Ico Bout (Bout + 64 * (last + 1)))
        (storeBlk s.1 (Bout + 64 * last) (salsa20Two s.2.x))
        (storeBlk s'.1 (Bout + 64 * last) (salsa20Two s.2.x)) ∧
      (ctx.save s.2).TablesOk S := by
  have stored := agree_storeBlk h.mem (q := Bout + 64 * last) (by omega) (salsa20Two s.2.x)
  rw [written, show min (last + 1) last = last by omega] at stored
  exact ⟨stored.mono union_Ico_extend, h.tablesOk⟩

theorem MixAgree.start (hmem : Agree known m m') (htab : Set.Ico S (S + 98304) ⊆ known)
    (hok : ctx.TablesOk S) {X X' : Blk} (hX : X = X') :
    MixAgree S (written known Bout last 0) (m, ctx.load X) (m', ctx.load X') := by
  refine ⟨hmem.mono ?_, by rw [hX], htab.trans Set.subset_union_left, hok⟩
  simp [written]

theorem agree_blockmixPwxform (hmem : Agree known m m')
    (htab : Set.Ico S (S + 98304) ⊆ known) (hok : ctx.TablesOk S) (hr : 1 ≤ r)
    (hin : Set.Ico Bin (Bin + 64 * (2 * r)) ⊆ known) (aligned : Bout % 16 = 0) :
    AgreeOn (known ∪ Set.Ico Bout (Bout + 64 * (2 * r)))
        (blockmixPwxform m Bin Bout r ctx) (blockmixPwxform m' Bin Bout r ctx) ∧
      (blockmixPwxform m Bin Bout r ctx).2.TablesOk S := by
  have hX := agree_loadBlk hmem (block_known hin (show r * 2 - 1 < 2 * r by omega))
  have loop := @forUp_rel_unit _ _ 0 (r * 2 - 1 + 1) (Nat.zero_le _)
    (blockmixRound Bin Bout (r * 2 - 1)) (blockmixRound Bin Bout (r * 2 - 1)) _ _
    (fun i => MixAgree S (written known Bout (r * 2 - 1) i))
    (MixAgree.start hmem htab hok hX)
    (fun i s s' _ hi h =>
      ((h.xorX (block_written hin (by omega))).pwxform).writeRound htab (by omega) aligned)
  have done := loop.finish ctx aligned
  have hsize : r * 2 - 1 + 1 = 2 * r := by omega
  have hlocals := loop.locals
  simp only [blockmixPwxform_eq]
  rw [hsize] at done hlocals ⊢
  exact ⟨⟨by rw [← hlocals]; exact done.1, by rw [hlocals]⟩, done.2⟩

theorem agree_blockmixXorPwxform (hmem : Agree known m m')
    (htab : Set.Ico S (S + 98304) ⊆ known) (hok : ctx.TablesOk S) (hr : 1 ≤ r)
    (hin1 : Set.Ico Bin1 (Bin1 + 64 * (2 * r)) ⊆ known)
    (hin2 : Set.Ico Bin2 (Bin2 + 64 * (2 * r)) ⊆ known) (aligned : Bout % 16 = 0) :
    AgreeOn (known ∪ Set.Ico Bout (Bout + 64 * (2 * r)))
        (blockmixXorPwxform m Bin1 Bin2 Bout r ctx)
        (blockmixXorPwxform m' Bin1 Bin2 Bout r ctx) ∧
      (blockmixXorPwxform m Bin1 Bin2 Bout r ctx).2.1.TablesOk S := by
  have hlast : r * 2 - 1 < 2 * r := by omega
  have hX1 := agree_loadBlk hmem (block_known hin1 hlast)
  have hX2 := agree_loadBlk hmem (block_known hin2 hlast)
  have loop := @forUp_rel_unit _ _ 0 (r * 2 - 1 + 1) (Nat.zero_le _)
    (blockmixXorRound Bin1 Bin2 Bout (r * 2 - 1)) (blockmixXorRound Bin1 Bin2 Bout (r * 2 - 1))
    _ _ (fun i => MixAgree S (written known Bout (r * 2 - 1) i))
    (MixAgree.start hmem htab hok (congrArg₂ xorBlk hX1 hX2))
    (fun i s s' _ hi h =>
      (((h.xorX (block_written hin1 (by omega))).xorX
        (block_written hin2 (by omega))).pwxform).writeRound htab (by omega) aligned)
  have done := loop.finish ctx aligned
  have hsize : r * 2 - 1 + 1 = 2 * r := by omega
  have hlocals := loop.locals
  simp only [blockmixXorPwxform_eq _ _ _ _ hr]
  rw [hsize] at done hlocals ⊢
  exact ⟨⟨by rw [← hlocals]; exact done.1, by rw [hlocals]⟩, done.2⟩

/-- The kernel that works in place adds nothing to what is known. -/
theorem agree_blockmixXorSave (hmem : Agree known m m')
    (htab : Set.Ico S (S + 98304) ⊆ known) (hok : ctx.TablesOk S) (hr : 1 ≤ r)
    (hin1 : Set.Ico Bin1 (Bin1 + 64 * (2 * r)) ⊆ known)
    (hin2 : Set.Ico Bin2 (Bin2 + 64 * (2 * r)) ⊆ known) (aligned : Bin1 % 16 = 0) :
    AgreeOn known (blockmixXorSave m Bin1 Bin2 r ctx) (blockmixXorSave m' Bin1 Bin2 r ctx) ∧
      (blockmixXorSave m Bin1 Bin2 r ctx).2.1.TablesOk S := by
  have hlast : r * 2 - 1 < 2 * r := by omega
  have hX1 := agree_loadBlk hmem (block_known hin1 hlast)
  have hX2 := agree_loadBlk hmem (block_known hin2 hlast)
  have loop := @forUp_rel_unit _ _ 0 (r * 2 - 1 + 1) (Nat.zero_le _)
    (blockmixXorSaveRound Bin1 Bin2 (r * 2 - 1)) (blockmixXorSaveRound Bin1 Bin2 (r * 2 - 1))
    _ _ (fun i => MixAgree S (written known Bin1 (r * 2 - 1) i))
    (MixAgree.start hmem htab hok (congrArg₂ xorBlk hX1 hX2))
    (fun i s s' _ hi h =>
      ((h.xorXWriteXorY2 (block_written hin2 (by omega))
        (block_written hin1 (by omega))).pwxform).writeRound htab (by omega) aligned)
  have done := loop.finish ctx aligned
  have hlocals := loop.locals
  simp only [blockmixXorSave_eq _ _ _ hr]
  refine ⟨⟨?_, by rw [hlocals]⟩, done.2⟩
  rw [← hlocals]
  exact done.1.mono Set.subset_union_left

end Mixes

/-! The block mixes with Salsa20/2, and the loops that move blocks in and out. -/

section Salsa

variable {known : Set Nat} {m m' : Region M128} {Bin Bin1 Bin2 Bout : Nat}

theorem agree_blockmixSalsa (hmem : Agree known m m')
    (hin : Set.Ico Bin (Bin + 128) ⊆ known) (aligned : Bout % 16 = 0) :
    Agree (known ∪ Set.Ico Bout (Bout + 128)) (blockmixSalsa m Bin Bout)
      (blockmixSalsa m' Bin Bout) := by
  have hlo : Set.Ico Bin (Bin + 64) ⊆ known :=
    (Set.Ico_subset_Ico (by omega) (by omega)).trans hin
  have hhi : Set.Ico (Bin + 64) (Bin + 64 + 64) ⊆ known :=
    (Set.Ico_subset_Ico (by omega) (by omega)).trans hin
  simp only [blockmixSalsa]
  rw [agree_loadBlk hmem hlo, agree_loadBlk hmem hhi]
  have first := agree_storeBlk hmem aligned
    (salsa20Two (xorBlk (loadBlk m' (Bin + 64)) (loadBlk m' Bin)))
  rw [agree_loadBlk first (hhi.trans Set.subset_union_left)]
  exact (agree_storeBlk first (by omega) _).mono union_Ico_extend

theorem agree_blockmixSalsaXor (hmem : Agree known m m')
    (hin1 : Set.Ico Bin1 (Bin1 + 128) ⊆ known) (hin2 : Set.Ico Bin2 (Bin2 + 128) ⊆ known)
    (aligned : Bout % 16 = 0) :
    AgreeOn (known ∪ Set.Ico Bout (Bout + 128)) (blockmixSalsaXor m Bin1 Bin2 Bout)
      (blockmixSalsaXor m' Bin1 Bin2 Bout) := by
  have hlo1 : Set.Ico Bin1 (Bin1 + 64) ⊆ known :=
    (Set.Ico_subset_Ico (by omega) (by omega)).trans hin1
  have hhi1 : Set.Ico (Bin1 + 64) (Bin1 + 64 + 64) ⊆ known :=
    (Set.Ico_subset_Ico (by omega) (by omega)).trans hin1
  have hlo2 : Set.Ico Bin2 (Bin2 + 64) ⊆ known :=
    (Set.Ico_subset_Ico (by omega) (by omega)).trans hin2
  have hhi2 : Set.Ico (Bin2 + 64) (Bin2 + 64 + 64) ⊆ known :=
    (Set.Ico_subset_Ico (by omega) (by omega)).trans hin2
  simp only [blockmixSalsaXor]
  rw [agree_loadBlk hmem hlo1, agree_loadBlk hmem hhi1, agree_loadBlk hmem hlo2,
    agree_loadBlk hmem hhi2]
  have first := agree_storeBlk hmem aligned
    (salsa20Two (xorBlk (xorBlk (xorBlk (loadBlk m' (Bin1 + 64)) (loadBlk m' (Bin2 + 64)))
      (loadBlk m' Bin1)) (loadBlk m' Bin2)))
  rw [agree_loadBlk first (hhi1.trans Set.subset_union_left),
    agree_loadBlk first (hhi2.trans Set.subset_union_left)]
  exact ⟨(agree_storeBlk first (by omega) _).mono union_Ico_extend, rfl⟩

theorem agree_integerify {B r : Nat} (hmem : Agree known m m') (hr : 1 ≤ r)
    (hin : Set.Ico B (B + 64 * (2 * r)) ⊆ known) : integerify m B r = integerify m' B r := by
  rw [integerify, integerify, hmem _ (hin ⟨by omega, by omega⟩)]

theorem agree_shuffleIn {src tmp dst : Nat} (hmem : Agree known m m')
    (hsrc : Set.Ico src (src + 64) ⊆ known) (htmp : tmp % 16 = 0) (hdst : dst % 16 = 0) :
    Agree (known ∪ Set.Ico dst (dst + 64)) (shuffleIn src tmp dst m)
      (shuffleIn src tmp dst m') := by
  have first := agree_storeBlk hmem htmp (loadBlk m' src)
  simp only [shuffleIn, agree_loadBlk hmem hsrc]
  rw [agree_loadBlk first Set.subset_union_right]
  exact (agree_storeBlk first hdst _).mono
    (Set.union_subset_union_left _ Set.subset_union_left)

theorem agree_unshuffleOut {src tmp dst : Nat} (hmem : Agree known m m')
    (hsrc : Set.Ico src (src + 64) ⊆ known) (htmp : tmp % 16 = 0) (hdst : dst % 16 = 0) :
    Agree (known ∪ Set.Ico dst (dst + 64)) (unshuffleOut src tmp dst m)
      (unshuffleOut src tmp dst m') := by
  have first := agree_storeBlk hmem htmp (loadBlk m' src)
  simp only [unshuffleOut, agree_loadBlk hmem hsrc]
  rw [agree_loadBlk first Set.subset_union_right]
  exact (agree_storeBlk first hdst _).mono
    (Set.union_subset_union_left _ Set.subset_union_left)

/-- A loop that moves `count` blocks adds the moved blocks to what is known. -/
theorem agree_moveBlks {f : Nat → Nat → Nat → Region M128 → Region M128}
    (hf : ∀ {known : Set Nat} {m m' : Region M128} {src tmp dst : Nat}, Agree known m m' →
      Set.Ico src (src + 64) ⊆ known → tmp % 16 = 0 → dst % 16 = 0 →
      Agree (known ∪ Set.Ico dst (dst + 64)) (f src tmp dst m) (f src tmp dst m'))
    (src tmp dst count : Nat) (hmem : Agree known m m')
    (hsrc : Set.Ico src (src + 64 * count) ⊆ known) (htmp : tmp % 16 = 0)
    (hdst : dst % 16 = 0) :
    Agree (known ∪ Set.Ico dst (dst + 64 * count))
      (forUp 0 count 1 (fun i => f (src + 64 * i) tmp (dst + 64 * i)) m)
      (forUp 0 count 1 (fun i => f (src + 64 * i) tmp (dst + 64 * i)) m') := by
  refine forUp_rel_unit (Nat.zero_le _)
    (fun i m m' => Agree (known ∪ Set.Ico dst (dst + 64 * i)) m m') ?_ ?_
  · exact hmem.mono (by simp)
  · intro i m m' _ hi h
    have hblock := (block_known hsrc hi).trans
      (Set.subset_union_left (t := Set.Ico dst (dst + 64 * i)))
    exact (hf h hblock htmp (by omega)).mono union_Ico_extend

end Salsa

/-! The blocks that a moving loop leaves alone. -/

/-- What `shuffleIn` and `unshuffleOut` have in common: a block copied to `tmp` and its
image under `g` stored at `dst`. -/
def moveBlk (g : Blk → Blk) (src tmp dst : Nat) (m : Region M128) : Region M128 :=
  storeBlk (storeBlk m tmp (loadBlk m src)) dst (g (loadBlk m src))

theorem shuffleIn_eq (src tmp dst : Nat) :
    shuffleIn src tmp dst = moveBlk salsa20SimdShuffle src tmp dst := by
  funext m
  simp only [shuffleIn, moveBlk, loadBlk_storeBlk_self]

theorem unshuffleOut_eq (src tmp dst : Nat) :
    unshuffleOut src tmp dst = moveBlk salsa20SimdUnshuffle src tmp dst := by
  funext m
  simp only [unshuffleOut, moveBlk, loadBlk_storeBlk_self]

section Move

variable {g : Blk → Blk} {src tmp dst count : Nat}

/-- Everything but the scratch block and the blocks moved to. -/
abbrev unmoved (tmp dst count : Nat) : Set Nat :=
  {p | (p < tmp ∨ tmp + 64 ≤ p) ∧ (p < dst ∨ dst + 64 * count ≤ p)}

theorem moveBlk_outside {i : Nat} (hi : i < count) (htmp : tmp % 16 = 0) (hdst : dst % 16 = 0)
    (m : Region M128) :
    Agree (unmoved tmp dst count) (moveBlk g (src + 64 * i) tmp (dst + 64 * i) m) m := by
  have first := @agree_storeBlk_outside (unmoved tmp dst count) m tmp htmp
    (loadBlk m (src + 64 * i)) (fun p hp => hp.1)
  have second := @agree_storeBlk_outside (unmoved tmp dst count)
    (storeBlk m tmp (loadBlk m (src + 64 * i))) (dst + 64 * i) (by omega)
    (g (loadBlk m (src + 64 * i))) (fun p hp => by
      have := hp.2
      omega)
  exact fun p hp => (second p hp).trans (first p hp)

theorem moveBlks_outside (htmp : tmp % 16 = 0) (hdst : dst % 16 = 0) (m : Region M128) :
    Agree (unmoved tmp dst count)
      (forUp 0 count 1 (fun i => moveBlk g (src + 64 * i) tmp (dst + 64 * i)) m) m :=
  forUp_inv_unit (Nat.zero_le count) (fun _ m' => Agree (unmoved tmp dst count) m' m)
    (fun _ _ => rfl)
    (fun _ m' _ hi h p hp => (moveBlk_outside hi htmp hdst m' p hp).trans (h p hp))

end Move

end SojCivicLight.Yespower
