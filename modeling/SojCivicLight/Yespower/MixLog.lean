import SojCivicLight.Yespower.TableLog

/-! What the mixes store in the tables.  As long as the write offset has not gone round,
the tables a hash leaves still hold what its first mixes stored there. -/

namespace SojCivicLight.Yespower

open SojCivicLight.Library

/-- A mix of `2r` blocks, as the tables see it: its context counts its pwxforms, and it
stores at the offsets it passes. -/
structure MixLog (S r : Nat) (s t : Region M128 × PwxformCtx) : Prop where
  ctx : t.2 = PwxformCtx.advance^[2 * r] s.2
  mem : ∀ p ∈ Set.Ico S (S + 98304),
    tableOffset S p < s.2.w ∨ s.2.w + 64 * (2 * r) ≤ tableOffset S p → load t.1 p = load s.1 p

section Mixes

variable {S r Bin Bin1 Bin2 Bout : Nat} {m : Region M128} {ctx : PwxformCtx}

theorem load_mix (aligned : Bout % 16 = 0) (out : OutOfTables S r Bout) (hr : 1 ≤ r)
    (hok : ctx.TablesOk S) (hroom : ctx.w + 64 * (2 * r) ≤ 32768)
    {round : Nat → Region M128 × Yp2State → Region M128 × Yp2State}
    (hround : ∀ i < 2 * r, LogRound S (round i)) (X b : Blk) {p : Nat}
    (hp : p ∈ Set.Ico S (S + 98304))
    (hoff : tableOffset S p < ctx.w ∨ ctx.w + 64 * (2 * r) ≤ tableOffset S p) :
    load (storeBlk (forUp 0 (r * 2 - 1 + 1) 1 round (m, ctx.load X)).1
      (Bout + 64 * (r * 2 - 1)) b) p = load m p := by
  unfold OutOfTables at out
  have hcount : r * 2 - 1 + 1 = 2 * r := by omega
  obtain ⟨-, -, hmem⟩ := load_rounds (s := (m, ctx.load X)) (Nat.zero_le (2 * r))
    (fun i _ hi => hround i hi) hok hroom
  rw [tables_storeBlk (S := S) (by omega) (by omega) _ _ p hp, hcount]
  exact hmem p hp hoff

theorem logRound_blockmix (alignedS : S % 16 = 0) (aligned : Bout % 16 = 0)
    (out : OutOfTables S r Bout) {i : Nat} (hi : i < 2 * r) :
    LogRound S (blockmixRound Bin Bout (r * 2 - 1) i) :=
  logRound_of_silent alignedS (silent_xorX (Bin + 64 * i)) (silent_writeRound aligned out hi)

theorem logRound_blockmixPlain (alignedS : S % 16 = 0) (aligned : Bout % 16 = 0)
    (out : OutOfTables S r Bout) {i : Nat} (hi : i < 2 * r) :
    LogRound S (blockmixPlainRound Bout (r * 2 - 1) i) :=
  logRound_of_silent alignedS silent_id (silent_writeRound aligned out hi)

theorem mixLog_blockmixPwxform (alignedS : S % 16 = 0) (aligned : Bout % 16 = 0)
    (out : OutOfTables S r Bout) (hr : 1 ≤ r) (hok : ctx.TablesOk S)
    (hroom : ctx.w + 64 * (2 * r) ≤ 32768) :
    MixLog S r (m, ctx) (blockmixPwxform m Bin Bout r ctx) :=
  { ctx := blockmixPwxform_ctx m Bin Bout ctx hr
    mem := fun p hp hoff => by
      rw [blockmixPwxform_eq]
      exact load_mix aligned out hr hok hroom
        (fun _ hi => logRound_blockmix alignedS aligned out hi) _ _ hp hoff }

theorem mixLog_blockmixPlain (alignedS : S % 16 = 0) (aligned : Bout % 16 = 0)
    (out : OutOfTables S r Bout) (hr : 1 ≤ r) (hok : ctx.TablesOk S)
    (hroom : ctx.w + 64 * (2 * r) ≤ 32768) :
    MixLog S r (m, ctx) (blockmixPlain m Bin Bout r ctx) :=
  { ctx := blockmixPlain_ctx m Bin Bout ctx hr
    mem := fun _ hp hoff => load_mix aligned out hr hok hroom
      (fun _ hi => logRound_blockmixPlain alignedS aligned out hi) _ _ hp hoff }

theorem mixLog_blockmixXorPwxform (alignedS : S % 16 = 0) (aligned : Bout % 16 = 0)
    (out : OutOfTables S r Bout) (hr : 1 ≤ r) (hok : ctx.TablesOk S)
    (hroom : ctx.w + 64 * (2 * r) ≤ 32768) :
    MixLog S r (m, ctx) ((blockmixXorPwxform m Bin1 Bin2 Bout r ctx).1,
      (blockmixXorPwxform m Bin1 Bin2 Bout r ctx).2.1) :=
  { ctx := blockmixXorPwxform_ctx m Bin1 Bin2 Bout ctx hr
    mem := fun p hp hoff => by
      rw [blockmixXorPwxform_eq _ _ _ _ hr]
      exact load_mix aligned out hr hok hroom
        (fun i hi => logRound_of_silent alignedS
          (Silent.comp (silent_xorX (Bin2 + 64 * i)) (silent_xorX (Bin1 + 64 * i)))
          (silent_writeRound aligned out hi)) _ _ hp hoff }

theorem mixLog_blockmixXorSave (alignedS : S % 16 = 0) (aligned1 : Bin1 % 16 = 0)
    (out1 : OutOfTables S r Bin1) (aligned2 : Bin2 % 16 = 0) (out2 : OutOfTables S r Bin2)
    (hr : 1 ≤ r) (hok : ctx.TablesOk S)
    (hroom : ctx.w + 64 * (2 * r) ≤ 32768) :
    MixLog S r (m, ctx) ((blockmixXorSave m Bin1 Bin2 r ctx).1,
      (blockmixXorSave m Bin1 Bin2 r ctx).2.1) :=
  { ctx := blockmixXorSave_ctx m Bin1 Bin2 ctx hr
    mem := fun p hp hoff => by
      have hin : ∀ i < 2 * r,
          Silent S (xorXWriteXorY2 (Bin2 + 64 * i) (Bin1 + 64 * i)) := by
        unfold OutOfTables at out2
        exact fun i hi => silent_xorXWriteXorY2 (by omega) (by omega) _
      rw [blockmixXorSave_eq _ _ _ hr]
      exact load_mix aligned1 out1 hr hok hroom
        (fun i hi => logRound_of_silent alignedS (hin i hi)
          (silent_writeRound aligned1 out1 hi)) _ _ hp hoff }

theorem load_mix_round (aligned : Bout % 16 = 0) (out : OutOfTables S r Bout) (hr : 1 ≤ r)
    (hok : ctx.TablesOk S) (hroom : ctx.w + 64 * (2 * r) ≤ 32768)
    {round : Nat → Region M128 × Yp2State → Region M128 × Yp2State}
    (hround : ∀ i < 2 * r, LogRound S (round i)) (X b : Blk) {i : Nat} (hi : i < 2 * r)
    {p : Nat} (hp : p ∈ Set.Ico S (S + 98304)) (hoff : tableOffset S p < ctx.w + 64 * (i + 1)) :
    load (storeBlk (forUp 0 (r * 2 - 1 + 1) 1 round (m, ctx.load X)).1
        (Bout + 64 * (r * 2 - 1)) b) p =
      load (round i (forUp 0 i 1 round (m, ctx.load X))).1 p := by
  unfold OutOfTables at out
  have hcount : r * 2 - 1 + 1 = 2 * r := by omega
  rw [tables_storeBlk (S := S) (by omega) (by omega) _ _ p hp, hcount]
  exact load_rounds_kept (s := (m, ctx.load X)) hi hround hok hroom hp hoff

/-- Two mixes that leave the same tables, one of which adds no block: the other one adds
none that makes a difference. -/
theorem mixIdle_of_tables (alignedS : S % 16 = 0) (aligned : Bout % 16 = 0)
    (out : OutOfTables S r Bout) (hr : 1 ≤ r) (hok : ctx.TablesOk S)
    (hroom : ctx.w + 64 * (2 * r) ≤ 32768)
    (htab : Agree (Set.Ico S (S + 98304)) (blockmixPlain m Bin Bout r ctx).1
      (blockmixPwxform m Bin Bout r ctx).1) :
    MixIdle m Bin Bout r ctx := by
  have hscalar := fun (i : Nat) (hi : i < 2 * r) =>
    @logRound_blockmix S r Bin Bout alignedS aligned out i hi
  have hplain := fun (i : Nat) (hi : i < 2 * r) => logRound_blockmixPlain alignedS aligned out hi
  intro i
  induction i using Nat.strong_induction_on with
  | _ i ih =>
  intro hi
  -- up to round `i` the two mixes are the same
  have hsame := plain_rounds_eq fun k hk => ih k hk (by omega)
  have hstate : (mixState m Bin Bout r ctx i).2.TablesOk S ∧
      (mixState m Bin Bout r ctx i).2.w = ctx.w + 64 * i := by
    obtain ⟨hok', hw, -⟩ := load_rounds
      (s := (m, ctx.load (loadBlk m (Bin + 64 * (r * 2 - 1))))) (Nat.zero_le i)
      (fun k _ hk => hscalar k (by omega)) hok
      (show ctx.w + 64 * (i - 0) ≤ 32768 by omega)
    have hw : (mixState m Bin Bout r ctx i).2.w = (ctx.w + 64 * (i - 0)) % 32768 := hw
    exact ⟨hok', by omega⟩
  obtain ⟨hok', hw⟩ := hstate
  have hwrite := @silent_writeRound S Bout (r * 2 - 1) i r aligned out hi
  refine pwxform_eq_of_tables alignedS hok' _ (fun p hp => ?_)
  by_cases hoff : tableOffset S p < ctx.w + 64 * (i + 1)
  · have hlog := htab p hp
    rw [blockmixPlain, blockmixPwxform_eq,
      load_mix_round aligned out hr hok hroom hplain _ _ hi hp hoff,
      load_mix_round aligned out hr hok hroom hscalar _ _ hi hp hoff, hsame] at hlog
    exact (((hwrite.mem _ p hp).symm.trans hlog).trans (hwrite.mem _ p hp)).symm
  · have hkeep := load_pwxform_offset alignedS hok' hp (by omega)
    have hkeep' := load_pwxform_offset (s := xorX (Bin + 64 * i) (mixState m Bin Bout r ctx i))
      alignedS hok' hp (by
        have : (xorX (Bin + 64 * i) (mixState m Bin Bout r ctx i)).2.w = ctx.w + 64 * i := hw
        omega)
    exact hkeep'.trans hkeep.symm

end Mixes

/-! After the start of `smix1` at width one.  The tables keep what the four pwxforms of the
start stored at their first 256 offsets. -/

/-- Where the two phases work: the block at `B`, the slots at `V`, the scratch at `XY` and
the tables at `S`, which nothing else overlaps. -/
structure FourLayout (S r N B V XY : Nat) : Prop where
  alignedB : B % 16 = 0
  alignedV : V % 16 = 0
  alignedXY : XY % 16 = 0
  alignedS : S % 16 = 0
  block : OutOfTables S r B
  slots : V + 64 * (2 * r) * N ≤ S ∨ S + 98304 ≤ V
  scratch : XY + 64 * (2 * r) + 64 ≤ S ∨ S + 98304 ≤ XY

/-- After `t` pwxforms, four of them before `m₀`. -/
structure Kept (S t : Nat) (m₀ : Region M128) (s : Region M128 × PwxformCtx) : Prop where
  tablesOk : s.2.TablesOk S
  w : s.2.w = 64 * t % 32768
  mem : ∀ p ∈ Set.Ico S (S + 98304), tableOffset S p < 256 → load s.1 p = load m₀ p

section Rest

variable {S N B V XY t : Nat} {m₀ : Region M128}

theorem Kept.mix {s s' : Region M128 × PwxformCtx} (h : Kept S t m₀ s) (log : MixLog S 1 s s')
    (ht : 4 ≤ t) (hroom : t + 2 ≤ 512) : Kept S (t + 2) m₀ s' := by
  have hw := h.w
  refine ⟨?_, ?_, fun p hp hoff => ?_⟩
  · rw [log.ctx]
    exact h.tablesOk.advance_iterate (2 * 1)
  · rw [log.ctx, advance_iterate_w h.tablesOk]
    omega
  · rw [log.mem p hp (by omega), h.mem p hp hoff]

theorem Kept.move {m : Region M128} {ctx : PwxformCtx} (h : Kept S t m₀ (m, ctx))
    (g : Blk → Blk) (src : Nat) {tmp dst : Nat} (htmp : tmp % 16 = 0) (hdst : dst % 16 = 0)
    (hout : tmp + 64 ≤ S ∨ S + 98304 ≤ tmp) (hout' : dst + 128 ≤ S ∨ S + 98304 ≤ dst) :
    Kept S t m₀
      (forUp 0 (2 * 1) 1 (fun i => moveBlk g (src + 64 * i) tmp (dst + 64 * i)) m, ctx) :=
  { tablesOk := h.tablesOk
    w := h.w
    mem := fun p hp hoff => by
      obtain ⟨hlo, hhi⟩ := hp
      rw [← h.mem p ⟨hlo, hhi⟩ hoff]
      exact moveBlks_outside htmp hdst m p ⟨by omega, by omega⟩ }

variable (layout : FourLayout S 1 N B V XY)
include layout

theorem FourLayout.slot {slot : Nat} (hslot : slot < N) :
    (V + 64 * (2 * 1) * slot) % 16 = 0 ∧ OutOfTables S 1 (V + 64 * (2 * 1) * slot) := by
  have halign := layout.alignedV
  have hslots := layout.slots
  unfold OutOfTables
  omega

theorem Kept.fillSlot {slot : Nat} (hslot : slot < N) (Bin1 Bin2 : Nat) {m : Region M128}
    {ctx : PwxformCtx} (h : Kept S t m₀ (m, ctx)) (ht : 4 ≤ t) (hroom : t + 2 ≤ 512) :
    Kept S (t + 2) m₀
      ((blockmixXorPwxform m Bin1 Bin2 (V + 64 * (2 * 1) * slot) 1 ctx).1,
        (blockmixXorPwxform m Bin1 Bin2 (V + 64 * (2 * 1) * slot) 1 ctx).2.1) := by
  obtain ⟨haligned, hout⟩ := layout.slot hslot
  have hw : ctx.w = 64 * t % 32768 := h.w
  exact h.mix (mixLog_blockmixXorPwxform layout.alignedS haligned hout (Nat.le_refl 1)
    h.tablesOk (by omega)) ht hroom

theorem Kept.fillRound {n i slot : Nat} (hslot : slot + 2 < N)
    {s : Region M128 × Smix1Vars PwxformCtx} (hX : s.2.X = V + 64 * (2 * 1) * slot)
    (h : Kept S t m₀ (s.1, s.2.ctx)) (ht : 4 ≤ t) (hroom : t + 4 ≤ 512) :
    (smix1RoundWith ctxKernels 1 V n i s).2.X = V + 64 * (2 * 1) * (slot + 2) ∧
      Kept S (t + 4) m₀ ((smix1RoundWith ctxKernels 1 V n i s).1,
        (smix1RoundWith ctxKernels 1 V n i s).2.ctx) := by
  simp only [smix1RoundWith, hX, next_slot, ctxKernels]
  have first := fun Bin1 Bin2 => h.fillSlot layout (show slot + 1 < N by omega) Bin1 Bin2 ht
    (by omega)
  have first := first (V + 64 * (2 * 1) * slot)
    (V + 64 * (2 * 1) * ((s.2.j &&& n - 1) + (i - 1)))
  generalize blockmixXorPwxform s.1 _ _ _ 1 s.2.ctx = u at first ⊢
  exact ⟨trivial, first.fillSlot layout hslot _ _ (by omega) (by omega)⟩

theorem Kept.fillEnd {n slot : Nat} {s : Region M128 × Smix1Vars PwxformCtx}
    (hslot : slot + 2 = N) (hX : s.2.X = V + 64 * (2 * 1) * slot)
    (h : Kept S t m₀ (s.1, s.2.ctx)) (ht : 4 ≤ t) (hroom : t + 4 ≤ 512) :
    Kept S (t + 4) m₀ (smix1EndWith ctxKernels B 1 N V XY n s) := by
  have hXY := layout.alignedXY
  have hscratch := layout.scratch
  have hblock := layout.block
  simp only [OutOfTables] at hblock
  simp only [smix1EndWith, hX, next_slot, ctxKernels, unshuffleOut_eq]
  have first := fun Bin1 Bin2 => h.fillSlot layout (show slot + 1 < N by omega) Bin1 Bin2 ht
    (by omega)
  have first := first (V + 64 * (2 * 1) * slot)
    (V + 64 * (2 * 1) * ((s.2.j &&& n - 1) + (N - 2 - n)))
  generalize blockmixXorPwxform s.1 _ _ _ 1 s.2.ctx = u at first ⊢
  have hw : u.2.1.w = 64 * (t + 2) % 32768 := first.w
  refine Kept.move ?_ _ _ (by omega) layout.alignedB (by omega) (by omega)
  exact first.mix (mixLog_blockmixXorPwxform layout.alignedS hXY
    (by unfold OutOfTables; omega) (Nat.le_refl 1) first.tablesOk (by omega)) (by omega)
    (by omega)

theorem Kept.walkMix {j : Nat} (hj : j < N) {m : Region M128} {ctx : PwxformCtx}
    (h : Kept S t m₀ (m, ctx)) (ht : 4 ≤ t) (hroom : t + 2 ≤ 512) :
    Kept S (t + 2) m₀ ((blockmixXorSave m XY (V + 64 * (2 * 1) * j) 1 ctx).1,
      (blockmixXorSave m XY (V + 64 * (2 * 1) * j) 1 ctx).2.1) := by
  obtain ⟨haligned, hout⟩ := layout.slot hj
  have hscratch := layout.scratch
  have hw : ctx.w = 64 * t % 32768 := h.w
  exact h.mix (mixLog_blockmixXorSave layout.alignedS layout.alignedXY
    (by unfold OutOfTables; omega) haligned hout (Nat.le_refl 1) h.tablesOk (by omega)) ht hroom

theorem Kept.walkRound (hN : 0 < N) {s : Region M128 × Smix2Vars} (hj : s.2.j < N)
    (h : Kept S t m₀ (s.1, s.2.ctx)) (ht : 4 ≤ t) (hroom : t + 4 ≤ 512) :
    (smix2Round 1 N V XY s).2.j < N ∧
      Kept S (t + 4) m₀ ((smix2Round 1 N V XY s).1, (smix2Round 1 N V XY s).2.ctx) := by
  simp only [smix2Round]
  have first := h.walkMix layout hj ht (by omega)
  generalize blockmixXorSave s.1 XY _ 1 s.2.ctx = u at first ⊢
  have second := first.walkMix layout (@and_pred_lt u.2.2.toNat N hN) (by omega) (by omega)
  exact ⟨and_pred_lt hN, second⟩

theorem Kept.walk (hN : 0 < N) (Nloop : Nat) {s : Region M128 × Smix2Vars} (hj : s.2.j < N)
    (h : Kept S t m₀ (s.1, s.2.ctx)) (ht : 4 ≤ t) (hroom : t + 2 * Nloop ≤ 512) :
    ∃ t', Kept S t' m₀ ((doWhileMinusTwo (smix2Round 1 N V XY) Nloop s).1,
      (doWhileMinusTwo (smix2Round 1 N V XY) Nloop s).2.ctx) := by
  induction Nloop, s using doWhileMinusTwo.induct (smix2Round 1 N V XY) generalizing t with
  | case1 Nloop s ih =>
      obtain ⟨hj, hround⟩ := h.walkRound layout hN hj ht (by omega)
      exact ih hj hround (by omega) (by omega)
  | case2 Nloop s hdone =>
      rcases Nloop with _ | _ | Nloop
      · exact ⟨t, h⟩
      · exact ⟨t, h⟩
      · exact absurd rfl (hdone Nloop)

theorem Kept.smix2 (hN : 0 < N) (Nloop : Nat) {s : Region M128 × PwxformCtx}
    (h : Kept S t m₀ s) (ht : 4 ≤ t) (hroom : t + 2 * Nloop ≤ 512) :
    ∃ t', Kept S t' m₀ (smix2 s.1 B 1 N Nloop V XY s.2) := by
  have hXY := layout.alignedXY
  have hscratch := layout.scratch
  have hblock := layout.block
  simp only [OutOfTables] at hblock
  have hin := Kept.move h salsa20SimdShuffle B (show (XY + 64 * (2 * 1)) % 16 = 0 by omega) hXY
    (by omega) (by omega)
  simp only [Yespower.smix2, shuffleIn_eq, unshuffleOut_eq]
  generalize forUp 0 (2 * 1) 1 _ s.1 = m at hin ⊢
  obtain ⟨t', hwalk⟩ := Kept.walk layout hN Nloop
    (s := (m, { ctx := s.2, j := (integerify m XY 1).toNat &&& (N - 1) })) (and_pred_lt hN) hin ht
    hroom
  exact ⟨t', hwalk.move _ _ (by omega) layout.alignedB (by omega) (by omega)⟩

/-- What the four pwxforms of the start have stored is in the tables at the end, when all
the pwxforms together do not fill a table. -/
theorem smixRest_kept (hN : 4 ≤ N) (heven : N % 2 = 0) {Nloop : Nat}
    (hroom : N + Nloop ≤ 256) {s : Region M128 × Smix1Vars PwxformCtx}
    (hX : s.2.X = V + 256) (hok : s.2.ctx.TablesOk S) (hw : s.2.ctx.w = 256) :
    ∀ p ∈ Set.Ico S (S + 98304), tableOffset S p < 256 →
      load (smixRest B 1 N Nloop V XY s).1 p = load s.1 p := by
  obtain ⟨n, -, -, hexit, -, ⟨-, hslots⟩, hfill⟩ := @fill_slots N _ _ ctxKernels
    ctxKernels 1 V
    (fun slot t _ => (2 ≤ slot ∧ t.2.X = V + 64 * (2 * 1) * slot) ∧
      Kept S (2 * slot) s.1 (t.1, t.2.ctx))
    hN heven
    (fun n i slot t _ hn hi hslot hroom' h => by
      obtain ⟨⟨hlo, hX⟩, hkept⟩ := h
      have hnext : 2 * (slot + 2) = 2 * slot + 4 := by omega
      obtain ⟨hX', hkept'⟩ := hkept.fillRound layout hroom' hX (by omega) (by omega)
      rw [hnext]
      exact ⟨⟨by omega, hX'⟩, hkept'⟩)
    s s ⟨⟨Nat.le_refl 2, by omega⟩, hok, by omega, fun _ _ _ => rfl⟩
  have hend := hfill.fillEnd layout (n := n) (by omega) hslots (by omega) (by omega)
  have hhalf : n * 2 / 2 = n := by omega
  simp only [smixRest, hexit, hhalf]
  obtain ⟨t', hrest⟩ := hend.smix2 layout (by omega) Nloop (by omega) (by omega)
  exact hrest.mem

end Rest

end SojCivicLight.Yespower
