import SojCivicLight.Yespower.MixLog
import SojCivicLight.Yespower.TwoLane

/-! The four-lane SMix beside the scalar one. -/

namespace SojCivicLight.Yespower

open SojCivicLight.Library

section Start

variable {S N B V XY : Nat} {m : Region M128} {ctx : PwxformCtx}

/-- Two mixes from one state: they can differ only in the tables' offsets they pass. -/
theorem MixLog.agree {r : Nat} {s t t' : Region M128 × PwxformCtx} (log : MixLog S r s t)
    (log' : MixLog S r s t')
    (passed : ∀ p ∈ Set.Ico S (S + 98304), s.2.w ≤ tableOffset S p →
      tableOffset S p < s.2.w + 64 * (2 * r) → load t.1 p = load t'.1 p) :
    Agree (Set.Ico S (S + 98304)) t.1 t'.1 := by
  intro p hp
  by_cases hoff : tableOffset S p < s.2.w ∨ s.2.w + 64 * (2 * r) ≤ tableOffset S p
  · exact (log.mem p hp hoff).trans (log'.mem p hp hoff).symm
  · exact passed p hp (by omega) (by omega)

theorem mixLog_pair (layout : FourLayout S 1 N B V XY) (slot : Nat) (hslot : slot < N) (Bin : Nat)
    (hok : ctx.TablesOk S) (hroom : ctx.w + 128 ≤ 32768) :
    let Bout := V + 64 * (2 * 1) * slot
    MixLog S 1 (m, ctx) (blockmixPlain m Bin Bout 1 ctx) ∧
      MixLog S 1 (m, ctx) (blockmixPwxform m Bin Bout 1 ctx) ∧
      (Agree (Set.Ico S (S + 98304)) (blockmixPlain m Bin Bout 1 ctx).1
        (blockmixPwxform m Bin Bout 1 ctx).1 → MixIdle m Bin Bout 1 ctx) := by
  have hS := layout.alignedS
  have hr := Nat.le_refl 1
  obtain ⟨haligned, hout⟩ := layout.slot hslot
  exact ⟨mixLog_blockmixPlain hS haligned hout hr hok (by omega),
    mixLog_blockmixPwxform hS haligned hout hr hok (by omega),
    mixIdle_of_tables hS haligned hout hr hok (by omega)⟩

theorem start_one {K : FillKernels PwxformCtx}
    (hmix : ∀ Bin Bout s, (K.mix Bin Bout 1 s).2 = PwxformCtx.advance^[2 * 1] s.2)
    (hok : ctx.TablesOk S) (hw : ctx.w = 0) :
    (smix1StartWith K B 1 V (m, ctx)).2.X = V + 256 ∧
      (smix1StartWith K B 1 V (m, ctx)).2.ctx.TablesOk S ∧
      (smix1StartWith K B 1 V (m, ctx)).2.ctx.w = 256 := by
  have hctx := smix1StartWith_ctx (Nat.le_refl 1) hmix hmix B V (m, ctx)
  have hadvance := advance_iterate_w hok (4 * 1 + 2 * 1 * (1 - 1))
  rw [hctx]
  exact ⟨by rw [smix1StartWith_one], hok.advance_iterate _, by dsimp only; omega⟩

/-- The tables that the two mixes at the start of `smix1` leave from offset zero say
whether the blocks they add make a difference. -/
theorem startIdle_of_tables (layout : FourLayout S 1 N B V XY) (hN : 4 ≤ N)
    (hok : ctx.TablesOk S) (hw : ctx.w = 0)
    (htab : ∀ p ∈ Set.Ico S (S + 98304), tableOffset S p < 256 →
      load (smix1StartWith (fourKernels 1) B 1 V (m, ctx)).1 p =
        load (smix1StartWith ctxKernels B 1 V (m, ctx)).1 p) :
    StartIdle m B V ctx := by
  have hw2 := advance_iterate_w hok (2 * 1)
  have hok2 := hok.advance_iterate (2 * 1)
  simp only [smix1StartWith_one, fourKernels, ctxKernels] at htab
  simp only [StartIdle]
  generalize forUp 0 2 1 _ m = m₁ at htab ⊢
  obtain ⟨plain1, full1, idle1⟩ := @mixLog_pair S N B V XY m₁ ctx layout 1 (by omega) V hok
    (by omega)
  have second := fun (u : Region M128 × PwxformCtx) (hu : u.2 = PwxformCtx.advance^[2 * 1] ctx) =>
    @mixLog_pair S N B V XY u.1 u.2 layout 2 (by omega) (V + 128) (by rw [hu]; exact hok2)
      (by rw [hu]; omega)
  have hwPlain : (blockmixPlain m₁ V (V + 128) 1 ctx).2.w = 128 := by
    rw [plain1.ctx]
    dsimp only
    omega
  have hwFull : (blockmixPwxform m₁ V (V + 128) 1 ctx).2.w = 128 := by
    rw [full1.ctx]
    dsimp only
    omega
  -- what the first two pwxforms stored is still there after the next two
  have first : MixIdle m₁ V (V + 128) 1 ctx := by
    obtain ⟨plain2, -, -⟩ := second _ plain1.ctx
    obtain ⟨-, full2, -⟩ := second _ full1.ctx
    refine idle1 (plain1.agree full1 fun p hp _ hoff => ?_)
    dsimp only at hoff
    have hkeep := plain2.mem p hp (by rw [hwPlain]; omega)
    have hkeep' := full2.mem p hp (by rw [hwFull]; omega)
    exact (hkeep.symm.trans (htab p hp (by omega))).trans hkeep'
  refine ⟨first, ?_⟩
  rw [first.blockmixPlain_eq (Nat.le_refl 1)] at htab
  obtain ⟨plain2, full2, idle2⟩ := second _ full1.ctx
  generalize blockmixPwxform m₁ V (V + 128) 1 ctx = u at htab plain2 full2 idle2 hwFull ⊢
  exact idle2 (plain2.agree full2 fun p hp _ hoff => htab p hp (by dsimp only at hoff; omega))

end Start

variable {ρ : Type} [DecidableEq ρ] {reg : Fin 4 → ρ} {B V XY S : Fin 4 → Nat} {r N Nloop : Nat}
  {P : Lanes 4 ρ M128 PwxformCtx}

/-- In every lane the two phases leave the block, the slots, the tables and the context
that the scalar ones leave for that lane alone. -/
def FourLanesAgree (reg : Fin 4 → ρ) (B : Fin 4 → Nat) (r N Nloop : Nat)
    (V XY S : Fin 4 → Nat) (P : Lanes 4 ρ M128 PwxformCtx) : Prop :=
  ∀ l,
    let lane := (civicSmix1Smix2_4way reg B r N Nloop V XY P).lane reg l
    let scalar := smix1Smix2 (P.heap (reg l)) (B l) r N Nloop (V l) (XY l) (P.st l)
    Agree (Set.Ico (B l) (B l + 128 * r)) lane.1 scalar.1 ∧
      Agree (Set.Ico (V l) (V l + 128 * r * N)) lane.1 scalar.1 ∧
      Agree (Set.Ico (S l) (S l + 98304)) lane.1 scalar.1 ∧ lane.2 = scalar.2

theorem fourLanesAgree_of_idle (hreg : Function.Injective reg) (hN : 4 ≤ N)
    (heven : N % 2 = 0) (idle : ∀ l, StartIdle (P.heap (reg l)) (B l) (V l) (P.st l)) :
    FourLanesAgree reg B 1 N Nloop V XY S P := by
  intro l
  have hlane := lane_civicSmix1Smix2_4way hreg B (Nat.le_refl 1) hN heven Nloop V XY P l
  have hstart := (idle l).start_eq
  rw [show P.lane reg l = (P.heap (reg l), P.st l) from rfl, hstart, ← smix1Smix2_eq] at hlane
  simp only [hlane]
  exact ⟨fun _ _ => rfl, fun _ _ => rfl, fun _ _ => rfl, trivial⟩

theorem FourLanesAgree.width (hreg : Function.Injective reg) (hr : 1 ≤ r) (hN : 4 ≤ N)
    (heven : N % 2 = 0) (hok : ∀ l, (P.st l).TablesOk (S l))
    (h : FourLanesAgree reg B r N Nloop V XY S P) : r % 48 = 1 := by
  have hctx := (h 0).2.2.2
  rw [lane_civicSmix1Smix2_4way hreg B hr hN heven, smix1Smix2_eq] at hctx
  exact (smixRest_ctx_eq_iff hr (B 0) N Nloop (V 0) (XY 0) (P.heap (reg 0)) (hok 0)).mp hctx

theorem FourLanesAgree.idle (hreg : Function.Injective reg) (hN : 4 ≤ N)
    (heven : N % 2 = 0) (hroom : N + Nloop ≤ 256)
    (layout : ∀ l, FourLayout (S l) 1 N (B l) (V l) (XY l))
    (hw : ∀ l, (P.st l).w = 0) (hok : ∀ l, (P.st l).TablesOk (S l))
    (h : FourLanesAgree reg B 1 N Nloop V XY S P) (l : Fin 4) :
    StartIdle (P.heap (reg l)) (B l) (V l) (P.st l) := by
  have htab := (h l).2.2.1
  rw [lane_civicSmix1Smix2_4way hreg B (Nat.le_refl 1) hN heven, smix1Smix2_eq] at htab
  have hr := Nat.le_refl 1
  obtain ⟨hXfour, hokFour, hwFour⟩ := @start_one (S l) (B l) (V l) (P.heap (reg l)) (P.st l)
    (fourKernels 1) (fun Bin Bout s => blockmixPlain_ctx s.1 Bin Bout s.2 hr) (hok l) (hw l)
  obtain ⟨hX, hok', hw'⟩ := @start_one (S l) (B l) (V l) (P.heap (reg l)) (P.st l)
    ctxKernels (fun Bin Bout s => blockmixPwxform_ctx s.1 Bin Bout s.2 hr) (hok l) (hw l)
  have hkeepFour := smixRest_kept (layout l) hN heven hroom hXfour hokFour hwFour
  have hkeep := smixRest_kept (layout l) hN heven hroom hX hok' hw'
  apply startIdle_of_tables (layout l) hN (hok l) (hw l)
  intro p hp hoff
  exact ((hkeepFour p hp hoff).symm.trans (htab p hp)).trans (hkeep p hp hoff)

/-! Memory that is zero where a mix of zero blocks reads: below the tables, and at the start of
each table.  What the tables hold behind their starts is never looked at. -/

section Blank

def zeroBlk : Blk := fun _ => ⟨0, 0, 0, 0⟩

def tableStarts (S : Nat) : List Nat := [S, S + 32768, S + 65536]

structure Blank (S : Nat) (m : Region M128) : Prop where
  below : ∀ p < S, load m p = ⟨0, 0, 0, 0⟩
  starts : ∀ p ∈ tableStarts S, load m p = ⟨0, 0, 0, 0⟩

structure BlankState (S : Nat) (s : Region M128 × Yp2State) : Prop where
  mem : Blank S s.1
  x : s.2.x = zeroBlk
  tables : [s.2.S0, s.2.S1, s.2.S2] ⊆ tableStarts S

variable {S B V : Nat} {m : Region M128} {ctx : PwxformCtx} {s : Region M128 × Yp2State}

theorem load_store_zero {p : Nat} (h : load m p = ⟨0, 0, 0, 0⟩) (q : Nat) :
    load (store m q ⟨0, 0, 0, 0⟩) p = ⟨0, 0, 0, 0⟩ := by
  rw [load, store]
  by_cases hp : p / 16 = q / 16
  · rw [hp, Function.update_self]
  · rw [Function.update_of_ne hp]
    exact h

theorem Blank.store (h : Blank S m) (q : Nat) : Blank S (store m q ⟨0, 0, 0, 0⟩) :=
  { below := fun p hp => load_store_zero (h.below p hp) q
    starts := fun p hp => load_store_zero (h.starts p hp) q }

theorem Blank.storeBlk (h : Blank S m) (q : Nat) : Blank S (storeBlk m q zeroBlk) :=
  (((h.store q).store (q + 16)).store (q + 32)).store (q + 48)

theorem Blank.loadBlk (h : Blank S m) {p : Nat} (hp : p + 64 ≤ S) : loadBlk m p = zeroBlk := by
  funext k
  exact h.below _ (by omega)

theorem Blank.pwxformSimd (h : Blank S m) {S0 S1 : Nat} (h0 : S0 ∈ tableStarts S)
    (h1 : S1 ∈ tableStarts S) : pwxformSimd m S0 S1 ⟨0, 0, 0, 0⟩ = ⟨0, 0, 0, 0⟩ := by
  have hlo : (extract64 ⟨0, 0, 0, 0⟩ &&& smask2_1_0).toUInt32.toNat = 0 := by decide
  have hhi : ((extract64 ⟨0, 0, 0, 0⟩ &&& smask2_1_0) >>> 32).toUInt32.toNat = 0 := by decide
  rw [Yespower.pwxformSimd]
  simp only [hlo, hhi, Nat.add_zero, h.starts _ h0, h.starts _ h1]
  decide

namespace BlankState

theorem simd (h : BlankState S s) (k : Fin 4) :
    Yespower.pwxformSimd s.1 s.2.S0 s.2.S1 (s.2.x k) = ⟨0, 0, 0, 0⟩ := by
  rw [h.x]
  exact h.mem.pwxformSimd (h.tables (by simp)) (h.tables (by simp))

theorem setX (h : BlankState S s) (k : Fin 4) : Function.update s.2.x k ⟨0, 0, 0, 0⟩ = zeroBlk := by
  rw [h.x]
  exact Function.update_eq_self k zeroBlk

theorem step (h : BlankState S s) (k : Fin 4) : BlankState S (pwxformStep k s) := by
  rw [pwxformStep, h.simd]
  exact ⟨h.mem, h.setX k, h.tables⟩

theorem stepWrite (h : BlankState S s) (k : Fin 4) (Sw : Yp2State → Nat) :
    BlankState S (pwxformStepWrite k Sw s) := by
  rw [pwxformStepWrite, h.simd]
  exact ⟨h.mem.store _, h.setX k, h.tables⟩

theorem bump (h : BlankState S s) : BlankState S (bumpW s) := ⟨h.mem, h.x, h.tables⟩

theorem roundWrite4 (h : BlankState S s) : BlankState S (pwxformRoundWrite4 s) :=
  ((((h.stepWrite 0 Yp2State.S0).stepWrite 1 Yp2State.S1).bump.stepWrite 2
    Yp2State.S0).stepWrite 3 Yp2State.S1).bump

theorem roundWrite2 (h : BlankState S s) : BlankState S (pwxformRoundWrite2 s) :=
  (((h.stepWrite 0 Yp2State.S0).stepWrite 1 Yp2State.S1).bump.step 2).step 3

theorem maskAndRotate (h : BlankState S s) : BlankState S (maskAndRotate s) := by
  refine ⟨h.mem, h.x, fun p hp => h.tables ?_⟩
  simp only [Yespower.maskAndRotate, List.mem_cons, List.not_mem_nil, or_false] at hp ⊢
  tauto

theorem pwxform (h : BlankState S s) : BlankState S (pwxform s) :=
  h.roundWrite4.roundWrite2.roundWrite2.maskAndRotate

theorem xorX (h : BlankState S s) {p : Nat} (hp : p + 64 ≤ S) : xorX p s = s := by
  have hxor : xorBlk zeroBlk zeroBlk = zeroBlk := by
    funext k
    exact (by decide : mmXorSi128 ⟨0, 0, 0, 0⟩ ⟨0, 0, 0, 0⟩ = ⟨0, 0, 0, 0⟩)
  rw [Yespower.xorX, h.mem.loadBlk hp, h.x, hxor, ← h.x]

theorem mixState (hm : Blank S m) (hok : ctx.TablesOk S) {Bin : Nat} (hBin : Bin + 128 ≤ S)
    (Bout : Nat) {i : Nat} (hi : i ≤ 2) : BlankState S (mixState m Bin Bout 1 ctx i) := by
  induction i with
  | zero =>
      rw [Yespower.mixState, forUp_of_le (Nat.le_refl 0)]
      exact ⟨hm, hm.loadBlk (by omega), hok.perm.subset⟩
  | succ i ih =>
      have hstate := ih (by omega)
      have hround := hstate.pwxform
      rw [mixState_succ, blockmixRound, hstate.xorX (by omega)]
      split
      · refine ⟨?_, hround.x, hround.tables⟩
        rw [writeX, hround.x]
        exact hround.mem.storeBlk _
      · exact hround

end BlankState

theorem Blank.mixIdle (h : Blank S m) (hok : ctx.TablesOk S) {Bin : Nat} (hBin : Bin + 128 ≤ S)
    (Bout : Nat) : MixIdle m Bin Bout 1 ctx := by
  intro i hi
  rw [(BlankState.mixState h hok hBin Bout (by omega : i ≤ 2)).xorX (by omega)]

theorem Blank.blockmixPwxform (h : Blank S m) (hok : ctx.TablesOk S) {Bin : Nat}
    (hBin : Bin + 128 ≤ S) (Bout : Nat) : Blank S (blockmixPwxform m Bin Bout 1 ctx).1 := by
  have hstate := BlankState.mixState h hok hBin Bout (Nat.le_refl 2)
  have hsalsa : salsa20Two zeroBlk = zeroBlk := by
    funext k
    match k with
    | 0 | 1 | 2 | 3 => rfl
  rw [blockmixPwxform_eq_mixState]
  dsimp only
  rw [hstate.x, hsalsa]
  exact hstate.mem.storeBlk _

theorem Blank.shuffleIn (h : Blank S m) {src : Nat} (hsrc : src + 64 ≤ S) (tmp dst : Nat) :
    Blank S (shuffleIn src tmp dst m) := by
  have hshuffled : salsa20SimdShuffle zeroBlk = zeroBlk := by
    funext k
    match k with
    | 0 | 1 | 2 | 3 => rfl
  rw [shuffleIn_eq, moveBlk, h.loadBlk hsrc, hshuffled]
  exact (h.storeBlk tmp).storeBlk dst

theorem Blank.startIdle (h : Blank S m) (hok : ctx.TablesOk S) (hB : B + 128 ≤ S)
    (hV : V + 256 ≤ S) : StartIdle m B V ctx := by
  have hinput : Blank S
      (forUp 0 2 1 (fun i => Yespower.shuffleIn (B + 64 * i) (V + 128) (V + 64 * i)) m) :=
    forUp_inv_unit (Nat.zero_le 2) (fun _ m => Blank S m) h
      (fun i m _ hi h => h.shuffleIn (by omega) _ _)
  refine ⟨hinput.mixIdle hok (by omega) _, ?_⟩
  refine (hinput.blockmixPwxform hok (by omega) _).mixIdle ?_ (by omega) _
  rw [blockmixPwxform_ctx _ _ _ _ (Nat.le_refl 1)]
  exact hok.advance_iterate _

end Blank

/-- The four lanes leave what the scalar code leaves when the width is one and no block that
their plain mixes leave out makes a difference.  They leave it only then, as far as the tables
tell: at a width of one with tables that are not written over, and at every width but one more
than a multiple of 48. -/
theorem civicSmix1Smix2_4way_agree_iff (hreg : Function.Injective reg) (hr : 1 ≤ r)
    (hN : 4 ≤ N) (heven : N % 2 = 0)
    (layout : ∀ l, FourLayout (S l) r N (B l) (V l) (XY l)) (hw : ∀ l, (P.st l).w = 0)
    (hok : ∀ l, (P.st l).TablesOk (S l)) :
    (r = 1 ∧ (∀ l, StartIdle (P.heap (reg l)) (B l) (V l) (P.st l)) →
      FourLanesAgree reg B r N Nloop V XY S P) ∧
    (r % 48 ≠ 1 ∨ r = 1 ∧ N + Nloop ≤ 256 → FourLanesAgree reg B r N Nloop V XY S P →
      r = 1 ∧ ∀ l, StartIdle (P.heap (reg l)) (B l) (V l) (P.st l)) := by
  constructor
  · rintro ⟨rfl, idle⟩
    exact fourLanesAgree_of_idle hreg hN heven idle
  · intro hcase hagree
    have hwidth := hagree.width hreg hr hN heven hok
    rcases hcase with hne | ⟨rfl, hroom⟩
    · exact absurd hwidth hne
    · exact ⟨rfl, hagree.idle hreg hN heven hroom layout hw hok⟩

/-- Lanes of zero blocks, with tables that hold something else behind their starts. -/
def blankLanes (S : Nat) : Lanes 4 (Fin 4) M128 PwxformCtx :=
  { heap := fun lane c =>
      if 16 * c < S ∨ 16 * c ∈ tableStarts S then ⟨0, 0, 0, 0⟩
      else ⟨UInt32.ofNat c, 0x80000000, UInt32.ofNat lane, 0xffffffff⟩
    st := fun _ => initCtx S }

theorem blank_blankLanes {S : Nat} (aligned : S % 16 = 0) (lane : Fin 4) :
    Blank S ((blankLanes S).heap lane) := by
  constructor
  · intro p hp
    exact if_pos (Or.inl (by omega))
  · intro p hp
    have hcell : 16 * (p / 16) = p := by
      simp only [tableStarts, List.mem_cons, List.not_mem_nil, or_false] at hp
      omega
    exact if_pos (Or.inr (hcell.symm ▸ hp))

theorem civicSmix1Smix2_4way_agree_blank :
    FourLanesAgree id (fun _ => offsetB 4 1) 1 4 2 (fun _ => 0) (fun _ => offsetXY 4 1)
      (fun _ => offsetS 4 1) (blankLanes (offsetS 4 1)) := by
  have layout : FourLayout (offsetS 4 1) 1 4 (offsetB 4 1) 0 (offsetXY 4 1) :=
    { alignedB := by decide
      alignedV := by decide
      alignedXY := by decide
      alignedS := by decide
      block := by
        unfold OutOfTables
        decide
      slots := by decide
      scratch := by decide }
  have hok := initCtx_tablesOk (offsetS 4 1)
  exact (civicSmix1Smix2_4way_agree_iff Function.injective_id (Nat.le_refl 1) (Nat.le_refl 4) rfl
    (fun _ => layout) (fun _ => rfl) (fun _ => hok)).1
      ⟨rfl, fun l => (blank_blankLanes (by decide) l).startIdle hok (by decide) (by decide)⟩

def zeroLanes (S : Nat) : Lanes 4 (Fin 4) M128 PwxformCtx :=
  { heap := fun _ _ => ⟨0, 0, 0, 0⟩, st := fun _ => initCtx S }

/-- At the parameters of the hash the four lanes end in other contexts than the scalar code,
even over zeros. -/
theorem civicSmix1Smix2_4way_fixed_differs :
    ¬ FourLanesAgree id (fun _ => offsetB 2048 8) 8 2048 (nloopRw 2048) (fun _ => 0)
      (fun _ => offsetXY 2048 8) (fun _ => offsetS 2048 8) (zeroLanes (offsetS 2048 8)) := by
  intro hagree
  have hwidth := hagree.width Function.injective_id (by decide) (by decide) (by decide)
    (fun _ => initCtx_tablesOk (offsetS 2048 8))
  exact absurd hwidth (by decide)

end SojCivicLight.Yespower
