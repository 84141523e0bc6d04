import SojCivicLight.Yespower.FillRefine

/-! SMix in memory is SMix of lists of blocks. -/

namespace SojCivicLight.Yespower

open SojCivicLight.Library

/-! Salsa20 kernels, which fill the tables. -/

section Salsa

variable {m : Region M128} {Bin Bin1 Bin2 Bout : Nat}

theorem blksAt_two (m : Region M128) (p : Nat) :
    blksAt m p 2 = [loadBlk m p, loadBlk m (p + 64)] := rfl

theorem salsa_stores (m : Region M128) (Bout : Nat) (Y0 Y1 : Blk) :
    blksAt (storeBlk (storeBlk m Bout Y0) (Bout + 64) Y1) Bout 2 = [Y0, Y1] ∧
      KeptBut (fun _ => True) Bout 2 (storeBlk (storeBlk m Bout Y0) (Bout + 64) Y1) m := by
  constructor
  · rw [blksAt_two, loadBlk_storeBlk_self, loadBlk_storeBlk_apart (Or.inl (Nat.le_refl _)),
      loadBlk_storeBlk_self]
  · intro q _ hq
    rw [load_storeBlk_apart (by omega), load_storeBlk_apart (by omega)]

theorem blockmixSalsa_refines (apart : Bin + 128 ≤ Bout ∨ Bout + 128 ≤ Bin) :
    blksAt (blockmixSalsa m Bin Bout) Bout 2 = mixSalsa (blksAt m Bin 2) ∧
      KeptBut (fun _ => True) Bout 2 (blockmixSalsa m Bin Bout) m := by
  have hmix : mixSalsa (blksAt m Bin 2) =
      [salsa20Two (xorBlk (loadBlk m (Bin + 64)) (loadBlk m Bin)),
        salsa20Two (xorBlk (salsa20Two (xorBlk (loadBlk m (Bin + 64)) (loadBlk m Bin)))
          (loadBlk m (Bin + 64)))] := by
    rw [← salsa20_one, ← salsa20_one]
    rfl
  unfold blockmixSalsa
  dsimp only
  rw [hmix, loadBlk_storeBlk_apart (by omega)]
  exact salsa_stores m Bout _ _

theorem blockmixSalsaXor_refines (apart1 : Bin1 + 128 ≤ Bout ∨ Bout + 128 ≤ Bin1)
    (apart2 : Bin2 + 128 ≤ Bout ∨ Bout + 128 ≤ Bin2) :
    let u := blockmixSalsaXor m Bin1 Bin2 Bout
    let v := mixSalsa (xorBlks (blksAt m Bin1 2) (blksAt m Bin2 2))
    blksAt u.1 Bout 2 = v ∧ KeptBut (fun _ => True) Bout 2 u.1 m ∧ u.2.toNat = blkIndex v := by
  intro u v
  let b0 := xorBlk (loadBlk m Bin1) (loadBlk m Bin2)
  let b1 := xorBlk (loadBlk m (Bin1 + 64)) (loadBlk m (Bin2 + 64))
  have hmix : v =
      [salsa20Two (xorBlk b1 b0), salsa20Two (xorBlk (salsa20Two (xorBlk b1 b0)) b1)] := by
    rw [← salsa20_one, ← salsa20_one]
    rfl
  have hu : u = (storeBlk (storeBlk m Bout (salsa20Two (xorBlk b1 b0))) (Bout + 64)
      (salsa20Two (xorBlk (salsa20Two (xorBlk b1 b0)) b1)),
      (salsa20Two (xorBlk (salsa20Two (xorBlk b1 b0)) b1) 0).w0) := by
    simp only [u, blockmixSalsaXor, b0, b1]
    rw [loadBlk_storeBlk_apart (by omega), loadBlk_storeBlk_apart (by omega)]
    simp only [xorBlk_assoc]
  rw [hu, hmix]
  obtain ⟨hout, hkept⟩ := salsa_stores m Bout (salsa20Two (xorBlk b1 b0))
    (salsa20Two (xorBlk (salsa20Two (xorBlk b1 b0)) b1))
  exact ⟨hout, hkept, rfl⟩

theorem salsaMix_refines :
    FillRefines salsaMix scalarKernels (fun _ c _ => c = none) (fun _ => True)
      (fun _ _ => True) 1 where
  xor := rfl
  index := rfl
  free_of_clear := fun _ _ => trivial
  clear_sub := fun _ _ _ => trivial
  keep := fun h _ => h
  mix := by
    rintro m c t q Bin Bout hq rfl - - apart
    obtain rfl : q = 1 := by omega
    obtain ⟨hout, hkept⟩ := @blockmixSalsa_refines m Bin Bout apart
    exact ⟨hout, rfl, hkept⟩
  mixXor := by
    rintro m c t Bin1 Bin2 Bout rfl - - - apart1 apart2
    obtain ⟨hout, hkept, hj⟩ := @blockmixSalsaXor_refines m Bin1 Bin2 Bout apart1 apart2
    exact ⟨hout, rfl, hkept, hj⟩

end Salsa

/-! Kernels with pwxform. -/

/-- A present context that shows the tables. -/
def SomeCtxShows (S : Nat) (m : Region M128) (c : Option PwxformCtx) (t : Tables) : Prop :=
  ∃ ctx, c = some ctx ∧ CtxShows S m ctx t

/-- Blocks off the tables. -/
def ClearOf (S p n : Nat) : Prop := p + 64 * n ≤ S ∨ S + 98304 ≤ p

theorem pwxMix_refines {S r : Nat} (hr : 1 ≤ r) :
    FillRefines pwxMix scalarKernels (SomeCtxShows S) (OffTables S) (ClearOf S) r where
  xor := rfl
  index := rfl
  free_of_clear := by
    intro p n i hp hi
    unfold ClearOf at hp
    unfold OffTables
    omega
  clear_sub := by
    intro p n q k hp hlo hhi
    unfold ClearOf at hp ⊢
    omega
  keep := by
    rintro m m' _ t ⟨ctx, rfl, h⟩ kept
    refine ⟨ctx, rfl, h.congr fun q hlo hhi => kept q fun p n hp => ?_⟩
    unfold ClearOf at hp
    omega
  mix := by
    rintro m _ t q Bin Bout hq ⟨ctx, rfl, h⟩ clear out apart
    obtain ⟨hout, hctx, hkept⟩ := blockmixPwxform_refines (show 1 ≤ q by omega) clear out apart h
    exact ⟨hout, ⟨_, rfl, hctx⟩, hkept⟩
  mixXor := by
    rintro m _ t Bin1 Bin2 Bout ⟨ctx, rfl, h⟩ clear1 clear2 out apart1 apart2
    obtain ⟨hout, hctx, hkept, hj⟩ :=
      blockmixXorPwxform_refines hr clear1 clear2 out apart1 apart2 h
    exact ⟨hout, ⟨_, rfl, hctx⟩, hkept, hj⟩

/-! The random walk. -/

section Walk

variable {S r N V XY : Nat}

/-- The `N` slots at `V` hold the table, the block is at `XY`, and `j` is its place. -/
structure WalkShows (S r N V XY : Nat) (s : Region M128 × Smix2Vars)
    (a : RoMixState (List Blk) Tables) : Prop where
  count : a.table.length = N
  slots : ∀ j < N, blksAt s.1 (V + 64 * (2 * r) * j) (2 * r) = a.table.getD j []
  block : blksAt s.1 XY (2 * r) = a.block
  j : s.2.j = blkIndex a.block % N
  rest : CtxShows S s.1 s.2.ctx a.rest

/-- Where a walk works. -/
structure WalkPlace (S r N V XY : Nat) : Prop where
  width : 1 ≤ r
  slots : 0 < N
  clearV : V + 64 * (2 * r) * N ≤ S ∨ S + 98304 ≤ V
  clearXY : XY + 64 * (2 * r) ≤ S ∨ S + 98304 ≤ XY
  apart : V + 64 * (2 * r) * N ≤ XY ∨ XY + 64 * (2 * r) ≤ V

theorem WalkShows.step (place : WalkPlace S r N V XY) {s : Region M128 × Smix2Vars}
    {a : RoMixState (List Blk) Tables} (h : WalkShows S r N V XY s a) :
    let u := blockmixXorSave s.1 XY (V + 64 * (2 * r) * s.2.j) r s.2.ctx
    WalkShows S r N V XY (u.1, { ctx := u.2.1, j := u.2.2.toNat % N }) (pwxMix.walkStep a) := by
  have hj : s.2.j < N := by
    rw [h.j]
    exact Nat.mod_lt _ place.slots
  have inside : ∀ k < N, V + 64 * (2 * r) * k + 64 * (2 * r) ≤ V + 64 * (2 * r) * N := by
    intro k hk
    rw [Nat.add_assoc]
    exact Nat.add_le_add_left (slot_le hk) V
  have hslot := inside _ hj
  have hclear := place.clearV
  have hclearXY := place.clearXY
  have hapart := place.apart
  obtain ⟨hout, hsaved, hctx, hkept, hindex⟩ := blockmixXorSave_refines place.width
    (show OutOfTables S r XY from hclearXY)
    (show OutOfTables S r (V + 64 * (2 * r) * s.2.j) by unfold OutOfTables; omega)
    (by omega) h.rest
  have hread : pwxMix.index a.block % a.table.length = s.2.j := by rw [h.count, h.j]; rfl
  have hblock : xorBlks (blksAt s.1 XY (2 * r))
      (blksAt s.1 (V + 64 * (2 * r) * s.2.j) (2 * r)) =
        pwxMix.xor a.block (a.table.getD s.2.j a.block) := by
    have hlow : s.2.j < a.table.length := by rw [h.count]; exact hj
    rw [h.block, h.slots _ hj, List.getD_eq_getElem _ _ hlow, List.getD_eq_getElem _ _ hlow]
    rfl
  have hstep : pwxMix.walkStep a =
      let block := pwxMix.xor a.block (a.table.getD s.2.j a.block)
      { table := a.table.set s.2.j block, block := (mixBlocks block a.rest).1,
        rest := (mixBlocks block a.rest).2 } := by
    rw [RoMix.walkStep, hread]
    rfl
  rw [hblock] at hout hsaved hctx hindex
  rw [hstep]
  generalize pwxMix.xor a.block (a.table.getD s.2.j a.block) = block at hout hsaved hctx hindex
  have hcount : (a.table.set s.2.j block).length = N := by rw [List.length_set, h.count]
  refine ⟨hcount, fun k hk => ?_, hout, by rw [hindex], hctx⟩
  have hkslot := inside k hk
  have hlow : k < (a.table.set s.2.j block).length := by rw [hcount]; exact hk
  dsimp only
  rw [List.getD_eq_getElem _ _ hlow]
  rcases eq_or_ne k s.2.j with rfl | hne
  · rw [hsaved, List.getElem_set_self]
  · rw [List.getElem_set_ne hne.symm, ← List.getD_eq_getElem _ [], ← h.slots k hk]
    -- another slot
    have hother : V + 64 * (2 * r) * k + 64 * (2 * r) ≤ V + 64 * (2 * r) * s.2.j ∨
        V + 64 * (2 * r) * s.2.j + 64 * (2 * r) ≤ V + 64 * (2 * r) * k := by
      rcases Nat.lt_or_gt_of_ne hne with hlt | hlt
      · left
        rw [Nat.add_assoc]
        exact Nat.add_le_add_left (slot_le hlt) V
      · right
        rw [Nat.add_assoc]
        exact Nat.add_le_add_left (slot_le hlt) V
    exact blksAt_congr fun i hi => loadBlk_congr fun l => by
      have := l.isLt
      exact hkept _ (by unfold OffTables; omega) (by omega) (by omega)

/-- A round is two steps. -/
theorem WalkShows.round (place : WalkPlace S r N V XY) {k : Nat} (hpow : N = 2 ^ k)
    {s : Region M128 × Smix2Vars} {a : RoMixState (List Blk) Tables}
    (h : WalkShows S r N V XY s a) :
    WalkShows S r N V XY (smix2Round r N V XY s) (pwxMix.walkStep (pwxMix.walkStep a)) := by
  have hmask : ∀ x, x &&& (N - 1) = x % N := fun x => by
    rw [hpow, Nat.and_two_pow_sub_one_eq_mod]
  have first := h.step place
  unfold smix2Round
  simp only [hmask]
  generalize blockmixXorSave s.1 XY (V + 64 * (2 * r) * s.2.j) r s.2.ctx = u at first
  exact first.step place

theorem WalkShows.walk (place : WalkPlace S r N V XY) {k : Nat} (hpow : N = 2 ^ k) (n : Nat)
    {s : Region M128 × Smix2Vars} {a : RoMixState (List Blk) Tables}
    (h : WalkShows S r N V XY s a) :
    WalkShows S r N V XY (doWhileMinusTwo (smix2Round r N V XY) (2 * n) s)
      (pwxMix.walk (2 * n) a) := by
  induction n generalizing s a with
  | zero => exact h
  | succ n ih => exact ih (h.round place hpow)

end Walk

/-! The tables in the memory that was filled. -/

section Tables

variable {m : Region M128} {p w n : Nat}

theorem blksAt_mul (m : Region M128) (p w n : Nat) :
    blksAt m p (w * n) = (List.range n).flatMap fun j => blksAt m (p + 64 * w * j) w := by
  induction n with
  | zero => rfl
  | succ n ih =>
      rw [Nat.mul_succ, blksAt_append, ih, List.range_succ, List.flatMap_append,
        List.flatMap_singleton, Nat.mul_assoc 64 w n]

/-- Slots side by side are one table. -/
theorem blksAt_slots {table : List (List Blk)} (hlen : table.length = n)
    (h : ∀ j < n, blksAt m (p + 64 * w * j) w = table.getD j []) :
    blksAt m p (w * n) = table.flatten := by
  rw [blksAt_mul, List.flatMap_def]
  congr 1
  apply List.ext_getElem
  · rw [List.length_map, List.length_range, hlen]
  · intro j hj hj'
    rw [List.getElem_map, List.getElem_range, h j (by omega), List.getD_eq_getElem _ _ hj']

theorem load_registerAt {bs : List Blk} (h : blksAt m p n = bs) {k : Nat} (hk : k < 4 * n) :
    load m (p + 16 * k) = registerAt bs k := by
  rw [registerAt, ← h, getD_blksAt (by omega)]
  change _ = load m (p + 64 * (k / 4) + 16 * (k % 4))
  congr 1
  omega

theorem ctxShows_initCtx {S : Nat} {bs : List Blk} (h : blksAt m S 1536 = bs) :
    CtxShows S m (initCtx S) (Tables.ofBlks bs) := by
  have part : sPart = 16 * 2048 := rfl
  refine ⟨⟨List.Perm.refl _, rfl, Nat.zero_lt_succ _⟩, fun k hk => ?_, fun k hk => ?_,
    fun k hk => ?_, rfl⟩
  · exact load_registerAt h (by omega)
  · change load m (S + sPart + 16 * k) = registerAt bs (2048 + k)
    rw [← load_registerAt h (by omega), part, Nat.mul_add, ← Nat.add_assoc]
  · change load m (S + 2 * sPart + 16 * k) = registerAt bs (4096 + k)
    rw [← load_registerAt h (by omega), part, Nat.mul_add, ← Nat.add_assoc]

end Tables

/-! The three phases together. -/

section Smix

variable {S r N B V XY : Nat}

theorem shuffle_unshuffle (b : Blk) : salsa20SimdShuffle (salsa20SimdUnshuffle b) = b := by
  rw [salsa20SimdShuffle_eq]
  exact diagonals_unshuffle b

theorem map_shuffle_unshuffle (bs : List Blk) :
    (bs.map salsa20SimdUnshuffle).map salsa20SimdShuffle = bs := by
  rw [List.map_map]
  exact (List.map_congr_left fun b _ => shuffle_unshuffle b).trans (List.map_id _)

theorem FillPlace.salsa (place : FillPlace (ClearOf S) r N B V XY) :
    FillPlace (fun _ _ => True) 1 768 B S XY := by
  have hr := place.width
  have hXY := place.clearXY
  have hB := place.clearB
  have hBXY := place.apartBXY
  unfold ClearOf at hXY hB
  exact ⟨Nat.le_refl 1, by omega, rfl, trivial, trivial, trivial, by omega, by omega, by omega⟩

theorem FillPlace.walk (place : FillPlace (ClearOf S) r N B V XY) : WalkPlace S r N V XY := by
  have hN := place.slots
  have hV := place.clearV
  have hXY := place.clearXY
  have hVXY := place.apartVXY
  unfold ClearOf at hV hXY
  rw [← Nat.mul_assoc] at hV
  exact ⟨place.width, by omega, hV, by omega, by omega⟩

/-- The walk from a filled table. -/
theorem smix2_refines (place : FillPlace (ClearOf S) r N B V XY) {k : Nat} (hpow : N = 2 ^ k)
    {m : Region M128} {ctx : PwxformCtx} {a : RoMixState (List Blk) Tables}
    (count : a.table.length = N)
    (slots : ∀ j < N, blksAt m (V + 64 * (2 * r) * j) (2 * r) = a.table.getD j [])
    (block : blksAt m B (2 * r) = a.block.map salsa20SimdUnshuffle)
    (rest : CtxShows S m ctx a.rest) (n : Nat) :
    blksAt (smix2 m B r N (2 * n) V XY ctx).1 B (2 * r) =
      (pwxMix.walk (2 * n) a).block.map salsa20SimdUnshuffle := by
  have hr := place.width
  have hBXY := place.apartBXY
  have hVXY := place.apartVXY
  have hXY := place.clearXY
  unfold ClearOf at hXY
  obtain ⟨hmoved, hkept⟩ := @blksAt_moveBlks salsa20SimdShuffle B (XY + 64 * (2 * r)) XY (2 * r) m
    (by omega) (by omega) (by omega)
  rw [block, map_shuffle_unshuffle] at hmoved
  have hindex : ∀ x, x &&& (N - 1) = x % N := fun x => by
    rw [hpow, Nat.and_two_pow_sub_one_eq_mod]
  unfold smix2
  simp only [shuffleIn_eq, unshuffleOut_eq]
  generalize forUp 0 (2 * r) 1 _ m = m' at hmoved hkept
  have start : WalkShows S r N V XY
      (m', { ctx, j := (integerify m' XY r).toNat &&& (N - 1) }) a := by
    refine ⟨count, fun j hj => ?_, hmoved, ?_, rest.congr fun q hlo hhi => ?_⟩
    · have hle := @slot_le (64 * (2 * r)) j N hj
      rw [← slots j hj]
      exact blksAt_congr fun i hi => loadBlk_congr fun l => by
        have := l.isLt
        exact hkept _ (by omega) (by omega)
    · rw [hindex, integerify_blksAt _ _ hr, hmoved]
    · exact hkept q (by omega) (by omega)
  have walked := start.walk place.walk hpow n
  obtain ⟨hout, -⟩ := @blksAt_moveBlks salsa20SimdUnshuffle XY (XY + 64 * (2 * r)) B (2 * r)
    (doWhileMinusTwo (smix2Round r N V XY) (2 * n)
      (m', { ctx, j := (integerify m' XY r).toNat &&& (N - 1) })).1
    (by omega) (by omega) (by omega)
  rw [walked.block] at hout
  exact hout

/-- SMix in memory. -/
theorem smix_refines (place : FillPlace (ClearOf S) r N B V XY) {k : Nat} (hpow : N = 2 ^ k)
    (m : Region M128) :
    blksAt (smix m B r N V XY (initCtx S)).1 B (2 * r) =
      (smixBlks r N ((blksAt m B 2).map salsa20SimdShuffle)).map salsa20SimdUnshuffle := by
  have hsmix : (smix m B r N V XY (initCtx S)).1 =
      let t := smix1 (smix1 m B 1 768 S XY none).1 B r N V XY (some (initCtx S))
      (smix2 t.1 B r N (nloopRw N) V XY (t.2.getD (initCtx S))).1 := by
    have hsize : (initCtx S).Sbytes = 98304 := rfl
    have hS : (initCtx S).S0 = S := rfl
    simp only [smix, hsize, hS]
  have hloop : nloopRw N = 2 * (((N + 2) / 3 + 1) / 2) := Nat.mul_comm _ 2
  rw [hsmix, smixBlks, hloop]
  dsimp only
  -- the tables
  obtain ⟨htables, hpair, -⟩ := smix1With_refines (m := m) (t := ()) salsaMix_refines
    place.salsa rfl
  have hstart : fillStart salsaMix 1 (blksAt m B 2) () =
      { table := [], block := (blksAt m B 2).map salsa20SimdShuffle, rest := () } := rfl
  have hcount : (salsaMix.fill 768 (fillStart salsaMix 1 (blksAt m B 2) ())).table.length = 768 :=
    salsaMix.length_fill _ 768
  rw [hstart] at htables hpair hcount
  generalize salsaMix.fill 768 _ = f at htables hpair hcount
  have hflat := blksAt_slots hcount htables
  rw [← smix1_eq] at hflat hpair
  have hshows := ctxShows_initCtx hflat
  generalize smix1 m B 1 768 S XY none = u at hshows hpair
  have hpair : blksAt u.1 B 2 = _ := hpair
  -- the slots
  obtain ⟨hslots, hblock, ctx, hctx, hrest⟩ := smix1With_refines
    (pwxMix_refines place.width) place ⟨_, rfl, hshows⟩
  rw [← smix1_eq] at hslots hblock hctx hrest
  rw [hpair, fillStart, map_shuffle_unshuffle] at hslots hblock hrest
  rw [hctx, Option.getD_some]
  -- the walk
  refine smix2_refines place hpow ?_ hslots hblock hrest _
  exact (pwxMix.length_fill _ N).trans (Nat.zero_add N)

end Smix

end SojCivicLight.Yespower
