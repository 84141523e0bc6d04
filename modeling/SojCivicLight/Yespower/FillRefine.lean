import SojCivicLight.Yespower.MixRefine

/-! The fill loop of an SMix in memory fills the table of the mixing. -/

namespace SojCivicLight.Yespower

open SojCivicLight.Library

/-! Blocks that are moved. -/

section Move

variable {g : Blk → Blk} {src tmp dst count : Nat} {m : Region M128}

/-- A loop that moves blocks leaves their images under `g`, and changes nothing but these and its
scratch block. -/
theorem blksAt_moveBlks (apart : src + 64 * count ≤ dst ∨ dst + 64 * count ≤ src)
    (tmp_src : tmp + 64 ≤ src ∨ src + 64 * count ≤ tmp)
    (tmp_dst : tmp + 64 ≤ dst ∨ dst + 64 * count ≤ tmp) :
    let m' := forUp 0 count 1 (fun i => moveBlk g (src + 64 * i) tmp (dst + 64 * i)) m
    blksAt m' dst count = (blksAt m src count).map g ∧
      ∀ q, q + 16 ≤ tmp ∨ tmp + 64 ≤ q → q + 16 ≤ dst ∨ dst + 64 * count ≤ q →
        load m' q = load m q := by
  have loop := @forUp_inv_unit _ 0 count (Nat.zero_le _)
    (fun i => moveBlk g (src + 64 * i) tmp (dst + 64 * i)) m
    (fun i m' => (∀ k < i, loadBlk m' (dst + 64 * k) = g (loadBlk m (src + 64 * k))) ∧
      ∀ q, q + 16 ≤ tmp ∨ tmp + 64 ≤ q → q + 16 ≤ dst ∨ dst + 64 * count ≤ q →
        load m' q = load m q)
    ⟨fun k hk => absurd hk (Nat.not_lt_zero k), fun _ _ _ => rfl⟩ ?_
  · refine ⟨?_, loop.2⟩
    rw [blksAt, blksAt, List.map_map]
    exact List.map_congr_left fun k hk => loop.1 k (List.mem_range.mp hk)
  · rintro i m' - hi ⟨moved, kept⟩
    have input : loadBlk m' (src + 64 * i) = loadBlk m (src + 64 * i) :=
      loadBlk_congr fun k => kept _ (by have := k.isLt; omega) (by have := k.isLt; omega)
    unfold moveBlk
    refine ⟨fun k hk => ?_, fun q hq hq' => ?_⟩
    · rcases Nat.lt_or_eq_of_le (Nat.le_of_lt_succ hk) with hlt | rfl
      · rw [loadBlk_storeBlk_apart (by omega), loadBlk_storeBlk_apart (by omega), moved k hlt]
      · rw [loadBlk_storeBlk_self, input]
    · rw [load_storeBlk_apart (by omega), load_storeBlk_apart (by omega), kept q hq hq']

end Move

variable {κ σ : Type}

/-- Only clear blocks have changed. -/
def KeptClear (clear : Nat → Nat → Prop) (m' m : Region M128) : Prop :=
  ∀ q, (∀ p n, clear p n → q + 16 ≤ p ∨ p + 64 * n ≤ q) → load m' q = load m q

/-- The kernels compute the block mix of `M`.  Registers that are `free` are kept but for the
output; blocks that are `clear` consist of such registers, and what they hold says nothing about
the state of `M`. -/
structure FillRefines (M : RoMix (List Blk) σ) (K : FillKernels κ)
    (shows : Region M128 → κ → σ → Prop) (free : Nat → Prop) (clear : Nat → Nat → Prop)
    (r : Nat) : Prop where
  xor : M.xor = xorBlks
  index : M.index = blkIndex
  free_of_clear : ∀ {p n i}, clear p n → i + 16 ≤ 64 * n → free (p + i)
  clear_sub : ∀ {p n q k}, clear p n → p ≤ q → q + 64 * k ≤ p + 64 * n → clear q k
  keep : ∀ {m m' c t}, shows m c t → KeptClear clear m' m → shows m' c t
  mix : ∀ {m c t q} (Bin Bout : Nat), q = 1 ∨ q = r → shows m c t → clear Bin (2 * q) →
    clear Bout (2 * q) → Bin + 64 * (2 * q) ≤ Bout ∨ Bout + 64 * (2 * q) ≤ Bin →
    let u := K.mix Bin Bout q (m, c)
    let v := M.mix (blksAt m Bin (2 * q)) t
    blksAt u.1 Bout (2 * q) = v.1 ∧ shows u.1 u.2 v.2 ∧ KeptBut free Bout (2 * q) u.1 m
  mixXor : ∀ {m c t} (Bin1 Bin2 Bout : Nat), shows m c t → clear Bin1 (2 * r) →
    clear Bin2 (2 * r) → clear Bout (2 * r) →
    Bin1 + 64 * (2 * r) ≤ Bout ∨ Bout + 64 * (2 * r) ≤ Bin1 →
    Bin2 + 64 * (2 * r) ≤ Bout ∨ Bout + 64 * (2 * r) ≤ Bin2 →
    let u := K.mixXor Bin1 Bin2 Bout r (m, c)
    let v := M.mix (xorBlks (blksAt m Bin1 (2 * r)) (blksAt m Bin2 (2 * r))) t
    blksAt u.1 Bout (2 * r) = v.1 ∧ shows u.1 u.2.1 v.2 ∧ KeptBut free Bout (2 * r) u.1 m ∧
      u.2.2.toNat = blkIndex v.1

/-- Where a fill works: `N` slots at `V`, a scratch slot and a block more at `XY`, the block that
goes in and out at `B`. -/
structure FillPlace (clear : Nat → Nat → Prop) (r N B V XY : Nat) : Prop where
  width : 1 ≤ r
  slots : 4 ≤ N
  even : N % 2 = 0
  clearV : clear V (2 * r * N)
  clearXY : clear XY (2 * r + 1)
  clearB : clear B (2 * r)
  apartVXY : V + 64 * (2 * r) * N ≤ XY ∨ XY + 64 * (2 * r + 1) ≤ V
  apartVB : V + 64 * (2 * r) * N ≤ B ∨ B + 64 * (2 * r) ≤ V
  apartBXY : B + 64 * (2 * r) ≤ XY ∨ XY + 64 * (2 * r + 1) ≤ B

/-- The slots up to `X` hold the table and the block, and `j` is its number. -/
structure FillShows (shows : Region M128 → κ → σ → Prop) (r V : Nat)
    (s : Region M128 × Smix1Vars κ) (a : RoMixState (List Blk) σ) : Prop where
  X : s.2.X = V + 64 * (2 * r) * a.table.length
  slots : ∀ j < a.table.length, blksAt s.1 (V + 64 * (2 * r) * j) (2 * r) = a.table.getD j []
  block : blksAt s.1 (V + 64 * (2 * r) * a.table.length) (2 * r) = a.block
  j : s.2.j = blkIndex a.block
  rest : shows s.1 s.2.ctx a.rest

section Fill

variable {M : RoMix (List Blk) σ} {K : FillKernels κ} {shows : Region M128 → κ → σ → Prop}
  {free : Nat → Prop} {clear : Nat → Nat → Prop} {r N B V XY : Nat}

theorem KeptBut.blksAt {p n q k : Nat} {m' m : Region M128} (h : KeptBut free p n m' m)
    (hfree : ∀ i, i + 16 ≤ 64 * k → free (q + i)) (apart : q + 64 * k ≤ p ∨ p + 64 * n ≤ q) :
    blksAt m' q k = blksAt m q k := by
  refine blksAt_congr fun i hi => h.loadBlk (fun j hj => ?_) (by omega)
  rw [Nat.add_assoc]
  exact hfree _ (by omega)

theorem slot_le {blk i n : Nat} (hi : i < n) : blk * i + blk ≤ blk * n := by
  rw [← Nat.mul_succ]
  exact Nat.mul_le_mul_left blk hi

theorem FillPlace.clearSlot (refines : FillRefines M K shows free clear r)
    (place : FillPlace clear r N B V XY) {j : Nat} (hj : j < N) :
    clear (V + 64 * (2 * r) * j) (2 * r) := by
  have hle := @slot_le (64 * (2 * r)) j N hj
  refine refines.clear_sub place.clearV (Nat.le_add_right _ _) ?_
  rw [← Nat.mul_assoc 64 (2 * r) N, Nat.add_assoc]
  exact Nat.add_le_add_left hle V

/-- A block mix into the slot after the last one, or into the scratch slot, is a step of the
table's filling. -/
theorem FillShows.step (refines : FillRefines M K shows free clear r)
    (place : FillPlace clear r N B V XY) {s : Region M128 × Smix1Vars κ}
    {a : RoMixState (List Blk) σ} (h : FillShows shows r V s a) (hcount : 2 ≤ a.table.length)
    (hroom : a.table.length < N) (idx : Nat) {Bout : Nat}
    (hidx : idx = wrap (blkIndex a.block) a.table.length) (clearOut : clear Bout (2 * r))
    (apart : ∀ j ≤ a.table.length, V + 64 * (2 * r) * j + 64 * (2 * r) ≤ Bout ∨
      Bout + 64 * (2 * r) ≤ V + 64 * (2 * r) * j) :
    let u := K.mixXor (V + 64 * (2 * r) * a.table.length) (V + 64 * (2 * r) * idx) Bout r
      (s.1, s.2.ctx)
    (∀ j ≤ a.table.length, blksAt u.1 (V + 64 * (2 * r) * j) (2 * r) =
        (M.fillStep a).table.getD j []) ∧
      blksAt u.1 Bout (2 * r) = (M.fillStep a).block ∧
      u.2.2.toNat = blkIndex (M.fillStep a).block ∧ shows u.1 u.2.1 (M.fillStep a).rest := by
  have hlow : idx < a.table.length := by
    rw [hidx]
    exact wrap_lt _ (by omega)
  obtain ⟨hout, hrest, hkept, hj⟩ := refines.mixXor (V + 64 * (2 * r) * a.table.length)
    (V + 64 * (2 * r) * idx) Bout h.rest (place.clearSlot refines hroom)
    (place.clearSlot refines (by omega)) clearOut (apart _ (Nat.le_refl _)) (apart _ (by omega))
  have hfeed : M.feed a = xorBlks (blksAt s.1 (V + 64 * (2 * r) * a.table.length) (2 * r))
      (blksAt s.1 (V + 64 * (2 * r) * idx) (2 * r)) := by
    rw [RoMix.feed, if_neg (by omega), refines.xor, refines.index, ← hidx, h.block,
      h.slots idx hlow, List.getD_eq_getElem _ _ hlow, List.getD_eq_getElem _ _ hlow]
  rw [← hfeed] at hout hrest hj
  refine ⟨fun j hle => ?_, hout, hj, hrest⟩
  have hclear := place.clearSlot refines (show j < N by omega)
  rw [hkept.blksAt (fun i hi => refines.free_of_clear hclear hi) (apart j hle)]
  rcases Nat.lt_or_eq_of_le hle with hlt | rfl
  · rw [h.slots j hlt]
    exact (List.getD_append _ _ _ _ hlt).symm
  · rw [h.block, RoMix.fillStep, List.getD_append_right _ _ _ _ (Nat.le_refl _), Nat.sub_self]
    rfl

/-- The next slot is filled. -/
theorem FillShows.next (refines : FillRefines M K shows free clear r)
    (place : FillPlace clear r N B V XY) {s : Region M128 × Smix1Vars κ}
    {a : RoMixState (List Blk) σ} (h : FillShows shows r V s a) (hcount : 2 ≤ a.table.length)
    (hroom : a.table.length + 1 < N) (idx : Nat)
    (hidx : idx = wrap (blkIndex a.block) a.table.length) (Y : Nat) :
    let u := K.mixXor (V + 64 * (2 * r) * a.table.length) (V + 64 * (2 * r) * idx)
      (V + 64 * (2 * r) * (a.table.length + 1)) r (s.1, s.2.ctx)
    FillShows shows r V
      (u.1, { ctx := u.2.1, X := V + 64 * (2 * r) * (a.table.length + 1), Y, j := u.2.2.toNat })
      (M.fillStep a) := by
  have hlen := M.length_fillStep a
  have apart : ∀ j ≤ a.table.length, V + 64 * (2 * r) * j + 64 * (2 * r) ≤
      V + 64 * (2 * r) * (a.table.length + 1) := by
    intro j hj
    rw [Nat.add_assoc]
    exact Nat.add_le_add_left (slot_le (Nat.lt_succ_of_le hj)) V
  obtain ⟨hslots, hout, hj, hrest⟩ := h.step refines place hcount (Nat.lt_of_succ_lt hroom) idx hidx
    (place.clearSlot refines hroom) (fun j hle => Or.inl (apart j hle))
  refine ⟨?_, fun j hlt => hslots j (by omega), ?_, hj, hrest⟩
  · rw [hlen]
  · rw [hlen]
    exact hout

theorem FillShows.round (refines : FillRefines M K shows free clear r)
    (place : FillPlace clear r N B V XY) {s : Region M128 × Smix1Vars κ}
    {a : RoMixState (List Blk) σ} (h : FillShows shows r V s a) {k i : Nat}
    (hi : 1 ≤ i) (hlt : i < 2 ^ k) (hpow : 2 ≤ 2 ^ k) (hcount : a.table.length + 1 = 2 ^ k + i)
    (hroom : a.table.length + 2 < N) :
    FillShows shows r V (smix1RoundWith K r V (2 ^ k) i s) (M.fillStep (M.fillStep a)) := by
  have hlen := M.length_fillStep a
  have hnext : ∀ j, V + 64 * (2 * r) * j + 64 * (2 * r) = V + 64 * (2 * r) * (j + 1) := fun j => by
    rw [Nat.mul_succ, Nat.add_assoc]
  have hdouble : 2 ^ (k + 1) = 2 ^ k + 2 ^ k := by rw [Nat.pow_succ, Nat.mul_two]
  have first := h.next refines place (by omega) (by omega)
    ((s.2.j &&& (2 ^ k - 1)) + (i - 1))
    (by rw [h.j, wrap_mask _ (show 2 ^ k ≤ _ by omega) (by omega)]; omega) s.2.Y
  unfold smix1RoundWith
  dsimp only
  rw [h.X, hnext, hnext]
  generalize K.mixXor (V + 64 * (2 * r) * a.table.length) _ _ r (s.1, s.2.ctx) = u at first
  have hj : u.2.2.toNat = blkIndex (M.fillStep a).block := first.j
  have second := first.next refines place (by omega) (by omega)
    ((u.2.2.toNat &&& (2 ^ k - 1)) + i)
    (by rw [hj, wrap_mask _ (show 2 ^ k ≤ _ by omega) (by omega)]; omega)
    (V + 64 * (2 * r) * (a.table.length + 1))
  rw [hlen] at second
  exact second

/-! Before the fill loop. -/

/-- A pair of blocks is spread over a slot. -/
theorem expand_refines (refines : FillRefines M K shows free clear r) (hr : 1 ≤ r)
    (clearV : clear V (2 * r)) {s : Region M128 × κ} {t : σ} (h : shows s.1 s.2 t) :
    let u := forUp 1 r 1 (fun i => K.mix (V + 64 * ((i - 1) * 2)) (V + 64 * (i * 2)) 1) s
    let e := expand M (r - 1) (blksAt s.1 V 2, t)
    blksAt u.1 V (2 * r) = e.1 ∧ shows u.1 u.2 e.2 := by
  have loop := @forUp_inv_unit _ 1 r hr
    (fun i => K.mix (V + 64 * ((i - 1) * 2)) (V + 64 * (i * 2)) 1) s
    (fun i s' => blksAt s'.1 V (i * 2) = (expand M (i - 1) (blksAt s.1 V 2, t)).1 ∧
      shows s'.1 s'.2 (expand M (i - 1) (blksAt s.1 V 2, t)).2) ⟨rfl, h⟩ ?_
  · rw [Nat.mul_comm 2 r]
    exact loop
  · intro i s' hlo hi hinv
    obtain ⟨i, rfl⟩ : ∃ k, i = k + 1 := ⟨i - 1, by omega⟩
    rw [Nat.add_sub_cancel] at hinv ⊢
    obtain ⟨hblks, hshows⟩ := hinv
    have inside : ∀ k < r, clear (V + 64 * (k * 2)) (2 * 1) := fun k hk =>
      refines.clear_sub clearV (Nat.le_add_right _ _) (by omega)
    obtain ⟨hout, hrest, hkept⟩ := refines.mix (V + 64 * (i * 2)) (V + 64 * ((i + 1) * 2))
      (Or.inl rfl) hshows (inside i (by omega)) (inside (i + 1) hi) (by omega)
    -- the last pair is what is mixed
    have hlast : (expand M i (blksAt s.1 V 2, t)).1.drop
        ((expand M i (blksAt s.1 V 2, t)).1.length - 2) = blksAt s'.1 (V + 64 * (i * 2)) 2 := by
      rw [← hblks, length_blksAt, show (i + 1) * 2 = i * 2 + 2 by omega, blksAt_append,
        Nat.add_sub_cancel]
      exact List.drop_left' (length_blksAt _ _ _)
    have hstep : expand M (i + 1) (blksAt s.1 V 2, t) =
        ((expand M i (blksAt s.1 V 2, t)).1 ++
            (M.mix (blksAt s'.1 (V + 64 * (i * 2)) (2 * 1))
              (expand M i (blksAt s.1 V 2, t)).2).1,
          (M.mix (blksAt s'.1 (V + 64 * (i * 2)) (2 * 1))
            (expand M i (blksAt s.1 V 2, t)).2).2) := by
      rw [expand, expandStep, hlast]
    rw [Nat.add_sub_cancel, hstep]
    refine ⟨?_, hrest⟩
    have before : clear V ((i + 1) * 2) :=
      refines.clear_sub clearV (Nat.le_refl V) (by omega)
    rw [Nat.add_mul (i + 1) 1 2, blksAt_append, hout, ← hblks]
    congr 1
    exact hkept.blksAt (fun j hj => refines.free_of_clear before hj) (Or.inl (Nat.le_refl _))

theorem integerify_blksAt (m : Region M128) (p : Nat) (hr : 1 ≤ r) :
    (integerify m p r).toNat = blkIndex (blksAt m p (2 * r)) := by
  rw [integerify, M128.d0_toUInt32, blkIndex, lastBlk_blksAt (by omega)]
  rfl

/-- The state from which the table of `M` is filled. -/
def fillStart (M : RoMix (List Blk) σ) (r : Nat) (pair : List Blk) (t : σ) :
    RoMixState (List Blk) σ :=
  let e := expand M (r - 1) (pair.map salsa20SimdShuffle, t)
  { table := [], block := e.1, rest := e.2 }

theorem FillShows.start (refines : FillRefines M K shows free clear r)
    (place : FillPlace clear r N B V XY) {s : Region M128 × κ} {t : σ} (h : shows s.1 s.2 t) :
    FillShows shows r V (smix1StartWith K B r V s)
      (M.fill 2 (fillStart M r (blksAt s.1 B 2) t)) := by
  have hr := place.width
  have hN := place.slots
  have hroom : 64 * (2 * r) * 4 ≤ 64 * (2 * r) * N := Nat.mul_le_mul_left _ hN
  have hsize : 64 * (2 * r * N) = 64 * (2 * r) * N := (Nat.mul_assoc 64 (2 * r) N).symm
  have slot : ∀ k < 4, clear (V + 64 * (2 * r) * k) (2 * r) := fun k hk =>
    place.clearSlot refines (by omega)
  have clear0 : clear V (2 * r) := slot 0 (by omega)
  have clear1 : clear (V + 64 * (2 * r)) (2 * r) := by
    have := slot 1 (by omega)
    rwa [Nat.mul_one] at this
  -- the first two blocks, shuffled
  obtain ⟨hmoved, hkept⟩ := @blksAt_moveBlks salsa20SimdShuffle B (V + 64 * (2 * r)) V 2 s.1
    (by have := place.apartVB; omega) (by have := place.apartVB; omega) (by omega)
  have hshows : shows (forUp 0 2 1 (fun i => moveBlk salsa20SimdShuffle (B + 64 * i)
      (V + 64 * (2 * r)) (V + 64 * i)) s.1) s.2 t :=
    refines.keep h fun q hq => hkept q
      (hq _ 1 (refines.clear_sub clear1 (Nat.le_refl _) (by omega)))
      (hq _ 2 (refines.clear_sub clear0 (Nat.le_refl _) (by omega)))
  unfold smix1StartWith
  simp only [shuffleIn_eq]
  generalize forUp 0 2 1 _ s.1 = m at hmoved hshows
  -- the first slot, and two mixes
  have hexpand := @expand_refines _ _ M K shows free clear r V refines hr clear0 (m, s.2) t hshows
  dsimp only at hexpand
  rw [hmoved] at hexpand
  generalize forUp 1 r 1 _ (m, s.2) = u at hexpand
  obtain ⟨hfirst, hshows⟩ := hexpand
  obtain ⟨hsecond, hshows, hkept1⟩ := refines.mix V (V + 64 * (2 * r)) (Or.inr rfl) hshows clear0
    clear1 (Or.inl (Nat.le_refl _))
  have clear2 : clear (V + 64 * (2 * r) + 64 * (2 * r)) (2 * r) := by
    have := slot 2 (by omega)
    rwa [Nat.mul_two, ← Nat.add_assoc] at this
  have kept1 : blksAt (K.mix V (V + 64 * (2 * r)) r u).1 V (2 * r) = _ :=
    (hkept1.blksAt (fun i hi => refines.free_of_clear clear0 hi) (Or.inl (Nat.le_refl _))).trans
      hfirst
  rw [hfirst] at hsecond hshows
  generalize K.mix V (V + 64 * (2 * r)) r u = v at hsecond hshows kept1
  obtain ⟨hthird, hshows, hkept2⟩ := refines.mix (V + 64 * (2 * r))
    (V + 64 * (2 * r) + 64 * (2 * r)) (Or.inr rfl) hshows clear1 clear2 (Or.inl (Nat.le_refl _))
  rw [hsecond] at hthird hshows
  have hX : V + 64 * (2 * r) + 64 * (2 * r) = V + 64 * (2 * r) * 2 := by
    rw [Nat.mul_two, Nat.add_assoc]
  have kept2 : ∀ p n, clear p n → p + 64 * n ≤ V + 64 * (2 * r) + 64 * (2 * r) →
      blksAt (K.mix (V + 64 * (2 * r)) (V + 64 * (2 * r) + 64 * (2 * r)) r v).1 p n =
        blksAt v.1 p n := fun p n hp hle =>
    hkept2.blksAt (fun i hi => refines.free_of_clear hp hi) (Or.inl hle)
  have hlen : (M.fill 2 (fillStart M r (blksAt s.1 B 2) t)).table.length = 2 :=
    M.length_fill (fillStart M r (blksAt s.1 B 2) t) 2
  refine ⟨by rw [hlen]; exact hX, fun j hj => ?_, ?_, ?_, hshows⟩
  · rw [hlen] at hj
    rcases Nat.lt_succ_iff_lt_or_eq.mp hj with hj | rfl
    · obtain rfl : j = 0 := by omega
      rw [Nat.mul_zero, Nat.add_zero, kept2 V (2 * r) clear0 (by omega), kept1]
      rfl
    · rw [Nat.mul_one, kept2 _ (2 * r) clear1 (Nat.le_refl _), hsecond]
      rfl
  · rw [hlen, ← hX]
    exact hthird
  · dsimp only
    rw [integerify_blksAt _ _ hr]
    exact congrArg blkIndex hthird

/-! The fill loop. -/

/-- The memory shows the table of `a₀` filled up to `slot`. -/
def Filled (M : RoMix (List Blk) σ) (shows : Region M128 → κ → σ → Prop) (r V : Nat)
    (a₀ : RoMixState (List Blk) σ) (slot : Nat) (s : Region M128 × Smix1Vars κ) : Prop :=
  FillShows shows r V s (M.fill slot a₀)

theorem Filled.round (refines : FillRefines M K shows free clear r)
    (place : FillPlace clear r N B V XY) {a₀ : RoMixState (List Blk) σ} (empty : a₀.table = [])
    {s : Region M128 × Smix1Vars κ} {slot k i : Nat} (h : Filled M shows r V a₀ slot s)
    (hi : 1 ≤ i) (hlt : i < 2 ^ (k + 1)) (hslot : slot + 1 = 2 ^ (k + 1) + i)
    (hroom : slot + 2 < N) :
    Filled M shows r V a₀ (slot + 2) (smix1RoundWith K r V (2 ^ (k + 1)) i s) := by
  have hlen : (M.fill slot a₀).table.length = slot := by
    rw [M.length_fill, empty, List.length_nil, Nat.zero_add]
  have hpow : 2 ≤ 2 ^ (k + 1) := by
    rw [Nat.pow_succ]
    exact Nat.le_mul_of_pos_left 2 (Nat.two_pow_pos k)
  exact FillShows.round refines place h hi hlt hpow (by rw [hlen, hslot])
    (by rw [hlen]; exact hroom)

/-- The inner loop of a phase doubles the slots that are filled, or fills all but two. -/
theorem Filled.phase (refines : FillRefines M K shows free clear r)
    (place : FillPlace clear r N B V XY) {a₀ : RoMixState (List Blk) σ} (empty : a₀.table = [])
    {s : Region M128 × Smix1Vars κ} {k : Nat} (hk : 2 ^ (k + 1) < N)
    (h : Filled M shows r V a₀ (phaseSlot N (2 ^ (k + 1))) s) :
    Filled M shows r V a₀ (phaseSlot N (2 ^ (k + 2)))
      (smix1FillWith K r N V (2 ^ (k + 1)) s) := by
  have heven := place.even
  have hpow : 2 ^ (k + 1) = 2 * 2 ^ k := Nat.pow_succ'
  have hdouble : 2 ^ (k + 2) = 2 * 2 ^ (k + 1) := Nat.pow_succ'
  have hpos := Nat.two_pow_pos k
  rw [phaseSlot, if_pos hk] at h
  have loop := fun bound (hroom : 2 ^ (k + 1) + bound < N) (hbound : bound ≤ 2 ^ (k + 1)) =>
    @forUp_inv _ 1 bound 2 (smix1RoundWith K r V (2 ^ (k + 1))) s
      (fun i => Filled M shows r V a₀ (2 ^ (k + 1) + i - 1)) (by simpa using h)
      (fun l s hl h => by
        have next := h.round refines place empty (k := k) (i := 1 + 2 * l) (by omega) (by omega)
          (by omega) (by omega)
        rwa [show 2 ^ (k + 1) + (1 + 2 * l) - 1 + 2 = 2 ^ (k + 1) + (1 + 2 * (l + 1)) - 1 by
          omega] at next)
  rw [smix1FillWith]
  rcases Nat.lt_or_ge (2 ^ (k + 1)) (N / 2) with hhalf | hhalf
  · have done := loop (2 ^ (k + 1)) (by omega) (Nat.le_refl _)
    rw [if_pos hhalf, phaseSlot, if_pos (by omega)]
    rwa [show 2 ^ (k + 1) + (1 + 2 * ((2 ^ (k + 1) - 1 + 2 - 1) / 2)) - 1 = 2 ^ (k + 2) by
      omega] at done
  · have done := loop (N - 1 - 2 ^ (k + 1)) (by omega) (by omega)
    rw [if_neg (Nat.not_lt_of_le hhalf), phaseSlot, if_neg (by omega)]
    rwa [show 2 ^ (k + 1) + (1 + 2 * ((N - 1 - 2 ^ (k + 1) - 1 + 2 - 1) / 2)) - 1 = N - 2 by
      omega] at done

/-- The whole loop fills all but the last two slots. -/
theorem Filled.loop (refines : FillRefines M K shows free clear r)
    (place : FillPlace clear r N B V XY) {a₀ : RoMixState (List Blk) σ} (empty : a₀.table = [])
    {s : Region M128 × Smix1Vars κ} (h : Filled M shows r V a₀ 2 s) :
    ∃ k, (forDoubling N (smix1FillWith K r N V) 2 s).2 = 2 ^ (k + 1) ∧ 2 ^ k + 2 ≤ N ∧
      N ≤ 2 ^ (k + 1) ∧
      Filled M shows r V a₀ (N - 2) (forDoubling N (smix1FillWith K r N V) 2 s).1 := by
  have hN := place.slots
  obtain ⟨n, hexit, _, hpos, hroom, habove⟩ := fill_exit hN place.even (smix1FillWith K r N V) s
  obtain ⟨l, hpow, hfilled⟩ := @forDoubling_inv _ N (smix1FillWith K r N V)
    (fun k s => ∃ k', k = k' + 1 ∧ Filled M shows r V a₀ (phaseSlot N (2 ^ k)) s)
    (by
      rintro _ s hlt ⟨k, rfl, h⟩
      exact ⟨k + 1, rfl, h.phase refines place empty hlt⟩)
    1 s ⟨0, rfl, by rw [phaseSlot, if_pos (show 2 ^ 1 < N by omega)]; exact h⟩
  obtain ⟨k, rfl, hfilled⟩ := hfilled
  have hn : n * 2 = 2 ^ (k + 1) := hexit.symm.trans hpow
  have hk : n = 2 ^ k := by
    rw [Nat.pow_succ] at hn
    omega
  rw [phaseSlot, if_neg (by omega)] at hfilled
  exact ⟨k, hpow, by omega, by omega, hfilled⟩

/-- The last two slots are filled, and the block goes through the scratch slot to `B`. -/
theorem Filled.finish (refines : FillRefines M K shows free clear r)
    (place : FillPlace clear r N B V XY) {a₀ : RoMixState (List Blk) σ} (empty : a₀.table = [])
    {s : Region M128 × Smix1Vars κ} {k : Nat} (hlow : 2 ^ k + 2 ≤ N) (hhigh : N ≤ 2 ^ (k + 1))
    (hpow : 2 ≤ 2 ^ k) (h : Filled M shows r V a₀ (N - 2) s) :
    let a := M.fill N a₀
    let u := smix1EndWith K B r N V XY (2 ^ k) s
    (∀ j < N, blksAt u.1 (V + 64 * (2 * r) * j) (2 * r) = a.table.getD j []) ∧
      blksAt u.1 B (2 * r) = a.block.map salsa20SimdUnshuffle ∧ shows u.1 u.2 a.rest := by
  obtain ⟨slot, rfl⟩ : ∃ slot, N = slot + 2 := ⟨N - 2, by omega⟩
  rw [Nat.add_sub_cancel] at h
  have hlen : (M.fill slot a₀).table.length = slot := by
    rw [M.length_fill, empty, List.length_nil, Nat.zero_add]
  have hlen' : (M.fillStep (M.fill slot a₀)).table.length = slot + 1 := by
    rw [M.length_fillStep, hlen]
  have inside : ∀ j ≤ slot + 1, V + 64 * (2 * r) * j + 64 * (2 * r) ≤
      V + 64 * (2 * r) * (slot + 2) := by
    intro j hj
    rw [Nat.add_assoc]
    exact Nat.add_le_add_left (slot_le (Nat.lt_succ_of_le hj)) V
  have clearOut : clear XY (2 * r) := refines.clear_sub place.clearXY (Nat.le_refl _) (by omega)
  -- slot `N - 2`
  have hnext := FillShows.next refines place h (by omega) (by omega)
    ((s.2.j &&& (2 ^ k - 1)) + (slot + 2 - 2 - 2 ^ k))
    (by rw [h.j, wrap_mask _ (show 2 ^ k ≤ _ by omega) (by omega), hlen, Nat.add_sub_cancel]) s.2.Y
  have hX : s.2.X = V + 64 * (2 * r) * slot := by rw [h.X, hlen]
  unfold smix1EndWith
  dsimp only
  rw [hX, show V + 64 * (2 * r) * slot + 64 * (2 * r) = V + 64 * (2 * r) * (slot + 1) by
    rw [Nat.mul_succ, Nat.add_assoc]]
  rw [hlen] at hnext
  generalize K.mixXor (V + 64 * (2 * r) * slot) _ _ r (s.1, s.2.ctx) = t at hnext
  -- slot `N - 1`
  have hj : t.2.2.toNat = blkIndex (M.fillStep (M.fill slot a₀)).block := hnext.j
  obtain ⟨hslots, hout, -, hrest⟩ := hnext.step refines place (by omega) (by omega)
    ((t.2.2.toNat &&& (2 ^ k - 1)) + (slot + 2 - 1 - 2 ^ k))
    (by
      rw [hj, wrap_mask _ (show 2 ^ k ≤ _ by omega) (by omega), hlen']
      rfl)
    clearOut (fun j hj => by
      have := inside j (by omega)
      have := place.apartVXY
      omega)
  rw [hlen'] at hslots hout hrest
  dsimp only at hslots hout hrest
  generalize K.mixXor (V + 64 * (2 * r) * (slot + 1)) _ XY r (t.1, t.2.1) = u at hslots hout hrest
  -- the block, unshuffled
  have apartB := place.apartVB
  have apartXY := place.apartVXY
  have apartBXY := place.apartBXY
  obtain ⟨hmoved, hkept⟩ := @blksAt_moveBlks salsa20SimdUnshuffle XY (XY + 64 * (2 * r)) B (2 * r)
    u.1 (by omega) (by omega) (by omega)
  simp only [unshuffleOut_eq]
  refine ⟨fun j hj => ?_, by rw [hmoved, hout]; rfl, refines.keep hrest fun q hq => hkept q ?_ ?_⟩
  · have hin := inside j (by omega)
    refine Eq.trans ?_ (hslots j (by omega))
    exact blksAt_congr fun i hi =>
      loadBlk_congr fun l => hkept _ (by have := l.isLt; omega) (by have := l.isLt; omega)
  · exact hq _ 1 (refines.clear_sub place.clearXY (Nat.le_add_right _ _) (by omega))
  · exact hq B (2 * r) place.clearB

/-- The SMix in memory fills the table of `M`. -/
theorem smix1With_refines (refines : FillRefines M K shows free clear r)
    (place : FillPlace clear r N B V XY) {m : Region M128} {c : κ} {t : σ} (h : shows m c t) :
    let a := M.fill N (fillStart M r (blksAt m B 2) t)
    let u := smix1With K B r N V XY (m, c)
    (∀ j < N, blksAt u.1 (V + 64 * (2 * r) * j) (2 * r) = a.table.getD j []) ∧
      blksAt u.1 B (2 * r) = a.block.map salsa20SimdUnshuffle ∧ shows u.1 u.2 a.rest := by
  have hN := place.slots
  have start : Filled M shows r V (fillStart M r (blksAt m B 2) t) 2
      (smix1StartWith K B r V (m, c)) := FillShows.start (s := (m, c)) refines place h
  obtain ⟨k, hexit, hlow, hhigh, hfilled⟩ := start.loop refines place rfl
  have hpow : 2 ≤ 2 ^ k := by
    rw [Nat.pow_succ] at hhigh
    omega
  have hhalf : 2 ^ (k + 1) / 2 = 2 ^ k := by
    rw [Nat.pow_succ]
    exact Nat.mul_div_cancel _ (Nat.succ_pos 1)
  rw [smix1With, hexit, hhalf]
  exact hfilled.finish refines place rfl hlow hhigh hpow

end Fill

end SojCivicLight.Yespower
