import SojCivicLight.Yespower.Simulation

/-! The paired Salsa20/2 initialiser with both lanes on one region and equal pointers.
Lane 1 then stores what lane 0 has just stored, and reads what lane 0 read, so that the
pair does what one lane alone does. -/

namespace SojCivicLight.Yespower

open SojCivicLight.Library

section Move

variable {g : Blk → Blk} {src tmp dst count : Nat}

/-- Moving blocks a second time changes nothing, when their source is out of reach. -/
theorem moveBlks_twice (hcount : 0 < count) (htmp : tmp % 16 = 0) (hdst : dst % 16 = 0)
    (src_tmp : src + 64 * count ≤ tmp ∨ tmp + 64 ≤ src)
    (src_dst : src + 64 * count ≤ dst ∨ dst + 64 * count ≤ src) (m : Region M128) :
    let loop := forUp 0 count 1 (fun i => moveBlk g (src + 64 * i) tmp (dst + 64 * i))
    loop (loop m) = loop m := by
  intro loop
  have outside : Agree (unmoved tmp dst count) (loop m) m := moveBlks_outside htmp hdst m
  -- two runs over memories that agree outside what they write
  have inside := @forUp_rel_unit _ _ 0 count (Nat.zero_le count)
    (fun i => moveBlk g (src + 64 * i) tmp (dst + 64 * i))
    (fun i => moveBlk g (src + 64 * i) tmp (dst + 64 * i)) (loop m) m
    (fun i m₁ m₂ => Agree (unmoved tmp dst count ∪ Set.Ico tmp (tmp + 64 * min i 1) ∪
      Set.Ico dst (dst + 64 * i)) m₁ m₂)
    (outside.mono (by simp))
    (fun i m₁ m₂ _ hi h => by
      have hread : Set.Ico (src + 64 * i) (src + 64 * i + 64) ⊆ unmoved tmp dst count :=
        fun p hp => by
          have := hp.1
          have := hp.2
          exact ⟨by omega, by omega⟩
      have hsrc := agree_loadBlk h
        (hread.trans (Set.subset_union_left.trans Set.subset_union_left))
      simp only [moveBlk, hsrc]
      refine (agree_storeBlk (agree_storeBlk h htmp _) (q := dst + 64 * i) (by omega) _).mono ?_
      intro p hp
      simp only [Set.mem_union, Set.mem_Ico, Set.mem_ofPred_eq] at hp ⊢
      omega)
  refine Agree.eq_of_univ (inside.mono fun p _ => ?_)
  simp only [Set.mem_union, Set.mem_Ico, Set.mem_ofPred_eq]
  omega

end Move

/-! Two lanes that share everything. -/

/-- Two lanes in one region, with the same locals. -/
def shared {σ : Type} (s : Region M128 × σ) : Lanes 2 Unit M128 σ :=
  { heap := fun _ => s.1, st := fun _ => s.2 }

/-- Both halves of every register hold the same block. -/
abbrev twin (X : Blk) : Fin 4 → M256 := packBlks fun _ => X

theorem storeBlks_shared (m : Region M128) (p : Nat) (b : Blk) :
    Heap.storeBlks (fun _ => ()) (fun _ => m) (fun _ => p) (fun _ => b) =
      fun _ => storeBlk m p b := by
  funext _
  simp only [Heap.storeBlks, Function.update_self, storeBlk_storeBlk]

theorem eachLane_shared (f : Region M128 → Region M128) (m : Region M128)
    (twice : f (f m) = f m) :
    eachLane (fun _ => ()) (fun _ => f) (fun _ => m) = fun _ => f m := by
  funext _
  simp only [eachLane, Function.update_self, twice]

theorem civicSalsa2Rounds_twin (X : Blk) : civicSalsa2Rounds (twin X) = twin (salsa20Two X) := by
  have hhalves := halves_civicSalsa2Rounds (twin X)
  simp only [halves_packBlks] at hhalves
  funext k
  exact M256.ext (congrFun (hhalves 0) k) (congrFun (hhalves 1) k)

theorem civicSalsa2_2way_shared (X : Blk) (out : Nat) (m : Region M128) :
    civicSalsa2_2way (fun _ => ()) (twin X) (fun _ => out) (fun _ => m) =
      (fun _ => storeBlk m out (salsa20Two X), twin (salsa20Two X)) := by
  have hstored : (fun (l : Fin 2) (k : Fin 4) => (twin (salsa20Two X) k).half l) =
      fun _ => salsa20Two X :=
    funext fun l => halves_packBlks (fun _ => salsa20Two X) l
  simp only [civicSalsa2_2way, civicSalsa2Rounds_twin, hstored, storeBlks_shared]

theorem civicSalsaXorPair_twin (X Y : Blk) :
    civicSalsaXorPair (twin X) (fun _ => Y) = twin (xorBlk X Y) :=
  rfl

theorem laneBlks_shared (m : Region M128) (p : Nat) :
    laneBlks (fun _ => ()) (fun _ => m) (fun _ => p) = fun _ => loadBlk m p :=
  rfl

theorem civicBlockmixSalsa2way_shared (Bin Bout : Nat) (m : Region M128) :
    civicBlockmixSalsa2way (fun _ => ()) (fun _ => Bin) (fun _ => Bout) (fun _ => m) =
      fun _ => blockmixSalsa m Bin Bout := by
  simp only [civicBlockmixSalsa2way, blockmixSalsa, laneBlks_shared, civicSalsaXorPair_twin,
    civicSalsa2_2way_shared]

theorem civicBlockmixSalsaXor2way_shared (Bin1 Bin2 Bout : Nat) (m : Region M128) :
    civicBlockmixSalsaXor2way (fun _ => ()) (fun _ => Bin1) (fun _ => Bin2) (fun _ => Bout)
        (fun _ => m) =
      (fun _ => (blockmixSalsaXor m Bin1 Bin2 Bout).1,
        fun _ => (blockmixSalsaXor m Bin1 Bin2 Bout).2) := by
  simp only [civicBlockmixSalsaXor2way, blockmixSalsaXor, civicSalsaXorPair_twin,
    civicSalsa2_2way_shared, M128.d0_toUInt32, load_storeBlk_self, xorBlk_assoc, Nat.add_zero]

/-! The initialiser, phase by phase. -/

theorem civicSmix1Salsa2wayRound_shared (V : Nat) {n i : Nat} (hi : 1 ≤ i)
    (s : Region M128 × Smix1Vars Unit) :
    civicSmix1Salsa2wayRound (fun _ => ()) (fun _ => V) n i (shared s) =
      shared (smix1RoundWith salsaKernels 1 V n i s) := by
  have hindex : ∀ j, (j &&& (n - 1)) + i - 1 = (j &&& (n - 1)) + (i - 1) := by omega
  simp only [civicSmix1Salsa2wayRound, smix1RoundWith, salsaKernels, shared, hindex,
    civicBlockmixSalsaXor2way_shared]

theorem civicSmix1Salsa2wayFill_shared (V n : Nat) (s : Region M128 × Smix1Vars Unit) :
    forUp 1 (if n < 768 / 2 then n else 768 - 1 - n) 2
        (civicSmix1Salsa2wayRound (fun _ => ()) (fun _ => V) n) (shared s) =
      shared (smix1FillWith salsaKernels 1 768 V n s) :=
  forUp_rel (fun _ P s => P = shared s) rfl (fun k P s _ h => by
    rw [h]
    exact civicSmix1Salsa2wayRound_shared V (by omega) s)

/-- Where the initialiser works when its lanes share a region: the block at `B` is out of
reach of the first slots at `V` and of the scratch at `XY`. -/
structure SharedLayout (B V XY : Nat) : Prop where
  alignedB : B % 16 = 0
  alignedV : V % 16 = 0
  alignedXY : XY % 16 = 0
  input : B + 128 ≤ V ∨ V + 192 ≤ B
  output : B + 128 ≤ XY ∨ XY + 192 ≤ B

variable {B V XY : Nat}

theorem civicSmix1Salsa2wayStart_shared (layout : SharedLayout B V XY) (m : Region M128) :
    civicSmix1Salsa2wayStart (fun _ => ()) (fun _ => B) (fun _ => V) (fun _ => m) =
      shared (smix1StartWith salsaKernels B 1 V (m, ())) := by
  have hV := layout.alignedV
  have hinput := layout.input
  have htwice := @moveBlks_twice salsa20SimdShuffle B (V + 128) V 2 (by omega) (by omega) hV
    (by omega) (by omega) m
  simp only [civicSmix1Salsa2wayStart, smix1StartWith, salsaKernels, shared, shuffleIn_eq,
    forUp_of_le (Nat.le_refl 1), eachLane_shared _ m htwice, civicBlockmixSalsa2way_shared]

theorem civicSmix1Salsa2wayEnd_shared (layout : SharedLayout B V XY) {n : Nat}
    (hn : n + 2 ≤ 768) (s : Region M128 × Smix1Vars Unit) :
    civicSmix1Salsa2wayEnd (fun _ => ()) (fun _ => B) (fun _ => V) (fun _ => XY) 768 n
        (shared s) =
      fun _ => (smix1EndWith salsaKernels B 1 768 V XY n s).1 := by
  have hindex2 : ∀ j, (j &&& (n - 1)) + 768 - 2 - n = (j &&& (n - 1)) + (768 - 2 - n) := by
    omega
  have hindex1 : ∀ j, (j &&& (n - 1)) + 768 - 1 - n = (j &&& (n - 1)) + (768 - 1 - n) := by
    omega
  have hXY := layout.alignedXY
  have houtput := layout.output
  have htwice := fun m => @moveBlks_twice salsa20SimdUnshuffle XY (XY + 128) B 2 (by omega)
    (by omega) layout.alignedB (by omega) (by omega) m
  simp only [civicSmix1Salsa2wayEnd, smix1EndWith, salsaKernels, shared, hindex1, hindex2,
    unshuffleOut_eq, civicBlockmixSalsaXor2way_shared, eachLane_shared _ _ (htwice _)]

/-- With both lanes on the same block, slots and scratch, `civic_smix1_salsa_2way` leaves
what `smix1` over one table of 768 slots leaves. -/
theorem civicSmix1Salsa2way_shared (layout : SharedLayout B V XY) (m : Region M128) :
    civicSmix1Salsa2way (fun _ => ()) (fun _ => B) (fun _ => V) (fun _ => XY) (fun _ => m) =
      fun _ => (smix1With salsaKernels B 1 768 V XY (m, ())).1 := by
  obtain ⟨hexit', hfill⟩ := @forDoubling_rel _ _ 768
    (fun n P => forUp 1 (if n < 768 / 2 then n else 768 - 1 - n) 2
      (civicSmix1Salsa2wayRound (fun _ => ()) (fun _ => V) n) P)
    (smix1FillWith salsaKernels 1 768 V) (fun _ P s => P = shared s)
    (fun n P s _ _ h => by rw [h, civicSmix1Salsa2wayFill_shared]) 2 _ _
    (civicSmix1Salsa2wayStart_shared layout m)
  obtain ⟨n, hexit, _, _, hroom, _⟩ := @fill_exit _ 768 (by omega) rfl
    (smix1FillWith salsaKernels 1 768 V) (smix1StartWith salsaKernels B 1 V (m, ()))
  have hhalf : n * 2 / 2 = n := by omega
  simp only [civicSmix1Salsa2way, smix1With, hexit', hexit, hhalf]
  rw [hfill, civicSmix1Salsa2wayEnd_shared layout hroom]

end SojCivicLight.Yespower
