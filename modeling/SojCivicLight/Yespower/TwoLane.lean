import SojCivicLight.Yespower.Hash

/-! The two-lane hash and the scalar hash agree, whatever their regions held before. -/

namespace SojCivicLight.Yespower

open SojCivicLight.Library

section Bytes

variable {known : Set Nat} {m m' : Region M128} {p count : Nat}

theorem agree_storeBytes (hmem : Agree known m m') (aligned : p % 16 = 0) (count : Nat)
    (bytes : List UInt8) :
    Agree (known ∪ Set.Ico p (p + 16 * count)) (storeBytes m p count bytes)
      (storeBytes m' p count bytes) := by
  refine forUp_rel_unit (Nat.zero_le count)
    (fun i m m' => Agree (known ∪ Set.Ico p (p + 16 * i)) m m') ?_ ?_
  · exact hmem.mono (by simp)
  · intro i m m' _ _ h
    exact (h.store (by omega) _).mono union_Ico_extend

theorem agree_loadBytes (hmem : Agree known m m')
    (hp : Set.Ico p (p + 16 * count) ⊆ known) :
    loadBytes m p count = loadBytes m' p count := by
  unfold loadBytes
  apply List.flatMap_congr
  intro i hi
  have := List.mem_range.mp hi
  rw [hmem _ (hp ⟨by omega, by omega⟩)]

/-- After `seedB` the block's first 128 bytes and the key read from them no longer depend
on what the memory held. -/
theorem agree_seedB (prim : Primitives) (passwd salt : List UInt8) {B : Nat}
    (aligned : B % 16 = 0) (m m' : Region M128) :
    Agree (Set.Ico B (B + 128)) (seedB prim passwd salt B m).1
        (seedB prim passwd salt B m').1 ∧
      (seedB prim passwd salt B m).2 = (seedB prim passwd salt B m').2 := by
  have hnone : Agree ∅ m m' := fun p hp => absurd hp (Set.notMem_empty p)
  have stored := agree_storeBytes hnone aligned 8 (prim.pbkdf2Sha256 passwd salt 128)
  rw [Set.empty_union] at stored
  exact ⟨stored, agree_loadBytes stored (Set.Ico_subset_Ico (by omega) (by omega))⟩

end Bytes

theorem smixLayout {N r : Nat} (hr : 1 ≤ r) (hN : 4 ≤ N) (heven : N % 2 = 0) :
    SmixLayout (offsetS N r) r N (offsetB N r) 0 (offsetXY N r) := by
  have hB : offsetB N r = 64 * (2 * r) * N := by
    rw [offsetB, vSize, bSize, ← Nat.mul_assoc]
  have haligned : 64 * (2 * r) * N % 16 = 0 := by
    rw [Nat.mul_assoc, Nat.mul_assoc]
    omega
  have hXY : offsetXY N r = offsetB N r + 128 * r := rfl
  have hS : offsetS N r = offsetXY N r + (128 * r + 64) := rfl
  refine ⟨⟨hr, hN, heven, by omega, rfl, by omega, ?_, Or.inl (by omega)⟩, by omega, by omega⟩
  intro j hj
  have := @slot_apart 0 (64 * (2 * r)) j N hj
  exact Or.inl (by omega)

theorem initCtx_tablesOk (S : Nat) : (initCtx S).TablesOk S :=
  { perm := List.Perm.refl _
    aligned := rfl
    bound := Nat.zero_lt_succ _ }

/-- A lane of the two-lane hash and the scalar hash, from the seeded blocks of both. -/
theorem civicYespower2FixedIn_dst (prim : Primitives) {N r : Nat} (hr : 1 ≤ r) (hN : 4 ≤ N)
    (heven : N % 2 = 0) (regions : Fin 2 → Local) (sha256 : Fin 2 → List UInt8)
    (lane : Fin 2) (region : Local) (src : List UInt8)
    (hseed : Agree (Set.Ico (offsetB N r) (offsetB N r + 128)) (regions lane).aligned
      (seedB prim (prim.sha256Buf src) [] (offsetB N r) region.aligned).1)
    (hkey : sha256 lane =
      (seedB prim (prim.sha256Buf src) [] (offsetB N r) region.aligned).2) :
    (civicYespower2FixedIn prim N r regions sha256).dst lane =
      (civicYespowerIn prim region src { N, r, pers := none, perslen := 0 }).dst := by
  have hsmix := @civicSmix_1_0_2way_agree (Fin 2) _ id Function.injective_id
    (fun _ => offsetB N r) (fun _ => 0) (fun _ => offsetXY N r) r N (offsetS N r)
    { heap := fun lane => (regions lane).aligned, st := fun _ => initCtx (offsetS N r) }
    lane _ (smixLayout hr hN heven) rfl rfl (initCtx_tablesOk _) hseed
  have hsize : bSize r = 128 * r := rfl
  have hbytes := @agree_loadBytes _ _ _ (offsetB N r + bSize r - 64) 4 hsmix
    (Set.Ico_subset_Ico (by omega) (by omega))
  simp only [civicYespower2FixedIn, civicYespowerIn, hkey]
  simp only [id] at hbytes
  rw [hbytes]

theorem civicYespower_available (prim : Primitives) {sys : System} {region : Local}
    (src : List UInt8) {params : Params} (hvalid : params.invalid = false)
    (available : (requireRegion sys region (need params.N params.r)).1 = true) :
    civicYespower prim sys region src params =
      civicYespowerIn prim (requireRegion sys region (need params.N params.r)).2 src
        params := by
  simp only [civicYespower, hvalid, available, Bool.false_eq_true, if_false, if_true]

/-- Where the regions of both lanes are available the two-lane hash writes, for each of
its inputs, what the scalar hash writes for that input. -/
theorem civicYespower2Fixed_dst (prim : Primitives) (sys : Fin 2 → System)
    (locals : Fin 2 → Local) (src : Fin 2 → List UInt8) (sys' : System) (region : Local)
    (available : ∀ lane, (requireRegion (sys lane) (locals lane) (need 2048 8)).1 = true)
    (available' : (requireRegion sys' region (need 2048 8)).1 = true) (lane : Fin 2) :
    (civicYespower2Fixed prim sys locals src).dst lane =
      (civicYespower prim sys' region (src lane) fixedParams).dst := by
  have hvalid : fixedParams.invalid = false := by decide
  have haligned : offsetB 2048 8 % 16 = 0 :=
    (@smixLayout 2048 8 (by omega) (by omega) rfl).fill.alignedB
  rw [civicYespower_available prim (src lane) hvalid available']
  simp only [civicYespower2Fixed, available, Bool.not_true, Bool.false_eq_true, if_false]
  have hseed := fun lane m => agree_seedB prim (prim.sha256Buf (src lane)) [] haligned m
    (requireRegion sys' region (need 2048 8)).2.aligned
  refine civicYespower2FixedIn_dst prim (by omega) (by omega) rfl _ _ lane _ _ ?_ ?_
  · match lane with
    | 0 => exact (hseed 0 _).1
    | 1 => exact (hseed 1 _).1
  · match lane with
    | 0 => exact (hseed 0 _).2
    | 1 => exact (hseed 1 _).2

/-- Two lanes over new mappings of different content, beside a scalar hash in a region
left over from an earlier hash. -/
theorem civicYespower2Fixed_dst_fresh :
    let prim : Primitives :=
      { sha256Buf := fun b => b.take 32
        pbkdf2Sha256 := fun passwd salt dkLen => (passwd ++ salt).take dkLen
        hmacSha256Buf := fun K input => (K ++ input).take 32 }
    let sys : Fin 2 → System := fun lane =>
      { unmaps := true, mapping := some fun _ => ⟨lane.val.toUInt32, 0, 0, 0⟩ }
    let unmapped : Local := { alignedSize := 0, aligned := fun _ => ⟨0, 0, 0, 0⟩ }
    let stale : Local := { alignedSize := need 2048 8, aligned := fun _ => ⟨7, 7, 7, 7⟩ }
    let src : Fin 2 → List UInt8 := ![List.replicate 32 1, List.replicate 32 2]
    (civicYespower2Fixed prim sys (fun _ => unmapped) src).dst 1 =
      (civicYespower prim (sys 0) stale (List.replicate 32 2) fixedParams).dst := by
  intro prim sys unmapped stale src
  have hsize : 0 < need 2048 8 := by decide
  refine civicYespower2Fixed_dst prim sys (fun _ => unmapped) src (sys 0) stale ?_ ?_ 1
  · intro lane
    simp [requireRegion, freeRegion, allocRegion, unmapped, sys, hsize]
  · simp [requireRegion, stale]

end SojCivicLight.Yespower
