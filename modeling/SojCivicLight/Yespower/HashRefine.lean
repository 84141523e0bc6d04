import SojCivicLight.Yespower.Platform
import SojCivicLight.Yespower.SmixRefine
import SojCivicLight.Yespower.TwoLane
import SojCivicLight.Yespower.YpPbkdf2

/-! The yespower hash of the code is yespower, whatever its region held before. -/

namespace SojCivicLight.Yespower

open SojCivicLight.Library
open SojCivicLight.CivicLight

/-! Bytes in registers. -/

section Bytes

theorem wordBytes_bytesWord (a b c d : UInt8) :
    wordBytes (bytesWord [a, b, c, d]) = [a, b, c, d] := by
  have byte : ∀ {x y : UInt8}, (∀ i, i < 8 → x.toBitVec.getLsbD i = y.toBitVec.getLsbD i) →
      x = y := fun h => UInt8.toBitVec_inj.mp (BitVec.eq_of_getLsbD_eq h)
  have high : ∀ (x : UInt8) {n}, 8 ≤ n → x.toBitVec.getLsbD n = false :=
    fun x n hn => BitVec.getLsbD_of_ge _ _ hn
  simp only [wordBytes, bytesWord, List.getD_cons_zero, List.getD_cons_succ, List.cons.injEq,
    and_true]
  refine ⟨byte fun i hi => ?_, byte fun i hi => ?_, byte fun i hi => ?_, byte fun i hi => ?_⟩
  · simp [hi]
  · simp [show 8 + i < 16 by omega, show 8 + i < 24 by omega, show 8 + i < 32 by omega,
      show ¬8 + i < 8 by omega, hi]
  · simp [show 16 + i < 24 by omega, show 16 + i < 32 by omega, show ¬16 + i < 8 by omega,
      show ¬16 + i < 16 by omega, hi, high a (show 8 ≤ 16 + i by omega),
      high b (show 8 ≤ 16 + i - 8 by omega)]
  · simp [show 24 + i < 32 by omega, show ¬24 + i < 8 by omega, show ¬24 + i < 16 by omega,
      show ¬24 + i < 24 by omega, hi, high a (show 8 ≤ 24 + i by omega),
      high b (show 8 ≤ 24 + i - 8 by omega), high c (show 8 ≤ 24 + i - 16 by omega)]

theorem wordBytes_take {b : List UInt8} (hb : 4 ≤ b.length) :
    wordBytes (bytesWord b) = b.take 4 := by
  obtain ⟨w, x, y, z, rest, rfl⟩ : ∃ w x y z rest, b = w :: x :: y :: z :: rest := by
    rcases b with _ | ⟨w, _ | ⟨x, _ | ⟨y, _ | ⟨z, rest⟩⟩⟩⟩
    · simp at hb
    · simp at hb
    · simp at hb
    · simp at hb
    · exact ⟨w, x, y, z, rest, rfl⟩
  exact wordBytes_bytesWord w x y z

theorem M128.bytes_ofBytes {b : List UInt8} (hb : 16 ≤ b.length) :
    (M128.ofBytes b).bytes = b.take 16 := by
  have word : ∀ k, k ≤ 12 → wordBytes (bytesWord (b.drop k)) = (b.drop k).take 4 := fun k hk =>
    wordBytes_take (by rw [List.length_drop]; omega)
  have first := word 0 (by omega)
  rw [List.drop_zero] at first
  simp only [M128.bytes, M128.ofBytes]
  rw [first, word 4 (by omega), word 8 (by omega), word 12 (by omega),
    show 16 = 4 + 4 + 4 + 4 from rfl, List.take_add, List.take_add, List.take_add]

variable {m : Region M128} {p count : Nat} {bytes : List UInt8}

theorem load_storeBytes (m : Region M128) (p count : Nat) (bytes : List UInt8) {i : Nat}
    (hi : i < count) :
    load (storeBytes m p count bytes) (p + 16 * i) = M128.ofBytes (bytes.drop (16 * i)) := by
  have loop := @forUp_inv_unit _ 0 count (Nat.zero_le _)
    (fun i m => store m (p + 16 * i) (M128.ofBytes (bytes.drop (16 * i)))) m
    (fun n m => ∀ i < n, load m (p + 16 * i) = M128.ofBytes (bytes.drop (16 * i)))
    (fun i hi => absurd hi (Nat.not_lt_zero i)) ?_
  · exact loop i hi
  · intro n m _ _ h i hi
    rcases Nat.lt_or_eq_of_le (Nat.le_of_lt_succ hi) with hlt | rfl
    · rw [load_store_apart (by unfold Apart; omega), h i hlt]
    · rw [load_store_self]

theorem loadBytes_storeBytes (m : Region M128) (p : Nat) (hbytes : bytes.length = 128) :
    loadBytes (storeBytes m p 8 bytes) p 2 = bytes.take 32 := by
  have register : ∀ i < 8, (load (storeBytes m p 8 bytes) (p + 16 * i)).bytes =
      (bytes.drop (16 * i)).take 16 := fun i hi => by
    rw [load_storeBytes m p 8 bytes hi, M128.bytes_ofBytes (by rw [List.length_drop]; omega)]
  change (load (storeBytes m p 8 bytes) (p + 16 * 0)).bytes ++
    ((load (storeBytes m p 8 bytes) (p + 16 * 1)).bytes ++ []) = _
  rw [register 0 (by omega), register 1 (by omega), List.append_nil, show 32 = 16 + 16 from rfl,
    List.take_add]
  rfl

theorem blksAt_storeBytes (m : Region M128) (p : Nat) (bytes : List UInt8) :
    blksAt (storeBytes m p 8 bytes) p 2 = [Blk.ofBytes bytes, Blk.ofBytes (bytes.drop 64)] := by
  have register : ∀ q, q < 2 → loadBlk (storeBytes m p 8 bytes) (p + 64 * q) =
      Blk.ofBytes (bytes.drop (64 * q)) := by
    intro q hq
    funext k
    have hk := k.isLt
    rw [Blk.ofBytes, List.drop_drop, show 64 * q + 16 * k.val = 16 * (4 * q + k.val) by omega,
      ← load_storeBytes m p 8 bytes (by omega)]
    change load _ (p + 64 * q + 16 * k.val) = _
    congr 1
    omega
  rw [blksAt_two]
  congr 1
  · exact register 0 (by omega)
  · exact congrArg (fun b => [b]) (register 1 (by omega))

theorem loadBytes_loadBlk (m : Region M128) (p : Nat) : loadBytes m p 4 = (loadBlk m p).bytes := by
  change (load m p).bytes ++ ((load m (p + 16)).bytes ++ ((load m (p + 32)).bytes ++
    ((load m (p + 48)).bytes ++ []))) =
      (load m p).bytes ++ (load m (p + 16)).bytes ++ (load m (p + 32)).bytes ++
        (load m (p + 48)).bytes
  rw [List.append_nil, List.append_assoc, List.append_assoc]

end Bytes

theorem fillPlace {N r : Nat} (hr : 1 ≤ r) (hN : 4 ≤ N) (heven : N % 2 = 0) :
    FillPlace (ClearOf (offsetS N r)) r N (offsetB N r) 0 (offsetXY N r) := by
  have hB : offsetB N r = 64 * (2 * r) * N := by
    rw [offsetB, vSize, bSize, ← Nat.mul_assoc]
  have hmul : 64 * (2 * r * N) = 64 * (2 * r) * N := (Nat.mul_assoc 64 (2 * r) N).symm
  have hXY : offsetXY N r = offsetB N r + 128 * r := rfl
  have hS : offsetS N r = offsetXY N r + (128 * r + 64) := rfl
  refine ⟨hr, hN, heven, Or.inl ?_, Or.inl ?_, Or.inl ?_, Or.inl ?_, Or.inl ?_, Or.inl ?_⟩
  · omega
  · omega
  · omega
  · omega
  · omega
  · omega

theorem lastBlk_map {g : Blk → Blk} {bs : List Blk} (hbs : 0 < bs.length) :
    lastBlk (bs.map g) = g (lastBlk bs) := by
  rw [lastBlk, lastBlk, List.length_map, List.getD_eq_getElem _ _ (by rw [List.length_map]; omega),
    List.getD_eq_getElem _ _ (by omega), List.getElem_map]

/-- `civic_yespower` in its region. -/
theorem civicYespowerIn_refines (prim : Primitives)
    (hseed : ∀ passwd salt, (prim.pbkdf2Sha256 passwd salt 128).length = 128) (region : Local)
    (src : List UInt8) (params : Params) (hr : 1 ≤ params.r) {k : Nat} (hpow : params.N = 2 ^ k)
    (hN : 4 ≤ params.N) :
    (civicYespowerIn prim region src params).dst =
      yespower prim params.N params.r ((params.pers.getD []).take params.perslen) src := by
  obtain ⟨N, r, pers, perslen⟩ := params
  dsimp only at hr hpow hN ⊢
  have heven : N % 2 = 0 := by
    obtain ⟨k, rfl⟩ : ∃ l, k = l + 1 := by
      cases k with
      | zero => omega
      | succ k => exact ⟨k, rfl⟩
    rw [hpow, Nat.pow_succ, Nat.mul_mod_left]
  have hdst : (civicYespowerIn prim region src ⟨N, r, pers, perslen⟩).dst =
      let seeded := seedB prim (prim.sha256Buf src) ((pers.getD []).take perslen) (offsetB N r)
        region.aligned
      let m := (smix seeded.1 (offsetB N r) r N 0 (offsetXY N r) (initCtx (offsetS N r))).1
      prim.hmacSha256Buf (loadBytes m (offsetB N r + bSize r - 64) 4) seeded.2 := by
    cases pers with
    | none => simp only [civicYespowerIn, Option.getD_none, List.take_nil]
    | some pers => rfl
  have hB := hseed (prim.sha256Buf src) ((pers.getD []).take perslen)
  have hsmix := smix_refines (fillPlace hr hN heven) hpow
    (storeBytes region.aligned (offsetB N r) 8
      (prim.pbkdf2Sha256 (prim.sha256Buf src) ((pers.getD []).take perslen) 128))
  rw [blksAt_storeBytes, List.map_cons, List.map_cons, List.map_nil] at hsmix
  rw [hdst]
  unfold yespower seedB
  dsimp only
  rw [loadBytes_storeBytes _ _ hB, loadBytes_loadBlk]
  generalize smix _ (offsetB N r) r N 0 (offsetXY N r) (initCtx (offsetS N r)) = u at hsmix ⊢
  generalize smixBlks r N _ = blks at hsmix ⊢
  -- the last block
  have hlen : blks.length = 2 * r := by
    rw [← @List.length_map _ _ blks salsa20SimdUnshuffle, ← hsmix, length_blksAt]
  have hlast := @lastBlk_blksAt u.1 (offsetB N r) (2 * r) (by omega)
  rw [hsmix, lastBlk_map (by omega)] at hlast
  rw [show offsetB N r + bSize r - 64 = offsetB N r + 64 * (2 * r - 1) by unfold bSize; omega,
    ← hlast]

theorem Params.valid {params : Params} (hvalid : params.invalid = false) :
    (∃ k, params.N = 2 ^ k) ∧ 4 ≤ params.N ∧ 1 ≤ params.r := by
  simp only [Params.invalid, Bool.or_eq_false_iff, decide_eq_false_iff_not, bne_eq_false_iff_eq]
    at hvalid
  obtain ⟨⟨⟨⟨⟨hlow, -⟩, hr⟩, -⟩, hpow⟩, -⟩ := hvalid
  exact ⟨(Nat.and_sub_one_eq_zero_iff_isPowerOfTwo (by omega)).mp hpow, by omega, by omega⟩

/-- What a call writes and returns: yespower where its parameters are valid and its region can be
had. -/
def yespowerOutcome (prim : Primitives) (params : Params) (available : Bool) (src : List UInt8) :
    List UInt8 × Int :=
  if params.invalid = false ∧ available = true then
    (yespower prim params.N params.r ((params.pers.getD []).take params.perslen) src, 0)
  else (List.replicate 32 0xff, -1)

/-- Every call, whatever its region held before. -/
theorem civicYespower_refines (prim : Primitives)
    (hseed : ∀ passwd salt, (prim.pbkdf2Sha256 passwd salt 128).length = 128) (sys : System)
    (region : Local) (src : List UInt8) (params : Params) :
    let u := civicYespower prim sys region src params
    (u.dst, u.rc) = yespowerOutcome prim params
      (requireRegion sys region (need params.N params.r)).1 src := by
  intro u
  rcases hvalid : params.invalid with _ | _
  · rcases havailable : (requireRegion sys region (need params.N params.r)).1 with _ | _
    · have hu : u = hashFailed (requireRegion sys region (need params.N params.r)).2 := by
        simp only [u, civicYespower, hvalid, havailable, Bool.false_eq_true, if_false]
      rw [hu, yespowerOutcome, if_neg fun h => Bool.noConfusion h.2]
      rfl
    · obtain ⟨⟨k, hpow⟩, hN, hr⟩ := params.valid hvalid
      have hu : u = civicYespowerIn prim (requireRegion sys region (need params.N params.r)).2 src
          params := civicYespower_available prim src hvalid havailable
      rw [hu, yespowerOutcome, if_pos ⟨hvalid, rfl⟩, civicYespowerIn_refines prim hseed _ src params
        hr hpow hN]
      rfl
  · have hu : u = hashFailed region := by
      simp only [u, civicYespower, hvalid, if_true]
    rw [hu, yespowerOutcome, if_neg fun h => Bool.noConfusion (hvalid.symm.trans h.1)]
    rfl

/-! The primitives of the code, and those of the standards. -/

/-- `stack` is what the contexts held, `W` what the scratch of the transform did. -/
def ypPrimitives (W : Nat → UInt32) (stack : HmacSha256Ctx) : Primitives where
  sha256Buf := ypSha256Buf (sha256Transform W) stack.ictx
  pbkdf2Sha256 := fun passwd salt dkLen =>
    (ypPbkdf2Sha256 (sha256Transform W) stack passwd salt 1 dkLen).getD []
  hmacSha256Buf := ypHmacSha256Buf (sha256Transform W) stack

def fipsPrimitives : Primitives where
  sha256Buf := fipsDigest fipsTransform
  pbkdf2Sha256 := fun passwd salt dkLen =>
    pbkdf2 (hmac (fipsDigest fipsTransform) 64 passwd) salt 32 1 dkLen
  hmacSha256Buf := hmac (fipsDigest fipsTransform) 64

theorem length_ypSeed (W : Nat → UInt32) (stack : HmacSha256Ctx) (passwd salt : List UInt8) :
    ((ypPrimitives W stack).pbkdf2Sha256 passwd salt 128).length = 128 := by
  have hlen : ∀ text, (hmac (shaDigest (sha256Transform W)) 64 passwd text).length = 32 :=
    fun _ => rfl
  change ((ypPbkdf2Sha256 (sha256Transform W) stack passwd salt 1 128).getD []).length = 128
  rw [ypPbkdf2Sha256_eq _ _ _ _ _ (by decide), Option.getD_some, pbkdf2, List.length_take,
    length_flatMap_pieces fun i => length_pbkdf2Block hlen salt (by decide) (i + 1)]
  rfl

/-- The primitives of the code give the yespower of the standards'. -/
theorem yespower_ypPrimitives (W : Nat → UInt32) (stack : HmacSha256Ctx) (N r : Nat)
    {pers src : List UInt8} (hpers : pers.length + 68 < 2 ^ 61) (hsrc : src.length < 2 ^ 61) :
    yespower (ypPrimitives W stack) N r pers src = yespower fipsPrimitives N r pers src := by
  have hash : (ypPrimitives W stack).sha256Buf src = fipsDigest fipsTransform src := by
    change ypSha256Buf (sha256Transform W) stack.ictx src = _
    rw [ypSha256Buf_eq, sha256Transform_eq, shaDigest_eq _ hsrc]
  have seed : (ypPrimitives W stack).pbkdf2Sha256 (fipsDigest fipsTransform src) pers 128 =
      fipsPrimitives.pbkdf2Sha256 (fipsDigest fipsTransform src) pers 128 := by
    change (ypPbkdf2Sha256 (sha256Transform W) stack _ pers 1 128).getD [] = _
    have hkey : (fipsDigest fipsTransform src).length < 2 ^ 61 := by
      rw [show (fipsDigest fipsTransform src).length = 32 from rfl]
      decide
    rw [ypPbkdf2Sha256_eq _ _ _ _ _ (by decide), sha256Transform_eq,
      pbkdf2_shaDigest_eq _ hkey hpers]
    rfl
  have last : ∀ b : Blk, ∀ key : List UInt8,
      (ypPrimitives W stack).hmacSha256Buf b.bytes (key.take 32) =
        fipsPrimitives.hmacSha256Buf b.bytes (key.take 32) := by
    intro b key
    have hkey : (key.take 32).length ≤ 32 := by
      rw [List.length_take]
      omega
    change ypHmacSha256Buf (sha256Transform W) stack b.bytes (key.take 32) = _
    rw [ypHmacSha256Buf_eq, sha256Transform_eq, hmac_shaDigest_eq _ (show b.bytes.length < 2 ^ 61 by
      rw [show b.bytes.length = 64 from rfl]; decide) (by omega)]
    rfl
  unfold yespower
  dsimp only
  rw [hash, seed, last]
  rfl

theorem yespowerOutcome_ypPrimitives (W : Nat → UInt32) (stack : HmacSha256Ctx) {params : Params}
    (available : Bool) {src : List UInt8} (hpers : params.perslen + 68 < 2 ^ 61)
    (hsrc : src.length < 2 ^ 61) :
    yespowerOutcome (ypPrimitives W stack) params available src =
      yespowerOutcome fipsPrimitives params available src := by
  have hsalt : ((params.pers.getD []).take params.perslen).length + 68 < 2 ^ 61 := by
    rw [List.length_take]
    omega
  rw [yespowerOutcome, yespowerOutcome, yespower_ypPrimitives W stack _ _ hsalt hsrc]

/-- The hash of the code, with the primitives of the code, is yespower over SHA-256, HMAC and
PBKDF2 as they are published. -/
theorem civicYespower_fips (W : Nat → UInt32) (stack : HmacSha256Ctx) (sys : System)
    (region : Local) {src : List UInt8} {params : Params} (hpers : params.perslen + 68 < 2 ^ 61)
    (hsrc : src.length < 2 ^ 61) :
    let u := civicYespower (ypPrimitives W stack) sys region src params
    (u.dst, u.rc) = yespowerOutcome fipsPrimitives params
      (requireRegion sys region (need params.N params.r)).1 src := by
  rw [← yespowerOutcome_ypPrimitives W stack _ hpers hsrc]
  exact civicYespower_refines _ (length_ypSeed W stack) sys region src params

theorem civicYespower_fips_pers :
    let stack : HmacSha256Ctx := ⟨⟨fun _ => 7, 5, fun _ => 0xff⟩, ⟨fun _ => 7, 5, fun _ => 0xff⟩⟩
    let sys : System := { unmaps := true, mapping := some fun _ => ⟨3, 0, 0, 9⟩ }
    let region : Local := { alignedSize := 64, aligned := fun _ => ⟨0, 0, 0, 0⟩ }
    let params : Params := { N := 1024, r := 32, pers := some [0x70, 0x71], perslen := 2 }
    let u := civicYespower (ypPrimitives (fun _ => 0xcc) stack) sys region (List.replicate 80 1)
      params
    (u.dst, u.rc) = yespowerOutcome fipsPrimitives params
      (requireRegion sys region (need 1024 32)).1 (List.replicate 80 1) := by
  intro stack sys region params
  exact civicYespower_fips (fun _ => 0xcc) stack sys region (by decide)
    (by rw [List.length_replicate]; decide)

/-! Two lanes, and the calls of one thread. -/

/-- `civic_yespower2_tls`: the pair has its own path where the build has AVX2, for the parameters
and the length the path is made for. -/
def civicYespower2Tls (avx2 : Bool) (prim : Primitives) (sys : Fin 2 → System)
    (locals : Fin 2 → Local) (src : Fin 2 → List UInt8) (params : Params) : PairResult :=
  if avx2 ∧ (src 0).length = 32 ∧ params.N = 2048 ∧ params.r = 8 ∧ params.pers = none ∧
      params.perslen = 0 then
    civicYespower2Fixed prim sys locals src
  else
    let h0 := civicYespower prim (sys 0) (locals 0) (src 0) params
    let h1 := civicYespower prim (sys 1) (locals 1) (src 1) params
    -- `rc0 | rc1`
    { dst := ![h0.dst, h1.dst]
      rc := if h0.rc = 0 ∧ h1.rc = 0 then 0 else -1
      regions := ![h0.region, h1.region] }

section Pair

variable {prim : Primitives} {sys : Fin 2 → System} {locals : Fin 2 → Local}
  {src : Fin 2 → List UInt8}

/-- The pair path, from regions of which nothing but the size matters. -/
theorem civicYespower2Fixed_refines
    (hseed : ∀ passwd salt, (prim.pbkdf2Sha256 passwd salt 128).length = 128)
    (available : ∀ lane, (requireRegion (sys lane) (locals lane) (need 2048 8)).1 = true) :
    (civicYespower2Fixed prim sys locals src).rc = 0 ∧ ∀ lane,
      (civicYespower2Fixed prim sys locals src).dst lane = yespower prim 2048 8 [] (src lane) := by
  have haligned : offsetB 2048 8 % 16 = 0 :=
    (@smixLayout 2048 8 (by omega) (by omega) rfl).fill.alignedB
  have hseeded := fun lane => agree_seedB prim (prim.sha256Buf (src lane)) [] haligned
    (requireRegion (sys lane) (locals lane) (need 2048 8)).2.aligned (locals 0).aligned
  have scalar : ∀ lane, (civicYespowerIn prim (locals 0) (src lane)
      { N := 2048, r := 8, pers := none, perslen := 0 }).dst = yespower prim 2048 8 [] (src lane) :=
    fun lane => civicYespowerIn_refines prim hseed (locals 0) (src lane)
      { N := 2048, r := 8, pers := none, perslen := 0 } (by decide) (show 2048 = 2 ^ 11 from rfl)
      (by decide)
  simp only [civicYespower2Fixed, available, Bool.not_true, Bool.false_eq_true, if_false]
  refine ⟨rfl, fun lane => ?_⟩
  rw [← scalar lane]
  refine civicYespower2FixedIn_dst prim (by omega) (by omega) rfl _ _ lane _ _ ?_ ?_
  · revert lane
    exact Fin.forall_fin_two.mpr ⟨(hseeded 0).1, (hseeded 1).1⟩
  · revert lane
    exact Fin.forall_fin_two.mpr ⟨(hseeded 0).2, (hseeded 1).2⟩

theorem civicYespower2Tls_refines (avx2 : Bool) (src : Fin 2 → List UInt8)
    (hseed : ∀ passwd salt, (prim.pbkdf2Sha256 passwd salt 128).length = 128) {params : Params}
    (hvalid : params.invalid = false)
    (available : ∀ lane,
      (requireRegion (sys lane) (locals lane) (need params.N params.r)).1 = true) :
    (civicYespower2Tls avx2 prim sys locals src params).rc = 0 ∧ ∀ lane,
      (civicYespower2Tls avx2 prim sys locals src params).dst lane =
        yespower prim params.N params.r ((params.pers.getD []).take params.perslen)
          (src lane) := by
  unfold civicYespower2Tls
  split
  · rename_i fixed
    obtain ⟨-, -, hN, hr, hpers, hperslen⟩ := fixed
    rw [hN, hr] at available ⊢
    rw [hpers, hperslen]
    exact civicYespower2Fixed_refines hseed available
  · have lane : ∀ lane, ((civicYespower prim (sys lane) (locals lane) (src lane) params).dst,
        (civicYespower prim (sys lane) (locals lane) (src lane) params).rc) = (_, 0) :=
      fun lane => (civicYespower_refines prim hseed _ _ _ _).trans
        (if_pos ⟨hvalid, available lane⟩)
    obtain ⟨h0, hrc0⟩ := Prod.mk.inj (lane 0)
    obtain ⟨h1, hrc1⟩ := Prod.mk.inj (lane 1)
    dsimp only
    rw [if_pos ⟨hrc0, hrc1⟩]
    refine ⟨rfl, fun lane => ?_⟩
    match lane with
    | 0 => exact h0
    | 1 => exact h1

end Pair

/-! The regions as the platform has them. -/

section Regions

open Platform (MemoryCalls PlatformBuild YespowerRegion reserveRegion)

/-- A hash that asks for memory, with what the system answers it and what a new region holds. -/
structure Reservation where
  calls : MemoryCalls
  munmap : UInt64 → UInt64 → Bool
  size : UInt64
  contents : Region M128

/-- The calls keep what they promise, and the size leaves room for the slack of a huge page. -/
structure Reservation.Sound (request : Reservation) : Prop where
  calls : request.calls.Sound
  positive : request.size ≠ 0
  fits : request.size.toNat + 2097152 < 2 ^ 64

/-- The answers in the terms of the hash. -/
def Reservation.system (request : Reservation) (build : PlatformBuild) (mapped : YespowerRegion) :
    System where
  unmaps := (Platform.freeRegion build request.munmap mapped).isSome
  mapping :=
    if (Platform.allocRegion request.calls build request.size).aligned ≠ 0 then
      some request.contents
    else none

def Reservation.reserve (request : Reservation) (build : PlatformBuild) (mapped : YespowerRegion) :
    Bool × YespowerRegion :=
  reserveRegion request.calls build request.munmap mapped request.size

def Reservation.require (request : Reservation) (build : PlatformBuild) (mapped : YespowerRegion)
    (region : Local) : Bool × Local :=
  requireRegion (request.system build mapped) region request.size.toNat

/-- The region of a thread and what the hash knows of it, after some hashes; the last one comes
first. -/
def regionsAfter (build : PlatformBuild) : List Reservation → YespowerRegion × Local
  | [] => (Platform.initRegion, ⟨0, fun _ => ⟨0, 0, 0, 0⟩⟩)
  | request :: earlier =>
      let s := regionsAfter build earlier
      ((request.reserve build s.1).2, (request.require build s.1 s.2).2)

structure Represents (mapped : YespowerRegion) (region : Local) : Prop where
  size : region.alignedSize = mapped.alignedSize.toNat
  recorded : mapped.Recorded

/-- The test of the hash is that of the platform. -/
theorem Represents.require {mapped : YespowerRegion} {region : Local} (h : Represents mapped region)
    (build : PlatformBuild) {request : Reservation} (sound : request.Sound) :
    (request.require build mapped region).1 = (request.reserve build mapped).1 ∧
      Represents (request.reserve build mapped).2 (request.require build mapped region).2 := by
  obtain ⟨recorded, hsize⟩ := Platform.allocRegion_recorded sound.calls build sound.fits
    sound.positive
  have hless : region.alignedSize < request.size.toNat ↔ mapped.alignedSize < request.size := by
    rw [h.size, UInt64.lt_iff_toNat_lt]
  rw [Reservation.require, Reservation.reserve, requireRegion, reserveRegion]
  by_cases hlt : mapped.alignedSize < request.size
  · rw [if_pos hlt, if_pos (hless.mpr hlt), freeRegion, Reservation.system]
    cases hfree : Platform.freeRegion build request.munmap mapped with
    | none =>
        have hbase : mapped.base ≠ 0 := fun hzero => by simp [Platform.freeRegion, hzero] at hfree
        have hsome : region.alignedSize ≠ 0 := by
          rw [h.size, Ne, ← UInt64.toNat_zero, UInt64.toNat_inj]
          exact h.recorded.held.mp hbase
        rw [if_pos ⟨hsome, rfl⟩]
        exact ⟨rfl, h⟩
    | some freed =>
        rw [if_neg fun hfails => Bool.false_ne_true hfails.2]
        dsimp only
        rw [if_neg (not_not_intro rfl), allocRegion]
        by_cases haligned : (Platform.allocRegion request.calls build request.size).aligned = 0
        · rw [if_neg (not_not_intro haligned)]
          refine ⟨(decide_eq_false (not_not_intro haligned)).symm, ?_, recorded⟩
          rw [recorded.aligned.mp haligned]
          rfl
        · rw [if_pos haligned]
          refine ⟨(decide_eq_true haligned).symm, ?_, recorded⟩
          exact congrArg UInt64.toNat (hsize haligned).symm
  · rw [if_neg hlt, if_neg (mt hless.mp hlt)]
    exact ⟨rfl, h⟩

theorem represents_regionsAfter (build : PlatformBuild) {requests : List Reservation}
    (sound : ∀ request ∈ requests, request.Sound) :
    Represents (regionsAfter build requests).1 (regionsAfter build requests).2 := by
  induction requests with
  | nil => exact ⟨rfl, iff_of_false (not_not_intro rfl) (not_not_intro rfl), iff_of_true rfl rfl⟩
  | cons request earlier ih =>
      obtain ⟨hrequest, hearlier⟩ := List.forall_mem_cons.mp sound
      exact ((ih hearlier).require build hrequest).2

/-- Whatever hashes a thread has made before and however the system has answered, the next one goes
on in the model exactly when it does on the platform; and when no memory is held, after a failure
too, exactly when it is given some. -/
theorem requireRegion_refines (build : PlatformBuild) {requests : List Reservation}
    (earlier : ∀ request ∈ requests, request.Sound) {request : Reservation}
    (sound : request.Sound) :
    let s := regionsAfter build requests
    s.2.alignedSize = s.1.alignedSize.toNat ∧
      (request.require build s.1 s.2).1 = (request.reserve build s.1).1 ∧
      (s.1.aligned = 0 → ((request.require build s.1 s.2).1 = true ↔
        (Platform.allocRegion request.calls build request.size).aligned ≠ 0)) := by
  have h := represents_regionsAfter build earlier
  have hnext := (h.require build sound).1
  refine ⟨h.size, hnext, fun hfailed => ?_⟩
  rw [hnext, Reservation.reserve, Platform.reserveRegion_retries request.calls build
    request.munmap h.recorded hfailed sound.positive, decide_eq_true_eq]

/-- The first hash asks for more than there is, the second for two megabytes. -/
theorem requireRegion_refines_retry :
    let failing : Reservation :=
      ⟨Platform.smallMemory, fun _ _ => true, 0x200000000, fun _ => ⟨0, 0, 0, 0⟩⟩
    let request : Reservation := { failing with size := 0x200000 }
    let s := regionsAfter .malloc [failing]
    (request.require .malloc s.1 s.2).1 = true := by
  intro failing request s
  have earlier : ∀ request ∈ [failing], request.Sound :=
    List.forall_mem_singleton.mpr ⟨Platform.smallMemory_sound, by decide, by decide⟩
  have h := requireRegion_refines .malloc earlier
    (⟨Platform.smallMemory_sound, by decide, by decide⟩ : request.Sound)
  exact (h.2.2 (by decide)).mpr (by decide)

end Regions

/-- The regions a thread keeps from call to call. -/
structure ThreadRegions where
  single : Local
  pair : Fin 2 → Local

/-- A call of a thread, with what the system answers meanwhile. -/
inductive TlsCall where
  | one (sys : System) (src : List UInt8) (params : Params)
  | two (sys : Fin 2 → System) (src : Fin 2 → List UInt8) (params : Params)

def tlsCall (avx2 : Bool) (prim : Primitives) (s : ThreadRegions) :
    TlsCall → ThreadRegions × List (List UInt8)
  | .one sys src params =>
      let h := civicYespower prim sys s.single src params
      ({ s with single := h.region }, [h.dst])
  | .two sys src params =>
      let h := civicYespower2Tls avx2 prim sys s.pair src params
      ({ s with pair := h.regions }, [h.dst 0, h.dst 1])

/-- The digests that the calls of a thread write. -/
def tlsRun (avx2 : Bool) (prim : Primitives) : ThreadRegions → List TlsCall → List (List UInt8)
  | _, [] => []
  | s, call :: calls =>
      let t := tlsCall avx2 prim s call
      t.2 ++ tlsRun avx2 prim t.1 calls

/-- The system unmaps and maps what it is asked to. -/
def System.Grants (sys : System) : Prop := sys.unmaps = true ∧ sys.mapping.isSome = true

def Params.Usable (params : Params) : Prop :=
  params.invalid = false ∧ params.perslen + 68 < 2 ^ 61

def TlsCall.Served : TlsCall → Prop
  | .one sys src params => sys.Grants ∧ params.Usable ∧ src.length < 2 ^ 61
  | .two sys src params => (∀ lane, (sys lane).Grants) ∧ params.Usable ∧
      ∀ lane, (src lane).length < 2 ^ 61

def Params.hash (params : Params) (src : List UInt8) : List UInt8 :=
  yespower fipsPrimitives params.N params.r ((params.pers.getD []).take params.perslen) src

def TlsCall.hashes : TlsCall → List (List UInt8)
  | .one _ src params => [params.hash src]
  | .two _ src params => [params.hash (src 0), params.hash (src 1)]

theorem System.Grants.available {sys : System} (h : sys.Grants) (region : Local) (size : Nat) :
    (requireRegion sys region size).1 = true := by
  obtain ⟨hunmaps, hmapping⟩ := h
  obtain ⟨mapping, hmapping⟩ := Option.isSome_iff_exists.mp hmapping
  unfold requireRegion
  split
  · simp only [freeRegion, allocRegion, hunmaps, hmapping, Bool.not_true, Bool.false_eq_true,
      and_false, if_false]
    rfl
  · rfl

theorem Params.Usable.hash_eq (W : Nat → UInt32) (stack : HmacSha256Ctx) {params : Params}
    (h : params.Usable) {src : List UInt8} (hsrc : src.length < 2 ^ 61) :
    yespower (ypPrimitives W stack) params.N params.r ((params.pers.getD []).take params.perslen)
      src = params.hash src := by
  have hpers := h.2
  refine yespower_ypPrimitives W stack _ _ ?_ hsrc
  rw [List.length_take]
  omega

theorem tlsCall_served (avx2 : Bool) (W : Nat → UInt32) (stack : HmacSha256Ctx)
    (s : ThreadRegions) {call : TlsCall} (h : call.Served) :
    (tlsCall avx2 (ypPrimitives W stack) s call).2 = call.hashes := by
  cases call with
  | one sys src params =>
      obtain ⟨grants, usable, hsrc⟩ := h
      have hdst : ((civicYespower _ sys s.single src params).dst, _) = (_, (0 : Int)) :=
        (civicYespower_refines _ (length_ypSeed W stack) sys s.single src params).trans
          (if_pos ⟨usable.1, grants.available _ _⟩)
      rw [usable.hash_eq W stack hsrc] at hdst
      exact congrArg (fun dst => [dst]) (Prod.mk.inj hdst).1
  | two sys src params =>
      obtain ⟨grants, usable, hsrc⟩ := h
      have hdst := (civicYespower2Tls_refines avx2 src (length_ypSeed W stack) usable.1
        fun lane => (grants lane).available (s.pair lane) _).2
      have hash := fun lane => (hdst lane).trans (usable.hash_eq W stack (hsrc lane))
      change [_, _] = [_, _]
      rw [hash 0, hash 1]

/-- Whatever calls a thread makes, over regions that it reuses, grows and leaves its data in, each
digest it is given is the hash of its own input. -/
theorem tlsRun_served (avx2 : Bool) (W : Nat → UInt32) (stack : HmacSha256Ctx)
    (s : ThreadRegions) {calls : List TlsCall} (served : ∀ call ∈ calls, call.Served) :
    tlsRun avx2 (ypPrimitives W stack) s calls = calls.flatMap TlsCall.hashes := by
  induction calls generalizing s with
  | nil => rfl
  | cons call calls ih =>
      rw [tlsRun, tlsCall_served avx2 W stack s (served call List.mem_cons_self), List.flatMap_cons,
        ih _ fun call hcall => served call (List.mem_cons_of_mem _ hcall)]

theorem tlsRun_served_three :
    let stack : HmacSha256Ctx := ⟨⟨fun _ => 7, 5, fun _ => 0xff⟩, ⟨fun _ => 7, 5, fun _ => 0xff⟩⟩
    let sys : System := { unmaps := true, mapping := some fun _ => ⟨3, 0, 0, 9⟩ }
    let region : Local := { alignedSize := 64, aligned := fun _ => ⟨0, 0, 0, 0⟩ }
    let src : List UInt8 := List.replicate 32 1
    let calls := [.two (fun _ => sys) (fun _ => src) fixedParams, .one sys src fixedParams,
      .one sys src { N := 4096, r := 16, pers := none, perslen := 0 }]
    tlsRun true (ypPrimitives (fun _ => 0xcc) stack) ⟨region, fun _ => region⟩ calls =
      calls.flatMap TlsCall.hashes := by
  intro stack sys region src calls
  refine tlsRun_served true (fun _ => 0xcc) stack _ fun call hcall => ?_
  have grants : sys.Grants := ⟨rfl, rfl⟩
  have hsrc : src.length < 2 ^ 61 := by decide
  simp only [calls, List.mem_cons, List.not_mem_nil, or_false] at hcall
  rcases hcall with rfl | rfl | rfl
  · exact ⟨fun _ => grants, ⟨by decide, by decide⟩, fun _ => hsrc⟩
  · exact ⟨grants, ⟨by decide, by decide⟩, hsrc⟩
  · exact ⟨grants, ⟨by decide, by decide⟩, hsrc⟩

end SojCivicLight.Yespower
