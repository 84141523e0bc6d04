import SojCivicLight.CivicLight.Sha256

/-! The CivicLight proof-of-work hash of one header, and of two headers at once over a
shared midstate. -/

namespace SojCivicLight.CivicLight

/-- What the hash is built on: the block transforms, the selected yespower for the fixed
parameters (its return value and the bytes it writes), and what an uninitialised context
holds. -/
structure PowImpl where
  transformBe : Transform
  transform2xBe : ShaState → ShaState → ShaBlock → ShaBlock → ShaState × ShaState
  yespower : List UInt8 → Int × List UInt8
  yespower2 : List UInt8 → List UInt8 → Int × List UInt8 × List UInt8
  stack : Sha256Context

namespace PowImpl

variable (I : PowImpl)

def sha256Full (data : List UInt8) : List UInt8 :=
  CivicLight.sha256Full I.transformBe I.stack data

def civiclightV2ActivationTime : UInt32 := 1784797200

def sha256dLocal (input : List UInt8) : List UInt8 := I.sha256Full (I.sha256Full input)

/-- The block of `sha256_32_2way` for one input. -/
def blk32 (input : List UInt8) : ShaBlock :=
  let blk := memcpy I.stack.buf 0 (input.take 32)
  let blk := memset blk 32 0 32
  let blk := memset blk 32 0x80 1
  memset blk 62 0x01 1

def sha256_32_2way (in0 in1 : List UInt8) : List UInt8 × List UInt8 :=
  let iv := sha256CtxInit I.stack
  let st := I.transform2xBe iv.state iv.state (I.blk32 in0) (I.blk32 in1)
  (stateBytes st.1, stateBytes st.2)

/-- The second block of an 80-byte header in `sha256d_80_2way_midstate`. -/
def blk80 (header : List UInt8) : ShaBlock :=
  let blk := memset I.stack.buf 0 0 64
  let blk := memcpy blk 0 ((header.drop 64).take 16)
  let blk := memset blk 16 0x80 1
  let blk := memset blk 62 0x02 1
  memset blk 63 0x80 1

def sha256d_80_2wayMidstate (header0 header1 : List UInt8) (midstate : Sha256Context) :
    List UInt8 × List UInt8 :=
  let st := I.transform2xBe midstate.state midstate.state (I.blk80 header0) (I.blk80 header1)
  I.sha256_32_2way (stateBytes st.1) (stateBytes st.2)

def sha256d_80Midstate (header80 : List UInt8) (midstate : Sha256Context) : List UInt8 :=
  let ctx := sha256Update I.transformBe midstate ((header80.drop 64).take 16)
  I.sha256Full (sha256Final I.transformBe ctx)

def civiclightCoreV1 (input : List UInt8) : List UInt8 :=
  I.sha256Full ((I.sha256Full input).map (· ^^^ 0x5A))

/-- The loop that combines a yespower result with the hash it was computed from. -/
def xorBuf (ypOut hash1 : List UInt8) : List UInt8 :=
  (List.range 32).map fun i => ypOut.getD i 0 ^^^ hash1.getD i 0

/-- `civiclight_core_v2`; the return value of yespower is not looked at. -/
def civiclightCoreV2 (input : List UInt8) : List UInt8 :=
  let hash1 := I.sha256Full input
  I.sha256Full (xorBuf (I.yespower hash1).2 hash1)

def civiclightCoreV2_2way (input0 input1 : List UInt8) (len : Nat) :
    List UInt8 × List UInt8 :=
  let hash1 :=
    if len = 32 then I.sha256_32_2way input0 input1
    else (I.sha256Full (input0.take len), I.sha256Full (input1.take len))
  let ypOut := (I.yespower2 hash1.1 hash1.2).2
  I.sha256_32_2way (xorBuf ypOut.1 hash1.1) (xorBuf ypOut.2 hash1.2)

def extractNtime (header80 : List UInt8) : UInt32 :=
  (header80.getD 68 0).toUInt32 ||| (header80.getD 69 0).toUInt32 <<< 8 |||
    (header80.getD 70 0).toUInt32 <<< 16 ||| (header80.getD 71 0).toUInt32 <<< 24

def civiclightCore (header80 intermediate : List UInt8) : List UInt8 :=
  if civiclightV2ActivationTime ≤ extractNtime header80 then I.civiclightCoreV2 intermediate
  else I.civiclightCoreV1 intermediate

def civiclightPowhash (header80 : List UInt8) : List UInt8 :=
  I.civiclightCore header80 (I.sha256dLocal header80)

def civiclightPowhashFromMidstate (header80 : List UInt8) (midstate : Sha256Context) :
    List UInt8 :=
  I.civiclightCore header80 (I.sha256d_80Midstate header80 midstate)

def civiclightPowhash2wayMidstate (header0 header1 : List UInt8) (midstate : Sha256Context) :
    List UInt8 × List UInt8 :=
  let intermediate := I.sha256d_80_2wayMidstate header0 header1 midstate
  if civiclightV2ActivationTime ≤ extractNtime header0 ∧
      civiclightV2ActivationTime ≤ extractNtime header1 then
    I.civiclightCoreV2_2way intermediate.1 intermediate.2 32
  else
    (I.civiclightCore header0 intermediate.1, I.civiclightCore header1 intermediate.2)

def civiclightHash (input : List UInt8) : List UInt8 := I.civiclightPowhash input

def civiclightHash2way (input0 input1 : List UInt8) : List UInt8 × List UInt8 :=
  if input0.take 64 ≠ input1.take 64 then
    (I.civiclightPowhash input0, I.civiclightPowhash input1)
  else
    let midstate := sha256Update I.transformBe (sha256CtxInit I.stack) (input0.take 64)
    I.civiclightPowhash2wayMidstate input0 input1 midstate

end PowImpl

/-! The hand-written padding blocks. -/

open Library PowImpl

@[simp] theorem stateBytes_length (state : ShaState) : (stateBytes state).length = 32 := rfl

@[simp] theorem xorBuf_length (ypOut hash1 : List UInt8) :
    (xorBuf ypOut hash1).length = 32 := by
  simp [xorBuf]

theorem memset_one (buf : ShaBlock) (off : Nat) (c : UInt8) (k : Fin 64) :
    memset buf off c 1 k = if k.val = off then c else buf k := by
  unfold memset
  by_cases h : k.val = off
  · rw [if_pos (by omega), if_pos h]
  · rw [if_neg (by omega), if_neg h]

theorem blockOf_append (pre suf : List UInt8) (k : Fin 64) :
    blockOf (pre ++ suf) k =
      if k.val < pre.length then pre.getD k.val 0 else suf.getD (k.val - pre.length) 0 := by
  unfold blockOf
  split
  · rw [List.getD_append _ _ _ _ (by assumption)]
  · rw [List.getD_append_right _ _ _ _ (by omega)]

theorem blk32_eq (I : PowImpl) {input : List UInt8} (hlen : input.length = 32) :
    I.blk32 input = blockOf (input ++ shaPadding 32 (beBytes64 256)) := by
  have hpad : ∀ k : Fin 64, 32 ≤ k.val →
      (shaPadding 32 (beBytes64 256)).getD (k.val - 32) 0 =
        if k.val = 62 then 0x01 else if k.val = 32 then 0x80 else 0 := by decide +kernel
  funext k
  rw [blockOf_append, hlen]
  simp only [blk32, memset_one]
  unfold memset memcpy
  rw [List.take_of_length_le (by omega), hlen]
  by_cases hk : k.val < 32
  · rw [if_neg (by omega), if_neg (by omega), if_neg (by omega), if_pos (by omega), if_pos hk,
      Nat.sub_zero]
  · rw [if_neg hk, hpad k (by omega), if_pos (show 32 ≤ k.val ∧ k.val < 32 + 32 by omega)]

theorem blk80_eq (I : PowImpl) {header : List UInt8} (hlen : header.length = 80) :
    I.blk80 header = blockOf (header.drop 64 ++ shaPadding 16 (beBytes64 640)) := by
  have hpad : ∀ k : Fin 64, 16 ≤ k.val →
      (shaPadding 16 (beBytes64 640)).getD (k.val - 16) 0 =
        if k.val = 63 then 0x80 else if k.val = 62 then 0x02
        else if k.val = 16 then 0x80 else 0 := by decide +kernel
  have hdrop : (header.drop 64).length = 16 := by
    rw [List.length_drop]
    omega
  funext k
  rw [blockOf_append, hdrop]
  simp only [blk80, memset_one]
  unfold memset memcpy
  rw [List.take_of_length_le (by omega), hdrop]
  by_cases hk : k.val < 16
  · rw [if_neg (by omega), if_neg (by omega), if_neg (by omega), if_pos (by omega), if_pos hk,
      Nat.sub_zero]
  · rw [if_neg hk, hpad k (by omega), if_neg (show ¬(0 ≤ k.val ∧ k.val < 0 + 16) by omega)]
    dsimp only
    rw [if_pos (show 0 ≤ k.val ∧ k.val < 0 + 64 by omega)]

theorem shaDigest_32 (T : Transform) {input : List UInt8} (hlen : input.length = 32) :
    shaDigest T input =
      stateBytes (T sha256Iv (blockOf (input ++ shaPadding 32 (beBytes64 256)))) := by
  have hone : (input ++ shaPadding 32 (beBytes64 256)).length = 64 := by
    rw [List.length_append, hlen]
    rfl
  have hpadded : shaPadded input = input ++ shaPadding 32 (beBytes64 256) := by
    rw [shaPadded, hlen]
    rfl
  rw [shaDigest, hpadded, shaBlocks, foldBlocks_one (by omega) hone, shaStep]

theorem shaDigest_80 (T : Transform) {header : List UInt8} (hlen : header.length = 80) :
    shaDigest T header =
      stateBytes (T (shaBlocks T sha256Iv (header.take 64))
        (blockOf (header.drop 64 ++ shaPadding 16 (beBytes64 640)))) := by
  have hfirst : (header.take 64).length = 64 := by
    rw [List.length_take]
    omega
  have hsecond : (header.drop 64 ++ shaPadding 16 (beBytes64 640)).length = 64 := by
    rw [List.length_append, List.length_drop, hlen]
    rfl
  have hpadded : shaPadded header =
      header.take 64 ++ (header.drop 64 ++ shaPadding 16 (beBytes64 640)) := by
    rw [shaPadded, hlen, ← List.append_assoc, List.take_append_drop]
    rfl
  rw [shaDigest, hpadded, shaBlocks, shaBlocks, foldBlocks_block (by omega) hfirst,
    foldBlocks_one (by omega) hsecond, foldBlocks_one (by omega) hfirst, shaStep, shaStep]

/-! The two-way hash. -/

namespace PowImpl

/-- The two-way parts compute the single ones, lane by lane. -/
structure Paired (I : PowImpl) : Prop where
  transform : ∀ s0 s1 b0 b1,
    I.transform2xBe s0 s1 b0 b1 = (I.transformBe s0 b0, I.transformBe s1 b1)
  yespower : ∀ a b : List UInt8, a.length = 32 → b.length = 32 →
    (I.yespower2 a b).2 = ((I.yespower a).2, (I.yespower b).2)

variable {I : PowImpl}

theorem sha256Full_eq (data : List UInt8) :
    I.sha256Full data = shaDigest I.transformBe data :=
  CivicLight.sha256Full_eq I.transformBe I.stack data

theorem sha256_32_2way_eq (paired : I.Paired) {in0 in1 : List UInt8} (h0 : in0.length = 32)
    (h1 : in1.length = 32) :
    I.sha256_32_2way in0 in1 = (I.sha256Full in0, I.sha256Full in1) := by
  rw [sha256_32_2way, paired.transform, blk32_eq I h0, blk32_eq I h1, sha256Full_eq,
    sha256Full_eq, shaDigest_32 _ h0, shaDigest_32 _ h1]
  rfl

theorem sha256d_80_2wayMidstate_eq (paired : I.Paired) {header0 header1 : List UInt8}
    (h0 : header0.length = 80) (h1 : header1.length = 80)
    (same : header0.take 64 = header1.take 64) {midstate : Sha256Context}
    (hmid : Streams I.transformBe (header0.take 64) midstate) :
    I.sha256d_80_2wayMidstate header0 header1 midstate =
      (I.sha256dLocal header0, I.sha256dLocal header1) := by
  have hdigest0 := shaDigest_80 I.transformBe h0
  have hdigest1 := shaDigest_80 I.transformBe h1
  rw [← same] at hdigest1
  rw [sha256d_80_2wayMidstate, paired.transform, blk80_eq I h0, blk80_eq I h1, hmid.state,
    sha256_32_2way_eq paired (stateBytes_length _) (stateBytes_length _), ← hdigest0,
    ← hdigest1, sha256dLocal, sha256dLocal, sha256Full_eq header0, sha256Full_eq header1]

theorem sha256d_80Midstate_eq {header : List UInt8} (hlen : header.length = 80)
    {midstate : Sha256Context} (hmid : Streams I.transformBe (header.take 64) midstate) :
    I.sha256d_80Midstate header midstate = I.sha256dLocal header := by
  have hrest : (header.drop 64).take 16 = header.drop 64 :=
    List.take_of_length_le (by rw [List.length_drop]; omega)
  have hall := streams_sha256Update hmid ((header.drop 64).take 16)
  rw [hrest, List.take_append_drop] at hall
  rw [sha256d_80Midstate, hrest, sha256Final_eq hall, ← sha256Full_eq, sha256dLocal]

theorem civiclightCoreV2_2way_eq (paired : I.Paired) {in0 in1 : List UInt8}
    (h0 : in0.length = 32) (h1 : in1.length = 32) :
    I.civiclightCoreV2_2way in0 in1 32 = (I.civiclightCoreV2 in0, I.civiclightCoreV2 in1) := by
  have hyespower := paired.yespower (I.sha256Full in0) (I.sha256Full in1)
    (by rw [sha256Full_eq]; rfl) (by rw [sha256Full_eq]; rfl)
  rw [civiclightCoreV2_2way, if_pos rfl, sha256_32_2way_eq paired h0 h1]
  dsimp only
  rw [hyespower, sha256_32_2way_eq paired (xorBuf_length _ _) (xorBuf_length _ _)]
  rfl

theorem civiclightPowhash2wayMidstate_eq (paired : I.Paired) {header0 header1 : List UInt8}
    (h0 : header0.length = 80) (h1 : header1.length = 80)
    (same : header0.take 64 = header1.take 64) {midstate : Sha256Context}
    (hmid : Streams I.transformBe (header0.take 64) midstate) :
    I.civiclightPowhash2wayMidstate header0 header1 midstate =
      (I.civiclightPowhash header0, I.civiclightPowhash header1) := by
  have hlen : ∀ header, (I.sha256dLocal header).length = 32 := fun header => by
    rw [sha256dLocal, sha256Full_eq]
    rfl
  rw [civiclightPowhash2wayMidstate, sha256d_80_2wayMidstate_eq paired h0 h1 same hmid]
  dsimp only
  split
  · rename_i active
    rw [civiclightCoreV2_2way_eq paired (hlen header0) (hlen header1), civiclightPowhash,
      civiclightPowhash, civiclightCore, civiclightCore, if_pos active.1, if_pos active.2]
  · rfl

/-- The two-way hash of two headers is the hash of each. -/
theorem civiclightHash2way_eq (paired : I.Paired) {header0 header1 : List UInt8}
    (h0 : header0.length = 80) (h1 : header1.length = 80) :
    I.civiclightHash2way header0 header1 =
      (I.civiclightHash header0, I.civiclightHash header1) := by
  unfold civiclightHash2way
  by_cases same : header0.take 64 = header1.take 64
  · have hmid := streams_sha256Update (streams_sha256CtxInit I.transformBe I.stack)
      (header0.take 64)
    rw [if_neg (not_not.mpr same)]
    exact civiclightPowhash2wayMidstate_eq paired h0 h1 same hmid
  · rw [if_pos same]
    rfl

/-- Two headers of one job, one before and one after the activation time. -/
theorem civiclightHash2way_eq_across_activation :
    let I : PowImpl :=
      { transformBe := fun state block i => state i + (block ⟨i.val, by omega⟩).toUInt32
        transform2xBe := fun s0 s1 b0 b1 =>
          (fun i => s0 i + (b0 ⟨i.val, by omega⟩).toUInt32,
            fun i => s1 i + (b1 ⟨i.val, by omega⟩).toUInt32)
        yespower := fun a => (0, a.reverse)
        yespower2 := fun a b => (0, a.reverse, b.reverse)
        stack := { buf := fun _ => 0xcc, state := fun _ => 0, count := 0 } }
    let header0 := List.replicate 80 0
    let header1 := List.replicate 68 0 ++ [0xff, 0xff, 0xff, 0xff] ++ List.replicate 8 0
    I.civiclightHash2way header0 header1 =
      (I.civiclightHash header0, I.civiclightHash header1) := by
  intro I header0 header1
  exact civiclightHash2way_eq ⟨fun _ _ _ _ => rfl, fun _ _ _ _ => rfl⟩ rfl rfl

/-! A yespower call that fails: it returns -1 and leaves bytes of `0xff`. -/

def yespowerFailure : List UInt8 := List.replicate 32 0xff

variable (I) in
/-- The hash that yespower gets for a header. -/
def coreHash (header80 : List UInt8) : List UInt8 := I.sha256Full (I.sha256dLocal header80)

variable (I) in
/-- What comes out for a header whose call fails. -/
def failedHash (header80 : List UInt8) : List UInt8 :=
  I.sha256Full ((I.coreHash header80).map (~~~ ·))

@[simp] theorem length_coreHash (header80 : List UInt8) : (I.coreHash header80).length = 32 := by
  rw [coreHash, sha256Full_eq]
  rfl

theorem xorBuf_failure {hash1 : List UInt8} (hlen : hash1.length = 32) :
    xorBuf yespowerFailure hash1 = hash1.map (~~~ ·) := by
  have hcomplement : ∀ b : UInt8, 0xff ^^^ b = ~~~ b := by
    intro b
    rw [UInt8.xor_comm]
    exact UInt8.xor_neg_one
  apply List.ext_getElem
  · rw [xorBuf_length, List.length_map, hlen]
  · intro i hi _
    rw [xorBuf_length] at hi
    simp only [xorBuf, List.getElem_map, List.getElem_range]
    rw [yespowerFailure, List.getD_replicate _ hi, List.getD_eq_getElem _ _ (hlen ▸ hi)]
    exact hcomplement _

theorem civiclightPowhashFromMidstate_failed {header : List UInt8} (hlen : header.length = 80)
    {midstate : Sha256Context} (hmid : Streams I.transformBe (header.take 64) midstate)
    (active : civiclightV2ActivationTime ≤ extractNtime header)
    (failed : I.yespower (I.coreHash header) = (-1, yespowerFailure)) :
    I.civiclightPowhashFromMidstate header midstate = I.failedHash header := by
  rw [civiclightPowhashFromMidstate, sha256d_80Midstate_eq hlen hmid, civiclightCore,
    if_pos active, civiclightCoreV2]
  rw [← coreHash, failed, xorBuf_failure (length_coreHash header), failedHash]

/-- Both lanes fail together, whichever allocation it was. -/
theorem civiclightPowhash2wayMidstate_failed
    (transform : ∀ s0 s1 b0 b1,
      I.transform2xBe s0 s1 b0 b1 = (I.transformBe s0 b0, I.transformBe s1 b1))
    {header0 header1 : List UInt8} (h0 : header0.length = 80) (h1 : header1.length = 80)
    (same : header0.take 64 = header1.take 64) {midstate : Sha256Context}
    (hmid : Streams I.transformBe (header0.take 64) midstate)
    (active0 : civiclightV2ActivationTime ≤ extractNtime header0)
    (active1 : civiclightV2ActivationTime ≤ extractNtime header1)
    (failed : I.yespower2 (I.coreHash header0) (I.coreHash header1) =
      (-1, yespowerFailure, yespowerFailure)) :
    I.civiclightPowhash2wayMidstate header0 header1 midstate =
      (I.failedHash header0, I.failedHash header1) := by
  -- the same transforms over a yespower whose lanes agree
  let J : PowImpl := { I with yespower2 := fun a b => (0, (I.yespower a).2, (I.yespower b).2) }
  have paired : J.Paired := ⟨transform, fun _ _ _ _ => rfl⟩
  have hmids : I.sha256d_80_2wayMidstate header0 header1 midstate =
      (I.sha256dLocal header0, I.sha256dLocal header1) :=
    sha256d_80_2wayMidstate_eq paired h0 h1 same hmid
  have hlocal : ∀ header, (I.sha256dLocal header).length = 32 := fun header => by
    rw [sha256dLocal, sha256Full_eq]
    rfl
  have hpair : ∀ {a b : List UInt8}, a.length = 32 → b.length = 32 →
      I.sha256_32_2way a b = (I.sha256Full a, I.sha256Full b) :=
    fun ha hb => sha256_32_2way_eq paired ha hb
  rw [civiclightPowhash2wayMidstate, hmids]
  dsimp only
  rw [if_pos ⟨active0, active1⟩, civiclightCoreV2_2way, if_pos rfl,
    hpair (hlocal header0) (hlocal header1)]
  dsimp only
  rw [← coreHash, ← coreHash, failed]
  dsimp only
  rw [xorBuf_failure (length_coreHash header0), xorBuf_failure (length_coreHash header1),
    hpair (by rw [List.length_map, length_coreHash]) (by rw [List.length_map, length_coreHash]),
    failedHash, failedHash]

end PowImpl

end SojCivicLight.CivicLight
