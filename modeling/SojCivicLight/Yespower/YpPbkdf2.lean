import SojCivicLight.Library.Blocks
import SojCivicLight.Yespower.YpHmac

/-! PBKDF2 over the HMAC of yespower, with its path for one iteration. -/

namespace SojCivicLight.Yespower

open SojCivicLight.Library
open SojCivicLight.CivicLight
open SojCivicLight.Util

section

variable (T : Transform)

/-- `SHA256_Pad_Almost`; none where it returns -1. -/
def sha256PadAlmost (ctx : Sha256Ctx) : Option Sha256Ctx :=
  let r := ctx.buffered
  if 56 ≤ r then none
  else
    let len := beBytes64 ctx.count
    let ctx := ypSha256Update T ctx (padBytes.take (56 - r))
    let ctx := { ctx with buf := memcpy ctx.buf 63 (len.drop 7) }
    some (ypSha256Update T ctx (len.take 7))

/-- One block of the path for a single iteration: the two buffers, and what it wrote. -/
def pbkdf2FastRound (istate ostate : ShaState) (ivecp i : Nat)
    (s : ShaBlock × ShaBlock × List UInt8) : ShaBlock × ShaBlock × List UInt8 :=
  let (ibuf, obuf, buf) := s
  let ibuf := memcpy ibuf ivecp (be32enc (UInt32.ofNat (i + 1)))
  let state := T istate ibuf
  let obuf := memcpy obuf 0 (stateBytes state)
  let state := T ostate obuf
  (ibuf, obuf, buf ++ stateBytes state)

/-- `0x3f << 3` -/
def countMask : UInt64 := (0x3f : UInt64) <<< 3

/-- The path for a single iteration, from the context that has the password; none where it
goes to `generic`. -/
def pbkdf2Fast (hctx : HmacSha256Ctx) (salt : List UInt8) (dkLen : Nat) : Option (List UInt8) :=
  let hctx := hmacSha256Update T hctx salt
  let oldcount := hctx.ictx.count &&& countMask
  let hctx := hmacSha256Update T hctx [0, 0, 0, 0]
  if hctx.ictx.count &&& countMask < oldcount then none
  else
    match sha256PadAlmost T hctx.ictx with
    | none => none
    | some ictx =>
        let octx := { hctx.octx with count := hctx.octx.count + (32 : UInt64) <<< 3 }
        let octx := (sha256PadAlmost T octx).getD octx
        -- `i * 32 < dkLen`
        let s := forUp 0 ((dkLen + 31) / 32) 1
          (pbkdf2FastRound T ictx.state octx.state (oldcount >>> 3).toNat) (ictx.buf, octx.buf, [])
        some s.2.2

/-- One of the iterations `j = 2` to `c`: `U` and `T`. -/
def pbkdf2Iteration (Phctx : HmacSha256Ctx) (s : List UInt8 × List UInt8) :
    List UInt8 × List UInt8 :=
  let U := hmacSha256Final T (hmacSha256Update T Phctx s.1)
  (U, List.zipWith (· ^^^ ·) s.2 U)

def pbkdf2GenericRound (Phctx PShctx : HmacSha256Ctx) (c dkLen i : Nat) (buf : List UInt8) :
    List UInt8 :=
  let ivec := be32enc (UInt32.ofNat (i + 1))
  let t := hmacSha256Final T (hmacSha256Update T PShctx ivec)
  let t := if 1 < c then (forUp 2 (c + 1) 1 (fun _ => pbkdf2Iteration T Phctx) (t, t)).2 else t
  let clen := dkLen - i * 32
  let clen := if 32 < clen then 32 else clen
  buf ++ t.take clen

def pbkdf2Generic (Phctx : HmacSha256Ctx) (passwd salt : List UInt8) (c dkLen : Nat) :
    List UInt8 :=
  let Phctx := hmacSha256Init T Phctx passwd
  let PShctx := hmacSha256Update T Phctx salt
  forUp 0 ((dkLen + 31) / 32) 1 (pbkdf2GenericRound T Phctx PShctx c dkLen) []

/-- `YP_PBKDF2_SHA256`: the bytes it writes, none where the assertion fails.  `stack` is what
its contexts held before. -/
def ypPbkdf2Sha256 (stack : HmacSha256Ctx) (passwd salt : List UInt8) (c dkLen : Nat) :
    Option (List UInt8) :=
  if 32 * 0xffffffff < dkLen then none
  else if c = 1 ∧ dkLen &&& 31 = 0 ∧ salt.length &&& 63 ≤ 51 then
    some ((pbkdf2Fast T (hmacSha256Init T stack passwd) salt dkLen).getD
      (pbkdf2Generic T stack passwd salt c dkLen))
  else some (pbkdf2Generic T stack passwd salt c dkLen)

end

/-! The path for any number of iterations. -/

theorem be32enc_int32Bytes {n : Nat} (hn : n < 2 ^ 32) :
    be32enc (UInt32.ofNat n) = int32Bytes n := by
  have byte : ∀ k : Nat, k < 32 →
      (UInt32.ofNat n >>> UInt32.ofNat k).toUInt8 = UInt8.ofNat (n / 2 ^ k) := by
    intro k hk
    apply UInt8.toNat_inj.mp
    rw [UInt32.toNat_toUInt8, UInt32.toNat_shiftRight, UInt32.toNat_ofNat', UInt32.toNat_ofNat',
      UInt8.toNat_ofNat', Nat.shiftRight_eq_div_pow, Nat.mod_eq_of_lt hn,
      Nat.mod_eq_of_lt (by omega : k < 2 ^ 32), Nat.mod_eq_of_lt hk]
  have low : (UInt32.ofNat n).toUInt8 = UInt8.ofNat n := by
    apply UInt8.toNat_inj.mp
    rw [UInt32.toNat_toUInt8, UInt32.toNat_ofNat', UInt8.toNat_ofNat', Nat.mod_eq_of_lt hn]
  rw [int32Bytes, ← byte 24 (by decide), ← byte 16 (by decide), ← byte 8 (by decide), ← low]
  rfl

section Generic

variable {T : Transform} {inner outer : List UInt8}

/-- The pseudorandom function of a context that has taken in its two key pads. -/
def keyedHash (T : Transform) (inner outer text : List UInt8) : List UInt8 :=
  shaDigest T (outer ++ shaDigest T (inner ++ text))

theorem length_keyedHash (text : List UInt8) : (keyedHash T inner outer text).length = 32 := rfl

variable {Phctx : HmacSha256Ctx} (hi : Taken T inner Phctx.ictx) (ho : Taken T outer Phctx.octx)
include hi ho

theorem hmacSha256_keyedHash (text : List UInt8) :
    hmacSha256Final T (hmacSha256Update T Phctx text) = keyedHash T inner outer text :=
  hmacSha256Final_eq hi ho

theorem hmacSha256_keyedHash_append (salt text : List UInt8) :
    hmacSha256Final T (hmacSha256Update T (hmacSha256Update T Phctx salt) text) =
      keyedHash T inner outer (salt ++ text) := by
  rw [keyedHash, ← List.append_assoc]
  exact hmacSha256Final_eq (hi.update salt) ho

theorem pbkdf2Iterations_eq (salt : List UInt8) (i : Nat) {c : Nat} (hc : 1 < c) :
    forUp 2 (c + 1) 1 (fun _ => pbkdf2Iteration T Phctx)
        (pbkdf2U (keyedHash T inner outer) salt i 0, pbkdf2U (keyedHash T inner outer) salt i 0) =
      (pbkdf2U (keyedHash T inner outer) salt i (c - 1),
        pbkdf2Block (keyedHash T inner outer) salt c i) := by
  refine forUp_inv_unit (by omega)
    (fun j s => s = (pbkdf2U (keyedHash T inner outer) salt i (j - 2),
      pbkdf2Block (keyedHash T inner outer) salt (j - 1) i)) rfl ?_
  rintro j s hlo - rfl
  obtain ⟨j, rfl⟩ := Nat.exists_eq_add_of_le' hlo
  have hU : hmacSha256Final T
      (hmacSha256Update T Phctx (pbkdf2U (keyedHash T inner outer) salt i j)) =
        pbkdf2U (keyedHash T inner outer) salt i (j + 1) := hmacSha256_keyedHash hi ho _
  show pbkdf2Iteration T Phctx (pbkdf2U _ salt i j, pbkdf2Block _ salt (j + 1) i) =
    (pbkdf2U _ salt i (j + 1), pbkdf2Block _ salt (j + 1 + 1) i)
  rw [pbkdf2Iteration, hU, pbkdf2Block_succ _ _ (Nat.succ_pos j)]

theorem pbkdf2GenericRound_eq (salt : List UInt8) (c dkLen : Nat) {i : Nat} (hn : i + 1 < 2 ^ 32)
    (buf : List UInt8) :
    pbkdf2GenericRound T Phctx (hmacSha256Update T Phctx salt) c dkLen i buf =
      buf ++ (pbkdf2Block (keyedHash T inner outer) salt (max c 1) (i + 1)).take
        (dkLen - i * 32) := by
  have first : hmacSha256Final T (hmacSha256Update T (hmacSha256Update T Phctx salt)
      (be32enc (UInt32.ofNat (i + 1)))) = pbkdf2U (keyedHash T inner outer) salt (i + 1) 0 := by
    rw [hmacSha256_keyedHash_append hi ho, be32enc_int32Bytes hn]
    rfl
  have blocks : (if 1 < c then (forUp 2 (c + 1) 1 (fun _ => pbkdf2Iteration T Phctx)
      (pbkdf2U (keyedHash T inner outer) salt (i + 1) 0,
        pbkdf2U (keyedHash T inner outer) salt (i + 1) 0)).2
      else pbkdf2U (keyedHash T inner outer) salt (i + 1) 0) =
        pbkdf2Block (keyedHash T inner outer) salt (max c 1) (i + 1) := by
    split
    · rename_i hc
      rw [pbkdf2Iterations_eq hi ho salt (i + 1) hc, Nat.max_eq_left (Nat.le_of_lt hc)]
    · rename_i hc
      rw [Nat.max_eq_right (Nat.le_of_not_lt hc)]
      rfl
  have hlen : (pbkdf2Block (keyedHash T inner outer) salt (max c 1) (i + 1)).length = 32 :=
    length_pbkdf2Block length_keyedHash salt (by omega) _
  unfold pbkdf2GenericRound
  dsimp only
  rw [first, blocks]
  congr 1
  split
  · rw [List.take_of_length_le (by omega), List.take_of_length_le (by omega)]
  · rfl

theorem pbkdf2Rounds_eq (salt : List UInt8) (c : Nat) {dkLen : Nat}
    (hdk : dkLen ≤ 32 * 0xffffffff) :
    forUp 0 ((dkLen + 31) / 32) 1
        (pbkdf2GenericRound T Phctx (hmacSha256Update T Phctx salt) c dkLen) [] =
      pbkdf2 (keyedHash T inner outer) salt 32 (max c 1) dkLen := by
  have hblock : ∀ i, (pbkdf2Block (keyedHash T inner outer) salt (max c 1) (i + 1)).length = 32 :=
    fun i => length_pbkdf2Block length_keyedHash salt (by omega) _
  refine forUp_inv_unit (Nat.zero_le _) (fun i buf => buf = ((List.range i).flatMap fun i =>
    pbkdf2Block (keyedHash T inner outer) salt (max c 1) (i + 1)).take dkLen) (by simp) ?_
  rintro i buf - hi' rfl
  rw [pbkdf2GenericRound_eq hi ho salt c dkLen (by omega), List.range_succ, List.flatMap_append,
    List.take_append, length_flatMap_pieces hblock, List.length_range, Nat.mul_comm 32 i]
  simp only [List.flatMap_cons, List.flatMap_nil, List.append_nil]

end Generic

theorem pbkdf2Generic_eq (T : Transform) (stack : HmacSha256Ctx) (passwd salt : List UInt8)
    (c : Nat) {dkLen : Nat} (hdk : dkLen ≤ 32 * 0xffffffff) :
    pbkdf2Generic T stack passwd salt c dkLen =
      pbkdf2 (hmac (shaDigest T) 64 passwd) salt 32 (max c 1) dkLen := by
  obtain ⟨hi, ho⟩ := hmacSha256Init_taken T stack passwd
  exact pbkdf2Rounds_eq hi ho salt c hdk

/-! The path for a single iteration. -/

/-- A context whose buffered bytes stand before the padding of its message, and whose last
block is still to be mixed in. -/
structure AlmostPadded (T : Transform) (msg : List UInt8) (bits : UInt64) (ctx : Sha256Ctx) :
    Prop where
  state : ctx.state = shaBlocks T sha256Iv msg
  buf : ctx.buf = blockOf (leftover 64 msg ++
    shaPadding (leftover 64 msg).length (beBytes64 bits))

theorem Taken.buffered {T : Transform} {msg : List UInt8} {ctx : Sha256Ctx}
    (h : Taken T msg ctx) : ctx.buffered = (leftover 64 msg).length := by
  obtain ⟨bytes, streams, rfl⟩ := h
  rw [buffered_inBits, streams.ptr]

theorem Taken.holds {T : Transform} {msg : List UInt8} {ctx : Sha256Ctx} (h : Taken T msg ctx) :
    Holds ctx.buf (leftover 64 msg) := by
  obtain ⟨bytes, streams, rfl⟩ := h
  exact streams.buf

theorem Taken.state {T : Transform} {msg : List UInt8} {ctx : Sha256Ctx} (h : Taken T msg ctx) :
    ctx.state = shaBlocks T sha256Iv msg := by
  obtain ⟨bytes, streams, rfl⟩ := h
  exact streams.state

theorem ypSha256Update_short (T : Transform) (ctx : Sha256Ctx) {data : List UInt8}
    (hpos : 0 < data.length) (hshort : data.length < 64 - ctx.buffered) :
    (ypSha256Update T ctx data).state = ctx.state ∧
      (ypSha256Update T ctx data).buf = memcpy ctx.buf ctx.buffered data := by
  rw [ypSha256Update, if_neg (Nat.ne_of_gt hpos)]
  dsimp only
  rw [if_pos hshort]
  exact ⟨rfl, rfl⟩

theorem padding_eq {r : Nat} (hr : r < 56) (len : List UInt8) :
    padBytes.take (56 - r) ++ len = shaPadding r len := by
  have hzeros : (119 - r) % 64 = 55 - r := by omega
  rw [shaPadding, hzeros, padBytes, show 56 - r = 55 - r + 1 by omega, List.take_succ_cons,
    List.take_replicate, Nat.min_eq_left (by omega)]
  rfl

/-- The length is written in two parts, the last byte first. -/
theorem memcpy_split (buf : ShaBlock) {pre len : List UInt8} (h : Holds buf pre)
    (hpre : pre.length = 56) (hlen : len.length = 8) :
    memcpy (memcpy buf 63 (len.drop 7)) 56 (len.take 7) = blockOf (pre ++ len) := by
  have hseven : (len.take 7).length = 7 := by
    rw [List.length_take]
    omega
  have hone : (len.drop 7).length = 1 := by
    rw [List.length_drop]
    omega
  funext k
  unfold memcpy blockOf
  rw [hseven, hone]
  by_cases hlow : k.val < 56
  · rw [if_neg (by omega), if_neg (by omega), List.getD_append _ _ _ _ (by omega)]
    exact h k (by omega)
  · rw [List.getD_append_right _ _ _ _ (by omega), hpre]
    by_cases hmid : k.val < 63
    · rw [if_pos (by omega), List.getD_eq_getElem?_getD, List.getD_eq_getElem?_getD,
        List.getElem?_take_of_lt (by omega)]
    · have hk : k.val = 63 := by omega
      rw [if_neg (by omega), if_pos (by omega), hk, List.getD_eq_getElem?_getD,
        List.getD_eq_getElem?_getD, List.getElem?_drop]

theorem sha256PadAlmost_eq {T : Transform} {msg : List UInt8} {ctx : Sha256Ctx}
    (h : Taken T msg ctx) (hroom : (leftover 64 msg).length < 56) :
    ∃ ctx', sha256PadAlmost T ctx = some ctx' ∧ AlmostPadded T msg ctx.count ctx' := by
  have hr := h.buffered
  have hlen : (beBytes64 ctx.count).length = 8 := rfl
  have hpad : (padBytes.take (56 - ctx.buffered)).length = 56 - ctx.buffered := by
    rw [List.length_take]
    exact Nat.min_eq_left (Nat.le_trans (Nat.sub_le _ _) (by decide))
  have hsum : (leftover 64 msg ++ padBytes.take (56 - ctx.buffered)).length = 56 := by
    rw [List.length_append, hpad, hr]
    omega
  have padded := h.update (padBytes.take (56 - ctx.buffered))
  have hleft : leftover 64 (msg ++ padBytes.take (56 - ctx.buffered)) =
      leftover 64 msg ++ padBytes.take (56 - ctx.buffered) := by
    rw [leftover_append (by omega), leftover_short (by omega)]
  have hptr := padded.buffered
  have holds := padded.holds
  rw [hleft] at hptr holds
  rw [hsum] at hptr
  obtain ⟨hstate, -⟩ := ypSha256Update_short T ctx
    (show 0 < (padBytes.take (56 - ctx.buffered)).length by omega) (by omega)
  let ctx' : Sha256Ctx :=
    { ypSha256Update T ctx (padBytes.take (56 - ctx.buffered)) with
      buf := memcpy (ypSha256Update T ctx (padBytes.take (56 - ctx.buffered))).buf 63
        ((beBytes64 ctx.count).drop 7) }
  have hptr' : ctx'.buffered = 56 := hptr
  have hseven : ((beBytes64 ctx.count).take 7).length = 7 := rfl
  obtain ⟨hstate', hbuf'⟩ := ypSha256Update_short T ctx'
    (show 0 < ((beBytes64 ctx.count).take 7).length by omega) (by omega)
  refine ⟨ypSha256Update T ctx' ((beBytes64 ctx.count).take 7), if_neg (by omega), ?_, ?_⟩
  · rw [hstate', ← h.state]
    exact hstate
  · rw [hbuf', hptr', ← padding_eq hroom, ← hr, ← List.append_assoc]
    exact memcpy_split _ holds hsum hlen

/-- A digest whose padding fits into the last block. -/
theorem shaDigest_last (T : Transform) {msg : List UInt8} (hroom : (leftover 64 msg).length < 56) :
    shaDigest T msg = stateBytes (T (shaBlocks T sha256Iv msg) (blockOf (leftover 64 msg ++
      shaPadding (leftover 64 msg).length (beBytes64 (UInt64.ofNat msg.length <<< 3))))) := by
  have hlen : (leftover 64 msg).length = msg.length % 64 := leftover_length (by omega)
  have hblock : (leftover 64 msg ++ shaPadding (leftover 64 msg).length
      (beBytes64 (UInt64.ofNat msg.length <<< 3))).length = 64 := by
    have height : (beBytes64 (UInt64.ofNat msg.length <<< 3)).length = 8 := rfl
    simp only [shaPadding, List.length_append, List.length_replicate, height]
    omega
  rw [shaDigest, shaPadded, ← hlen, shaBlocks, foldBlocks_append (by omega),
    foldBlocks_one (by omega) hblock, shaStep]

theorem shaBlocks_within (T : Transform) {msg more : List UInt8}
    (h : (leftover 64 msg ++ more).length < 64) :
    shaBlocks T sha256Iv (msg ++ more) = shaBlocks T sha256Iv msg := by
  rw [shaBlocks, foldBlocks_append (by omega), foldBlocks_short h]

theorem leftover_within {msg more : List UInt8} (h : (leftover 64 msg ++ more).length < 64) :
    leftover 64 (msg ++ more) = leftover 64 msg ++ more := by
  rw [leftover_append (by omega), leftover_short h]

/-- Bytes of a block that are replaced by as many others. -/
theorem memcpy_middle (pre suf : List UInt8) {old new : List UInt8} (h : new.length = old.length) :
    memcpy (blockOf (pre ++ (old ++ suf))) pre.length new = blockOf (pre ++ (new ++ suf)) := by
  funext k
  unfold memcpy blockOf
  by_cases hpre : k.val < pre.length
  · rw [if_neg (by omega), List.getD_append _ _ _ _ hpre, List.getD_append _ _ _ _ hpre]
  · rw [List.getD_append_right _ _ _ _ (Nat.le_of_not_lt hpre),
      List.getD_append_right _ _ _ _ (Nat.le_of_not_lt hpre)]
    by_cases hnew : k.val < pre.length + new.length
    · rw [if_pos (by omega), List.getD_append _ _ _ _ (by omega)]
    · rw [if_neg (by omega), List.getD_append_right _ _ _ _ (by omega),
        List.getD_append_right _ _ _ _ (by omega), h]

theorem Taken.oldcount {T : Transform} {msg : List UInt8} {ctx : Sha256Ctx} (h : Taken T msg ctx) :
    (ctx.count &&& countMask).toNat = 8 * (leftover 64 msg).length := by
  obtain ⟨bytes, streams, rfl⟩ := h
  have hlt : (leftover 64 msg).length < 64 := by
    rw [leftover_length (by omega)]
    omega
  rw [inBits, countMask, ← UInt64.shiftLeft_and, shiftLeft_three, streams.ptr]
  omega

/-- Bytes that are counted without being written leave what the buffer held in their place. -/
theorem Taken.skip {T : Transform} {msg : List UInt8} {ctx : Sha256Ctx} (h : Taken T msg ctx)
    {n : Nat} (hn : (leftover 64 msg).length + n < 64) :
    ∃ bytes : List UInt8, bytes.length = n ∧
      Taken T (msg ++ bytes) { ctx with count := ctx.count + UInt64.ofNat n <<< 3 } := by
  obtain ⟨ctx, streams, rfl⟩ := h
  have hlen : (((List.ofFn ctx.buf).drop (leftover 64 msg).length).take n).length = n := by
    rw [List.length_take, List.length_drop, List.length_ofFn]
    omega
  refine ⟨((List.ofFn ctx.buf).drop (leftover 64 msg).length).take n, hlen,
    { ctx with count := ctx.count + UInt64.ofNat n }, ⟨?_, ?_, ?_⟩, ?_⟩
  · rw [streams.count, List.length_append, hlen, UInt64.ofNat_add]
  · have hwithin : (leftover 64 msg ++
        ((List.ofFn ctx.buf).drop (leftover 64 msg).length).take n).length < 64 := by
      rw [List.length_append, hlen]
      exact hn
    rw [shaBlocks_within T hwithin]
    exact streams.state
  · have hwithin : (leftover 64 msg ++
        ((List.ofFn ctx.buf).drop (leftover 64 msg).length).take n).length < 64 := by
      rw [List.length_append, hlen]
      exact hn
    rw [leftover_within hwithin]
    intro k hk
    rw [List.length_append, hlen] at hk
    by_cases hpre : k.val < (leftover 64 msg).length
    · rw [List.getD_append _ _ _ _ hpre]
      exact streams.buf k hpre
    · rw [List.getD_append_right _ _ _ _ (by omega), List.getD_eq_getElem?_getD,
        List.getElem?_take_of_lt (by omega), List.getElem?_drop, List.getElem?_ofFn,
        dif_pos (by omega)]
      exact congrArg ctx.buf (Fin.ext (Nat.add_sub_cancel' (Nat.le_of_not_lt hpre)).symm)
  · exact congrArg (Sha256Ctx.mk _ · _) (count_inBits _ _)

/-- The last block of a message that ends in bytes which are still to come. -/
theorem shaDigest_patched (T : Transform) {msg : List UInt8} {more : List UInt8} {n : Nat}
    (hmore : more.length = n) (hroom : (leftover 64 msg).length + n < 56) :
    shaDigest T (msg ++ more) = stateBytes (T (shaBlocks T sha256Iv msg) (blockOf
      (leftover 64 msg ++ (more ++ shaPadding ((leftover 64 msg).length + n)
        (beBytes64 (UInt64.ofNat (msg.length + n) <<< 3)))))) := by
  have hlen : (leftover 64 msg ++ more).length = (leftover 64 msg).length + n := by
    rw [List.length_append, hmore]
  have hleft : leftover 64 (msg ++ more) = leftover 64 msg ++ more :=
    leftover_within (by omega)
  rw [shaDigest_last T (by rw [hleft]; omega), hleft, hlen, shaBlocks_within T (by omega),
    List.length_append, hmore, List.append_assoc]

/-- A buffer between two blocks: `n` bytes of it are from the block before. -/
def Patchable (msg : List UInt8) (n : Nat) (buf : ShaBlock) : Prop :=
  ∃ old : List UInt8, old.length = n ∧ buf = blockOf (leftover 64 msg ++ (old ++
    shaPadding ((leftover 64 msg).length + n) (beBytes64 (UInt64.ofNat (msg.length + n) <<< 3))))

theorem Patchable.memcpy {msg : List UInt8} {n : Nat} {buf : ShaBlock} (h : Patchable msg n buf)
    (T : Transform) {more : List UInt8} (hmore : more.length = n)
    (hroom : (leftover 64 msg).length + n < 56) :
    Patchable msg n (memcpy buf (leftover 64 msg).length more) ∧
      stateBytes (T (shaBlocks T sha256Iv msg) (memcpy buf (leftover 64 msg).length more)) =
        shaDigest T (msg ++ more) := by
  obtain ⟨old, hold, rfl⟩ := h
  rw [memcpy_middle _ _ (hmore.trans hold.symm), shaDigest_patched T hmore hroom]
  exact ⟨⟨more, hmore, rfl⟩, rfl⟩

/-- One block of the path for a single iteration is one of the derived key. -/
theorem pbkdf2FastRound_eq (T : Transform) {msgI msgO : List UInt8}
    (hI : (leftover 64 msgI).length + 4 < 56) (hO : leftover 64 msgO = []) {i : Nat}
    (hn : i + 1 < 2 ^ 32) {ibuf obuf : ShaBlock} (buf : List UInt8) (hi : Patchable msgI 4 ibuf)
    (ho : Patchable msgO 32 obuf) :
    ∃ ibuf' obuf', pbkdf2FastRound T (shaBlocks T sha256Iv msgI) (shaBlocks T sha256Iv msgO)
        (leftover 64 msgI).length i (ibuf, obuf, buf) =
          (ibuf', obuf', buf ++ keyedHash T msgI msgO (int32Bytes (i + 1))) ∧
      Patchable msgI 4 ibuf' ∧ Patchable msgO 32 obuf' := by
  obtain ⟨hi', hinner⟩ := hi.memcpy T (show (int32Bytes (i + 1)).length = 4 from rfl) hI
  obtain ⟨ho', houter⟩ := ho.memcpy T
    (show (shaDigest T (msgI ++ int32Bytes (i + 1))).length = 32 from rfl) (by rw [hO]; decide)
  rw [hO] at ho' houter
  refine ⟨_, _, ?_, hi', ho'⟩
  rw [pbkdf2FastRound, be32enc_int32Bytes hn, hinner]
  exact congrArg (fun out => (_, _, buf ++ out)) houter

theorem Taken.count {T : Transform} {msg : List UInt8} {ctx : Sha256Ctx} (h : Taken T msg ctx) :
    ctx.count = UInt64.ofNat msg.length <<< 3 := by
  obtain ⟨bytes, streams, rfl⟩ := h
  rw [inBits, streams.count]

theorem Taken.padAlmost {T : Transform} {msg old : List UInt8} {n : Nat} {ctx : Sha256Ctx}
    (h : Taken T (msg ++ old) ctx) (hold : old.length = n)
    (hroom : (leftover 64 msg).length + n < 56) :
    ∃ ctx', sha256PadAlmost T ctx = some ctx' ∧ ctx'.state = shaBlocks T sha256Iv msg ∧
      Patchable msg n ctx'.buf := by
  have hlen : (leftover 64 msg ++ old).length = (leftover 64 msg).length + n := by
    rw [List.length_append, hold]
  have hleft : leftover 64 (msg ++ old) = leftover 64 msg ++ old := leftover_within (by omega)
  obtain ⟨ctx', hctx, almost⟩ := sha256PadAlmost_eq h (by rw [hleft]; omega)
  refine ⟨ctx', hctx, ?_, old, hold, ?_⟩
  · rw [almost.state, shaBlocks_within T (by omega)]
  · rw [almost.buf, hleft, hlen, h.count, List.length_append, hold, List.append_assoc]

theorem pbkdf2FastRounds_eq (T : Transform) {msgI msgO : List UInt8}
    (hI : (leftover 64 msgI).length + 4 < 56) (hO : leftover 64 msgO = []) {count : Nat}
    (hn : count < 2 ^ 32) {ibuf obuf : ShaBlock} (hi : Patchable msgI 4 ibuf)
    (ho : Patchable msgO 32 obuf) :
    (forUp 0 count 1 (pbkdf2FastRound T (shaBlocks T sha256Iv msgI) (shaBlocks T sha256Iv msgO)
        (leftover 64 msgI).length) (ibuf, obuf, [])).2.2 =
      (List.range count).flatMap fun i => keyedHash T msgI msgO (int32Bytes (i + 1)) := by
  have loop := @forUp_inv_unit _ 0 count (Nat.zero_le _)
    (pbkdf2FastRound T (shaBlocks T sha256Iv msgI) (shaBlocks T sha256Iv msgO)
      (leftover 64 msgI).length) (ibuf, obuf, [])
    (fun i s => ∃ ibuf' obuf', Patchable msgI 4 ibuf' ∧ Patchable msgO 32 obuf' ∧
      s = (ibuf', obuf', (List.range i).flatMap fun i =>
        keyedHash T msgI msgO (int32Bytes (i + 1))))
    ⟨ibuf, obuf, hi, ho, rfl⟩ (by
      rintro i s - hlt ⟨ibuf', obuf', hi', ho', rfl⟩
      obtain ⟨ibuf'', obuf'', hround, hi'', ho''⟩ :=
        pbkdf2FastRound_eq T hI hO (i := i) (by omega) _ hi' ho'
      refine ⟨ibuf'', obuf'', hi'', ho'', ?_⟩
      rw [hround, List.range_succ, List.flatMap_append, List.flatMap_singleton])
  obtain ⟨_, _, _, _, hs⟩ := loop
  rw [hs]

theorem pbkdf2Fast_eq {T : Transform} {inner outer : List UInt8} {hctx : HmacSha256Ctx}
    (hi : Taken T inner hctx.ictx) (ho : Taken T outer hctx.octx) (hinner : inner.length = 64)
    (houter : outer.length = 64) {salt : List UInt8} {dkLen : Nat} (hdk : dkLen ≤ 32 * 0xffffffff)
    (hwhole : dkLen &&& 31 = 0) (hroom : salt.length &&& 63 ≤ 51) :
    pbkdf2Fast T hctx salt dkLen =
      some (pbkdf2 (keyedHash T inner outer) salt 32 1 dkLen) := by
  have hsalt := hi.update salt
  have hzeros := hsalt.update [0, 0, 0, 0]
  have hmod : (leftover 64 (inner ++ salt)).length = salt.length % 64 := by
    rw [leftover_length (by omega), List.length_append, hinner, Nat.add_mod_left]
  have hfits : (leftover 64 (inner ++ salt)).length + 4 < 56 := by
    rw [show (63 : Nat) = 2 ^ 6 - 1 from rfl, Nat.and_two_pow_sub_one_eq_mod] at hroom
    omega
  have hO : leftover 64 outer = [] := by
    apply List.eq_nil_of_length_eq_zero
    rw [leftover_length (by omega), houter]
  have hdiv : dkLen % 32 = 0 := by
    rwa [show (31 : Nat) = 2 ^ 5 - 1 from rfl, Nat.and_two_pow_sub_one_eq_mod] at hwhole
  have hold : ((hmacSha256Update T hctx salt).ictx.count &&& countMask).toNat = _ := hsalt.oldcount
  have hnew : ((hmacSha256Update T (hmacSha256Update T hctx salt) [0, 0, 0, 0]).ictx.count &&&
      countMask).toNat = _ := hzeros.oldcount
  rw [leftover_within (by rw [List.length_append]; exact Nat.lt_trans hfits (by decide)),
    List.length_append] at hnew
  -- the counter stays within the block
  have hgrows : ¬((hmacSha256Update T (hmacSha256Update T hctx salt) [0, 0, 0, 0]).ictx.count &&&
      countMask < (hmacSha256Update T hctx salt).ictx.count &&& countMask) := by
    rw [UInt64.lt_iff_toNat_lt, hold, hnew]
    omega
  have hplace : (((hmacSha256Update T hctx salt).ictx.count &&& countMask) >>> 3).toNat =
      (leftover 64 (inner ++ salt)).length := by
    rw [UInt64.toNat_shiftRight, hold, show (3 : UInt64).toNat % 64 = 3 from rfl,
      Nat.shiftRight_eq_div_pow]
    omega
  obtain ⟨ictx, hictx, histate, hibuf⟩ := hzeros.padAlmost rfl hfits
  obtain ⟨garbage, hgarbage, hskip⟩ := ho.skip (n := 32) (by rw [hO]; decide)
  obtain ⟨octx, hoctx, hostate, hobuf⟩ := hskip.padAlmost hgarbage (by rw [hO]; decide)
  have hblocks := @pbkdf2FastRounds_eq T _ _ hfits hO ((dkLen + 31) / 32) (by omega) _ _ hibuf hobuf
  have hout : pbkdf2Fast T hctx salt dkLen = some ((List.range ((dkLen + 31) / 32)).flatMap fun i =>
      keyedHash T (inner ++ salt) outer (int32Bytes (i + 1))) := by
    rw [← hblocks, ← histate, ← hostate, ← hplace]
    have hictx' : sha256PadAlmost T (hmacSha256Update T (hmacSha256Update T hctx salt)
        [0, 0, 0, 0]).ictx = some ictx := hictx
    have hoctx' : (sha256PadAlmost T { hctx.octx with
        count := hctx.octx.count + (32 : UInt64) <<< 3 }).getD { hctx.octx with
          count := hctx.octx.count + (32 : UInt64) <<< 3 } = octx :=
      congrArg (Option.getD · _) hoctx
    unfold pbkdf2Fast
    dsimp only
    rw [if_neg hgrows, hictx', ← hoctx']
    rfl
  rw [hout, pbkdf2, List.take_of_length_le (by
    rw [length_flatMap_pieces fun i => length_pbkdf2Block length_keyedHash salt Nat.one_pos _,
      List.length_range]
    omega)]
  simp only [pbkdf2Block_one, keyedHash, List.append_assoc]
  rfl

theorem ypPbkdf2Sha256_eq (T : Transform) (stack : HmacSha256Ctx) (passwd salt : List UInt8)
    (c : Nat) {dkLen : Nat} (hdk : dkLen ≤ 32 * 0xffffffff) :
    ypPbkdf2Sha256 T stack passwd salt c dkLen =
      some (pbkdf2 (hmac (shaDigest T) 64 passwd) salt 32 (max c 1) dkLen) := by
  have hkey : ∀ c : UInt8, ((hmacKey (shaDigest T) 64 passwd).map (· ^^^ c)).length = 64 := by
    intro c
    rw [List.length_map, length_hmacKey (by rw [length_shaDigest]; decide)]
  unfold ypPbkdf2Sha256
  rw [if_neg (Nat.not_lt.mpr hdk)]
  split
  · rename_i hfast
    obtain ⟨rfl, hwhole, hroom⟩ := hfast
    obtain ⟨hi, ho⟩ := hmacSha256Init_taken T stack passwd
    rw [pbkdf2Fast_eq hi ho (hkey _) (hkey _) hdk hwhole hroom]
    rfl
  · rw [pbkdf2Generic_eq T stack passwd salt c hdk]

theorem pbkdf2_shaDigest_eq (T : Transform) {passwd salt : List UInt8}
    (hpasswd : passwd.length < 2 ^ 61) (hsalt : salt.length + 68 < 2 ^ 61) (c dkLen : Nat) :
    pbkdf2 (hmac (shaDigest T) 64 passwd) salt 32 c dkLen =
      pbkdf2 (hmac (fipsDigest T) 64 passwd) salt 32 c dkLen := by
  have hlen : ∀ text, (hmac (fipsDigest T) 64 passwd text).length = 32 := fun _ => rfl
  refine pbkdf2_congr hlen (fun i => ?_) (fun text htext => ?_) _ _
  · refine hmac_shaDigest_eq _ hpasswd ?_
    rw [List.length_append, show (int32Bytes i).length = 4 from rfl]
    omega
  · exact hmac_shaDigest_eq _ hpasswd (by omega)

/-- Whatever the stack and the scratch hold, the key is the one that the general function
derives over the hash of the standard; no iteration counts as one. -/
theorem ypPbkdf2Sha256_fips (W : Nat → UInt32) (stack : HmacSha256Ctx) {passwd salt : List UInt8}
    (hpasswd : passwd.length < 2 ^ 61) (hsalt : salt.length + 68 < 2 ^ 61) (c : Nat) {dkLen : Nat}
    (hdk : dkLen ≤ 32 * 0xffffffff) :
    ypPbkdf2Sha256 (sha256Transform W) stack passwd salt c dkLen =
      some (pbkdf2 (hmac (fipsDigest fipsTransform) 64 passwd) salt 32 (max c 1) dkLen) := by
  rw [sha256Transform_eq, ypPbkdf2Sha256_eq _ _ _ _ _ hdk, pbkdf2_shaDigest_eq _ hpasswd hsalt]

/-- Two blocks of a password, counted up in the padded block of the salt. -/
theorem ypPbkdf2Sha256_fips_fast :
    ypPbkdf2Sha256 (sha256Transform fun _ => 0xcccccccc)
        ⟨⟨fun _ => 7, 9, fun _ => 0xcc⟩, ⟨fun _ => 7, 9, fun _ => 0xcc⟩⟩ [0x70, 0x77] [0x73] 1 64 =
      some (pbkdf2 (hmac (fipsDigest fipsTransform) 64 [0x70, 0x77]) [0x73] 32 1 64) :=
  ypPbkdf2Sha256_fips _ _ (by decide) (by decide) 1 (by decide)

end SojCivicLight.Yespower
