import SojCivicLight.Library.Hmac
import SojCivicLight.Yespower.YpSha256

/-! The streaming SHA-256 of yespower, which counts bits, and HMAC over it. -/

namespace SojCivicLight.Yespower

open SojCivicLight.Library
open SojCivicLight.CivicLight

/-- `SHA256_CTX` -/
structure Sha256Ctx where
  state : ShaState
  count : UInt64
  buf : ShaBlock

/-- `PAD` -/
def padBytes : List UInt8 := 0x80 :: List.replicate 63 0

def initialState : ShaState :=
  ![0x6A09E667, 0xBB67AE85, 0x3C6EF372, 0xA54FF53A, 0x510E527F, 0x9B05688C, 0x1F83D9AB,
    0x5BE0CD19]

/-- `(ctx->count >> 3) & 0x3f` -/
def Sha256Ctx.buffered (ctx : Sha256Ctx) : Nat := ((ctx.count >>> 3) &&& 0x3f).toNat

section

variable (T : Transform)

def sha256Pad (ctx : Sha256Ctx) : Sha256Ctx :=
  let r := ctx.buffered
  let ctx :=
    if r < 56 then { ctx with buf := memcpy ctx.buf r (padBytes.take (56 - r)) }
    else
      let buf := memcpy ctx.buf r (padBytes.take (64 - r))
      { ctx with state := T ctx.state buf, buf := memset buf 0 0 56 }
  let buf := memcpy ctx.buf 56 (beBytes64 ctx.count)
  { ctx with state := T ctx.state buf, buf }

def ypSha256Init (ctx : Sha256Ctx) : Sha256Ctx := { ctx with count := 0, state := initialState }

def ypSha256Update (ctx : Sha256Ctx) (data : List UInt8) : Sha256Ctx :=
  if data.length = 0 then ctx
  else
    let r := ctx.buffered
    let count := ctx.count + UInt64.ofNat data.length <<< 3
    if data.length < 64 - r then
      { ctx with count, buf := memcpy ctx.buf r data }
    else
      let buf := memcpy ctx.buf r (data.take (64 - r))
      let state := T ctx.state buf
      let (state, src) := sha256UpdateLoop T state (data.drop (64 - r))
      { state, count, buf := memcpy buf 0 src }

/-- `_SHA256_Final`: the digest, and the context as it leaves it. -/
def ypSha256Final (ctx : Sha256Ctx) : List UInt8 × Sha256Ctx :=
  let ctx := sha256Pad T ctx
  (stateBytes ctx.state, ctx)

/-- `YP_SHA256_Buf`; `stack` is what the context held before. -/
def ypSha256Buf (stack : Sha256Ctx) (data : List UInt8) : List UInt8 :=
  (ypSha256Final T (ypSha256Update T (ypSha256Init stack) data)).1

/-- `HMAC_SHA256_CTX` -/
structure HmacSha256Ctx where
  ictx : Sha256Ctx
  octx : Sha256Ctx

/-- `memset(pad, c, 64)` and the loop over the key. -/
def keyPad (c : UInt8) (K : List UInt8) : List UInt8 :=
  forUp 0 K.length 1 (fun i pad => pad.set i (pad.getD i 0 ^^^ K.getD i 0)) (List.replicate 64 c)

def hmacSha256Init (ctx : HmacSha256Ctx) (K : List UInt8) : HmacSha256Ctx :=
  let (K, ictx) :=
    if 64 < K.length then ypSha256Final T (ypSha256Update T (ypSha256Init ctx.ictx) K)
    else (K, ctx.ictx)
  { ictx := ypSha256Update T (ypSha256Init ictx) (keyPad 0x36 K)
    octx := ypSha256Update T (ypSha256Init ctx.octx) (keyPad 0x5c K) }

def hmacSha256Update (ctx : HmacSha256Ctx) (data : List UInt8) : HmacSha256Ctx :=
  { ctx with ictx := ypSha256Update T ctx.ictx data }

def hmacSha256Final (ctx : HmacSha256Ctx) : List UInt8 :=
  let (ihash, _) := ypSha256Final T ctx.ictx
  (ypSha256Final T (ypSha256Update T ctx.octx ihash)).1

/-- `YP_HMAC_SHA256_Buf` -/
def ypHmacSha256Buf (stack : HmacSha256Ctx) (K data : List UInt8) : List UInt8 :=
  hmacSha256Final T (hmacSha256Update T (hmacSha256Init T stack K) data)

end

/-! A context that counts bits beside one that counts bytes. -/

def inBits (ctx : Sha256Context) : Sha256Ctx := ⟨ctx.state, ctx.count <<< 3, ctx.buf⟩

/-- The context has taken in `msg`. -/
def Taken (T : Transform) (msg : List UInt8) (ctx : Sha256Ctx) : Prop :=
  ∃ bytes, Streams T msg bytes ∧ ctx = inBits bytes

theorem shiftLeft_three (x : UInt64) : (x <<< 3).toNat = 8 * x.toNat % 2 ^ 64 := by
  rw [UInt64.toNat_shiftLeft, show (3 : UInt64).toNat % 64 = 3 from rfl, Nat.shiftLeft_eq,
    Nat.mul_comm]

theorem buffered_inBits (ctx : Sha256Context) :
    (inBits ctx).buffered = (ctx.count &&& 0x3f).toNat := by
  have hmask : (0x3f : UInt64).toNat = 2 ^ 6 - 1 := rfl
  rw [Sha256Ctx.buffered, inBits, UInt64.toNat_and, UInt64.toNat_and, hmask,
    Nat.and_two_pow_sub_one_eq_mod, Nat.and_two_pow_sub_one_eq_mod, UInt64.toNat_shiftRight,
    shiftLeft_three, show (3 : UInt64).toNat % 64 = 3 from rfl, Nat.shiftRight_eq_div_pow]
  omega

theorem taken_init (T : Transform) (ctx : Sha256Ctx) : Taken T [] (ypSha256Init ctx) :=
  ⟨sha256CtxInit ⟨ctx.buf, ctx.state, 0⟩, streams_sha256CtxInit T _, rfl⟩

theorem count_inBits (x y : UInt64) : x <<< 3 + y <<< 3 = (x + y) <<< 3 := by
  apply UInt64.toNat_inj.mp
  rw [UInt64.toNat_add, shiftLeft_three, shiftLeft_three, shiftLeft_three, UInt64.toNat_add]
  omega

theorem memcpy_nil (buf : ShaBlock) (off : Nat) : memcpy buf off [] = buf := by
  funext k
  exact if_neg (fun h => Nat.not_lt.mpr h.1 h.2)

theorem update_inBits (T : Transform) (ctx : Sha256Context) (data : List UInt8) :
    ypSha256Update T (inBits ctx) data = inBits (sha256Update T ctx data) := by
  unfold ypSha256Update sha256Update
  rw [buffered_inBits]
  have hptr : (ctx.count &&& 0x3f).toNat < 64 := by
    have hmask : (0x3f : UInt64).toNat = 2 ^ 6 - 1 := rfl
    rw [UInt64.toNat_and, hmask, Nat.and_two_pow_sub_one_eq_mod]
    omega
  cases data with
  | nil =>
      rw [if_pos List.length_nil, if_pos (show [].length < _ by rw [List.length_nil]; omega),
        memcpy_nil]
      rw [show UInt64.ofNat ([] : List UInt8).length = 0 from rfl, UInt64.add_zero]
  | cons byte data =>
      rw [if_neg (show (byte :: data).length ≠ 0 from Nat.succ_ne_zero _)]
      dsimp only
      split
      · exact congrArg (Sha256Ctx.mk _ · _) (count_inBits _ _)
      · exact congrArg (Sha256Ctx.mk _ · _) (count_inBits _ _)

theorem Taken.update {T : Transform} {msg : List UInt8} {ctx : Sha256Ctx} (h : Taken T msg ctx)
    (data : List UInt8) : Taken T (msg ++ data) (ypSha256Update T ctx data) := by
  obtain ⟨bytes, streams, rfl⟩ := h
  exact ⟨_, streams_sha256Update streams data, update_inBits T bytes data⟩

theorem memcpy_append (buf : ShaBlock) (off : Nat) (xs ys : List UInt8) :
    memcpy buf off (xs ++ ys) = memcpy (memcpy buf off xs) (off + xs.length) ys := by
  funext k
  unfold memcpy
  rw [List.length_append]
  by_cases hys : off + xs.length ≤ k.val
  · by_cases hin : k.val < off + xs.length + ys.length
    · rw [if_pos (by omega), if_pos ⟨hys, hin⟩, List.getD_append_right _ _ _ _ (by omega),
        Nat.sub_sub]
    · rw [if_neg (by omega), if_neg (by omega), if_neg (by omega)]
  · by_cases hin : off ≤ k.val
    · rw [if_pos (by omega), if_neg (by omega), if_pos (by omega),
        List.getD_append _ _ _ _ (by omega)]
    · rw [if_neg (by omega), if_neg (by omega), if_neg (by omega)]

theorem memcpy_padBytes (buf : ShaBlock) (off : Nat) {n : Nat} (hn : n ≤ 63) :
    memcpy buf off (padBytes.take (n + 1)) = memset (memset buf off 0x80 1) (off + 1) 0 n := by
  have hpad : padBytes.take (n + 1) = List.replicate 1 0x80 ++ List.replicate n 0 := by
    rw [padBytes, List.take_succ_cons, List.take_replicate, Nat.min_eq_left hn]
    rfl
  rw [hpad, memcpy_append, memset_eq_memcpy, memset_eq_memcpy, List.length_replicate]

theorem sha256Pad_inBits (T : Transform) (ctx : Sha256Context) :
    (sha256Pad T (inBits ctx)).state =
      sha256FinalBlocks T ctx.state ctx.buf (ctx.count &&& 0x3f).toNat
        (beBytes64 (ctx.count <<< 3)) := by
  have hptr : (ctx.count &&& 0x3f).toNat < 64 := by
    have hmask : (0x3f : UInt64).toNat = 2 ^ 6 - 1 := rfl
    rw [UInt64.toNat_and, hmask, Nat.and_two_pow_sub_one_eq_mod]
    omega
  unfold sha256Pad sha256FinalBlocks
  rw [buffered_inBits]
  generalize (ctx.count &&& 0x3f).toNat = r at hptr ⊢
  dsimp only
  by_cases hshort : r < 56
  · rw [if_pos hshort, if_neg (by omega), show 56 - r = 56 - (r + 1) + 1 by omega,
      memcpy_padBytes _ _ (by omega)]
    rfl
  · rw [if_neg hshort, if_pos (by omega), show 64 - r = 64 - (r + 1) + 1 by omega,
      memcpy_padBytes _ _ (by omega)]
    rfl

theorem Taken.final {T : Transform} {msg : List UInt8} {ctx : Sha256Ctx} (h : Taken T msg ctx) :
    (ypSha256Final T ctx).1 = shaDigest T msg := by
  obtain ⟨bytes, streams, rfl⟩ := h
  rw [← sha256Final_eq streams, sha256Final, ← sha256Pad_inBits]
  rfl

theorem Taken.updates {T : Transform} {msg : List UInt8} {ctx : Sha256Ctx} (h : Taken T msg ctx)
    (chunks : List (List UInt8)) :
    Taken T (msg ++ chunks.flatten) (chunks.foldl (ypSha256Update T) ctx) := by
  induction chunks generalizing msg ctx with
  | nil =>
      rw [List.flatten_nil, List.append_nil]
      exact h
  | cons chunk chunks ih =>
      rw [List.flatten_cons, ← List.append_assoc]
      exact ih (h.update chunk)

/-- However a message is cut into updates, and whatever the context and the scratch of the
transform held before, the result is the hash of the standard. -/
theorem ypSha256_streaming (W : Nat → UInt32) (ctx : Sha256Ctx) (chunks : List (List UInt8))
    (hlen : chunks.flatten.length < 2 ^ 61) :
    (ypSha256Final (sha256Transform W)
        (chunks.foldl (ypSha256Update (sha256Transform W)) (ypSha256Init ctx))).1 =
      fipsDigest fipsTransform chunks.flatten := by
  have taken := (taken_init (sha256Transform W) ctx).updates chunks
  rw [List.nil_append] at taken
  rw [taken.final, sha256Transform_eq, shaDigest_eq fipsTransform hlen]

theorem ypSha256_streaming_abc :
    (ypSha256Final (sha256Transform fun _ => 0xcccccccc)
        ([[0x61], [], [0x62, 0x63]].foldl (ypSha256Update (sha256Transform fun _ => 0xcccccccc))
          (ypSha256Init ⟨fun _ => 7, 5, fun _ => 0xff⟩))).1 =
      fipsDigest fipsTransform [0x61, 0x62, 0x63] :=
  ypSha256_streaming _ _ [[0x61], [], [0x62, 0x63]] (by decide)

theorem ypSha256Buf_eq (T : Transform) (stack : Sha256Ctx) (data : List UInt8) :
    ypSha256Buf T stack data = shaDigest T data :=
  ((taken_init T stack).update data).final

@[simp] theorem length_shaDigest (T : Transform) (msg : List UInt8) :
    (shaDigest T msg).length = 32 := rfl

/-! HMAC. -/

theorem keyPad_eq (c : UInt8) {K : List UInt8} (hK : K.length ≤ 64) :
    keyPad c K = (K ++ List.replicate (64 - K.length) 0).map (· ^^^ c) := by
  have loop : keyPad c K = (K.take K.length).map (· ^^^ c) ++ List.replicate (64 - K.length) c := by
    refine forUp_inv_unit (Nat.zero_le _)
      (fun i pad => pad = (K.take i).map (· ^^^ c) ++ List.replicate (64 - i) c) rfl ?_
    rintro i pad - hi rfl
    have hlen : ((K.take i).map (· ^^^ c)).length = i := by
      rw [List.length_map, List.length_take]
      omega
    have hrest : List.replicate (64 - i) c = c :: List.replicate (64 - (i + 1)) c := by
      rw [← List.replicate_succ]
      congr 1
      omega
    have hget : ((K.take i).map (· ^^^ c) ++ List.replicate (64 - i) c).getD i 0 = c := by
      rw [List.getD_append_right _ _ _ _ (by omega), hlen, Nat.sub_self, hrest,
        List.getD_cons_zero]
    have hset := List.set_append_right (s := (K.take i).map (· ^^^ c))
      (t := List.replicate (64 - i) c) i (c ^^^ K.getD i 0) (by omega)
    rw [hget, hset, hlen, Nat.sub_self, hrest, List.set_cons_zero,
      List.take_succ_eq_append_getElem hi, List.map_append, List.append_assoc,
      List.getD_eq_getElem _ _ hi, UInt8.xor_comm]
    rfl
  rw [loop, List.take_length, List.map_append, List.map_replicate, UInt8.zero_xor]

theorem hmacSha256Init_taken (T : Transform) (ctx : HmacSha256Ctx) (K : List UInt8) :
    Taken T ((hmacKey (shaDigest T) 64 K).map (· ^^^ 0x36)) (hmacSha256Init T ctx K).ictx ∧
      Taken T ((hmacKey (shaDigest T) 64 K).map (· ^^^ 0x5c)) (hmacSha256Init T ctx K).octx := by
  have init : ∀ ctx data, Taken T data (ypSha256Update T (ypSha256Init ctx) data) :=
    fun ctx data => (taken_init T ctx).update data
  unfold hmacSha256Init hmacKey
  by_cases hlong : 64 < K.length
  · have hash : (ypSha256Final T (ypSha256Update T (ypSha256Init ctx.ictx) K)).1 = shaDigest T K :=
      (init ctx.ictx K).final
    have hlen : (ypSha256Final T (ypSha256Update T (ypSha256Init ctx.ictx) K)).1.length ≤ 64 := by
      rw [hash, length_shaDigest]
      decide
    rw [if_pos hlong, if_pos hlong, ← hash]
    dsimp only
    rw [← keyPad_eq _ hlen, ← keyPad_eq _ hlen]
    exact ⟨init _ _, init _ _⟩
  · have hlen : K.length ≤ 64 := Nat.le_of_not_lt hlong
    rw [if_neg hlong, if_neg hlong]
    dsimp only
    rw [← keyPad_eq _ hlen, ← keyPad_eq _ hlen]
    exact ⟨init _ _, init _ _⟩

theorem hmacSha256Final_eq {T : Transform} {inner outer text : List UInt8} {ctx : HmacSha256Ctx}
    (hi : Taken T inner ctx.ictx) (ho : Taken T outer ctx.octx) :
    hmacSha256Final T (hmacSha256Update T ctx text) =
      shaDigest T (outer ++ shaDigest T (inner ++ text)) := by
  have hash := (hi.update text).final
  unfold hmacSha256Final hmacSha256Update
  dsimp only
  rw [hash]
  exact (ho.update _).final

theorem ypHmacSha256Buf_eq (T : Transform) (stack : HmacSha256Ctx) (K data : List UInt8) :
    ypHmacSha256Buf T stack K data = hmac (shaDigest T) 64 K data := by
  obtain ⟨hi, ho⟩ := hmacSha256Init_taken T stack K
  exact hmacSha256Final_eq hi ho

theorem hmac_shaDigest_eq (T : Transform) {K text : List UInt8} (hK : K.length < 2 ^ 61)
    (htext : text.length + 64 < 2 ^ 61) :
    hmac (shaDigest T) 64 K text = hmac (fipsDigest T) 64 K text := by
  have hkey : (hmacKey (shaDigest T) 64 K).length = 64 :=
    length_hmacKey (by rw [length_shaDigest]; decide)
  have hash : ∀ msg, (fipsDigest T msg).length = 32 := fun _ => rfl
  refine hmac_congr (shaDigest_eq T hK) (fun pad hpad => ?_) (fun pad text' hpad => ?_)
  · refine shaDigest_eq T ?_
    rw [List.length_append, hpad, hkey]
    omega
  · refine shaDigest_eq T ?_
    rw [List.length_append, hpad, hkey, hash]
    decide

theorem hmacSha256Updates_eq {T : Transform} {inner outer : List UInt8} {ctx : HmacSha256Ctx}
    (hi : Taken T inner ctx.ictx) (ho : Taken T outer ctx.octx) (chunks : List (List UInt8)) :
    hmacSha256Final T (chunks.foldl (hmacSha256Update T) ctx) =
      shaDigest T (outer ++ shaDigest T (inner ++ chunks.flatten)) := by
  induction chunks generalizing inner ctx with
  | nil =>
      have hash := hi.final
      unfold hmacSha256Final
      dsimp only [List.foldl_nil]
      rw [hash, List.flatten_nil, List.append_nil]
      exact (ho.update _).final
  | cons chunk chunks ih =>
      rw [List.flatten_cons, ← List.append_assoc]
      exact ih (hi.update chunk) ho

/-- However a text is cut into updates, the result is the code of the standard under the
key, which is hashed where it is longer than a block. -/
theorem hmacSha256_streaming (W : Nat → UInt32) (ctx : HmacSha256Ctx) {K : List UInt8}
    (chunks : List (List UInt8)) (hK : K.length < 2 ^ 61)
    (hlen : chunks.flatten.length + 64 < 2 ^ 61) :
    hmacSha256Final (sha256Transform W) (chunks.foldl (hmacSha256Update (sha256Transform W))
        (hmacSha256Init (sha256Transform W) ctx K)) =
      hmac (fipsDigest fipsTransform) 64 K chunks.flatten := by
  obtain ⟨hi, ho⟩ := hmacSha256Init_taken (sha256Transform W) ctx K
  rw [← hmac_shaDigest_eq fipsTransform hK hlen, hmacSha256Updates_eq hi ho, sha256Transform_eq]
  rfl

theorem hmacSha256_streaming_longKey :
    hmacSha256Final (sha256Transform fun _ => 0)
        ([[0x61], [0x62]].foldl (hmacSha256Update (sha256Transform fun _ => 0))
          (hmacSha256Init (sha256Transform fun _ => 0)
            ⟨⟨fun _ => 7, 5, fun _ => 0xff⟩, ⟨fun _ => 7, 5, fun _ => 0xff⟩⟩
            (List.replicate 65 0x6b))) =
      hmac (fipsDigest fipsTransform) 64 (List.replicate 65 0x6b) [0x61, 0x62] :=
  hmacSha256_streaming _ _ [[0x61], [0x62]] (by decide) (by decide)

end SojCivicLight.Yespower
