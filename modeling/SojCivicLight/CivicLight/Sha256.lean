import Mathlib.Data.Fin.VecNotation
import Mathlib.Data.List.GetD
import SojCivicLight.Library.Blocks

/-! Streaming SHA-256 over an arbitrary block transform. -/

namespace SojCivicLight.CivicLight

open SojCivicLight.Library

abbrev ShaState := Fin 8 → UInt32

abbrev ShaBlock := Fin 64 → UInt8

/-- `sha256_transform_be` -/
abbrev Transform := ShaState → ShaBlock → ShaState

def sha256Iv : ShaState :=
  ![0x6A09E667, 0xBB67AE85, 0x3C6EF372, 0xA54FF53A, 0x510E527F, 0x9B05688C, 0x1F83D9AB,
    0x5BE0CD19]

structure Sha256Context where
  buf : ShaBlock
  state : ShaState
  count : UInt64

/-- `memcpy(buf + off, src, n)`, with `n` the length of `src`. -/
def memcpy (buf : ShaBlock) (off : Nat) (src : List UInt8) : ShaBlock :=
  fun k => if off ≤ k.val ∧ k.val < off + src.length then src.getD (k.val - off) 0 else buf k

def memset (buf : ShaBlock) (off : Nat) (c : UInt8) (n : Nat) : ShaBlock :=
  fun k => if off ≤ k.val ∧ k.val < off + n then c else buf k

/-- The block that starts at a pointer into a message. -/
def blockOf (src : List UInt8) : ShaBlock := fun k => src.getD k.val 0

/-- `bswap_32` of a word as it is stored: its bytes, the first one high. -/
def beBytes32 (w : UInt32) : List UInt8 :=
  [(w >>> 24).toUInt8, (w >>> 16).toUInt8, (w >>> 8).toUInt8, w.toUInt8]

def beBytes64 (w : UInt64) : List UInt8 :=
  [(w >>> 56).toUInt8, (w >>> 48).toUInt8, (w >>> 40).toUInt8, (w >>> 32).toUInt8,
    (w >>> 24).toUInt8, (w >>> 16).toUInt8, (w >>> 8).toUInt8, w.toUInt8]

def stateBytes (state : ShaState) : List UInt8 :=
  (List.finRange 8).flatMap fun i => beBytes32 (state i)

/-- `sha256_ctx_init`; the buffer keeps what it held. -/
def sha256CtxInit (ctx : Sha256Context) : Sha256Context :=
  { ctx with state := sha256Iv, count := 0 }

/-- The loop of `sha256_update` over whole blocks: the state, and the rest of `src`. -/
def sha256UpdateLoop (T : Transform) (state : ShaState) (src : List UInt8) :
    ShaState × List UInt8 :=
  if 64 ≤ src.length then
    sha256UpdateLoop T (T state (blockOf src)) (src.drop 64)
  else
    (state, src)
termination_by src.length

def sha256Update (T : Transform) (ctx : Sha256Context) (data : List UInt8) :
    Sha256Context :=
  let ptr := (ctx.count &&& 0x3f).toNat
  let count := ctx.count + UInt64.ofNat data.length
  if data.length < 64 - ptr then
    { ctx with buf := memcpy ctx.buf ptr data, count }
  else
    let buf := memcpy ctx.buf ptr (data.take (64 - ptr))
    let state := T ctx.state buf
    let (state, src) := sha256UpdateLoop T state (data.drop (64 - ptr))
    { buf := memcpy buf 0 src, state, count }

/-- The blocks `sha256_final` adds behind the `ptr` bytes that are buffered: a mark, zeros
and the length. -/
def sha256FinalBlocks (T : Transform) (state : ShaState) (buf : ShaBlock) (ptr : Nat)
    (len : List UInt8) : ShaState :=
  let buf := memset buf ptr 0x80 1
  let ptr := ptr + 1
  if 56 < ptr then
    let buf := memset buf ptr 0 (64 - ptr)
    let state := T state buf
    let buf := memset buf 0 0 56
    T state (memcpy buf 56 len)
  else
    let buf := memset buf ptr 0 (56 - ptr)
    T state (memcpy buf 56 len)

/-- `sha256_final`: the hash it writes. -/
def sha256Final (T : Transform) (ctx : Sha256Context) : List UInt8 :=
  stateBytes (sha256FinalBlocks T ctx.state ctx.buf (ctx.count &&& 0x3f).toNat
    (beBytes64 (ctx.count <<< 3)))

/-- `sha256_full`; `stack` is what its context held before. -/
def sha256Full (T : Transform) (stack : Sha256Context) (data : List UInt8) : List UInt8 :=
  sha256Final T (sha256Update T (sha256CtxInit stack) data)

/-! What a context holds after part of a message, and the digest of a message. -/

def shaStep (T : Transform) (state : ShaState) (block : List UInt8) : ShaState :=
  T state (blockOf block)

abbrev shaBlocks (T : Transform) (state : ShaState) (msg : List UInt8) : ShaState :=
  foldBlocks 64 (shaStep T) state msg

/-- The buffer starts with `pre`. -/
def Holds (buf : ShaBlock) (pre : List UInt8) : Prop :=
  ∀ k : Fin 64, k.val < pre.length → buf k = pre.getD k.val 0

/-- The context has taken in `msg`. -/
structure Streams (T : Transform) (msg : List UInt8) (ctx : Sha256Context) : Prop where
  count : ctx.count = UInt64.ofNat msg.length
  state : ctx.state = shaBlocks T sha256Iv msg
  buf : Holds ctx.buf (leftover 64 msg)

theorem streams_sha256CtxInit (T : Transform) (ctx : Sha256Context) :
    Streams T [] (sha256CtxInit ctx) :=
  { count := rfl
    state := (foldBlocks_short (by simp)).symm
    buf := fun k hk => absurd hk (by simp [leftover]) }

theorem Streams.ptr {T : Transform} {msg : List UInt8} {ctx : Sha256Context}
    (h : Streams T msg ctx) : (ctx.count &&& 0x3f).toNat = (leftover 64 msg).length := by
  have hmask : (0x3f : UInt64).toNat = 2 ^ 6 - 1 := rfl
  rw [h.count, leftover_length (by omega), UInt64.toNat_and, hmask,
    Nat.and_two_pow_sub_one_eq_mod, UInt64.toNat_ofNat']
  omega

theorem blockOf_take (src : List UInt8) : blockOf (src.take 64) = blockOf src := by
  funext k
  simp [blockOf, List.getD_eq_getElem?_getD, k.isLt]

theorem sha256UpdateLoop_eq (T : Transform) (state : ShaState) (src : List UInt8) :
    sha256UpdateLoop T state src = (shaBlocks T state src, leftover 64 src) := by
  induction state, src using sha256UpdateLoop.induct T with
  | case1 state src h ih =>
      rw [sha256UpdateLoop, if_pos h, ih, shaBlocks, shaBlocks, ← leftover_drop (by omega) h,
        foldBlocks.eq_1 64 _ state src, dif_pos ⟨by omega, h⟩, shaStep, blockOf_take]
  | case2 state src h =>
      have hshort : src.length < 64 := by omega
      rw [sha256UpdateLoop, if_neg h, shaBlocks, foldBlocks_short hshort,
        leftover_short hshort]

theorem holds_nil (buf : ShaBlock) : Holds buf [] :=
  fun k hk => absurd hk (Nat.not_lt_zero k.val)

theorem Holds.memcpy {buf : ShaBlock} {pre : List UInt8} (h : Holds buf pre)
    (src : List UInt8) : Holds (memcpy buf pre.length src) (pre ++ src) := by
  intro k hk
  rw [List.length_append] at hk
  unfold CivicLight.memcpy
  by_cases hpre : k.val < pre.length
  · rw [if_neg (by omega), h k hpre, List.getD_append _ _ _ _ hpre]
  · rw [if_pos (by omega), List.getD_append_right _ _ _ _ (by omega)]

theorem memset_eq_memcpy (buf : ShaBlock) (off : Nat) (c : UInt8) (n : Nat) :
    memset buf off c n = memcpy buf off (List.replicate n c) := by
  funext k
  unfold memset memcpy
  rw [List.length_replicate]
  by_cases hin : off ≤ k.val ∧ k.val < off + n
  · rw [if_pos hin, if_pos hin, List.getD_replicate _ (by omega)]
  · rw [if_neg hin, if_neg hin]

theorem Holds.memset {buf : ShaBlock} {pre : List UInt8} (h : Holds buf pre) (c : UInt8)
    (n : Nat) : Holds (memset buf pre.length c n) (pre ++ List.replicate n c) := by
  rw [memset_eq_memcpy]
  exact h.memcpy _

theorem Holds.block {buf : ShaBlock} {pre : List UInt8} (h : Holds buf pre)
    (hlen : pre.length = 64) : buf = blockOf pre :=
  funext fun k => h k (by omega)

theorem streams_sha256Update {T : Transform} {msg : List UInt8} {ctx : Sha256Context}
    (h : Streams T msg ctx) (data : List UInt8) :
    Streams T (msg ++ data) (sha256Update T ctx data) := by
  have hmod : (leftover 64 msg).length < 64 := by
    rw [leftover_length (by omega)]
    omega
  have hcount : ctx.count + UInt64.ofNat data.length = UInt64.ofNat (msg ++ data).length := by
    rw [h.count, List.length_append, UInt64.ofNat_add]
  unfold sha256Update
  simp only [h.ptr]
  by_cases hshort : data.length < 64 - (leftover 64 msg).length
  · -- the data fits behind the buffered bytes
    have hsmall : (leftover 64 msg ++ data).length < 64 := by
      rw [List.length_append]
      omega
    have hleft : leftover 64 (msg ++ data) = leftover 64 msg ++ data := by
      rw [leftover_append (by omega), leftover_short hsmall]
    rw [if_pos hshort]
    refine ⟨hcount, ?_, ?_⟩
    · rw [h.state, shaBlocks, shaBlocks, foldBlocks_append (by omega) sha256Iv msg data,
        foldBlocks_short hsmall]
    · rw [hleft]
      exact h.buf.memcpy data
  · -- the buffered block is filled and the rest is taken block by block
    rw [if_neg hshort, sha256UpdateLoop_eq]
    have hfull : (leftover 64 msg ++ data.take (64 - (leftover 64 msg).length)).length = 64 := by
      rw [List.length_append, List.length_take]
      omega
    have hsplit : leftover 64 msg ++ data =
        leftover 64 msg ++ data.take (64 - (leftover 64 msg).length) ++
          data.drop (64 - (leftover 64 msg).length) := by
      rw [List.append_assoc, List.take_append_drop]
    have hleft : leftover 64 (msg ++ data) =
        leftover 64 (data.drop (64 - (leftover 64 msg).length)) := by
      rw [leftover_append (by omega), hsplit,
        ← leftover_drop (by omega) (by rw [List.length_append]; omega),
        List.drop_left' hfull]
    refine ⟨hcount, ?_, ?_⟩
    · rw [h.state, (h.buf.memcpy _).block hfull, shaBlocks, shaBlocks, shaBlocks,
        foldBlocks_append (by omega) sha256Iv msg data, hsplit, foldBlocks_block (by omega) hfull,
        shaStep]
    · rw [hleft]
      exact (holds_nil _).memcpy _

/-! The digest. -/

def shaPadding (n : Nat) (len : List UInt8) : List UInt8 :=
  List.replicate 1 0x80 ++ List.replicate ((119 - n) % 64) 0 ++ len

def shaPadded (msg : List UInt8) : List UInt8 :=
  msg ++ shaPadding (msg.length % 64) (beBytes64 (UInt64.ofNat msg.length <<< 3))

/-- The digest of a message: its padding folded from the initial state. -/
def shaDigest (T : Transform) (msg : List UInt8) : List UInt8 :=
  stateBytes (shaBlocks T sha256Iv (shaPadded msg))

theorem sha256FinalBlocks_eq (T : Transform) (state : ShaState) {buf : ShaBlock}
    {pre len : List UInt8} (h : Holds buf pre) (hpre : pre.length < 64)
    (hlen : len.length = 8) :
    sha256FinalBlocks T state buf pre.length len =
      shaBlocks T state (pre ++ shaPadding pre.length len) := by
  have hmark := h.memset 0x80 1
  have hptr : pre.length + 1 = (pre ++ List.replicate 1 0x80).length := by simp
  unfold sha256FinalBlocks shaPadding
  by_cases hlong : 56 < pre.length + 1
  · -- the length does not fit behind the mark, so the zeros run through a second block
    have hfirst : (pre ++ List.replicate 1 0x80 ++
        List.replicate (64 - (pre.length + 1)) (0 : UInt8)).length = 64 := by
      simp
      omega
    have hlast : (List.replicate 56 (0 : UInt8) ++ len).length = 64 := by simp [hlen]
    have hzeros : List.replicate ((119 - pre.length) % 64) (0 : UInt8) =
        List.replicate (64 - (pre.length + 1)) 0 ++ List.replicate 56 0 := by
      rw [List.replicate_append_replicate]
      congr 1
      omega
    have hblock := (hmark.memset 0 (64 - (pre.length + 1))).block hfirst
    have hblock' := (((holds_nil (blockOf (pre ++ List.replicate 1 0x80 ++
      List.replicate (64 - (pre.length + 1)) 0))).memset 0 56).memcpy len).block (by
        simpa using hlast)
    have hsplit : pre ++ (List.replicate 1 0x80 ++ List.replicate ((119 - pre.length) % 64) 0 ++
        len) = (pre ++ List.replicate 1 0x80 ++ List.replicate (64 - (pre.length + 1)) 0) ++
          (List.replicate 56 0 ++ len) := by
      rw [hzeros]
      simp only [List.append_assoc]
    rw [← hptr] at hblock
    simp only [List.length_nil, List.nil_append, List.length_replicate] at hblock'
    simp only [if_pos hlong]
    rw [hsplit, shaBlocks, foldBlocks_block (by omega) hfirst, foldBlocks_one (by omega) hlast,
      hblock, hblock', shaStep, shaStep]
  · have hone : (pre ++ List.replicate 1 0x80 ++
        List.replicate (56 - (pre.length + 1)) (0 : UInt8) ++ len).length = 64 := by
      simp [hlen]
      omega
    have hpad : (119 - pre.length) % 64 = 56 - (pre.length + 1) := by omega
    have h56 : (pre ++ List.replicate 1 0x80 ++
        List.replicate (56 - (pre.length + 1)) (0 : UInt8)).length = 56 := by
      simp
      omega
    have hblock := ((hmark.memset 0 (56 - (pre.length + 1))).memcpy len).block hone
    rw [← hptr, h56] at hblock
    simp only [if_neg hlong]
    rw [hpad, shaBlocks, ← List.append_assoc, ← List.append_assoc,
      foldBlocks_one (by omega) hone, hblock, shaStep]

/-- `sha256_final` writes the digest of what the context has taken in. -/
theorem sha256Final_eq {T : Transform} {msg : List UInt8} {ctx : Sha256Context}
    (h : Streams T msg ctx) : sha256Final T ctx = shaDigest T msg := by
  have hlen : (leftover 64 msg).length = msg.length % 64 := leftover_length (by omega)
  rw [sha256Final, h.ptr, sha256FinalBlocks_eq T _ h.buf (by omega) rfl, shaDigest, shaPadded,
    shaBlocks, shaBlocks, foldBlocks_append (by omega) sha256Iv msg, h.state, h.count, hlen]

/-- What the context of `sha256_full` held before makes no difference. -/
theorem sha256Full_eq (T : Transform) (stack : Sha256Context) (data : List UInt8) :
    sha256Full T stack data = shaDigest T data := by
  have h := streams_sha256Update (streams_sha256CtxInit T stack) data
  exact sha256Final_eq h

end SojCivicLight.CivicLight
