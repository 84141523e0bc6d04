import SojCivicLight.CivicLight.SphSha2

/-! The streaming interface of a build without hardware support, which also takes a last part of a
byte: its hash is that of the standard on the bits. -/

namespace SojCivicLight.CivicLight

open SojCivicLight.Library

/-- What a build knows of pointers: `SPH_UPTR` is undefined, it is defined, or also
`SPH_UNALIGNED` is. -/
inductive SphAccess where
  | none
  | uptr
  | unaligned
deriving DecidableEq

/-- `(unsigned)sc->count & (SPH_BLEN - 1U)` -/
def sphCurrent (sc : Sha256Context) : Nat := (sc.count.toUInt32 &&& 63).toNat

/-- The loop of `sha224_short`.  A `current` is below the length of a block wherever the loop
tests its condition. -/
def sphShortLoop (T : Transform) (sc : Sha256Context) (current : Nat) (data : List UInt8) :
    Sha256Context :=
  if _h : 0 < data.length ∧ current < 64 then
    let clen := if data.length < 64 - current then data.length else 64 - current
    let buf := memcpy sc.buf current (data.take clen)
    let count := sc.count + UInt64.ofNat clen
    if current + clen = 64 then
      sphShortLoop T { buf, state := T sc.state buf, count } 0 (data.drop clen)
    else
      sphShortLoop T { sc with buf, count } (current + clen) (data.drop clen)
  else
    sc
termination_by data.length
decreasing_by
  all_goals
    rw [List.length_drop]
    split <;> omega

def sphShort (T : Transform) (sc : Sha256Context) (data : List UInt8) : Sha256Context :=
  sphShortLoop T sc (sphCurrent sc) data

/-- `sph_sha256` on data at an address. -/
def sphSha256 (T : Transform) (access : SphAccess) (sc : Sha256Context) (addr : Nat)
    (data : List UInt8) : Sha256Context :=
  if access = .none ∨ data.length < 2 * 64 then
    sphShort T sc data
  else
    let current := sphCurrent sc
    let t := if 0 < current then 64 - current else 0
    let sc := if 0 < current then sphShort T sc (data.take t) else sc
    let addr := addr + t
    let data := data.drop t
    if access = .uptr ∧ addr % 4 ≠ 0 then
      sphShort T sc data
    else
      let (state, rest) := sha256UpdateLoop T sc.state data
      { buf := memcpy sc.buf 0 rest, state, count := sc.count + UInt64.ofNat data.length }

def sphSha256Init (sc : Sha256Context) : Sha256Context :=
  { sc with state := sha256Iv, count := 0 }

/-- The byte that holds the `n` high bits of `ub` and the mark behind them. -/
def sphMark (ub : UInt32) (n : Nat) : UInt8 :=
  let z := (0x80 : UInt32) >>> UInt32.ofNat n
  (((ub &&& (0 - z)) ||| z) &&& 0xff).toUInt8

/-- The blocks of `sha224_addbits_and_close`. -/
def sphCloseBlocks (T : Transform) (sc : Sha256Context) (ub : UInt32) (n : Nat) : ShaState :=
  let current := sphCurrent sc
  let buf := memset sc.buf current (sphMark ub n) 1
  let current := current + 1
  let len := beBytes64 ((sc.count <<< 3) + UInt64.ofNat n)
  if 56 < current then
    let buf := memset buf current 0 (64 - current)
    let state := T sc.state buf
    T state (memcpy (memset buf 0 0 56) 56 len)
  else
    T sc.state (memcpy (memset buf current 0 (56 - current)) 56 len)

def sphSha256AddbitsAndClose (T : Transform) (sc : Sha256Context) (ub : UInt32) (n : Nat) :
    List UInt8 :=
  stateBytes (sphCloseBlocks T sc ub n)

def sphSha256Close (T : Transform) (sc : Sha256Context) : List UInt8 :=
  sphSha256AddbitsAndClose T sc 0 0

def sphSha256Full (T : Transform) (access : SphAccess) (stack : Sha256Context) (addr : Nat)
    (data : List UInt8) : List UInt8 :=
  sphSha256Close T (sphSha256 T access (sphSha256Init stack) addr data)

/-! What a context has taken in. -/

variable {T : Transform} {msg : List UInt8} {sc : Sha256Context}

theorem sphCurrent_eq (sc : Sha256Context) : sphCurrent sc = (sc.count &&& 0x3f).toNat := by
  have hlow : (63 : UInt32).toNat = 2 ^ 6 - 1 := rfl
  have hhigh : (0x3f : UInt64).toNat = 2 ^ 6 - 1 := rfl
  rw [sphCurrent, UInt32.toNat_and, UInt64.toNat_toUInt32, UInt64.toNat_and, hlow, hhigh,
    Nat.and_two_pow_sub_one_eq_mod, Nat.and_two_pow_sub_one_eq_mod]
  omega

theorem Streams.sphCurrent (h : Streams T msg sc) :
    sphCurrent sc = (leftover 64 msg).length := by
  rw [sphCurrent_eq, h.ptr]

/-- Data that end before the block does, or with it, are one update. -/
theorem sphShort_part {data : List UInt8} (hlen : data.length ≤ 64 - (sc.count &&& 0x3f).toNat)
    (hbelow : (sc.count &&& 0x3f).toNat < 64) :
    sha256Update T sc data =
      let buf := memcpy sc.buf (sc.count &&& 0x3f).toNat data
      { buf
        state := if (sc.count &&& 0x3f).toNat + data.length = 64 then T sc.state buf else sc.state
        count := sc.count + UInt64.ofNat data.length } := by
  unfold sha256Update
  dsimp only
  by_cases hshort : data.length < 64 - (sc.count &&& 0x3f).toNat
  · rw [if_pos hshort, if_neg (by omega)]
  · have hnil : ∀ state, sha256UpdateLoop T state [] = (state, []) := fun state => by
      rw [sha256UpdateLoop, if_neg (by decide)]
    have hcopy : ∀ buf : ShaBlock, memcpy buf 0 [] = buf := fun buf => by
      funext k
      exact if_neg fun hk => Nat.not_lt_zero _ hk.2
    rw [if_neg hshort, if_pos (by omega), List.take_of_length_le (by omega),
      List.drop_of_length_le (by omega), hnil]
    dsimp only
    rw [hcopy]

theorem Streams.sphShortLoop (h : Streams T msg sc) (data : List UInt8) :
    Streams T (msg ++ data) (sphShortLoop T sc (leftover 64 msg).length data) := by
  induction hn : data.length using Nat.strongRecOn generalizing msg sc data with
  | ind n ih =>
      have hbelow : (leftover 64 msg).length < 64 := by
        rw [leftover_length (by decide)]
        omega
      rw [CivicLight.sphShortLoop]
      by_cases hdata : 0 < data.length
      · rw [dif_pos ⟨hdata, hbelow⟩]
        generalize hclen : (if data.length < 64 - (leftover 64 msg).length then data.length
          else 64 - (leftover 64 msg).length) = clen
        have hbounds : 0 < clen ∧ clen ≤ data.length ∧ clen ≤ 64 - (leftover 64 msg).length := by
          split at hclen <;> omega
        have htake : (data.take clen).length = clen := List.length_take_of_le hbounds.2.1
        have hrest : (data.drop clen).length < n := by
          rw [List.length_drop]
          omega
        have hsplit : msg ++ data = msg ++ data.take clen ++ data.drop clen := by
          rw [List.append_assoc, List.take_append_drop]
        have step := streams_sha256Update h (data.take clen)
        rw [sphShort_part (by rw [h.ptr]; omega) (by rw [h.ptr]; omega), h.ptr, htake] at step
        have hleft : (leftover 64 (msg ++ data.take clen)).length =
            ((leftover 64 msg).length + clen) % 64 := by
          rw [leftover_length (by decide), leftover_length (by decide), List.length_append, htake,
            Nat.mod_add_mod]
        have next := ih _ hrest step (data.drop clen) rfl
        rw [hleft, ← hsplit] at next
        dsimp only at next ⊢
        by_cases hfull : (leftover 64 msg).length + clen = 64
        · rw [if_pos hfull, hfull] at next
          rw [if_pos hfull]
          exact next
        · rw [if_neg hfull, Nat.mod_eq_of_lt (by omega)] at next
          rw [if_neg hfull]
          exact next
      · have hnil : data = [] := List.length_eq_zero_iff.mp (by omega)
        rw [dif_neg fun hloop => hdata hloop.1, hnil, List.append_nil]
        exact h

theorem Streams.sphShort (h : Streams T msg sc) (data : List UInt8) :
    Streams T (msg ++ data) (sphShort T sc data) := by
  rw [CivicLight.sphShort, h.sphCurrent]
  exact h.sphShortLoop data

/-- Whole blocks are taken where they lie, once the buffer is empty. -/
theorem Streams.blocks (h : Streams T msg sc) (hempty : leftover 64 msg = []) (data : List UInt8) :
    Streams T (msg ++ data)
      { buf := memcpy sc.buf 0 (leftover 64 data)
        state := shaBlocks T sc.state data
        count := sc.count + UInt64.ofNat data.length } := by
  have hleft : leftover 64 (msg ++ data) = leftover 64 data := by
    rw [leftover_append (by decide), hempty, List.nil_append]
  refine ⟨?_, ?_, ?_⟩
  · dsimp only
    rw [h.count, List.length_append, UInt64.ofNat_add]
  · dsimp only
    rw [h.state, shaBlocks, shaBlocks, shaBlocks, foldBlocks_append (by decide) sha256Iv msg data,
      hempty, List.nil_append]
  · rw [hleft]
    exact (holds_nil _).memcpy _

theorem Streams.sphSha256 (h : Streams T msg sc) (access : SphAccess) (addr : Nat)
    (data : List UInt8) : Streams T (msg ++ data) (sphSha256 T access sc addr data) := by
  unfold CivicLight.sphSha256
  by_cases hshort : access = .none ∨ data.length < 2 * 64
  · rw [if_pos hshort]
    exact h.sphShort data
  · rw [if_neg hshort]
    have hlong : 128 ≤ data.length := by
      rcases Nat.lt_or_ge data.length 128 with hlt | hge
      · exact absurd (Or.inr hlt) hshort
      · exact hge
    rw [h.sphCurrent]
    dsimp only
    -- the block that is begun is completed first
    generalize ht : (if 0 < (leftover 64 msg).length then 64 - (leftover 64 msg).length else 0) = t
    have hlength : (leftover 64 msg).length = msg.length % 64 := leftover_length (by decide)
    have ht64 : t ≤ 64 := by
      split at ht <;> omega
    have hwhole : leftover 64 (msg ++ data.take t) = [] := by
      apply List.length_eq_zero_iff.mp
      rw [leftover_length (by decide), List.length_append, List.length_take_of_le (by omega)]
      split at ht <;> omega
    have first : Streams T (msg ++ data.take t)
        (if 0 < (leftover 64 msg).length then CivicLight.sphShort T sc (data.take t) else sc) := by
      split at ht
      · rw [if_pos (by assumption)]
        exact h.sphShort _
      · rw [if_neg (by assumption), ← ht, List.take_zero, List.append_nil]
        exact h
    have hsplit : msg ++ data = msg ++ data.take t ++ data.drop t := by
      rw [List.append_assoc, List.take_append_drop]
    rw [hsplit]
    split
    · exact first.sphShort _
    · rw [sha256UpdateLoop_eq]
      exact first.blocks hwhole _

theorem streams_sphSha256Init (T : Transform) (sc : Sha256Context) :
    Streams T [] (sphSha256Init sc) :=
  streams_sha256CtxInit T sc

theorem Streams.sphSha256s (h : Streams T msg sc) (access : SphAccess)
    (chunks : List (Nat × List UInt8)) :
    Streams T (msg ++ (chunks.map Prod.snd).flatten)
      (chunks.foldl (fun sc chunk => CivicLight.sphSha256 T access sc chunk.1 chunk.2) sc) := by
  induction chunks generalizing msg sc with
  | nil =>
      rw [List.map_nil, List.flatten_nil, List.append_nil]
      exact h
  | cons chunk chunks ih =>
      rw [List.map_cons, List.flatten_cons, ← List.append_assoc]
      exact ih (h.sphSha256 access chunk.1 chunk.2)

/-! The last blocks. -/

/-- What `sha224_addbits_and_close` adds behind the bytes that are buffered. -/
def sphPadding (mark : UInt8) (n : Nat) (len : List UInt8) : List UInt8 :=
  List.replicate 1 mark ++ List.replicate ((119 - n) % 64) 0 ++ len

theorem sphCloseBlocks_eq (h : Streams T msg sc) (ub : UInt32) (n : Nat) :
    sphCloseBlocks T sc ub n = shaBlocks T sha256Iv (msg ++ sphPadding (sphMark ub n)
      (msg.length % 64) (beBytes64 ((sc.count <<< 3) + UInt64.ofNat n))) := by
  have hpre : (leftover 64 msg).length = msg.length % 64 := leftover_length (by decide)
  have hlast : (beBytes64 ((sc.count <<< 3) + UInt64.ofNat n)).length = 8 := rfl
  unfold sphCloseBlocks sphPadding
  rw [h.sphCurrent, shaBlocks, foldBlocks_append (by decide), ← hpre]
  change _ = foldBlocks 64 _ (shaBlocks T sha256Iv msg) _
  rw [← h.state]
  generalize beBytes64 ((sc.count <<< 3) + UInt64.ofNat n) = len at hlast ⊢
  generalize sphMark ub n = mark
  have hmark := h.buf.memset mark 1
  have hptr : (leftover 64 msg ++ List.replicate 1 mark).length = (leftover 64 msg).length + 1 :=
    List.length_append
  generalize leftover 64 msg = pre at hpre hmark hptr ⊢
  have hlow : pre.length < 64 := by omega
  dsimp only
  by_cases hlong : 56 < pre.length + 1
  · -- the length does not fit behind the mark, so the zeros run through a second block
    have hfirst : (pre ++ List.replicate 1 mark ++
        List.replicate (64 - (pre.length + 1)) (0 : UInt8)).length = 64 := by
      rw [List.length_append, hptr, List.length_replicate]
      omega
    have hsecond : (List.replicate 56 (0 : UInt8) ++ len).length = 64 := by
      rw [List.length_append, List.length_replicate, hlast]
    have hzeros : List.replicate ((119 - pre.length) % 64) (0 : UInt8) =
        List.replicate (64 - (pre.length + 1)) 0 ++ List.replicate 56 0 := by
      rw [List.replicate_append_replicate]
      congr 1
      omega
    have hblock := (hmark.memset 0 (64 - (pre.length + 1))).block
    rw [hptr] at hblock
    have hzero := ((holds_nil (memset (memset sc.buf pre.length mark 1) (pre.length + 1) 0
      (64 - (pre.length + 1)))).memset 0 56).memcpy len
    rw [List.nil_append, List.length_replicate] at hzero
    rw [if_pos hlong, hzeros, hblock hfirst, ← List.append_assoc pre, ← List.append_assoc pre,
      ← List.append_assoc (pre ++ List.replicate 1 mark), List.append_assoc _ _ len,
      foldBlocks_block (by decide) hfirst, foldBlocks_one (by decide) hsecond]
    rw [hblock hfirst] at hzero
    exact congrArg _ (hzero.block hsecond)
  · have hpad : (119 - pre.length) % 64 = 56 - (pre.length + 1) := by omega
    have h56 : (pre ++ List.replicate 1 mark ++
        List.replicate (56 - (pre.length + 1)) (0 : UInt8)).length = 56 := by
      rw [List.length_append, hptr, List.length_replicate]
      omega
    have hone : (pre ++ List.replicate 1 mark ++
        List.replicate (56 - (pre.length + 1)) (0 : UInt8) ++ len).length = 64 := by
      rw [List.length_append, h56, hlast]
    have hblock := ((hmark.memset 0 (56 - (pre.length + 1))).memcpy len).block hone
    rw [hptr, h56] at hblock
    rw [if_neg hlong, hpad, hblock, ← List.append_assoc, ← List.append_assoc,
      foldBlocks_one (by decide) hone]
    rfl

/-! The bits of the message. -/

/-- The hash of FIPS 180-4 of a message of bits. -/
def fipsBitsDigest (T : Transform) (message : List Bool) : List UInt8 :=
  stateBytes (shaBlocks T sha256Iv (bitsToBytes (fipsPadded message)))

theorem fipsZeros_bits (k : Nat) {n : Nat} (hn : n < 8) :
    fipsZeros (8 * k + n) = 7 - n + 8 * ((119 - k % 64) % 64) := by
  refine (Nat.find_eq_iff _).mpr ⟨by omega, fun j hj => ?_⟩
  omega

theorem testBit_sphMark (ub : UInt32) {n i : Nat} (hn : n < 8) (hi : i < 8) :
    (sphMark ub n).toNat.testBit i =
      (ub.toNat.testBit i && decide (7 < i + n) || decide (i + n = 7)) := by
  have mask : ∀ n < 8, ∀ i < 8, ((0 : UInt32) - 0x80 >>> UInt32.ofNat n).toNat.testBit i =
      (decide (7 < i + n) || decide (i + n = 7)) := by decide
  have mark : ∀ n < 8, ∀ i < 8, ((0x80 : UInt32) >>> UInt32.ofNat n).toNat.testBit i =
      decide (i + n = 7) := by decide
  have low : ∀ i < 8, (0xff : UInt32).toNat.testBit i = true := by decide
  unfold sphMark
  dsimp only
  rw [UInt32.toNat_toUInt8, UInt32.toNat_and, UInt32.toNat_or, UInt32.toNat_and,
    Nat.testBit_mod_two_pow, Nat.testBit_and, Nat.testBit_or, Nat.testBit_and, mask n hn i hi,
    mark n hn i hi, low i hi, decide_eq_true hi]
  cases ub.toNat.testBit i <;> cases decide (7 < i + n) <;> cases decide (i + n = 7) <;> rfl

theorem bitsBE_sphMark (ub : UInt32) {n : Nat} (hn : n < 8) :
    bitsBE 8 (sphMark ub n).toNat =
      (bitsBE 8 ub.toNat).take n ++ true :: List.replicate (7 - n) false := by
  have bit : ∀ i < 8, (sphMark ub n).toNat.testBit i = _ := fun i hi => testBit_sphMark ub hn hi
  simp only [bitsBE, bit 7 (by decide), bit 6 (by decide), bit 5 (by decide), bit 4 (by decide),
    bit 3 (by decide), bit 2 (by decide), bit 1 (by decide), bit 0 (by decide)]
  rcases n with _ | _ | _ | _ | _ | _ | _ | _ | n
  case succ.succ.succ.succ.succ.succ.succ.succ => omega
  all_goals simp

theorem bytesToBits_sphPadded (ub : UInt32) {n : Nat} (hn : n < 8) {msg : List UInt8}
    (hlen : msg.length < 2 ^ 61) :
    bytesToBits (msg ++ sphPadding (sphMark ub n) (msg.length % 64)
        (beBytes64 ((UInt64.ofNat msg.length <<< 3) + UInt64.ofNat n))) =
      fipsPadded (bytesToBits msg ++ (bitsBE 8 ub.toNat).take n) := by
  have hcount : ((UInt64.ofNat msg.length <<< 3) + UInt64.ofNat n).toNat = 8 * msg.length + n := by
    rw [UInt64.toNat_add, UInt64.toNat_shiftLeft, UInt64.toNat_ofNat', UInt64.toNat_ofNat',
      show (3 : UInt64).toNat % 64 = 3 from rfl, Nat.shiftLeft_eq]
    omega
  have htake : ((bitsBE 8 ub.toNat).take n).length = n := by
    rw [List.length_take, length_bitsBE]
    omega
  have hbits : (bytesToBits msg ++ (bitsBE 8 ub.toNat).take n).length = 8 * msg.length + n := by
    rw [List.length_append, length_bytesToBits, htake]
  have hmark : bytesToBits (List.replicate 1 (sphMark ub n)) =
      (bitsBE 8 ub.toNat).take n ++ true :: List.replicate (7 - n) false := by
    rw [List.replicate_one, bytesToBits_cons, bitsBE_sphMark ub hn, bytesToBits_nil,
      List.append_nil]
  rw [sphPadding, bytesToBits_append, bytesToBits_append, bytesToBits_append, hmark,
    bytesToBits_zeros, bytesToBits_beBytes64, hcount, fipsPadded, hbits, fipsZeros_bits _ hn,
    ← List.replicate_append_replicate]
  simp only [List.append_assoc, List.cons_append]

theorem sphSha256Full_eq (W : Nat → UInt32) (access : SphAccess) (stack : Sha256Context)
    (addr : Nat) {data : List UInt8} (hlen : data.length < 2 ^ 61) :
    sphSha256Full (sha2Round W) access stack addr data = fipsDigest fipsTransform data := by
  have streams := (streams_sphSha256Init (sha2Round W) stack).sphSha256 access addr data
  have padded := bytesToBits_sphPadded 0 (show 0 < 8 by decide) hlen
  rw [List.take_zero, List.append_nil] at padded
  rw [List.nil_append] at streams
  rw [sphSha256Full, sphSha256Close, sphSha256AddbitsAndClose, sphCloseBlocks_eq streams,
    streams.count, fipsDigest, ← padded, bitsToBytes_bytesToBits, sha2Round_eq]

/-- However a message is cut, wherever its parts lie and whatever a build knows of pointers, the
result is the hash of the message with the `n` high bits of `ub` behind it; and so is that of the
message in one call. -/
theorem sphSha256_streaming (W : Nat → UInt32) (access : SphAccess) (sc : Sha256Context)
    (chunks : List (Nat × List UInt8)) (ub : UInt32) {n : Nat} (hn : n < 8)
    (hlen : (chunks.map Prod.snd).flatten.length < 2 ^ 61) :
    sphSha256AddbitsAndClose (sha2Round W)
        (chunks.foldl (fun sc chunk => sphSha256 (sha2Round W) access sc chunk.1 chunk.2)
          (sphSha256Init sc)) ub n =
      fipsBitsDigest fipsTransform
        (bytesToBits (chunks.map Prod.snd).flatten ++ (bitsBE 8 ub.toNat).take n) ∧
    ∀ addr, sphSha256Full (sha2Round W) access sc addr (chunks.map Prod.snd).flatten =
      fipsDigest fipsTransform (chunks.map Prod.snd).flatten := by
  constructor
  · have streams := (streams_sphSha256Init (sha2Round W) sc).sphSha256s access chunks
    rw [List.nil_append] at streams
    rw [sphSha256AddbitsAndClose, sphCloseBlocks_eq streams, streams.count, fipsBitsDigest,
      ← bytesToBits_sphPadded ub hn hlen, bitsToBytes_bytesToBits, sha2Round_eq]
  · exact fun addr => sphSha256Full_eq W access sc addr hlen

/-- Five bits behind a message in two parts, the second at an odd address. -/
theorem sphSha256_streaming_bits :
    sphSha256AddbitsAndClose (sha2Round fun _ => 0xcccccccc)
        ([(4096, [0x61]), (4097, List.replicate 200 0x62)].foldl
          (fun sc chunk => sphSha256 (sha2Round fun _ => 0xcccccccc) .uptr sc chunk.1 chunk.2)
          (sphSha256Init ⟨fun _ => 0xff, fun _ => 7, 5⟩)) 0xa8 5 =
      fipsBitsDigest fipsTransform
        (bytesToBits ([[0x61], List.replicate 200 0x62]).flatten ++
          (bitsBE 8 (0xa8 : UInt32).toNat).take 5) :=
  (sphSha256_streaming _ .uptr _ [(4096, [0x61]), (4097, List.replicate 200 0x62)] 0xa8
    (by decide) (by simp [-List.reduceReplicate])).1

end SojCivicLight.CivicLight
