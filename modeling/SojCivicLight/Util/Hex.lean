import SojCivicLight.Library.Lanes

/-! Hex decoding and encoding as `util.c` does them: chunks of eight digits at a time,
checked and merged inside one word, then digit pairs. -/

namespace SojCivicLight.Util

open SojCivicLight.Library

def isHexDigit (c : UInt8) : Bool :=
  (48 ≤ c && c ≤ 57) || (97 ≤ c && c ≤ 102) || (65 ≤ c && c ≤ 70)

def hexDecodeNibbleBranchless (c : UInt8) : UInt8 :=
  (c &&& 0x0f) + ((c >>> (6 : UInt8)) &&& 1) * 9

def hexSwarInvalidMask (chunk : UInt64) : UInt64 :=
  let ONES : UInt64 := 0x0101010101010101
  let HIGH : UInt64 := 0x8080808080808080
  let above_39 := (chunk + ONES * (0x7f - 0x39)) &&& HIGH
  let below_30 := ~~~ ((chunk ||| HIGH) - ONES * 0x30) &&& HIGH
  let not_digit := above_39 ||| below_30
  let norm := chunk ||| (ONES * 0x20)
  let above_66 := (norm + ONES * (0x7f - 0x66)) &&& HIGH
  let below_61 := ~~~ ((norm ||| HIGH) - ONES * 0x61) &&& HIGH
  let not_alpha := above_66 ||| below_61
  not_digit &&& not_alpha

/-- The eight digits at `s`, as `memcpy` loads them. -/
def hexChunk (s : List UInt8) : UInt64 := UInt64.ofNat (pack (s.take 8))

def hexChunkValues (chunk : UInt64) : UInt64 :=
  (chunk &&& 0x0f0f0f0f0f0f0f0f) + ((chunk >>> (6 : UInt64)) &&& 0x0101010101010101) * 9

def hexChunkPack (vals : UInt64) : UInt64 :=
  ((vals &&& 0x00ff00ff00ff00ff) <<< (4 : UInt64)) |||
    ((vals >>> (8 : UInt64)) &&& 0x00ff00ff00ff00ff)

def hexChunkBytes (packed : UInt64) : List UInt8 :=
  [packed.toUInt8, (packed >>> 16).toUInt8, (packed >>> 32).toUInt8, (packed >>> 48).toUInt8]

/-- The scalar tail: the bytes it writes, and whether it ran to the end. -/
def hexTail : List UInt8 → List UInt8 × Bool
  | hi_c :: lo_c :: rest =>
      if !isHexDigit hi_c || !isHexDigit lo_c then ([], false)
      else (((hexDecodeNibbleBranchless hi_c <<< (4 : UInt8)) ||| hexDecodeNibbleBranchless lo_c)
        :: (hexTail rest).1, (hexTail rest).2)
  | _ => ([], true)

/-- `chunks` rounds of the loop over eight digits, then the tail. -/
def hexChunks : Nat → List UInt8 → List UInt8 × Bool
  | 0, s => hexTail s
  | chunks + 1, s =>
      if hexSwarInvalidMask (hexChunk s) ≠ 0 then ([], false)
      else (hexChunkBytes (hexChunkPack (hexChunkValues (hexChunk s))) ++
        (hexChunks chunks (s.drop 8)).1, (hexChunks chunks (s.drop 8)).2)

/-- `p` holds the `len` bytes of the destination. -/
def hex2bin (p hexstr : List UInt8) : List UInt8 × Bool :=
  if hexstr.length % 2 ≠ 0 then (p, false)
  else if hexstr.length / 2 > p.length then (p, false)
  else
    let written := hexChunks (hexstr.length / 8) hexstr
    (written.1 ++ List.replicate (p.length - written.1.length) 0, written.2)

def hexDigit (nibble : UInt8) : UInt8 :=
  if nibble < 10 then 48 + nibble else 87 + nibble

def bin2hex (p : List UInt8) : List UInt8 :=
  p.flatMap fun byte => [hexDigit (byte >>> (4 : UInt8)), hexDigit (byte &&& 0x0f)]

/-! What a string of hex digits stands for. -/

def hexValue (c : UInt8) : Nat :=
  if c ≤ 57 then c.toNat - 48 else if c ≤ 70 then c.toNat - 55 else c.toNat - 87

def unhex : List UInt8 → List UInt8
  | hi :: lo :: rest => UInt8.ofNat (16 * hexValue hi + hexValue lo) :: unhex rest
  | _ => []

def AllHex (s : List UInt8) : Prop := ∀ c ∈ s, isHexDigit c = true

instance (s : List UInt8) : Decidable (AllHex s) :=
  inferInstanceAs (Decidable (∀ c ∈ s, isHexDigit c = true))

/-- A fact about all hex digits is a fact about 22 bytes. -/
theorem forall_isHexDigit {P : UInt8 → Prop}
    (h : ∀ n : Fin 256, isHexDigit (UInt8.ofFin n) = true → P (UInt8.ofFin n)) (c : UInt8)
    (hc : isHexDigit c = true) : P c :=
  h c.toFin hc

theorem nibble_eq_hexValue : ∀ c : UInt8, isHexDigit c = true →
    (hexDecodeNibbleBranchless c).toNat = hexValue c ∧ hexValue c < 16 := by
  apply forall_isHexDigit
  decide +kernel

/-- What the word test computes in each lane: nothing remains of a hex digit. -/
theorem laneInvalid_eq_zero : ∀ c : UInt8, isHexDigit c = true →
    (((c + 0x46) &&& 0x80) ||| (~~~ ((c ||| 0x80) - 0x30) &&& 0x80)) &&&
      ((((c ||| 0x20) + 0x19) &&& 0x80) |||
        (~~~ (((c ||| 0x20) ||| 0x80) - 0x61) &&& 0x80)) = 0 := by
  apply forall_isHexDigit
  decide +kernel

theorem laneSums : ∀ c : UInt8, isHexDigit c = true →
    (c + 0x46).toNat = c.toNat + (0x46 : UInt8).toNat ∧
    (c ||| 0x80).toNat = ((c ||| 0x80) - 0x30).toNat + (0x30 : UInt8).toNat ∧
    ((c ||| 0x20) + 0x19).toNat = (c ||| 0x20).toNat + (0x19 : UInt8).toNat ∧
    ((c ||| 0x20) ||| 0x80).toNat =
      (((c ||| 0x20) ||| 0x80) - 0x61).toNat + (0x61 : UInt8).toNat := by
  apply forall_isHexDigit
  decide +kernel

section Chunk

variable {digits : List UInt8}

theorem packed_hexChunk {s : List UInt8} (h : 8 ≤ s.length) :
    Packed (s.take 8) (fun c => c) (hexChunk s) := by
  have hlt := Packed.pack_map_lt (f := fun c => c) (List.length_take_of_le h)
  rw [Packed, hexChunk, UInt64.toNat_ofNat_of_lt']
  · rw [List.map_id']
  · rwa [List.map_id'] at hlt

theorem hexSwarInvalidMask_of_hex (h8 : digits.length = 8) (hhex : AllHex digits)
    {chunk : UInt64} (hchunk : Packed digits (fun c => c) chunk) :
    hexSwarInvalidMask chunk = 0 := by
  have const : ∀ {c : UInt8} {x : UInt64}, x.toNat = pack (List.replicate 8 c) →
      Packed digits (fun _ => c) x := Packed.const h8
  have sums := fun c hc => laneSums c (hhex c hc)
  have high : Packed digits (fun _ => 0x80) 0x8080808080808080 := const rfl
  have norm : Packed digits (fun c => c ||| 0x20) (chunk ||| (0x0101010101010101 * 0x20)) :=
    hchunk.or (const rfl)
  have above_39 := (hchunk.add h8 (const (c := 0x46) (x := 0x0101010101010101 * (0x7f - 0x39)) rfl)
    fun c hc => (sums c hc).1).and high
  have below_30 := (((hchunk.or high).sub (const (c := 0x30) (x := 0x0101010101010101 * 0x30) rfl)
    fun c hc => (sums c hc).2.1).not h8).and high
  have above_66 := (norm.add h8 (const (c := 0x19) (x := 0x0101010101010101 * (0x7f - 0x66)) rfl)
    fun c hc => (sums c hc).2.2.1).and high
  have below_61 := (((norm.or high).sub (const (c := 0x61) (x := 0x0101010101010101 * 0x61) rfl)
    fun c hc => (sums c hc).2.2.2).not h8).and high
  exact ((above_39.or below_30).and (above_66.or below_61)).eq_zero
    fun c hc => laneInvalid_eq_zero c (hhex c hc)

theorem laneValue : ∀ c : UInt8, isHexDigit c = true →
    ((c &&& 0x0f) + ((c >>> (6 : UInt8)) &&& 1) * 9).toNat =
        (c &&& 0x0f).toNat + (((c >>> (6 : UInt8)) &&& 1) * 9).toNat ∧
      (((c >>> (6 : UInt8)) &&& 1) * 9).toNat = ((c >>> (6 : UInt8)) &&& 1).toNat * 9 := by
  apply forall_isHexDigit
  decide +kernel

theorem hexChunkValues_of_hex (h8 : digits.length = 8) (hhex : AllHex digits)
    {chunk : UInt64} (hchunk : Packed digits (fun c => c) chunk) :
    Packed digits hexDecodeNibbleBranchless (hexChunkValues chunk) := by
  have values := fun c hc => laneValue c (hhex c hc)
  have lo4 : Packed digits (fun c => c &&& 0x0f) (chunk &&& 0x0f0f0f0f0f0f0f0f) :=
    hchunk.and (Packed.const h8 rfl)
  have bit6 : Packed digits (fun c => (c >>> (6 : UInt8)) &&& 1)
      ((chunk >>> (6 : UInt64)) &&& 0x0101010101010101) :=
    hchunk.shiftRight_and (by decide) rfl (by decide) (Packed.const h8 rfl)
  exact lo4.add h8 (bit6.mul (y := 9) h8 fun c hc => (values c hc).2)
    fun c hc => (values c hc).1

theorem and_255 (v : UInt8) : v &&& 255 = v := by
  rw [← UInt8.toNat_inj, UInt8.toNat_and]
  exact (Nat.and_two_pow_sub_one_eq_mod v.toNat 8).trans (Nat.mod_eq_of_lt v.toNat_lt)

theorem shiftLeft_four {v : UInt8} (hv : v < 16) : (v <<< (4 : UInt8)).toNat = v.toNat * 16 := by
  have hlt : v.toNat < 16 := UInt8.lt_iff_toNat_lt.mp hv
  rw [UInt8.toNat_shiftLeft, Nat.shiftLeft_eq]
  simp
  omega

/-- Merging the values of eight digits: the high halves move up inside their byte and the
low halves come down from the next one. -/
theorem hexChunkPack_eq {v0 v1 v2 v3 v4 v5 v6 v7 : UInt8} {vals : UInt64}
    (hvals : vals.toNat = pack [v0, v1, v2, v3, v4, v5, v6, v7])
    (h0 : v0 < 16) (h2 : v2 < 16) (h4 : v4 < 16) (h6 : v6 < 16) :
    (hexChunkPack vals).toNat = pack [(v0 <<< (4 : UInt8)) ||| v1, 0, (v2 <<< (4 : UInt8)) ||| v3,
      0, (v4 <<< (4 : UInt8)) ||| v5, 0, (v6 <<< (4 : UInt8)) ||| v7, 0] := by
  have hmask : (0x00ff00ff00ff00ff : UInt64).toNat = pack [255, 0, 255, 0, 255, 0, 255, 0] := rfl
  have even : (vals &&& 0x00ff00ff00ff00ff).toNat = pack [v0, 0, v2, 0, v4, 0, v6, 0] := by
    rw [UInt64.toNat_and, hvals, hmask, ← pack_and]
    simp only [List.zipWith, and_255, UInt8.and_zero]
  have hi : ((vals &&& 0x00ff00ff00ff00ff) <<< (4 : UInt64)).toNat =
      pack [v0 <<< (4 : UInt8), 0, v2 <<< (4 : UInt8), 0, v4 <<< (4 : UInt8), 0,
        v6 <<< (4 : UInt8), 0] := by
    have hlt := pack_lt [v0 <<< (4 : UInt8), 0, v2 <<< (4 : UInt8), 0, v4 <<< (4 : UInt8), 0,
      v6 <<< (4 : UInt8), 0]
    rw [UInt64.toNat_shiftLeft, even, Nat.shiftLeft_eq]
    simp only [pack_cons, pack_nil, shiftLeft_four h0, shiftLeft_four h2, shiftLeft_four h4,
      shiftLeft_four h6] at hlt ⊢
    simp at hlt ⊢
    omega
  have odd : (vals >>> (8 : UInt64)).toNat = pack [v1, v2, v3, v4, v5, v6, v7, 0] := by
    rw [UInt64.toNat_shiftRight, hvals, pack_cons, Nat.shiftRight_eq_div_pow]
    have := v0.toNat_lt
    simp
    omega
  have lo : ((vals >>> (8 : UInt64)) &&& 0x00ff00ff00ff00ff).toNat =
      pack [v1, 0, v3, 0, v5, 0, v7, 0] := by
    rw [UInt64.toNat_and, odd, hmask, ← pack_and]
    simp only [List.zipWith, and_255, UInt8.and_zero]
  rw [hexChunkPack, UInt64.toNat_or, hi, lo]
  refine (pack_or ?_).symm
  rfl

theorem hexChunkBytes_eq {a b c d : UInt8} {packed : UInt64}
    (h : packed.toNat = pack [a, 0, b, 0, c, 0, d, 0]) : hexChunkBytes packed = [a, b, c, d] := by
  have ha := a.toNat_lt
  have hb := b.toNat_lt
  have hc := c.toNat_lt
  have hd := d.toNat_lt
  simp only [pack_cons, pack_nil] at h
  simp only [hexChunkBytes, List.cons.injEq, and_true, ← UInt8.toNat_inj, UInt64.toNat_toUInt8,
    UInt64.toNat_shiftRight, Nat.shiftRight_eq_div_pow, h]
  simp
  omega

end Chunk

theorem nibbles_eq {hi lo : UInt8} (hhi : isHexDigit hi = true) (hlo : isHexDigit lo = true) :
    (hexDecodeNibbleBranchless hi <<< (4 : UInt8)) ||| hexDecodeNibbleBranchless lo =
      UInt8.ofNat (16 * hexValue hi + hexValue lo) := by
  obtain ⟨hvhi, hhi16⟩ := nibble_eq_hexValue hi hhi
  obtain ⟨hvlo, hlo16⟩ := nibble_eq_hexValue lo hlo
  have hhi16' : hexDecodeNibbleBranchless hi < 16 := UInt8.lt_iff_toNat_lt.mpr (hvhi ▸ hhi16)
  have hor := Nat.two_pow_add_eq_or_of_lt (i := 4) hlo16 (hexValue hi)
  rw [← UInt8.toNat_inj, UInt8.toNat_or, shiftLeft_four hhi16', hvhi, hvlo,
    UInt8.toNat_ofNat_of_lt' (by simp [UInt8.size]; omega), Nat.mul_comm]
  exact hor.symm

theorem hexTail_of_hex {s : List UInt8} (hhex : AllHex s) : hexTail s = (unhex s, true) := by
  induction s using unhex.induct with
  | case1 hi lo rest ih =>
      have hhi := hhex hi (by simp)
      have hlo := hhex lo (by simp)
      have htail := ih fun c hc => hhex c (by simp [hc])
      simp [hexTail, unhex, hhi, hlo, htail, nibbles_eq hhi hlo]
  | case2 s hshort =>
      rw [hexTail.eq_2 s hshort, unhex.eq_2 s hshort]

theorem exists_eight {s : List UInt8} (h : 8 ≤ s.length) : ∃ c0 c1 c2 c3 c4 c5 c6 c7 rest,
    s = c0 :: c1 :: c2 :: c3 :: c4 :: c5 :: c6 :: c7 :: rest := by
  obtain _ | ⟨c0, _ | ⟨c1, _ | ⟨c2, _ | ⟨c3, _ | ⟨c4, _ | ⟨c5, _ | ⟨c6, _ | ⟨c7, rest⟩⟩⟩⟩⟩⟩⟩⟩ := s
  case cons.cons.cons.cons.cons.cons.cons.cons =>
    exact ⟨c0, c1, c2, c3, c4, c5, c6, c7, rest, rfl⟩
  all_goals simp at h

theorem hexChunks_of_hex {s : List UInt8} (hhex : AllHex s) {chunks : Nat}
    (hlen : 8 * chunks ≤ s.length) : hexChunks chunks s = (unhex s, true) := by
  induction chunks generalizing s with
  | zero => exact hexTail_of_hex hhex
  | succ chunks ih =>
      have h8 : 8 ≤ s.length := by omega
      have hdigits : AllHex (s.take 8) := fun c hc => hhex c (List.mem_of_mem_take hc)
      have htake := List.length_take_of_le h8
      have hchunk := packed_hexChunk h8
      have hrest := ih (s := s.drop 8) (fun c hc => hhex c (List.mem_of_mem_drop hc))
        (by rw [List.length_drop]; omega)
      have hvals := hexChunkValues_of_hex htake hdigits hchunk
      rw [hexChunks, if_neg (by simp [hexSwarInvalidMask_of_hex htake hdigits hchunk]), hrest]
      obtain ⟨c0, c1, c2, c3, c4, c5, c6, c7, rest, rfl⟩ := exists_eight h8
      have digit : ∀ c, c ∈ [c0, c1, c2, c3, c4, c5, c6, c7] → isHexDigit c = true :=
        fun c hc => hdigits c hc
      have small : ∀ c, c ∈ [c0, c1, c2, c3, c4, c5, c6, c7] →
          hexDecodeNibbleBranchless c < 16 := fun c hc => by
        obtain ⟨hvalue, hlt⟩ := nibble_eq_hexValue c (digit c hc)
        exact UInt8.lt_iff_toNat_lt.mpr (hvalue ▸ hlt)
      rw [hexChunkBytes_eq (hexChunkPack_eq hvals (small c0 (by simp)) (small c2 (by simp))
        (small c4 (by simp)) (small c6 (by simp))),
        nibbles_eq (digit c0 (by simp)) (digit c1 (by simp)),
        nibbles_eq (digit c2 (by simp)) (digit c3 (by simp)),
        nibbles_eq (digit c4 (by simp)) (digit c5 (by simp)),
        nibbles_eq (digit c6 (by simp)) (digit c7 (by simp))]
      rfl

theorem length_unhex (s : List UInt8) : (unhex s).length = s.length / 2 := by
  induction s using unhex.induct with
  | case1 hi lo rest ih =>
      simp only [unhex, List.length_cons, ih]
      omega
  | case2 s hshort =>
      obtain _ | ⟨c, _ | ⟨d, rest⟩⟩ := s
      · rfl
      · simp [unhex]
      · exact absurd rfl (hshort c d rest)

theorem hex2bin_of_hex {p s : List UInt8} (hhex : AllHex s) (heven : s.length % 2 = 0)
    (hfits : s.length / 2 ≤ p.length) :
    hex2bin p s = (unhex s ++ List.replicate (p.length - s.length / 2) 0, true) := by
  rw [hex2bin, if_neg (by omega), if_neg (by omega),
    hexChunks_of_hex hhex (Nat.mul_div_le s.length 8)]
  simp only [length_unhex]

theorem length_hexTail_le (s : List UInt8) : (hexTail s).1.length ≤ s.length / 2 := by
  induction s using hexTail.induct with
  | case1 hi lo rest hbad => simp [hexTail, hbad]
  | case2 hi lo rest hgood ih =>
      rw [hexTail, if_neg hgood]
      simp only [List.length_cons]
      omega
  | case3 s hshort =>
      rw [hexTail.eq_2 s hshort]
      exact Nat.zero_le _

theorem length_hexChunks_le {chunks : Nat} {s : List UInt8} (hlen : 8 * chunks ≤ s.length) :
    (hexChunks chunks s).1.length ≤ s.length / 2 := by
  induction chunks generalizing s with
  | zero => exact length_hexTail_le s
  | succ chunks ih =>
      have hrest := ih (s := s.drop 8) (by rw [List.length_drop]; omega)
      rw [List.length_drop] at hrest
      rw [hexChunks]
      split
      · exact Nat.zero_le _
      · simp only [List.length_append, hexChunkBytes, List.length_cons, List.length_nil]
        omega

@[simp] theorem length_hex2bin (p s : List UInt8) : (hex2bin p s).1.length = p.length := by
  rw [hex2bin]
  split
  · rfl
  · split
    · rfl
    · have := length_hexChunks_le (Nat.mul_div_le s.length 8)
      simp only [List.length_append, List.length_replicate]
      omega

/-! Encoding and decoding undo each other, up to case. -/

def toLower (c : UInt8) : UInt8 := if 65 ≤ c ∧ c ≤ 90 then c + 32 else c

theorem forall_byte {P : UInt8 → Prop} (h : ∀ n : Fin 256, P (UInt8.ofFin n)) (b : UInt8) : P b :=
  h b.toFin

theorem unhex_digits : ∀ b : UInt8,
    UInt8.ofNat (16 * hexValue (hexDigit (b >>> (4 : UInt8))) + hexValue (hexDigit (b &&& 0x0f))) =
      b := by
  apply forall_byte
  decide +kernel

theorem unhex_bin2hex (p : List UInt8) : unhex (bin2hex p) = p := by
  induction p with
  | nil => rfl
  | cons b p ih =>
      calc unhex (bin2hex (b :: p)) = UInt8.ofNat (16 * hexValue (hexDigit (b >>> (4 : UInt8))) +
            hexValue (hexDigit (b &&& 0x0f))) :: unhex (bin2hex p) := rfl
        _ = b :: p := by rw [unhex_digits, ih]

theorem digits_unhex {hi lo : UInt8} (hhi : isHexDigit hi = true) (hlo : isHexDigit lo = true) :
    hexDigit (UInt8.ofNat (16 * hexValue hi + hexValue lo) >>> (4 : UInt8)) = toLower hi ∧
      hexDigit (UInt8.ofNat (16 * hexValue hi + hexValue lo) &&& 0x0f) = toLower lo := by
  have lower : ∀ c : UInt8, isHexDigit c = true →
      hexDigit (UInt8.ofNat (hexValue c)) = toLower c := by
    apply forall_isHexDigit
    decide +kernel
  have halves : ∀ a b : Fin 16, UInt8.ofNat (16 * a.val + b.val) >>> (4 : UInt8) = UInt8.ofNat a ∧
      UInt8.ofNat (16 * a.val + b.val) &&& 0x0f = UInt8.ofNat b := by decide +kernel
  obtain ⟨hup, hdown⟩ := halves ⟨hexValue hi, (nibble_eq_hexValue hi hhi).2⟩
    ⟨hexValue lo, (nibble_eq_hexValue lo hlo).2⟩
  rw [hup, hdown]
  exact ⟨lower hi hhi, lower lo hlo⟩

theorem bin2hex_unhex {s : List UInt8} (hhex : AllHex s) (heven : s.length % 2 = 0) :
    bin2hex (unhex s) = s.map toLower := by
  induction s using unhex.induct with
  | case1 hi lo rest ih =>
      obtain ⟨hhi, hlo⟩ := digits_unhex (hhex hi (by simp)) (hhex lo (by simp))
      have hrest := ih (fun c hc => hhex c (by simp [hc])) (by simp at heven; omega)
      calc bin2hex (unhex (hi :: lo :: rest)) =
            hexDigit (UInt8.ofNat (16 * hexValue hi + hexValue lo) >>> (4 : UInt8)) ::
              hexDigit (UInt8.ofNat (16 * hexValue hi + hexValue lo) &&& 0x0f) ::
              bin2hex (unhex rest) := rfl
        _ = (hi :: lo :: rest).map toLower := by rw [hhi, hlo, hrest]; rfl
  | case2 s hshort =>
      obtain _ | ⟨c, _ | ⟨d, rest⟩⟩ := s
      · rfl
      · simp at heven
      · exact absurd rfl (hshort c d rest)

theorem isHexDigit_hexDigit : ∀ b : UInt8,
    isHexDigit (hexDigit (b >>> (4 : UInt8))) = true ∧
      isHexDigit (hexDigit (b &&& 0x0f)) = true := by
  apply forall_byte
  decide +kernel

theorem allHex_bin2hex (p : List UInt8) : AllHex (bin2hex p) := by
  intro c hc
  obtain ⟨b, -, hmem⟩ := List.mem_flatMap.mp hc
  obtain ⟨hhi, hlo⟩ := isHexDigit_hexDigit b
  simp only [List.mem_cons, List.not_mem_nil, or_false] at hmem
  rcases hmem with rfl | rfl
  · exact hhi
  · exact hlo

theorem length_bin2hex (p : List UInt8) : (bin2hex p).length = 2 * p.length := by
  induction p with
  | nil => rfl
  | cons b p ih =>
      change (bin2hex p).length + 2 = 2 * (p.length + 1)
      rw [ih]
      omega

theorem hex2bin_bin2hex {p b : List UInt8} (hfits : b.length ≤ p.length) :
    hex2bin p (bin2hex b) = (b ++ List.replicate (p.length - b.length) 0, true) := by
  have hlen := length_bin2hex b
  have hhalf : (bin2hex b).length / 2 = b.length := by omega
  rw [hex2bin_of_hex (allHex_bin2hex b) (by omega) (by omega), unhex_bin2hex, hhalf]

theorem bin2hex_hex2bin {p s : List UInt8} (hhex : AllHex s) (heven : s.length % 2 = 0)
    (hfits : s.length / 2 ≤ p.length) :
    (hex2bin p s).2 = true ∧ bin2hex ((hex2bin p s).1.take (s.length / 2)) = s.map toLower := by
  rw [hex2bin_of_hex hhex heven hfits]
  refine ⟨rfl, ?_⟩
  rw [← length_unhex, List.take_left, bin2hex_unhex hhex heven]

/-- Decoding an encoded array gives it back, and encoding a decoded string gives the string
back in lower case, at every length and in every case mix. -/
theorem hex_round_trips (p : List UInt8) :
    (∀ b : List UInt8, b.length ≤ p.length →
      hex2bin p (bin2hex b) = (b ++ List.replicate (p.length - b.length) 0, true)) ∧
    (∀ s : List UInt8, AllHex s → s.length % 2 = 0 → s.length / 2 ≤ p.length →
      (hex2bin p s).2 = true ∧
        bin2hex ((hex2bin p s).1.take (s.length / 2)) = s.map toLower) :=
  ⟨fun _ => hex2bin_bin2hex, fun _ => bin2hex_hex2bin⟩

/-- "fE09aBcD7b" into a buffer of six bytes. -/
theorem hex_round_trips_ten :
    hex2bin [1, 2, 3, 4, 5, 6] (bin2hex [0xfe, 0x09, 0xab, 0xcd, 0x7b]) =
        ([0xfe, 0x09, 0xab, 0xcd, 0x7b, 0], true) ∧
      bin2hex ((hex2bin [1, 2, 3, 4, 5, 6] [102, 69, 48, 57, 97, 66, 99, 68, 55, 98]).1.take 5) =
        [102, 101, 48, 57, 97, 98, 99, 100, 55, 98] :=
  ⟨(hex_round_trips [1, 2, 3, 4, 5, 6]).1 [0xfe, 0x09, 0xab, 0xcd, 0x7b] (by decide),
    ((hex_round_trips [1, 2, 3, 4, 5, 6]).2 [102, 69, 48, 57, 97, 66, 99, 68, 55, 98]
      (by decide +kernel) rfl (by decide)).2⟩

end SojCivicLight.Util
