import SojCivicLight.Util.Hex

/-! What `hex_swar_invalid_mask` lets through. From 0xba on a byte carries out of the digit
sum with its high bit clear, and the carry reaches the next byte. -/

namespace SojCivicLight.Util

open SojCivicLight.Library

/-- The lanes of the mask, under the carries into the digit sum and the letter sum. -/
def laneMask (digitCarry alphaCarry : Bool) (c : UInt8) : UInt8 :=
  (((c + 0x46 + if digitCarry then 1 else 0) &&& 0x80) |||
      (~~~ ((c ||| 0x80) - 0x30) &&& 0x80)) &&&
    (((((c ||| 0x20) + 0x19 + if alphaCarry then 1 else 0)) &&& 0x80) |||
      (~~~ (((c ||| 0x20) ||| 0x80) - 0x61) &&& 0x80))

def laneMasks : Bool → Bool → List UInt8 → List UInt8
  | _, _, [] => []
  | digitCarry, alphaCarry, c :: s =>
      laneMask digitCarry alphaCarry c ::
        laneMasks (carries 0x46 digitCarry c) (carries 0x19 alphaCarry (c ||| 0x20)) s

/-- A digit passes unless a carry lifts it over its range; so does every byte from 0xba on. -/
def lanePasses (digitCarry alphaCarry : Bool) (c : UInt8) : Bool :=
  (isHexDigit c && !(digitCarry && c == 57) && !(alphaCarry && c ||| 0x20 == 102)) ||
    186 ≤ c || (digitCarry && c == 185)

def lanesPass : Bool → Bool → List UInt8 → Bool
  | _, _, [] => true
  | digitCarry, alphaCarry, c :: s =>
      lanePasses digitCarry alphaCarry c &&
        lanesPass (186 ≤ c || (digitCarry && c == 185))
          (231 ≤ c ||| 0x20 || (alphaCarry && c ||| 0x20 == 230)) s

theorem laneMask_eq_zero (digitCarry alphaCarry : Bool) : ∀ c : UInt8,
    decide (laneMask digitCarry alphaCarry c = 0) = lanePasses digitCarry alphaCarry c := by
  apply forall_byte
  cases digitCarry with
  | false => cases alphaCarry with
    | false => decide +kernel
    | true => decide +kernel
  | true => cases alphaCarry with
    | false => decide +kernel
    | true => decide +kernel

theorem digit_carries (carry : Bool) : ∀ c : UInt8,
    carries 0x46 carry c = (186 ≤ c || (carry && c == 185)) := by
  apply forall_byte
  cases carry with
  | false => decide +kernel
  | true => decide +kernel

theorem alpha_carries (carry : Bool) : ∀ c : UInt8,
    carries 0x19 carry (c ||| 0x20) = (231 ≤ c ||| 0x20 || (carry && c ||| 0x20 == 230)) := by
  apply forall_byte
  cases carry with
  | false => decide +kernel
  | true => decide +kernel

theorem laneMasks_eq_zero (digitCarry alphaCarry : Bool) (s : List UInt8) :
    (∀ m ∈ laneMasks digitCarry alphaCarry s, m = 0) ↔
      lanesPass digitCarry alphaCarry s = true := by
  induction s generalizing digitCarry alphaCarry with
  | nil => simp [laneMasks, lanesPass]
  | cons c s ih =>
      have hlane := laneMask_eq_zero digitCarry alphaCarry c
      rw [laneMasks, lanesPass, List.forall_mem_cons, ih, ← digit_carries, ← alpha_carries,
        Bool.and_eq_true, ← hlane, decide_eq_true_iff]

theorem zipWith_ripple (digitCarry alphaCarry : Bool) (s : List UInt8) :
    List.zipWith (· &&& ·)
      (List.zipWith (· ||| ·) ((ripple 0x46 digitCarry s).map (· &&& 0x80))
        (s.map fun c => ~~~ ((c ||| 0x80) - 0x30) &&& 0x80))
      (List.zipWith (· ||| ·)
        ((ripple 0x19 alphaCarry (s.map (· ||| 0x20))).map (· &&& 0x80))
        (s.map fun c => ~~~ (((c ||| 0x20) ||| 0x80) - 0x61) &&& 0x80)) =
      laneMasks digitCarry alphaCarry s := by
  induction s generalizing digitCarry alphaCarry with
  | nil => rfl
  | cons c s ih =>
      simp only [List.map_cons, ripple, List.zipWith_cons_cons, laneMasks]
      rw [ih]
      rfl

theorem laneDifferences : ∀ c : UInt8,
    (c ||| 0x80).toNat = ((c ||| 0x80) - 0x30).toNat + (0x30 : UInt8).toNat ∧
    ((c ||| 0x20) ||| 0x80).toNat =
      (((c ||| 0x20) ||| 0x80) - 0x61).toNat + (0x61 : UInt8).toNat := by
  apply forall_byte
  decide +kernel

theorem toNat_hexSwarInvalidMask {s : List UInt8} (h8 : s.length = 8) {chunk : UInt64}
    (hchunk : Packed s (fun c => c) chunk) :
    (hexSwarInvalidMask chunk).toNat = pack (laneMasks false false s) := by
  have const : ∀ {c : UInt8} {x : UInt64}, x.toNat = pack (List.replicate 8 c) →
      Packed s (fun _ => c) x := Packed.const h8
  have high : Packed s (fun _ => 0x80) 0x8080808080808080 := const rfl
  have norm : Packed s (fun c => c ||| 0x20) (chunk ||| (0x0101010101010101 * 0x20)) :=
    hchunk.or (const rfl)
  have below_30 := (((hchunk.or high).sub (const (c := 0x30) (x := 0x0101010101010101 * 0x30) rfl)
    fun c _ => (laneDifferences c).1).not h8).and high
  have below_61 := (((norm.or high).sub (const (c := 0x61) (x := 0x0101010101010101 * 0x61) rfl)
    fun c _ => (laneDifferences c).2).not h8).and high
  have masked : ∀ {x : UInt64} {lanes : List UInt8}, lanes.length = 8 → x.toNat = pack lanes →
      (x &&& 0x8080808080808080).toNat = pack (lanes.map (· &&& 0x80)) := by
    intro x lanes hlanes hx
    have hconst : (0x8080808080808080 : UInt64).toNat = pack (lanes.map fun _ => 0x80) := by
      rw [List.map_const', hlanes]
      rfl
    rw [UInt64.toNat_and, hx, hconst, ← pack_and, List.zipWith_map_right, List.zipWith_self]
  have hdigits : chunk.toNat = pack s := by
    have := hchunk
    rwa [Packed, List.map_id'] at this
  have above_39 := masked (by rw [length_ripple, h8])
    (toNat_add_lanes (k := 0x46) (y := 0x0101010101010101 * (0x7f - 0x39)) h8 hdigits rfl)
  have above_66 := masked (by rw [length_ripple, List.length_map, h8])
    (toNat_add_lanes (k := 0x19) (y := 0x0101010101010101 * (0x7f - 0x66))
      (by rw [List.length_map, h8]) norm rfl)
  rw [← zipWith_ripple, pack_and, pack_or (by simp), pack_or (by simp), ← above_39, ← above_66,
    ← below_30, ← below_61]
  rw [hexSwarInvalidMask]
  simp only [UInt64.toNat_and, UInt64.toNat_or]

theorem hexSwarInvalidMask_eq_zero {s : List UInt8} (h8 : 8 ≤ s.length) :
    hexSwarInvalidMask (hexChunk s) = 0 ↔ lanesPass false false (s.take 8) = true := by
  have hmask := toNat_hexSwarInvalidMask (List.length_take_of_le h8) (packed_hexChunk h8)
  rw [← laneMasks_eq_zero, ← pack_eq_zero, ← hmask, ← UInt64.toNat_inj, UInt64.toNat_zero]

/-! The string as a whole. -/

/-- Every full chunk passes, and the tail is made of digits. -/
def hexPasses : Nat → List UInt8 → Bool
  | 0, s => decide (AllHex s)
  | chunks + 1, s => lanesPass false false (s.take 8) && hexPasses chunks (s.drop 8)

theorem hexTail_ok_iff {s : List UInt8} (heven : s.length % 2 = 0) :
    (hexTail s).2 = true ↔ AllHex s := by
  induction s using hexTail.induct with
  | case1 hi lo rest hbad =>
      rw [hexTail, if_pos hbad]
      simp only [Bool.or_eq_true, Bool.not_eq_true', Bool.false_eq_true, false_iff] at hbad ⊢
      intro hhex
      rcases hbad with hbad | hbad
      · rw [hhex hi (by simp)] at hbad
        cases hbad
      · rw [hhex lo (by simp)] at hbad
        cases hbad
  | case2 hi lo rest hgood ih =>
      rw [hexTail, if_neg hgood]
      simp only [Bool.or_eq_true, Bool.not_eq_true', not_or, Bool.not_eq_false] at hgood
      have hrest := ih (by simp at heven; omega)
      rw [hrest, AllHex, AllHex, List.forall_mem_cons, List.forall_mem_cons]
      simp only [hgood.1, hgood.2, true_and]
  | case3 s hshort =>
      obtain _ | ⟨c, _ | ⟨d, rest⟩⟩ := s
      · simp [hexTail, AllHex]
      · simp at heven
      · exact absurd rfl (hshort c d rest)

theorem hexChunks_ok_iff {chunks : Nat} {s : List UInt8} (heven : s.length % 2 = 0)
    (hlen : 8 * chunks ≤ s.length) :
    (hexChunks chunks s).2 = true ↔ hexPasses chunks s = true := by
  induction chunks generalizing s with
  | zero =>
      rw [hexChunks, hexPasses, decide_eq_true_iff]
      exact hexTail_ok_iff heven
  | succ chunks ih =>
      have hmask := hexSwarInvalidMask_eq_zero (s := s) (by omega)
      have hrest := ih (s := s.drop 8) (by rw [List.length_drop]; omega)
        (by rw [List.length_drop]; omega)
      rw [hexChunks, hexPasses, Bool.and_eq_true, ← hmask, ← hrest]
      by_cases h : hexSwarInvalidMask (hexChunk s) = 0
      · simp [h]
      · simp [h]

/-- The strings the decoder takes: even, short enough, and past the lane test. -/
theorem hex2bin_ok_iff (p s : List UInt8) : (hex2bin p s).2 = true ↔
    s.length % 2 = 0 ∧ s.length / 2 ≤ p.length ∧ hexPasses (s.length / 8) s = true := by
  rw [hex2bin]
  by_cases heven : s.length % 2 = 0
  · by_cases hfits : s.length / 2 ≤ p.length
    · rw [if_neg (by omega), if_neg (by omega)]
      simp [heven, hfits, hexChunks_ok_iff heven (Nat.mul_div_le s.length 8)]
    · rw [if_neg (by omega), if_pos (by omega)]
      simp [hfits]
  · rw [if_pos heven]
    simp [heven]

theorem lanesPass_of_hex {s : List UInt8} (h8 : 8 ≤ s.length) (hhex : AllHex s) :
    lanesPass false false (s.take 8) = true := by
  rw [← hexSwarInvalidMask_eq_zero h8]
  exact hexSwarInvalidMask_of_hex (List.length_take_of_le h8)
    (fun c hc => hhex c (List.mem_of_mem_take hc)) (packed_hexChunk h8)

theorem hexPasses_of_hex {chunks : Nat} {s : List UInt8} (hhex : AllHex s)
    (hlen : 8 * chunks ≤ s.length) : hexPasses chunks s = true := by
  induction chunks generalizing s with
  | zero => exact decide_eq_true hhex
  | succ chunks ih =>
      rw [hexPasses, lanesPass_of_hex (by omega) hhex,
        ih (fun c hc => hhex c (List.mem_of_mem_drop hc)) (by rw [List.length_drop]; omega)]
      rfl

/-- A string that is no hex string, in which the bytes from 0xba on and those their carries
reach stand where the word test lets them through. -/
def Fooled (s : List UInt8) : Prop :=
  ¬ AllHex s ∧ hexPasses (s.length / 8) s = true

instance (s : List UInt8) : Decidable (Fooled s) :=
  inferInstanceAs (Decidable (_ ∧ _))

/-- The chunk path on its own: it takes and decodes what the scalar tail would. -/
def ChunkAgrees (chunk : List UInt8) : Prop :=
  ((hexChunks 1 chunk).2 = true ↔ (hexTail chunk).2 = true) ∧
    ((hexTail chunk).2 = true → hexChunks 1 chunk = hexTail chunk)

theorem chunkAgrees_iff {chunk : List UInt8} (h8 : chunk.length = 8) :
    ChunkAgrees chunk ↔ ¬ Fooled chunk := by
  have htail := hexTail_ok_iff (s := chunk) (by rw [h8])
  have hchunk : (hexChunks 1 chunk).2 = true ↔ hexPasses 1 chunk = true :=
    hexChunks_ok_iff (by rw [h8]) (by rw [h8])
  rw [ChunkAgrees, Fooled, h8, htail, hchunk]
  by_cases hhex : AllHex chunk
  · have hpasses : hexPasses 1 chunk = true := hexPasses_of_hex hhex (by rw [h8])
    have hsame : hexChunks 1 chunk = hexTail chunk := by
      rw [hexChunks_of_hex hhex (by rw [h8]), hexTail_of_hex hhex]
    simp [hhex, hpasses, hsame]
  · simp [hhex]

/-- `hex2bin` takes exactly the hex strings, and its chunk path agrees with its tail,
where the word test is not fooled. -/
theorem hex2bin_exact_iff (p s : List UInt8) {chunk : List UInt8} (h8 : chunk.length = 8) :
    (((hex2bin p s).2 = true ↔
          s.length % 2 = 0 ∧ s.length / 2 ≤ p.length ∧ AllHex s) ↔
        ¬ (s.length % 2 = 0 ∧ s.length / 2 ≤ p.length ∧ Fooled s)) ∧
      (ChunkAgrees chunk ↔ ¬ Fooled chunk) := by
  refine ⟨?_, chunkAgrees_iff h8⟩
  rw [hex2bin_ok_iff, Fooled]
  by_cases heven : s.length % 2 = 0
  · by_cases hfits : s.length / 2 ≤ p.length
    · by_cases hhex : AllHex s
      · have hpasses := hexPasses_of_hex hhex (Nat.mul_div_le s.length 8)
        simp [heven, hfits, hhex, hpasses]
      · simp [heven, hfits, hhex]
    · simp [hfits]
  · simp [heven]

/-- "01ABcd8901": a chunk of digits and a tail. -/
theorem hex2bin_exact_digits :
    ((hex2bin [0, 0, 0, 0, 0] [48, 49, 65, 66, 99, 100, 56, 57, 48, 49]).2 = true ↔
        10 % 2 = 0 ∧ 10 / 2 ≤ 5 ∧ AllHex [48, 49, 65, 66, 99, 100, 56, 57, 48, 49]) ∧
      ChunkAgrees [48, 49, 65, 66, 99, 100, 56, 57] := by
  have hexact := @hex2bin_exact_iff [0, 0, 0, 0, 0] [48, 49, 65, 66, 99, 100, 56, 57, 48, 49]
    [48, 49, 65, 66, 99, 100, 56, 57] rfl
  exact ⟨hexact.1.mpr (by decide +kernel), hexact.2.mpr (by decide +kernel)⟩

/-- A "ù" in UTF-8 and six digits, which a pool can send, pass for eight digits. -/
theorem hex2bin_takes_letters :
    ¬ ((hex2bin [0, 0, 0, 0] [0xc3, 0xb9, 56, 56, 56, 56, 56, 56]).2 = true ↔
      8 % 2 = 0 ∧ 8 / 2 ≤ 4 ∧ AllHex [0xc3, 0xb9, 56, 56, 56, 56, 56, 56]) := by
  decide +kernel

end SojCivicLight.Util
