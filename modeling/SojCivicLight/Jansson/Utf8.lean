import Mathlib.Data.Bool.AllAny
import SojCivicLight.Jansson.Dump

/-! The characters that a UTF-8 string is made of. -/

namespace SojCivicLight.Jansson

open SojCivicLight.Stratum

/-- The code point is that of a character, and no half of a surrogate pair. -/
def IsScalar (codepoint : Nat) : Prop :=
  codepoint ≤ 0x10ffff ∧ ¬ (0xd800 ≤ codepoint ∧ codepoint ≤ 0xdfff)

theorem toNat_ofNat_lt {n : Nat} (h : n < 256) : (UInt8.ofNat n).toNat = n :=
  Nat.mod_eq_of_lt h

theorem ofNat_eq_of_toNat {c : UInt8} {n : Nat} (h : n = c.toNat) : UInt8.ofNat n = c := by
  rw [h, UInt8.ofNat_toNat]

theorem continues_iff (b : UInt8) : (0x80 ≤ b ∧ b ≤ 0xbf) ↔ 128 ≤ b.toNat ∧ b.toNat ≤ 191 := by
  rw [UInt8.le_iff_toNat_le, UInt8.le_iff_toNat_le]
  rfl

/-- What the first byte of a sequence says of its length. -/
theorem utf8CheckFirst_cases (c : UInt8) :
    utf8CheckFirst c = 1 ∧ c.toNat < 128 ∨ utf8CheckFirst c = 0 ∨
    utf8CheckFirst c = 2 ∧ 194 ≤ c.toNat ∧ c.toNat ≤ 223 ∨
    utf8CheckFirst c = 3 ∧ 224 ≤ c.toNat ∧ c.toNat ≤ 239 ∨
    utf8CheckFirst c = 4 ∧ 240 ≤ c.toNat ∧ c.toNat ≤ 244 := by
  revert c
  apply Util.forall_byte
  decide +kernel

theorem utf8CheckFirst_two {c : UInt8} (h : 194 ≤ c.toNat ∧ c.toNat ≤ 223) :
    utf8CheckFirst c = 2 := by
  revert c
  apply Util.forall_byte
  decide +kernel

theorem utf8CheckFirst_three {c : UInt8} (h : 224 ≤ c.toNat ∧ c.toNat ≤ 239) :
    utf8CheckFirst c = 3 := by
  revert c
  apply Util.forall_byte
  decide +kernel

theorem utf8CheckFirst_four {c : UInt8} (h : 240 ≤ c.toNat ∧ c.toNat ≤ 244) :
    utf8CheckFirst c = 4 := by
  revert c
  apply Util.forall_byte
  decide +kernel

/-- A sequence of more than one byte is accepted when the bytes after the first continue it, and
it is the encoding of its code point. -/
theorem utf8CheckFull_iff (first : UInt8) (buffer : List UInt8) :
    utf8CheckFull first buffer = true ↔
      (buffer.length = 1 ∧ 0x80 ≤ utf8Value first buffer ∨
        buffer.length = 2 ∧ 0x800 ≤ utf8Value first buffer ∨
        buffer.length = 3 ∧ 0x10000 ≤ utf8Value first buffer) ∧
      (∀ b ∈ buffer, 128 ≤ b.toNat ∧ b.toNat ≤ 191) ∧ IsScalar (utf8Value first buffer) := by
  have hall : buffer.all (fun u => 0x80 ≤ u && u ≤ 0xbf) = true ↔
      ∀ b ∈ buffer, 128 ≤ b.toNat ∧ b.toNat ≤ 191 := by
    simp only [List.all_eq_true, Bool.and_eq_true, decide_eq_true_eq, continues_iff]
  have hfull : utf8CheckFull first buffer =
      ((buffer.length + 1 == 2 || buffer.length + 1 == 3 || buffer.length + 1 == 4) &&
        buffer.all (fun u => 0x80 ≤ u && u ≤ 0xbf) &&
        decide (utf8Value first buffer ≤ 0x10ffff) &&
        !(decide (0xd800 ≤ utf8Value first buffer) && decide (utf8Value first buffer ≤ 0xdfff)) &&
        !(buffer.length + 1 == 2 && decide (utf8Value first buffer < 0x80) ||
          buffer.length + 1 == 3 && decide (utf8Value first buffer < 0x800) ||
          buffer.length + 1 == 4 && decide (utf8Value first buffer < 0x10000))) := rfl
  rw [hfull, ← hall, IsScalar]
  generalize utf8Value first buffer = value
  generalize (buffer.all _) = all
  simp only [Bool.and_eq_true, Bool.or_eq_true, beq_iff_eq, decide_eq_true_eq, Bool.not_eq_true',
    Bool.and_eq_false_iff, Bool.or_eq_false_iff, decide_eq_false_iff_not, beq_eq_false_iff_ne]
  constructor
  · rintro ⟨⟨⟨⟨hsize, hall⟩, hmax⟩, hsurrogate⟩, hlong⟩
    refine ⟨?_, hall, hmax, ?_⟩
    · omega
    · omega
  · rintro ⟨hsize, hall, hmax, hsurrogate⟩
    refine ⟨⟨⟨⟨?_, hall⟩, hmax⟩, ?_⟩, ?_⟩
    · omega
    · omega
    · omega

/-! The encoding of a code point, and back. -/

theorem utf8Value_two (c b : UInt8) : utf8Value c [b] = 64 * (c.toNat % 32) + b.toNat % 64 := rfl

theorem utf8Value_three (c b b' : UInt8) :
    utf8Value c [b, b'] = 64 * (64 * (c.toNat % 16) + b.toNat % 64) + b'.toNat % 64 := rfl

theorem utf8Value_four (c b b' b'' : UInt8) :
    utf8Value c [b, b', b''] =
      64 * (64 * (64 * (c.toNat % 8) + b.toNat % 64) + b'.toNat % 64) + b''.toNat % 64 := rfl

theorem utf8Encode_ascii {c : UInt8} (h : c.toNat < 128) : utf8Encode c.toNat = [c] := by
  rw [utf8Encode, if_pos h, UInt8.ofNat_toNat]

/-- A sequence that is accepted is the encoding of its code point. -/
theorem utf8Encode_value {c : UInt8} {buffer : List UInt8}
    (hcount : utf8CheckFirst c = buffer.length + 1) (h : utf8CheckFull c buffer = true) :
    utf8Encode (utf8Value c buffer) = c :: buffer := by
  obtain ⟨hlong, hcontinues, -, -⟩ := (utf8CheckFull_iff c buffer).mp h
  have hfirst := utf8CheckFirst_cases c
  rcases buffer with _ | ⟨b, _ | ⟨b', _ | ⟨b'', _ | ⟨_, _⟩⟩⟩⟩
  · simp at hlong
  · have hb := hcontinues b (by simp)
    rw [utf8Value_two] at hlong ⊢
    rw [hcount] at hfirst
    simp only [List.length_cons, List.length_nil] at hfirst hlong
    rw [utf8Encode, if_neg (by omega), if_pos (by omega), ofNat_eq_of_toNat (c := c) (by omega),
      ofNat_eq_of_toNat (c := b) (by omega)]
  · have hb := hcontinues b (by simp)
    have hb' := hcontinues b' (by simp)
    rw [utf8Value_three] at hlong ⊢
    rw [hcount] at hfirst
    simp only [List.length_cons, List.length_nil] at hfirst hlong
    rw [utf8Encode, if_neg (by omega), if_neg (by omega), if_pos (by omega),
      ofNat_eq_of_toNat (c := c) (by omega), ofNat_eq_of_toNat (c := b) (by omega),
      ofNat_eq_of_toNat (c := b') (by omega)]
  · have hb := hcontinues b (by simp)
    have hb' := hcontinues b' (by simp)
    have hb'' := hcontinues b'' (by simp)
    rw [utf8Value_four] at hlong ⊢
    rw [hcount] at hfirst
    simp only [List.length_cons, List.length_nil] at hfirst hlong
    rw [utf8Encode, if_neg (by omega), if_neg (by omega), if_neg (by omega),
      ofNat_eq_of_toNat (c := c) (by omega), ofNat_eq_of_toNat (c := b) (by omega),
      ofNat_eq_of_toNat (c := b') (by omega), ofNat_eq_of_toNat (c := b'') (by omega)]
  · simp only [List.length_cons] at hlong
    omega

/-- The encoding of a code point is a sequence that is accepted, and has its value. -/
theorem utf8Encode_cases {codepoint : Nat} (h : IsScalar codepoint) :
    (∃ c : UInt8, c.toNat = codepoint ∧ codepoint < 128 ∧ utf8Encode codepoint = [c]) ∨
    ∃ c buffer, utf8Encode codepoint = c :: buffer ∧ utf8CheckFirst c = buffer.length + 1 ∧
      utf8CheckFull c buffer = true ∧ utf8Value c buffer = codepoint := by
  have hscalar := h
  obtain ⟨hmax, hsurrogate⟩ := h
  rw [utf8Encode]
  split
  · exact Or.inl ⟨_, toNat_ofNat_lt (by omega), by omega, rfl⟩
  right
  split
  · refine ⟨_, _, rfl, utf8CheckFirst_two ?_, ?_⟩
    · rw [toNat_ofNat_lt (by omega)]
      omega
    · rw [utf8CheckFull_iff, utf8Value_two, toNat_ofNat_lt (by omega), toNat_ofNat_lt (by omega),
        show 64 * ((0xc0 + codepoint / 64) % 32) + (0x80 + codepoint % 64) % 64 = codepoint by
          omega]
      refine ⟨⟨Or.inl ⟨rfl, by omega⟩, ?_, hscalar⟩, rfl⟩
      rw [List.forall_mem_singleton, toNat_ofNat_lt (by omega)]
      omega
  split
  · refine ⟨_, _, rfl, utf8CheckFirst_three ?_, ?_⟩
    · rw [toNat_ofNat_lt (by omega)]
      omega
    · rw [utf8CheckFull_iff, utf8Value_three, toNat_ofNat_lt (by omega), toNat_ofNat_lt (by omega),
        toNat_ofNat_lt (by omega),
        show 64 * (64 * ((0xe0 + codepoint / 4096) % 16) + (0x80 + codepoint / 64 % 64) % 64) +
          (0x80 + codepoint % 64) % 64 = codepoint by omega]
      refine ⟨⟨Or.inr (Or.inl ⟨rfl, by omega⟩), ?_, hscalar⟩, rfl⟩
      rw [List.forall_mem_cons, List.forall_mem_singleton, toNat_ofNat_lt (by omega),
        toNat_ofNat_lt (by omega)]
      omega
  · refine ⟨_, _, rfl, utf8CheckFirst_four ?_, ?_⟩
    · rw [toNat_ofNat_lt (by omega)]
      omega
    · rw [utf8CheckFull_iff, utf8Value_four, toNat_ofNat_lt (by omega), toNat_ofNat_lt (by omega),
        toNat_ofNat_lt (by omega), toNat_ofNat_lt (by omega),
        show 64 * (64 * (64 * ((0xf0 + codepoint / 262144) % 8) +
          (0x80 + codepoint / 4096 % 64) % 64) + (0x80 + codepoint / 64 % 64) % 64) +
          (0x80 + codepoint % 64) % 64 = codepoint by omega]
      refine ⟨⟨Or.inr (Or.inr ⟨rfl, by omega⟩), ?_, hscalar⟩, rfl⟩
      rw [List.forall_mem_cons, List.forall_mem_cons, List.forall_mem_singleton,
        toNat_ofNat_lt (by omega), toNat_ofNat_lt (by omega), toNat_ofNat_lt (by omega)]
      omega

theorem stream_drop {n : Nat} {s : List UInt8} (h : n ≤ s.length) :
    (stream n s).2 = (stream 0 (s.drop n)).2 := by
  induction n generalizing s with
  | zero => rfl
  | succ n ih =>
      cases s with
      | nil => exact absurd h (Nat.not_succ_le_zero n)
      | cons c s =>
          rw [stream, List.drop_succ_cons]
          exact ih (Nat.le_of_succ_le_succ h)

theorem utf8_encode {codepoint : Nat} (h : IsScalar codepoint) :
    (stream 0 (utf8Encode codepoint)).2 = true := by
  rcases utf8Encode_cases h with ⟨c, rfl, hascii, henc⟩ | ⟨c, buffer, henc, hcount, hfull, -⟩
  · rw [henc]
    refine stream_ascii fun b hb => ?_
    rw [List.mem_singleton.mp hb]
    exact UInt8.lt_iff_toNat_lt.mpr hascii
  · rw [henc, stream, hcount, Nat.add_sub_cancel, List.take_append_of_le_length (Nat.le_refl _),
      List.take_length, hfull]
    have hdone : (stream buffer.length buffer).2 = true := by
      rw [stream_drop (Nat.le_refl _), List.drop_length]
      rfl
    simpa using hdone

/-- A UTF-8 string that is not empty starts with the encoding of a character. -/
theorem utf8_decode {c : UInt8} {rest : List UInt8} (h : (stream 0 (c :: rest)).2 = true) :
    ∃ codepoint s, IsScalar codepoint ∧ c :: rest = utf8Encode codepoint ++ s ∧
      (stream 0 s).2 = true := by
  rw [stream] at h
  split at h
  · rename_i hcheck
    rw [Bool.or_eq_true, Bool.and_eq_true] at hcheck
    rcases hcheck with hone | ⟨hcount, hfull⟩
    · rw [beq_iff_eq] at hone
      rw [hone] at h
      have hfirst := utf8CheckFirst_cases c
      have hascii : c.toNat < 128 := by omega
      refine ⟨c.toNat, rest, ⟨by omega, by omega⟩, ?_, h⟩
      rw [utf8Encode_ascii hascii]
      rfl
    · have hle := le_length_of_continues (by decide) (continues_of_utf8CheckFull hfull)
      rw [List.take_append_of_le_length hle] at hfull
      have hlen : (rest.take (utf8CheckFirst c - 1)).length = utf8CheckFirst c - 1 :=
        List.length_take_of_le hle
      have hvalue := utf8Encode_value (by rw [hlen]; simp at hcount; omega) hfull
      refine ⟨_, rest.drop (utf8CheckFirst c - 1), ((utf8CheckFull_iff _ _).mp hfull).2.2, ?_, ?_⟩
      · rw [hvalue, List.cons_append, List.take_append_drop]
      · rw [← stream_drop hle]
        exact h
  · cases h

theorem utf8_char {codepoint : Nat} (h : IsScalar codepoint) {s : CStr}
    (hs : (stream 0 s).2 = true) : (stream 0 (utf8Encode codepoint ++ s)).2 = true := by
  rw [stream_append (Nat.zero_le _) (utf8_encode h)]
  exact hs

theorem utf8Encode_ne_nil (codepoint : Nat) : utf8Encode codepoint ≠ [] := by
  rw [utf8Encode]
  split
  · exact List.cons_ne_nil _ _
  split
  · exact List.cons_ne_nil _ _
  split
  · exact List.cons_ne_nil _ _
  · exact List.cons_ne_nil _ _

/-- Induction over the characters of a UTF-8 string. -/
@[elab_as_elim]
theorem utf8_induction {motive : ∀ s : CStr, (stream 0 s).2 = true → Prop} (nil : motive [] rfl)
    (char : ∀ codepoint s (hscalar : IsScalar codepoint) (utf8 : (stream 0 s).2 = true),
      motive s utf8 → motive (utf8Encode codepoint ++ s) (utf8_char hscalar utf8))
    (s : CStr) (h : (stream 0 s).2 = true) : motive s h := by
  induction hlen : s.length using Nat.strong_induction_on generalizing s with
  | h n ih =>
      cases s with
      | nil => exact nil
      | cons c rest =>
          obtain ⟨codepoint, s', hscalar, heq, hutf8⟩ := utf8_decode h
          have hlt : s'.length < n := by
            rw [← hlen, heq, List.length_append]
            exact Nat.lt_add_of_pos_left (List.length_pos_iff.mpr (utf8Encode_ne_nil codepoint))
          have hchar := char codepoint s' hscalar hutf8 (ih _ hlt s' hutf8 rfl)
          revert h
          rw [heq]
          exact fun _ => hchar

/-- Where the encoding of a character starts, that character is read. -/
theorem utf8Iterate_encode {codepoint : Nat} (h : IsScalar codepoint) (s : CStr) :
    ∃ c buffer, utf8Encode codepoint = c :: buffer ∧
      utf8Iterate c (buffer ++ s) = some (codepoint, buffer.length) := by
  rcases utf8Encode_cases h with ⟨c, rfl, hascii, henc⟩ | ⟨c, buffer, henc, hcount, hfull, hvalue⟩
  · refine ⟨c, [], henc, ?_⟩
    have hone : utf8CheckFirst c = 1 := if_pos (UInt8.lt_iff_toNat_lt.mpr hascii)
    rw [utf8Iterate, hone]
    rfl
  · refine ⟨c, buffer, henc, ?_⟩
    have hlong := ((utf8CheckFull_iff c buffer).mp hfull).1
    rw [utf8Iterate, hcount, Nat.add_sub_cancel]
    rw [if_neg (by simp), if_neg (by simp; rintro rfl; simp at hlong), List.append_assoc,
      List.take_append_of_le_length (Nat.le_refl _), List.take_length, if_pos hfull,
      List.take_append_of_le_length (Nat.le_refl _), List.take_length, hvalue]

end SojCivicLight.Jansson
