import SojCivicLight.Jansson.TextLength

/-! How plain strings are read, and what the stream makes of strings put together. -/

namespace SojCivicLight.Jansson

open SojCivicLight.Stratum

theorem scanString_plain {s : CStr} (h : Plain s) (rest : CStr) :
    scanString (s ++ 34 :: rest) = some (s, rest) := by
  induction s with
  | nil =>
      rw [List.nil_append, scanString.eq_def]
      rfl
  | cons c s ih =>
      rw [plain_cons] at h
      obtain ⟨⟨hquote, hescape, hcontrol⟩, hplain⟩ := h
      rw [List.cons_append, scanString.eq_def]
      dsimp only
      rw [if_neg (by simpa using hquote), if_neg (UInt8.not_le.mpr hcontrol),
        if_neg (by simpa using hescape), ih hplain]
      rfl

theorem unescape_plain {s : CStr} (h : Plain s) : unescape s = some s := by
  induction s with
  | nil => rfl
  | cons c s ih =>
      rw [plain_cons] at h
      obtain ⟨⟨-, hescape, -⟩, hplain⟩ := h
      rw [unescape.eq_def]
      dsimp only
      rw [if_neg (by simpa using hescape), ih hplain]
      rfl

section

variable {strtod : CStr → Option Double} {atEnd : Token}

theorem lexScan_plain {s : CStr} (h : Plain s) (rest : CStr) :
    lexScan strtod atEnd (34 :: (s ++ 34 :: rest)) = (.string s, rest) := by
  have hscan : lexScan strtod atEnd (34 :: (s ++ 34 :: rest)) =
      lexScanString (s ++ 34 :: rest) := rfl
  rw [hscan, lexScanString, scanString_plain h]
  dsimp only
  rw [unescape_plain h]

def moreStrings : List CStr → CStr → CStr
  | [], rest => 93 :: rest
  | s :: strings, rest => 44 :: 34 :: (s ++ 34 :: moreStrings strings rest)

theorem parseArray_plain {strings : List CStr} (h : ∀ s ∈ strings, Plain s) (rest : CStr)
    (array : List Json) (first : CStr) {fuel : Nat} (hfuel : strings.length + 2 ≤ fuel) :
    parseArray strtod atEnd fuel array (.string first) (moreStrings strings rest) =
      some (array ++ (first :: strings).map Json.string, rest) := by
  induction strings generalizing array first fuel with
  | nil =>
      obtain ⟨fuel, rfl⟩ := Nat.exists_eq_add_of_le hfuel
      rw [Nat.add_comm]
      rfl
  | cons s strings ih =>
      rw [List.forall_mem_cons] at h
      rw [List.length_cons] at hfuel
      obtain ⟨fuel, rfl⟩ : ∃ n, fuel = n + 2 := ⟨fuel - 2, by omega⟩
      have hcomma : lexScan strtod atEnd (44 :: 34 :: (s ++ 34 :: moreStrings strings rest)) =
          (.punct 44, 34 :: (s ++ 34 :: moreStrings strings rest)) := rfl
      rw [parseArray, parseValue, moreStrings]
      dsimp only
      rw [hcomma, if_pos rfl, lexScan_plain h.1, ih h.2 _ _ (by omega), List.append_assoc]
      rfl

theorem parseObject_member {key : CStr} {fuel : Nat} {object : List (CStr × Json)} {s rest : CStr}
    {value : Json} (hvalue : parseValue strtod atEnd fuel (lexScan strtod atEnd s).1
      (lexScan strtod atEnd s).2 = some (value, 44 :: rest)) :
    parseObject strtod atEnd (fuel + 1) object (.string key) (58 :: s) =
      parseObject strtod atEnd fuel (jsonObjectSet object key value)
        (lexScan strtod atEnd rest).1 (lexScan strtod atEnd rest).2 := by
  have hcolon : lexScan strtod atEnd (58 :: s) = (.punct 58, s) := rfl
  have hcomma : lexScan strtod atEnd (44 :: rest) = (.punct 44, rest) := rfl
  rw [parseObject, hcolon]
  dsimp only
  rw [if_pos rfl, hvalue]
  dsimp only
  rw [hcomma, if_pos rfl]

theorem parseObject_last {key : CStr} {fuel : Nat} {object : List (CStr × Json)} {s rest : CStr}
    {value : Json} (hvalue : parseValue strtod atEnd fuel (lexScan strtod atEnd s).1
      (lexScan strtod atEnd s).2 = some (value, 125 :: rest)) :
    parseObject strtod atEnd (fuel + 1) object (.string key) (58 :: s) =
      some (jsonObjectSet object key value, rest) := by
  have hcolon : lexScan strtod atEnd (58 :: s) = (.punct 58, s) := rfl
  have hbrace : lexScan strtod atEnd (125 :: rest) = (.punct 125, rest) := rfl
  rw [parseObject, hcolon]
  dsimp only
  rw [if_pos rfl, hvalue]
  dsimp only
  rw [hbrace, if_neg (by simp), if_pos rfl]

end

/-! The stream. -/

theorem stream_fst {pending : Nat} {s : List UInt8} (h : (stream pending s).2 = true) :
    (stream pending s).1 = s := by
  fun_induction stream pending s with
  | case1 => rfl
  | case2 pending c rest ih => rw [ih h]
  | case3 c rest count hcheck ih => rw [ih h]
  | case4 => cases h

theorem continues_of_utf8CheckFull {first : UInt8} {buffer : List UInt8}
    (h : utf8CheckFull first buffer = true) : ∀ b ∈ buffer, 0x80 ≤ b ∧ b ≤ 0xbf := by
  intro b hmem
  simp only [utf8CheckFull, Bool.and_eq_true, List.all_eq_true, decide_eq_true_eq] at h
  exact h.1.1.1.2 b hmem

/-- A sequence ends before a byte that continues none. -/
theorem le_length_of_continues {s t : List UInt8} {c : UInt8} (hc : ¬ (0x80 ≤ c ∧ c ≤ 0xbf))
    {n : Nat} (h : ∀ b ∈ (s ++ c :: t).take n, 0x80 ≤ b ∧ b ≤ 0xbf) : n ≤ s.length := by
  apply Nat.le_of_not_lt
  intro hlt
  obtain ⟨k, rfl⟩ := Nat.exists_eq_add_of_lt hlt
  rw [Nat.add_assoc, List.take_length_add_append, List.take_succ_cons] at h
  exact hc (h c (List.mem_append_right s List.mem_cons_self))

/-- The sequence that starts with a byte lies in what follows it, which alone decides it. -/
theorem utf8CheckFull_append {first : UInt8} {s : List UInt8} {n : Nat} (hn : n ≤ s.length)
    (t : List UInt8) : utf8CheckFull first ((s ++ t ++ [0xff, 0xff, 0xff]).take n) =
      utf8CheckFull first ((s ++ [0xff, 0xff, 0xff]).take n) := by
  rw [List.append_assoc, List.take_append_of_le_length hn, List.take_append_of_le_length hn]

theorem stream_append {pending : Nat} {s : List UInt8} (hpending : pending ≤ s.length)
    (h : (stream pending s).2 = true) (t : List UInt8) :
    stream pending (s ++ t) = (s ++ (stream 0 t).1, (stream 0 t).2) := by
  fun_induction stream pending s with
  | case1 pending =>
      obtain rfl := Nat.le_zero.mp hpending
      rfl
  | case2 pending c rest ih =>
      rw [List.cons_append, stream, ih (Nat.le_of_succ_le_succ hpending) h]
      rfl
  | case3 c rest count hcheck ih =>
      have hrest : count - 1 ≤ rest.length ∧ (count == 1 || (count != 0 &&
          utf8CheckFull c ((rest ++ t ++ [0xff, 0xff, 0xff]).take (count - 1)))) = true := by
        rw [Bool.or_eq_true, Bool.and_eq_true] at hcheck ⊢
        rcases hcheck with hone | ⟨hcount, hfull⟩
        · rw [beq_iff_eq.mp hone]
          exact ⟨Nat.zero_le _, Or.inl rfl⟩
        · have hle := le_length_of_continues (by decide) (continues_of_utf8CheckFull hfull)
          rw [utf8CheckFull_append hle]
          exact ⟨hle, Or.inr ⟨hcount, hfull⟩⟩
      rw [List.cons_append, stream]
      rw [if_pos hrest.2, ih hrest.1 h]
      rfl
  | case4 => cases h

/-- What comes before an ASCII character ends a sequence. -/
theorem stream_before {pending : Nat} {s t : List UInt8} {c : UInt8} (hc : c < 0x80)
    (hpending : pending ≤ s.length) (h : (stream pending (s ++ c :: t)).2 = true) :
    (stream pending s).2 = true := by
  have hends : ¬ (0x80 ≤ c ∧ c ≤ 0xbf) := fun hcontinues => UInt8.not_le.mpr hc hcontinues.1
  induction s generalizing pending with
  | nil =>
      obtain rfl := Nat.le_zero.mp hpending
      rfl
  | cons b s ih =>
      cases pending with
      | succ pending =>
          rw [stream]
          rw [List.cons_append, stream] at h
          exact ih (Nat.le_of_succ_le_succ hpending) h
      | zero =>
          rw [stream]
          rw [List.cons_append, stream] at h
          generalize utf8CheckFirst b = count at h
          split at h
          · rename_i hcheck
            have hrest : count - 1 ≤ s.length ∧ (count == 1 || (count != 0 &&
                utf8CheckFull b ((s ++ [0xff, 0xff, 0xff]).take (count - 1)))) = true := by
              rw [Bool.or_eq_true, Bool.and_eq_true] at hcheck ⊢
              rcases hcheck with hone | ⟨hcount, hfull⟩
              · rw [beq_iff_eq.mp hone]
                exact ⟨Nat.zero_le _, Or.inl rfl⟩
              · have hcontinues := continues_of_utf8CheckFull hfull
                rw [List.append_assoc, List.cons_append] at hcontinues
                have hle := le_length_of_continues hends hcontinues
                rw [utf8CheckFull_append hle] at hfull
                exact ⟨hle, Or.inr ⟨hcount, hfull⟩⟩
            rw [if_pos hrest.2]
            exact ih hrest.1 h
          · cases h

theorem stream_ascii {s : List UInt8} (h : ∀ c ∈ s, c < 0x80) : (stream 0 s).2 = true := by
  induction s with
  | nil => rfl
  | cons c s ih =>
      rw [List.forall_mem_cons] at h
      have hfirst : utf8CheckFirst c = 1 := if_pos h.1
      rw [stream, hfirst]
      exact ih h.2

theorem utf8_cons {c : UInt8} (hc : c < 0x80) (s : List UInt8) :
    (stream 0 (c :: s)).2 = true ↔ (stream 0 s).2 = true := by
  have hfirst : utf8CheckFirst c = 1 := if_pos hc
  rw [stream, hfirst]
  rfl

/-- A text is UTF-8 on both sides of an ASCII character. -/
theorem utf8_splice {c : UInt8} (hc : c < 0x80) (s t : List UInt8) :
    (stream 0 (s ++ c :: t)).2 = true ↔ (stream 0 s).2 = true ∧ (stream 0 t).2 = true := by
  constructor
  · intro h
    have hbefore := stream_before hc (Nat.zero_le _) h
    rw [stream_append (Nat.zero_le _) hbefore, utf8_cons hc] at h
    exact ⟨hbefore, h⟩
  · rintro ⟨hbefore, hafter⟩
    rw [stream_append (Nat.zero_le _) hbefore, utf8_cons hc]
    exact hafter

end SojCivicLight.Jansson
