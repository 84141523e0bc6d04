import SojCivicLight.Jansson.Utf8

/-! A string that is written is read back. -/

namespace SojCivicLight.Jansson

open SojCivicLight.Stratum

/-! The characters of a string, one after the other. -/

/-- What is written for a character. -/
def charText (flags : UInt64) (codepoint : Nat) : CStr :=
  if mustEscape flags codepoint then escapeText codepoint else utf8Encode codepoint

theorem dumpRun_nil (flags : UInt64) (run : CStr) : dumpRun flags run [] = (run, true) := by
  rw [dumpRun]

theorem dumpRun_char (flags : UInt64) (run : CStr) {codepoint : Nat} (h : IsScalar codepoint)
    (s : CStr) : dumpRun flags run (utf8Encode codepoint ++ s) =
      if mustEscape flags codepoint then
        (run ++ escapeText codepoint ++ (dumpRun flags [] s).1, (dumpRun flags [] s).2)
      else dumpRun flags (run ++ utf8Encode codepoint) s := by
  obtain ⟨c, buffer, henc, hiterate⟩ := utf8Iterate_encode h s
  rw [henc, List.cons_append, dumpRun, hiterate]
  dsimp only
  rw [List.drop_left, List.take_left]

/-- The text that stands between the quotes for a string. -/
structure StringBody (s body : CStr) : Prop where
  utf8 : (stream 0 body).2 = true
  scan : ∀ rest, scanString (body ++ 34 :: rest) = some (body, rest)
  unescape : unescape body = some s
  printable : ∀ c ∈ body, 0x1f < c

theorem StringBody.nil : StringBody [] [] where
  utf8 := rfl
  scan := fun rest => by
    rw [List.nil_append, scanString.eq_def]
    rfl
  unescape := rfl
  printable := fun _ h => absurd h List.not_mem_nil

/-- A text stands for a character in whatever string it is. -/
structure CharBody (char text : CStr) : Prop where
  utf8 : (stream 0 text).2 = true
  scan : ∀ rest, scanString (text ++ rest) =
    (scanString rest).map fun scanned => (text ++ scanned.1, scanned.2)
  unescape : ∀ rest, unescape (text ++ rest) = (unescape rest).map (char ++ ·)
  printable : ∀ c ∈ text, 0x1f < c

theorem CharBody.append {char text s body : CStr} (h : CharBody char text)
    (rest : StringBody s body) : StringBody (char ++ s) (text ++ body) where
  utf8 := by
    rw [stream_append (Nat.zero_le _) h.utf8]
    exact rest.utf8
  scan := fun after => by
    rw [List.append_assoc, h.scan, rest.scan]
    rfl
  unescape := by
    rw [h.unescape, rest.unescape]
    rfl
  printable := by
    rw [List.forall_mem_append]
    exact ⟨h.printable, rest.printable⟩

/-- A character that is not escaped stands for itself. -/
theorem charBody_plain {char : CStr} (utf8 : (stream 0 char).2 = true) (h : Plain char) :
    CharBody char char where
  utf8 := utf8
  scan := fun rest => by
    clear utf8
    induction char with
    | nil => simp
    | cons c char ih =>
        rw [plain_cons] at h
        obtain ⟨⟨hquote, hescape, hcontrol⟩, hplain⟩ := h
        rw [List.cons_append, scanString.eq_def]
        dsimp only
        rw [if_neg (by simpa using hquote), if_neg (UInt8.not_le.mpr hcontrol),
          if_neg (by simpa using hescape), ih hplain, Option.map_map]
        rfl
  unescape := fun rest => by
    clear utf8
    induction char with
    | nil => simp
    | cons c char ih =>
        rw [plain_cons] at h
        obtain ⟨⟨-, hescape, -⟩, hplain⟩ := h
        rw [List.cons_append, unescape.eq_def]
        dsimp only
        rw [if_neg (by simpa using hescape), ih hplain, Option.map_map]
        rfl
  printable := fun c hc => (h c hc).2.2

/-! Escapes. -/

theorem hexDigit_hex : ∀ n : Fin 16, lIsXDigit (Util.hexDigit (.ofNat n)) = true ∧
    hexDigit (Util.hexDigit (.ofNat n)) = n ∧ 0x1f < Util.hexDigit (.ofNat n) ∧
    Util.hexDigit (.ofNat n) < 0x80 := by
  decide +kernel

/-- The four digits of an escape. -/
theorem unicodeEscape_digits {value : Nat} (h : value < 0x10000) :
    ∃ h1 h2 h3 h4, unicodeEscape value = [92, 117, h1, h2, h3, h4] ∧
      decodeUnicodeEscape [h1, h2, h3, h4] = value ∧
      ∀ d ∈ [h1, h2, h3, h4], lIsXDigit d = true ∧ 0x1f < d ∧ d < 0x80 := by
  refine ⟨_, _, _, _, rfl, ?_, ?_⟩
  · have d1 := (hexDigit_hex ⟨value / 4096, by omega⟩).2.1
    have d2 := (hexDigit_hex ⟨value / 256 % 16, by omega⟩).2.1
    have d3 := (hexDigit_hex ⟨value / 16 % 16, by omega⟩).2.1
    have d4 := (hexDigit_hex ⟨value % 16, by omega⟩).2.1
    simp only [decodeUnicodeEscape, List.foldl_cons, List.foldl_nil, d1, d2, d3, d4]
    omega
  · simp only [List.forall_mem_cons]
    have digit := fun (n : Nat) (hn : n < 16) =>
      And.intro (hexDigit_hex ⟨n, hn⟩).1 (hexDigit_hex ⟨n, hn⟩).2.2
    exact ⟨digit _ (by omega), digit _ (by omega), digit _ (by omega), digit _ (by omega),
      fun _ h => absurd h List.not_mem_nil⟩

theorem scan_unicodeEscape {value : Nat} (h : value < 0x10000) (rest : CStr) :
    scanString (unicodeEscape value ++ rest) =
      (scanString rest).map fun scanned => (unicodeEscape value ++ scanned.1, scanned.2) := by
  obtain ⟨h1, h2, h3, h4, htext, -, hdigits⟩ := unicodeEscape_digits h
  simp only [List.forall_mem_cons] at hdigits
  obtain ⟨d1, d2, d3, d4, -⟩ := hdigits
  rw [htext]
  simp only [List.cons_append, List.nil_append]
  rw [scanString.eq_def]
  dsimp only
  rw [if_neg (by decide), if_neg (by decide), if_pos (by decide)]
  change (if (lIsXDigit h1 && lIsXDigit h2 && lIsXDigit h3 && lIsXDigit h4) = true then _
    else none) = _
  rw [d1.1, d2.1, d3.1, d4.1]
  rfl

theorem printable_unicodeEscape {value : Nat} (h : value < 0x10000) :
    ∀ c ∈ unicodeEscape value, 0x1f < c ∧ c < 0x80 := by
  obtain ⟨h1, h2, h3, h4, htext, -, hdigits⟩ := unicodeEscape_digits h
  rw [htext, List.forall_mem_cons, List.forall_mem_cons]
  exact ⟨by decide, by decide, fun d hd => (hdigits d hd).2⟩

theorem utf8_of_printable {s : CStr} (h : ∀ c ∈ s, 0x1f < c ∧ c < 0x80) :
    (stream 0 s).2 = true := stream_ascii fun c hc => (h c hc).2

/-- A code point of the basic plane is escaped by itself. -/
theorem charBody_unicodeEscape {codepoint : Nat} (h : IsScalar codepoint)
    (hpos : codepoint ≠ 0) (hplane : codepoint < 0x10000) :
    CharBody (utf8Encode codepoint) (unicodeEscape codepoint) where
  utf8 := utf8_of_printable (printable_unicodeEscape hplane)
  scan := scan_unicodeEscape hplane
  unescape := fun rest => by
    obtain ⟨h1, h2, h3, h4, htext, hvalue, -⟩ := unicodeEscape_digits hplane
    have hsurrogate := h.2
    rw [htext]
    simp only [List.cons_append, List.nil_append]
    rw [unescape.eq_def]
    dsimp only
    rw [if_pos (by decide)]
    change (if 0xd800 ≤ decodeUnicodeEscape [h1, h2, h3, h4] ∧
      decodeUnicodeEscape [h1, h2, h3, h4] ≤ 0xdbff then _ else _) = _
    rw [hvalue, if_neg (by omega), if_neg (by omega), if_neg hpos]
  printable := fun c hc => (printable_unicodeEscape hplane c hc).1

/-- The others are escaped as a surrogate pair. -/
theorem charBody_surrogates {codepoint : Nat} (h : IsScalar codepoint)
    (hplane : 0x10000 ≤ codepoint) :
    CharBody (utf8Encode codepoint) (unicodeEscape (0xd800 + (codepoint - 0x10000) / 1024) ++
      unicodeEscape (0xdc00 + (codepoint - 0x10000) % 1024)) := by
  have hmax := h.1
  have hfirst : 0xd800 + (codepoint - 0x10000) / 1024 < 0x10000 := by omega
  have hlast : 0xdc00 + (codepoint - 0x10000) % 1024 < 0x10000 := by omega
  have hprintable := List.forall_mem_append.mpr
    ⟨printable_unicodeEscape hfirst, printable_unicodeEscape hlast⟩
  refine ⟨utf8_of_printable hprintable, fun rest => ?_, fun rest => ?_,
    fun c hc => (hprintable c hc).1⟩
  · rw [List.append_assoc, scan_unicodeEscape hfirst, scan_unicodeEscape hlast, Option.map_map]
    simp only [Function.comp_def, List.append_assoc]
  · obtain ⟨h1, h2, h3, h4, htext, hvalue, -⟩ := unicodeEscape_digits hfirst
    obtain ⟨l1, l2, l3, l4, htext2, hvalue2, -⟩ := unicodeEscape_digits hlast
    rw [htext, htext2]
    simp only [List.cons_append, List.nil_append]
    rw [unescape.eq_def]
    dsimp only
    rw [if_pos (by decide)]
    change (if 0xd800 ≤ decodeUnicodeEscape [h1, h2, h3, h4] ∧
      decodeUnicodeEscape [h1, h2, h3, h4] ≤ 0xdbff then
      if 0xdc00 ≤ decodeUnicodeEscape [l1, l2, l3, l4] ∧
        decodeUnicodeEscape [l1, l2, l3, l4] ≤ 0xdfff then _ else _ else _) = _
    rw [hvalue, if_pos (by omega), hvalue2, if_pos (by omega),
      show 1024 * (0xd800 + (codepoint - 0x10000) / 1024 - 0xd800) +
        (0xdc00 + (codepoint - 0x10000) % 1024 - 0xdc00) + 0x10000 = codepoint by omega]

theorem charBody_shortEscape {c e : UInt8} (hescape : isShortEscape e = true)
    (hchar : shortEscape e = c) : CharBody [c] [92, e] := by
  subst hchar
  have hshort : e = 34 ∨ e = 92 ∨ e = 47 ∨ e = 98 ∨ e = 102 ∨ e = 110 ∨ e = 114 ∨ e = 116 := by
    simpa only [isShortEscape, Bool.or_eq_true, beq_iff_eq, or_assoc] using hescape
  rcases hshort with rfl | rfl | rfl | rfl | rfl | rfl | rfl | rfl
  all_goals
    constructor
    case utf8 => rfl
    case scan =>
      intro rest
      rw [List.cons_append, scanString.eq_def]
      rfl
    case unescape =>
      intro rest
      rw [List.cons_append, unescape.eq_def]
      rfl
    case printable => exact List.all_iff_forall_prop.mp (by decide)

/-- Beyond ASCII no byte is a control character, a quote or a backslash. -/
theorem utf8Encode_high {codepoint : Nat} (h : IsScalar codepoint) (hlong : 128 ≤ codepoint) :
    ∀ b ∈ utf8Encode codepoint, 128 ≤ b.toNat := by
  rcases utf8Encode_cases h with ⟨c, rfl, hascii, -⟩ | ⟨c, buffer, henc, hcount, hfull, -⟩
  · omega
  · rw [henc, List.forall_mem_cons]
    have hfirst := utf8CheckFirst_cases c
    obtain ⟨hsize, hcontinues, -⟩ := (utf8CheckFull_iff c buffer).mp hfull
    exact ⟨by omega, fun b hb => (hcontinues b hb).1⟩

theorem plain_utf8Encode {codepoint : Nat} (h : IsScalar codepoint) (hlong : 128 ≤ codepoint) :
    Plain (utf8Encode codepoint) := by
  intro b hb
  have hhigh := utf8Encode_high h hlong b hb
  refine ⟨?_, ?_, UInt8.lt_iff_toNat_lt.mpr (Nat.lt_of_lt_of_le (by decide) hhigh)⟩
  · rintro rfl
    exact absurd hhigh (by decide)
  · rintro rfl
    exact absurd hhigh (by decide)

/-- Whatever is written for a character stands for it. -/
theorem charBody_charText (flags : UInt64) {codepoint : Nat} (h : IsScalar codepoint)
    (hpos : codepoint ≠ 0) : CharBody (utf8Encode codepoint) (charText flags codepoint) := by
  rw [charText]
  split
  · rename_i hescape
    rw [escapeText]
    split
    · subst codepoint
      exact charBody_shortEscape rfl rfl
    split
    · subst codepoint
      exact charBody_shortEscape rfl rfl
    split
    · subst codepoint
      exact charBody_shortEscape rfl rfl
    split
    · subst codepoint
      exact charBody_shortEscape rfl rfl
    split
    · subst codepoint
      exact charBody_shortEscape rfl rfl
    split
    · subst codepoint
      exact charBody_shortEscape rfl rfl
    split
    · subst codepoint
      exact charBody_shortEscape rfl rfl
    split
    · subst codepoint
      exact charBody_shortEscape rfl rfl
    split
    · rename_i hplane
      exact charBody_unicodeEscape h hpos hplane
    · rename_i hplane
      exact charBody_surrogates h (Nat.le_of_not_lt hplane)
  · rename_i hplain
    refine charBody_plain (utf8_encode h) ?_
    simp only [mustEscape, Bool.or_eq_true, beq_iff_eq, decide_eq_true_eq, not_or] at hplain
    rcases utf8Encode_cases h with ⟨c, rfl, -, henc⟩ | ⟨c, buffer, -, -, hfull, hvalue⟩
    · rw [henc, plain_cons]
      have hcontrol : 0x1f < c.toNat := by omega
      refine ⟨⟨?_, ?_, UInt8.lt_iff_toNat_lt.mpr hcontrol⟩, plain_nil⟩
      · rintro rfl
        exact hplain.1.1.1.2 rfl
      · rintro rfl
        exact hplain.1.1.1.1 rfl
    · have hlong : 128 ≤ codepoint := by
        have hsize := ((utf8CheckFull_iff c buffer).mp hfull).1
        omega
      exact plain_utf8Encode h hlong

/-! A whole string. -/

/-- The bytes of a string that a value may hold. -/
structure IsText (s : CStr) : Prop where
  utf8 : (stream 0 s).2 = true
  terminated : 0 ∉ s

theorem dumpRun_text (flags : UInt64) {s : CStr} (h : IsText s) :
    ∃ body, StringBody s body ∧ ∀ run, dumpRun flags run s = (run ++ body, true) := by
  obtain ⟨utf8, terminated⟩ := h
  induction s, utf8 using utf8_induction with
  | nil => exact ⟨[], StringBody.nil, fun run => by rw [dumpRun_nil, List.append_nil]⟩
  | char codepoint s hscalar utf8 ih =>
      rw [List.mem_append, not_or] at terminated
      obtain ⟨body, hbody, hrun⟩ := ih terminated.2
      have hpos : codepoint ≠ 0 := by
        rintro rfl
        exact terminated.1 List.mem_cons_self
      refine ⟨charText flags codepoint ++ body,
        (charBody_charText flags hscalar hpos).append hbody, fun run => ?_⟩
      rw [dumpRun_char flags run hscalar, charText]
      split
      · rw [hrun, List.nil_append, List.append_assoc]
      · rw [hrun, List.append_assoc]

/-- What `dump_string` writes is read back as the string, whatever comes after. -/
theorem dumpString_text (flags : UInt64) {s : CStr} (h : IsText s) :
    ∃ body, StringBody s body ∧ dumpString flags s = (34 :: (body ++ [34]), true) := by
  obtain ⟨body, hbody, hrun⟩ := dumpRun_text flags h
  refine ⟨body, hbody, ?_⟩
  rw [dumpString, hrun]
  rfl

end SojCivicLight.Jansson
