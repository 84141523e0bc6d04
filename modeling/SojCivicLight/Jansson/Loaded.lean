import SojCivicLight.Jansson.RoundTrip

/-! What `json_loads` accepts is well formed, and so can be written again. -/

namespace SojCivicLight.Jansson

open SojCivicLight.Stratum

/-! Strings. -/

theorem utf8_ascii_append {s t : CStr} (hs : ∀ c ∈ s, c < 0x80) :
    (stream 0 (s ++ t)).2 = true ↔ (stream 0 t).2 = true := by
  rw [stream_append (Nat.zero_le _) (stream_ascii hs)]

theorem xDigit_ascii : ∀ c : UInt8, lIsXDigit c = true → c < 0x80 := by
  apply Util.forall_byte
  decide +kernel

/-- The cases of a string that is scanned. -/
inductive ScanStep : CStr → CStr → CStr → Prop
  | close (rest : CStr) : ScanStep (34 :: rest) [] rest
  | unicode {h1 h2 h3 h4 : UInt8} {s text rest : CStr}
      (hdigits : ∀ d ∈ [h1, h2, h3, h4], lIsXDigit d = true)
      (hscan : scanString s = some (text, rest)) :
      ScanStep (92 :: 117 :: h1 :: h2 :: h3 :: h4 :: s)
        (92 :: 117 :: h1 :: h2 :: h3 :: h4 :: text) rest
  | short {e : UInt8} {s text rest : CStr} (hescape : isShortEscape e = true)
      (hscan : scanString s = some (text, rest)) : ScanStep (92 :: e :: s) (92 :: e :: text) rest
  | plain {c : UInt8} {s text rest : CStr} (hplain : c ≠ 34 ∧ c ≠ 92 ∧ 0x1f < c)
      (hscan : scanString s = some (text, rest)) : ScanStep (c :: s) (c :: text) rest

theorem scanString_step {s text rest : CStr} (h : scanString s = some (text, rest)) :
    ScanStep s text rest := by
  rw [scanString.eq_def] at h
  split at h
  · cases h
  · rename_i c s
    split at h
    · rename_i hquote
      obtain rfl := beq_iff_eq.mp hquote
      cases h
      exact .close _
    · rename_i hquote
      split at h
      · cases h
      · rename_i hcontrol
        split at h
        · rename_i hescape
          obtain rfl := beq_iff_eq.mp hescape
          split at h
          · split at h
            · rename_i hdigits
              obtain ⟨⟨text', rest'⟩, hscan, heq⟩ := Option.map_eq_some_iff.mp h
              cases heq
              simp only [Bool.and_eq_true] at hdigits
              refine .unicode ?_ hscan
              simp only [List.forall_mem_cons]
              exact ⟨hdigits.1.1.1, hdigits.1.1.2, hdigits.1.2, hdigits.2,
                fun _ hmem => absurd hmem List.not_mem_nil⟩
            · cases h
          · split at h
            · rename_i hshort
              obtain ⟨⟨text', rest'⟩, hscan, heq⟩ := Option.map_eq_some_iff.mp h
              cases heq
              exact .short hshort hscan
            · cases h
          · cases h
        · rename_i hescape
          obtain ⟨⟨text', rest'⟩, hscan, heq⟩ := Option.map_eq_some_iff.mp h
          cases heq
          exact .plain ⟨by simpa using hquote, by simpa using hescape, UInt8.not_le.mp hcontrol⟩
            hscan

theorem hexDigit_lt : ∀ c : UInt8, lIsXDigit c = true → hexDigit c < 16 := by
  apply Util.forall_byte
  decide +kernel

theorem decodeUnicodeEscape_lt {h1 h2 h3 h4 : UInt8}
    (h : ∀ d ∈ [h1, h2, h3, h4], lIsXDigit d = true) :
    decodeUnicodeEscape [h1, h2, h3, h4] < 0x10000 := by
  simp only [List.forall_mem_cons] at h
  obtain ⟨x1, x2, x3, x4, -⟩ := h
  have d1 := hexDigit_lt h1 x1
  have d2 := hexDigit_lt h2 x2
  have d3 := hexDigit_lt h3 x3
  have d4 := hexDigit_lt h4 x4
  simp only [decodeUnicodeEscape, List.foldl_cons, List.foldl_nil]
  omega

/-- What an escape is unescaped to: a character of its own, or one with the escape after it. -/
theorem unescape_unicode {h1 h2 h3 h4 : UInt8} {text value : CStr}
    (hdigits : ∀ d ∈ [h1, h2, h3, h4], lIsXDigit d = true)
    (h : unescape (92 :: 117 :: h1 :: h2 :: h3 :: h4 :: text) = some value) :
    ∃ codepoint text' value', IsScalar codepoint ∧ codepoint ≠ 0 ∧
      (text' = text ∨ ∃ l1 l2 l3 l4, text = 92 :: 117 :: l1 :: l2 :: l3 :: l4 :: text') ∧
      unescape text' = some value' ∧ value = utf8Encode codepoint ++ value' := by
  have hbound := decodeUnicodeEscape_lt hdigits
  rw [unescape.eq_def] at h
  dsimp only at h
  rw [if_pos (by decide)] at h
  change (if 0xd800 ≤ decodeUnicodeEscape [h1, h2, h3, h4] ∧
    decodeUnicodeEscape [h1, h2, h3, h4] ≤ 0xdbff then _ else
    if 0xdc00 ≤ decodeUnicodeEscape [h1, h2, h3, h4] ∧
      decodeUnicodeEscape [h1, h2, h3, h4] ≤ 0xdfff then _ else _) = _ at h
  generalize decodeUnicodeEscape [h1, h2, h3, h4] = first at h hbound
  split at h
  · split at h
    · rename_i l1 l2 l3 l4 text'
      generalize decodeUnicodeEscape [l1, l2, l3, l4] = second at h
      split at h
      · obtain ⟨value', hvalue, rfl⟩ := Option.map_eq_some_iff.mp h
        refine ⟨_, text', value', ⟨?_, ?_⟩, ?_, Or.inr ⟨l1, l2, l3, l4, rfl⟩, hvalue, rfl⟩
        · omega
        · omega
        · omega
      · cases h
    · cases h
  · rename_i hhigh
    split at h
    · cases h
    · rename_i hlow
      split at h
      · cases h
      · rename_i hpos
        obtain ⟨value', hvalue, rfl⟩ := Option.map_eq_some_iff.mp h
        refine ⟨first, text, value', ⟨by omega, by omega⟩, hpos, Or.inl rfl, hvalue, rfl⟩

theorem unescape_short {e : UInt8} {text value : CStr} (hescape : isShortEscape e = true)
    (h : unescape (92 :: e :: text) = some value) :
    ∃ value', unescape text = some value' ∧ value = shortEscape e :: value' := by
  have hchar := (charBody_shortEscape hescape rfl).unescape text
  rw [List.cons_append, List.cons_append, List.nil_append, h] at hchar
  obtain ⟨value', hvalue, rfl⟩ := Option.map_eq_some_iff.mp hchar.symm
  exact ⟨value', hvalue, rfl⟩

theorem IsText.char {codepoint : Nat} (h : IsScalar codepoint) (hpos : codepoint ≠ 0) {s : CStr}
    (hs : IsText s) : IsText (utf8Encode codepoint ++ s) where
  utf8 := utf8_char h hs.utf8
  terminated := by
    rw [List.mem_append, not_or]
    refine ⟨fun hmem => ?_, hs.terminated⟩
    rcases utf8Encode_cases h with ⟨c, rfl, -, henc⟩ | ⟨c, buffer, -, -, hfull, hvalue⟩
    · rw [henc, List.mem_singleton] at hmem
      subst hmem
      exact hpos rfl
    · have hsize := ((utf8CheckFull_iff c buffer).mp hfull).1
      exact absurd (utf8Encode_high h (by omega) 0 hmem) (by decide)

theorem IsText.cons {c : UInt8} (hc : c < 0x80) (hpos : c ≠ 0) {s : CStr} (hs : IsText s) :
    IsText (c :: s) where
  utf8 := (utf8_cons hc s).mpr hs.utf8
  terminated := by
    rw [List.mem_cons, not_or]
    exact ⟨Ne.symm hpos, hs.terminated⟩

/-- The string that is read, and what comes after it. -/
theorem isText_of_scan {n : Nat} {s text rest value : CStr} (hlen : s.length ≤ n)
    (utf8 : (stream 0 s).2 = true) (hscan : scanString s = some (text, rest))
    (hvalue : unescape text = some value) : IsText value ∧ (stream 0 rest).2 = true := by
  induction n generalizing s text rest value with
  | zero =>
      obtain rfl := List.length_eq_zero_iff.mp (Nat.le_zero.mp hlen)
      cases hscan
  | succ n ih =>
      cases scanString_step hscan with
      | close =>
          cases hvalue
          exact ⟨⟨rfl, List.not_mem_nil⟩, (utf8_cons (by decide) _).mp utf8⟩
      | @unicode h1 h2 h3 h4 s text _ hdigits hrest =>
          have hascii : ∀ c ∈ [92, 117, h1, h2, h3, h4], c < 0x80 := by
            rw [List.forall_mem_cons, List.forall_mem_cons]
            exact ⟨by decide, by decide, fun d hd => xDigit_ascii d (hdigits d hd)⟩
          have utf8' := (utf8_ascii_append (t := s) hascii).mp utf8
          simp only [List.length_cons] at hlen
          obtain ⟨codepoint, text', value', hscalar, hpos, htext, hvalue', rfl⟩ :=
            unescape_unicode hdigits hvalue
          rcases htext with rfl | ⟨l1, l2, l3, l4, rfl⟩
          · obtain ⟨htext, hutf8⟩ := ih (by omega) utf8' hrest hvalue'
            exact ⟨htext.char hscalar hpos, hutf8⟩
          · -- the second half of a surrogate pair
            cases scanString_step hrest with
            | @unicode _ _ _ _ s _ _ hdigits2 hrest2 =>
                have hascii2 : ∀ c ∈ [92, 117, l1, l2, l3, l4], c < 0x80 := by
                  rw [List.forall_mem_cons, List.forall_mem_cons]
                  exact ⟨by decide, by decide, fun d hd => xDigit_ascii d (hdigits2 d hd)⟩
                have utf8'' := (utf8_ascii_append (t := s) hascii2).mp utf8'
                simp only [List.length_cons] at hlen
                obtain ⟨htext, hutf8⟩ := ih (by omega) utf8'' hrest2 hvalue'
                exact ⟨htext.char hscalar hpos, hutf8⟩
            | short hescape => cases hescape
            | plain hplain => exact absurd rfl hplain.2.1
      | @short e s text _ hescape hrest =>
          have hshort : e < 0x80 ∧ shortEscape e < 0x80 ∧ shortEscape e ≠ 0 := by
            clear hvalue hscan utf8 hlen
            revert hescape
            revert e
            apply Util.forall_byte
            decide +kernel
          have utf8' := (utf8_cons hshort.1 s).mp ((utf8_cons (by decide) (e :: s)).mp utf8)
          simp only [List.length_cons] at hlen
          obtain ⟨value', hvalue', rfl⟩ := unescape_short hescape hvalue
          obtain ⟨htext, hutf8⟩ := ih (by omega) utf8' hrest hvalue'
          exact ⟨htext.cons hshort.2.1 hshort.2.2, hutf8⟩
      | @plain c s text _ hplain hrest =>
          obtain ⟨codepoint, after, hscalar, heq, hafter⟩ := utf8_decode utf8
          have hlength : after.length ≤ n := by
            have hsize := congrArg List.length heq
            have hpos := List.length_pos_iff.mpr (utf8Encode_ne_nil codepoint)
            rw [List.length_append, List.length_cons] at hsize
            rw [List.length_cons] at hlen
            omega
          have hbody : CharBody (utf8Encode codepoint) (utf8Encode codepoint) := by
            refine charBody_plain (utf8_encode hscalar) ?_
            rcases Nat.lt_or_ge codepoint 128 with hascii | hlong
            · rw [utf8Encode, if_pos hascii] at heq ⊢
              obtain ⟨rfl, -⟩ := List.cons.inj heq
              exact (plain_cons _ _).mpr ⟨hplain, plain_nil⟩
            · exact plain_utf8Encode hscalar hlong
          have hpos : codepoint ≠ 0 := by
            rintro rfl
            obtain ⟨rfl, -⟩ := List.cons.inj heq
            exact absurd hplain.2.2 (by decide)
          rw [heq, hbody.scan] at hscan
          obtain ⟨⟨text', rest'⟩, hscan', hpair⟩ := Option.map_eq_some_iff.mp hscan
          obtain ⟨htext, rfl⟩ := Prod.mk.inj hpair
          rw [← htext, hbody.unescape] at hvalue
          obtain ⟨value', hvalue', rfl⟩ := Option.map_eq_some_iff.mp hvalue
          obtain ⟨htext, hutf8⟩ := ih hlength hafter hscan' hvalue'
          exact ⟨htext.char hscalar hpos, hutf8⟩

/-! Tokens. -/

section

variable (P : Double → Prop)

/-- The value of a token can be held. -/
def TokenWellFormed : Token → Prop
  | .string value => IsText value
  | .integer value => -2 ^ 63 ≤ value ∧ value < 2 ^ 63
  | .real value => P value
  | _ => True

/-- A token and the input after it, of which nothing is asked when the token is refused. -/
structure Scanned (scanned : Token × CStr) : Prop where
  token : TokenWellFormed P scanned.1
  utf8 : scanned.1 ≠ .invalid → (stream 0 scanned.2).2 = true

end

section

variable {P : Double → Prop} {strtod : CStr → Option Double}

theorem utf8_dropWhile {p : UInt8 → Bool} (hp : ∀ c, p c = true → c < 0x80) {s : CStr}
    (h : (stream 0 s).2 = true) : (stream 0 (s.dropWhile p)).2 = true := by
  rw [← List.takeWhile_append_dropWhile (p := p) (l := s)] at h
  refine (utf8_ascii_append fun c hc => hp c ?_).mp h
  exact (List.mem_takeWhile_imp hc)

theorem digit_ascii : ∀ c : UInt8, lIsDigit c = true → c < 0x80 := by
  apply Util.forall_byte
  decide +kernel

theorem alpha_ascii : ∀ c : UInt8, lIsAlpha c = true → c < 0x80 := by
  apply Util.forall_byte
  decide +kernel

theorem scanned_invalid (s : CStr) : Scanned P (.invalid, s) :=
  ⟨trivial, fun h => absurd rfl h⟩

theorem scanInteger_wellFormed (text : CStr) :
    TokenWellFormed P (scanInteger text) := by
  rw [scanInteger]
  split
  · assumption
  · trivial

theorem scanReal_wellFormed (hreads : ∀ text x, strtod text = some x → P x) (text : CStr) :
    TokenWellFormed P (scanReal strtod text) := by
  rw [scanReal]
  split
  · trivial
  · rename_i hvalue
    exact hreads _ _ hvalue

theorem scanned_scanExponent (hreads : ∀ text x, strtod text = some x → P x) (text : CStr)
    {s : CStr}
    (utf8 : (stream 0 s).2 = true) : Scanned P (scanExponent strtod text s) := by
  cases s with
  | nil => exact ⟨scanReal_wellFormed hreads text, fun _ => rfl⟩
  | cons c rest =>
      rw [scanExponent]
      split
      · rename_i hmark
        have hc : c < 0x80 := by
          clear utf8
          revert hmark
          revert c
          apply Util.forall_byte
          decide +kernel
        rw [utf8_cons hc] at utf8
        have hrest : (stream 0 (rest.drop (rest.take (if rest.head? = some 43 ∨
            rest.head? = some 45 then 1 else 0)).length)).2 = true := by
          split
          · rename_i hsign
            cases rest with
            | nil => exact utf8
            | cons d rest =>
                rw [List.head?_cons, Option.some.injEq, Option.some.injEq] at hsign
                have hd : d < 0x80 := by
                  rcases hsign with rfl | rfl
                  · decide
                  · decide
                exact (utf8_cons hd rest).mp utf8
          · exact utf8
        generalize rest.take _ = sign at hrest
        dsimp only
        split
        · exact scanned_invalid _
        · exact ⟨scanReal_wellFormed hreads _, fun _ => utf8_dropWhile digit_ascii hrest⟩
      · exact ⟨scanReal_wellFormed hreads text, fun _ => utf8⟩

theorem scanned_scanFraction (hreads : ∀ text x, strtod text = some x → P x) (text : CStr)
    {s : CStr}
    (utf8 : (stream 0 s).2 = true) : Scanned P (scanFraction strtod text s) := by
  cases s with
  | nil => exact ⟨scanInteger_wellFormed text, fun _ => rfl⟩
  | cons c rest =>
      rw [scanFraction]
      split
      · rename_i hpoint
        obtain rfl := beq_iff_eq.mp hpoint
        rw [utf8_cons (by decide)] at utf8
        split
        · exact scanned_invalid _
        · exact scanned_scanExponent hreads _ (utf8_dropWhile digit_ascii utf8)
      · split
        · exact scanned_scanExponent hreads _ utf8
        · exact ⟨scanInteger_wellFormed text, fun _ => utf8⟩

theorem scanned_lexScanNumber (hreads : ∀ text x, strtod text = some x → P x) {s : CStr}
    (utf8 : (stream 0 s).2 = true) : Scanned P (lexScanNumber strtod s) := by
  rw [lexScanNumber]
  have hrest : (stream 0 (s.drop (s.take (if s.head? = some 45 then 1 else 0)).length)).2 =
      true := by
    split
    · rename_i hsign
      cases s with
      | nil => exact utf8
      | cons d rest =>
          rw [List.head?_cons, Option.some.injEq] at hsign
          subst hsign
          exact (utf8_cons (by decide) rest).mp utf8
    · exact utf8
  generalize s.take _ = sign at hrest
  generalize s.drop sign.length = digits at hrest
  split
  · rename_i rest
    rw [utf8_cons (by decide)] at hrest
    split
    · exact scanned_invalid _
    · exact scanned_scanFraction hreads _ hrest
  · split
    · exact scanned_invalid _
    · exact scanned_scanFraction hreads _ (utf8_dropWhile digit_ascii hrest)

theorem identifier_wellFormed (text : CStr) : TokenWellFormed P (identifier text) := by
  rw [identifier]
  split
  · trivial
  split
  · trivial
  split
  · trivial
  · trivial

theorem scanned_lexScan (hreads : ∀ text x, strtod text = some x → P x) {s : CStr}
    (utf8 : (stream 0 s).2 = true) : Scanned P (lexScan strtod .eof s) := by
  rw [lexScan]
  have hblank : ∀ c : UInt8, (c == 32 || c == 9 || c == 10 || c == 13) = true → c < 0x80 := by
    apply Util.forall_byte
    decide +kernel
  have htext := utf8_dropWhile hblank utf8
  generalize s.dropWhile _ = text at htext
  cases text with
  | nil => exact ⟨trivial, fun _ => rfl⟩
  | cons c rest =>
      dsimp only
      split
      · rename_i hpunct
        have hc : c < 0x80 := by
          clear htext
          revert hpunct
          revert c
          apply Util.forall_byte
          decide +kernel
        exact ⟨trivial, fun _ => (utf8_cons hc rest).mp htext⟩
      · split
        · rename_i hquote
          obtain rfl := beq_iff_eq.mp hquote
          rw [utf8_cons (by decide)] at htext
          rw [lexScanString]
          cases hscan : scanString rest with
          | none => exact scanned_invalid _
          | some scanned =>
              obtain ⟨body, after⟩ := scanned
              dsimp only
              cases hvalue : unescape body with
              | none => exact scanned_invalid _
              | some value =>
                  obtain ⟨hvalue, hafter⟩ := isText_of_scan (Nat.le_refl _) htext hscan hvalue
                  exact ⟨hvalue, fun _ => hafter⟩
        · split
          · exact scanned_lexScanNumber hreads htext
          · split
            · rename_i halpha
              rw [utf8_cons (alpha_ascii c halpha)] at htext
              exact ⟨identifier_wellFormed _, fun _ => utf8_dropWhile alpha_ascii htext⟩
            · exact scanned_invalid _

/-! Values. -/

theorem elementsLength_mem {elements : List Json} {element : Json} (h : element ∈ elements) :
    textLength element ≤ elementsLength elements := by
  induction elements with
  | nil => cases h
  | cons first elements ih =>
      rw [elementsLength]
      rcases List.mem_cons.mp h with rfl | hmem
      · omega
      · have hle := ih hmem
        omega

theorem length_le_elementsLength (elements : List Json) :
    elements.length ≤ elementsLength elements := by
  induction elements with
  | nil => exact Nat.le_refl 0
  | cons element elements ih =>
      rw [elementsLength, List.length_cons]
      omega

theorem membersLength_mem {members : List (CStr × Json)} {member : CStr × Json}
    (h : member ∈ members) : textLength member.2 ≤ membersLength members := by
  induction members with
  | nil => cases h
  | cons first members ih =>
      obtain ⟨key, value⟩ := first
      rw [membersLength]
      rcases List.mem_cons.mp h with rfl | hmem
      · dsimp only
        omega
      · have hle := ih hmem
        omega

/-- A value whose text is short enough for the lengths of its arrays is well formed. -/
def ShortWellFormed (P : Double → Prop) (value : Json) : Prop :=
  textLength value < 2 ^ 31 → WellFormed P value

/-- The members that an object holds while it is read. -/
structure MembersRead (P : Double → Prop) (members : List (CStr × Json)) : Prop where
  nodup : (members.map (·.1)).Nodup
  members : ∀ member ∈ members, IsText member.1 ∧ ShortWellFormed P member.2

theorem ShortWellFormed.array {elements : List Json}
    (h : ∀ element ∈ elements, ShortWellFormed P element) :
    ShortWellFormed P (.array elements) := by
  intro hlen
  rw [textLength] at hlen
  have hcount := length_le_elementsLength elements
  refine ⟨by omega, (elementsWellFormed_iff elements).mpr fun element hmem => h element hmem ?_⟩
  have hle := elementsLength_mem hmem
  omega

theorem MembersRead.object {members : List (CStr × Json)} (h : MembersRead P members) :
    ShortWellFormed P (.object members) := by
  intro hlen
  rw [textLength] at hlen
  refine ⟨h.nodup, (membersWellFormed_iff members).mpr fun member hmem =>
    ⟨(h.members member hmem).1, (h.members member hmem).2 ?_⟩⟩
  have hle := membersLength_mem hmem
  omega

theorem keys_jsonObjectSet (members : List (CStr × Json)) (key : CStr) (value : Json) :
    (jsonObjectSet members key value).map (·.1) =
      if key ∈ members.map (·.1) then members.map (·.1) else members.map (·.1) ++ [key] := by
  induction members with
  | nil => rfl
  | cons first members ih =>
      rw [jsonObjectSet]
      split
      · rename_i heq
        obtain rfl := beq_iff_eq.mp heq
        rw [List.map_cons, List.map_cons, if_pos List.mem_cons_self]
      · rename_i hne
        have hkey : key ≠ first.1 := fun heq => hne (beq_iff_eq.mpr heq.symm)
        rw [List.map_cons, List.map_cons, ih]
        by_cases hmem : key ∈ members.map (·.1)
        · rw [if_pos hmem, if_pos (List.mem_cons_of_mem _ hmem)]
        · rw [if_neg hmem, if_neg (by simpa [hkey] using hmem), List.cons_append]

theorem mem_jsonObjectSet {members : List (CStr × Json)} {key : CStr} {value : Json}
    {member : CStr × Json} (h : member ∈ jsonObjectSet members key value) :
    member = (key, value) ∨ member ∈ members := by
  induction members with
  | nil => exact Or.inl (List.mem_singleton.mp h)
  | cons first members ih =>
      rw [jsonObjectSet] at h
      split at h
      · rcases List.mem_cons.mp h with rfl | hmem
        · exact Or.inl rfl
        · exact Or.inr (List.mem_cons_of_mem _ hmem)
      · rcases List.mem_cons.mp h with rfl | hmem
        · exact Or.inr List.mem_cons_self
        · exact (ih hmem).imp_right (List.mem_cons_of_mem _)

theorem MembersRead.set {members : List (CStr × Json)} (h : MembersRead P members)
    {key : CStr} (hkey : IsText key) {value : Json}
    (hvalue : ShortWellFormed P value) :
    MembersRead P (jsonObjectSet members key value) where
  nodup := by
    rw [keys_jsonObjectSet]
    split
    · exact h.nodup
    · rename_i hnew
      refine List.nodup_append.mpr ⟨h.nodup,
        List.nodup_cons.mpr ⟨List.not_mem_nil, List.nodup_nil⟩, fun a ha b hb => ?_⟩
      obtain rfl := List.mem_singleton.mp hb
      rintro rfl
      exact hnew ha
  members := fun member hmem => by
    rcases mem_jsonObjectSet hmem with rfl | hold
    · exact ⟨hkey, hvalue⟩
    · exact h.members member hold

/-- What the three loops of the parser keep. -/
structure ParsesWellFormed (P : Double → Prop) (strtod : CStr → Option Double) (fuel : Nat) :
    Prop where
  value : ∀ token s value rest, Scanned P (token, s) →
    parseValue strtod .eof fuel token s = some (value, rest) →
      ShortWellFormed P value ∧ (stream 0 rest).2 = true
  object : ∀ object token s members rest, MembersRead P object →
    Scanned P (token, s) →
    parseObject strtod .eof fuel object token s = some (members, rest) →
      MembersRead P members ∧ (stream 0 rest).2 = true
  array : ∀ array token s elements rest,
    (∀ element ∈ array, ShortWellFormed P element) →
    Scanned P (token, s) →
    parseArray strtod .eof fuel array token s = some (elements, rest) →
      (∀ element ∈ elements, ShortWellFormed P element) ∧
        (stream 0 rest).2 = true

theorem parseValue_wellFormed (hreads : ∀ text x, strtod text = some x → P x) {fuel : Nat}
    (ih : ParsesWellFormed P strtod fuel) {token : Token} {s rest : CStr} {value : Json}
    (hscan : Scanned P (token, s))
    (h : parseValue strtod .eof (fuel + 1) token s = some (value, rest)) :
    ShortWellFormed P value ∧ (stream 0 rest).2 = true := by
  obtain ⟨htoken, hutf8⟩ := hscan
  rw [parseValue.eq_def] at h
  dsimp only at h
  split at h
  · cases h
    exact ⟨fun _ => htoken, hutf8 Token.noConfusion⟩
  · cases h
    exact ⟨fun _ => htoken, hutf8 Token.noConfusion⟩
  · cases h
    exact ⟨fun _ => htoken, hutf8 Token.noConfusion⟩
  · cases h
    exact ⟨fun _ => trivial, hutf8 Token.noConfusion⟩
  · cases h
    exact ⟨fun _ => trivial, hutf8 Token.noConfusion⟩
  · cases h
    exact ⟨fun _ => trivial, hutf8 Token.noConfusion⟩
  · have hfirst := scanned_lexScan hreads (hutf8 Token.noConfusion)
    have hempty : MembersRead P [] :=
      ⟨List.nodup_nil, fun _ hmem => absurd hmem List.not_mem_nil⟩
    split at h
    · rename_i hbrace
      cases h
      exact ⟨hempty.object, hfirst.utf8 (by rw [hbrace]; exact Token.noConfusion)⟩
    · obtain ⟨⟨members, rest⟩, hobject, heq⟩ := Option.map_eq_some_iff.mp h
      cases heq
      obtain ⟨hmembers, hrest⟩ := ih.object _ _ _ _ _ hempty hfirst hobject
      exact ⟨hmembers.object, hrest⟩
  · have hfirst := scanned_lexScan hreads (hutf8 Token.noConfusion)
    split at h
    · rename_i hbracket
      cases h
      exact ⟨ShortWellFormed.array fun _ hmem => absurd hmem List.not_mem_nil,
        hfirst.utf8 (by rw [hbracket]; exact Token.noConfusion)⟩
    · obtain ⟨⟨elements, rest⟩, harray, heq⟩ := Option.map_eq_some_iff.mp h
      cases heq
      obtain ⟨helements, hrest⟩ := ih.array _ _ _ _ _
        (fun _ hmem => absurd hmem List.not_mem_nil) hfirst harray
      exact ⟨ShortWellFormed.array helements, hrest⟩
  · cases h

theorem parseObject_wellFormed (hreads : ∀ text x, strtod text = some x → P x) {fuel : Nat}
    (ih : ParsesWellFormed P strtod fuel) {object members : List (CStr × Json)}
    {token : Token} {s rest : CStr} (hobject : MembersRead P object)
    (hscan : Scanned P (token, s))
    (h : parseObject strtod .eof (fuel + 1) object token s = some (members, rest)) :
    MembersRead P members ∧ (stream 0 rest).2 = true := by
  cases token with
  | string key =>
      obtain ⟨hkey, hutf8⟩ := hscan
      rw [parseObject] at h
      have hcolonScan := scanned_lexScan hreads (hutf8 Token.noConfusion)
      generalize lexScan strtod .eof s = colon at h hcolonScan
      dsimp only at h
      split at h
      · rename_i hcolon
        have hfirst := scanned_lexScan hreads
          (hcolonScan.utf8 (by rw [hcolon]; exact Token.noConfusion))
        split at h
        · cases h
        · rename_i value s' hvalue
          obtain ⟨hread, hrest⟩ := ih.value _ _ _ _ hfirst hvalue
          have hset := hobject.set hkey hread
          have hnext := scanned_lexScan hreads hrest
          generalize lexScan strtod .eof s' = next at h hnext
          split at h
          · rename_i hcomma
            exact ih.object _ _ _ _ _ hset (scanned_lexScan hreads
              (hnext.utf8 (by rw [hcomma]; exact Token.noConfusion))) h
          · split at h
            · rename_i hbrace
              cases h
              exact ⟨hset, hnext.utf8 (by rw [hbrace]; exact Token.noConfusion)⟩
            · cases h
      · cases h
  | _ => cases h

theorem parseArray_wellFormed (hreads : ∀ text x, strtod text = some x → P x) {fuel : Nat}
    (ih : ParsesWellFormed P strtod fuel) {array elements : List Json} {token : Token}
    {s rest : CStr} (harray : ∀ element ∈ array, ShortWellFormed P element)
    (hscan : Scanned P (token, s))
    (h : parseArray strtod .eof (fuel + 1) array token s = some (elements, rest)) :
    (∀ element ∈ elements, ShortWellFormed P element) ∧
      (stream 0 rest).2 = true := by
  rw [parseArray] at h
  split at h
  · cases h
  · rename_i element s' hvalue
    obtain ⟨hread, hrest⟩ := ih.value _ _ _ _ hscan hvalue
    have hmore := List.forall_mem_append.mpr ⟨harray, List.forall_mem_singleton.mpr hread⟩
    have hnext := scanned_lexScan hreads hrest
    generalize lexScan strtod .eof s' = next at h hnext
    dsimp only at h
    split at h
    · rename_i hcomma
      exact ih.array _ _ _ _ _ hmore (scanned_lexScan hreads
        (hnext.utf8 (by rw [hcomma]; exact Token.noConfusion))) h
    · split at h
      · rename_i hbracket
        cases h
        exact ⟨hmore, hnext.utf8 (by rw [hbracket]; exact Token.noConfusion)⟩
      · cases h

theorem parsesWellFormed (hreads : ∀ text x, strtod text = some x → P x) (fuel : Nat) :
    ParsesWellFormed P strtod fuel := by
  induction fuel with
  | zero =>
      constructor
      case value =>
        intro token s value rest _ h
        cases h
      case object =>
        intro object token s members rest _ _ h
        cases h
      case array =>
        intro array token s elements rest _ _ h
        cases h
  | succ fuel ih =>
      exact ⟨fun _ _ _ _ hscan h => parseValue_wellFormed hreads ih hscan h,
        fun _ _ _ _ _ hobject hscan h => parseObject_wellFormed hreads ih hobject hscan h,
        fun _ _ _ _ _ harray hscan h => parseArray_wellFormed hreads ih harray hscan h⟩

theorem isContainer_of_parseValue {fuel : Nat} {token : Token} {s rest : CStr} {value : Json}
    (hopen : token = .punct 91 ∨ token = .punct 123)
    (h : parseValue strtod .eof fuel token s = some (value, rest)) : isContainer value = true := by
  cases fuel with
  | zero => cases h
  | succ fuel =>
      rcases hopen with rfl | rfl
      · rw [parseValue] at h
        split at h
        · cases h
          rfl
        · obtain ⟨parsed, -, heq⟩ := Option.map_eq_some_iff.mp h
          cases heq
          rfl
      · rw [parseValue] at h
        split at h
        · cases h
          rfl
        · obtain ⟨parsed, -, heq⟩ := Option.map_eq_some_iff.mp h
          cases heq
          rfl

/-- What `json_loads` accepts is an array or an object, and well formed. -/
theorem jsonLoads_wellFormed (hreads : ∀ text x, strtod text = some x → P x) {s : CStr}
    (hlen : s.length < 2 ^ 31) {value : Json} (h : jsonLoads strtod s = some value) :
    WellFormed P value ∧ isContainer value = true := by
  have utf8 := jsonLoads_utf8 h
  have hshort := Nat.lt_of_le_of_lt (jsonLoads_length h) hlen
  rw [jsonLoads, stream_fst utf8, utf8, if_pos rfl, parseJson] at h
  have hfirst := scanned_lexScan hreads utf8
  generalize lexScan strtod .eof s = first at h hfirst
  split at h
  · rename_i hopen
    split at h
    · cases h
    · rename_i parsed rest hvalue
      split at h
      · cases h
        exact ⟨((parsesWellFormed hreads _).value _ _ _ _ hfirst hvalue).1 hshort,
          isContainer_of_parseValue hopen hvalue⟩
      · cases h
  · cases h

end

/-! The conversions of reals. -/

section

variable {snprintf : Double → CStr} {strtod : CStr → Double × Bool}

theorem readReal_finite {text : CStr} {x : Double} (h : readReal strtod text = some x) :
    isNan x = false := by
  obtain ⟨value, -, hreal⟩ := Option.bind_eq_some_iff.mp h
  rw [jsonReal] at hreal
  split at hreal
  · cases hreal
  · rename_i hfinite
    cases hreal
    simp only [Bool.or_eq_true, not_or, Bool.not_eq_true] at hfinite
    exact hfinite.1

/-- Whatever has been read can be written and read again, as an equal value, when the reals in it
can. -/
theorem jsonLoads_jsonDumps_jsonLoads {chain : List Nat → List CStr → List CStr}
    (hchain : Chains chain) (flags : UInt64) {s : CStr} (hlen : s.length < 2 ^ 31) {value : Json}
    (h : jsonLoads (readReal strtod) s = some value)
    (hreals : ∀ x ∈ reals value, Printed snprintf (readReal strtod) x) :
    ∃ text read, jsonDumps snprintf chain flags value = some text ∧
      jsonLoads (readReal strtod) text = some read ∧ jsonEqual value read = true := by
  obtain ⟨hvalue, hroot⟩ := jsonLoads_wellFormed (fun _ _ => readReal_finite) hlen h
  have hprints : WellFormed (PrintsBack snprintf (readReal strtod)) value :=
    hvalue.reals fun x hx hfinite => ⟨hreals x hx, hfinite⟩
  obtain ⟨text, htext, hread, -⟩ := jsonDumps_read hchain flags hprints hroot
  exact ⟨text, _, htext, hread, jsonEqual_arranged hchain flags hprints []⟩

end

/-- `strtod` where one half is the only number. -/
def strtodHalf (text : CStr) : Double × Bool := (if text = cstr "0.5" then half else ⟨0⟩, false)

theorem printed_strtodHalf : Printed printHalf (readReal strtodHalf) half where
  shape := printed_half.shape
  reads := by decide

theorem jsonLoads_jsonDumps_jsonLoads_half :
    ∃ text read, jsonDumps printHalf (fun _ keys => keys.reverse) 0
        (.array [.real half, .bool true]) = some text ∧
      jsonLoads (readReal strtodHalf) text = some read ∧
      jsonEqual (.array [.real half, .bool true]) read = true := by
  have hload : jsonLoads (readReal strtodHalf) (cstr "[ 0.5, true ]") =
      some (.array [.real half, .bool true]) := rfl
  exact jsonLoads_jsonDumps_jsonLoads (fun _ keys => keys.reverse_perm) 0 (by decide) hload
    ((List.forall_mem_singleton (a := half)).mpr printed_strtodHalf)

end SojCivicLight.Jansson
