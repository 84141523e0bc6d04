import SojCivicLight.Jansson.Load

/-! How long a text has to be for a value to come out of it. -/

namespace SojCivicLight.Jansson

open SojCivicLight.Stratum

/-- The string can stand between quotes as it is. -/
def Plain (s : CStr) : Prop := ∀ c ∈ s, c ≠ 34 ∧ c ≠ 92 ∧ 0x1f < c

instance (s : CStr) : Decidable (Plain s) :=
  inferInstanceAs (Decidable (∀ c ∈ s, _))

@[simp] theorem plain_nil : Plain [] := fun _ h => absurd h List.not_mem_nil

@[simp] theorem plain_cons (c : UInt8) (s : CStr) :
    Plain (c :: s) ↔ (c ≠ 34 ∧ c ≠ 92 ∧ 0x1f < c) ∧ Plain s := List.forall_mem_cons

/-- The quotes, and an escape where the string is not plain. -/
def stringLength (s : CStr) : Nat := s.length + 2 + if Plain s then 0 else 1

mutual

def textLength : Json → Nat
  | .string value => stringLength value
  | .array elements => 1 + elementsLength elements
  | .object members => 1 + membersLength members
  | _ => 1

def elementsLength : List Json → Nat
  | [] => 0
  | element :: elements => textLength element + 1 + elementsLength elements

def membersLength : List (CStr × Json) → Nat
  | [] => 0
  | (key, value) :: members =>
      stringLength key + 1 + textLength value + 1 + membersLength members

end

def Token.length : Token → Nat
  | .invalid | .eof => 0
  | .string value => stringLength value
  | _ => 1

@[simp] theorem Token.length_punct (c : UInt8) : (Token.punct c).length = 1 := rfl

/-! The lexer. -/

theorem scanString_length {s text rest : CStr} (h : scanString s = some (text, rest)) :
    text.length + 1 + rest.length = s.length ∧ (92 ∉ text → Plain text) := by
  fun_induction scanString s generalizing text with
  | case1 => cases h
  | case2 c s hquote =>
      cases h
      exact ⟨by simp [Nat.add_comm], fun _ => plain_nil⟩
  | case3 => cases h
  | case4 c hquote hcontrol hescape h1 h2 h3 h4 s hdigits ih =>
      obtain ⟨⟨text', rest'⟩, hscan, heq⟩ := Option.map_eq_some_iff.mp h
      cases heq
      have hlen := (ih hscan).1
      refine ⟨?_, fun hmem => absurd List.mem_cons_self hmem⟩
      simp only [List.length_cons] at hlen ⊢
      omega
  | case5 => cases h
  | case6 c hquote hcontrol hescape e s hunicode hshort ih =>
      obtain ⟨⟨text', rest'⟩, hscan, heq⟩ := Option.map_eq_some_iff.mp h
      cases heq
      have hlen := (ih hscan).1
      refine ⟨?_, fun hmem => absurd List.mem_cons_self hmem⟩
      simp only [List.length_cons] at hlen ⊢
      omega
  | case7 => cases h
  | case8 => cases h
  | case9 c s hquote hcontrol hescape ih =>
      obtain ⟨⟨text', rest'⟩, hscan, heq⟩ := Option.map_eq_some_iff.mp h
      cases heq
      obtain ⟨hlen, hplain⟩ := ih hscan
      constructor
      · simp only [List.length_cons] at hlen ⊢
        omega
      · intro hmem
        rw [List.mem_cons, not_or] at hmem
        rw [plain_cons]
        refine ⟨⟨?_, ?_, ?_⟩, hplain hmem.2⟩
        · simpa using hquote
        · simpa using hescape
        · exact UInt8.not_le.mp hcontrol

theorem length_utf8Encode_le (codepoint : Nat) : (utf8Encode codepoint).length ≤ 4 := by
  rw [utf8Encode]
  split
  · exact Nat.le_of_ble_eq_true rfl
  · split
    · exact Nat.le_of_ble_eq_true rfl
    · split
      · exact Nat.le_of_ble_eq_true rfl
      · exact Nat.le_of_ble_eq_true rfl

theorem length_le_of_unescaped {text value : CStr}
    (h : value.length < text.length ∨ (value = text ∧ 92 ∉ text)) :
    value.length ≤ text.length := by
  rcases h with hlt | ⟨rfl, -⟩
  · exact hlt.le
  · exact Nat.le_refl _

/-- The value is shorter than its text, unless nothing in it is escaped. -/
theorem unescape_length {text value : CStr} (h : unescape text = some value) :
    value.length < text.length ∨ (value = text ∧ 92 ∉ text) := by
  fun_induction unescape text generalizing value with
  | case1 =>
      cases h
      exact Or.inr ⟨rfl, List.not_mem_nil⟩
  | case2 c hescape h1 h2 h3 h4 high hhigh l1 l2 l3 l4 text low hlow =>
      rename_i ih
      obtain ⟨value', hrest, rfl⟩ := Option.map_eq_some_iff.mp h
      have hle : value'.length ≤ text.length := length_le_of_unescaped (ih hrest)
      left
      rw [List.length_append]
      apply Nat.lt_of_le_of_lt (Nat.add_le_add (length_utf8Encode_le _) hle)
      simp only [List.length_cons]
      omega
  | case3 => cases h
  | case4 => cases h
  | case5 => cases h
  | case6 => cases h
  | case7 c hescape h1 h2 h3 h4 text codepoint hhigh hlow hzero =>
      rename_i ih
      obtain ⟨value', hrest, rfl⟩ := Option.map_eq_some_iff.mp h
      have hle : value'.length ≤ text.length := length_le_of_unescaped (ih hrest)
      left
      rw [List.length_append]
      apply Nat.lt_of_le_of_lt (Nat.add_le_add (length_utf8Encode_le _) hle)
      simp only [List.length_cons]
      omega
  | case8 c hescape e text hunicode ih =>
      obtain ⟨value', hrest, rfl⟩ := Option.map_eq_some_iff.mp h
      have hle : value'.length ≤ text.length := length_le_of_unescaped (ih hrest)
      left
      simp only [List.length_cons]
      omega
  | case9 => cases h
  | case10 c text hescape ih =>
      obtain ⟨value', hrest, rfl⟩ := Option.map_eq_some_iff.mp h
      rcases ih hrest with hlt | ⟨rfl, hmem⟩
      · left
        simp only [List.length_cons]
        omega
      · right
        refine ⟨rfl, fun hcons => ?_⟩
        rcases List.mem_cons.mp hcons with heq | htail
        · exact hescape (beq_iff_eq.mpr heq.symm)
        · exact hmem htail

theorem lexScanString_length (s : CStr) :
    (lexScanString s).1.length + (lexScanString s).2.length ≤ s.length + 1 := by
  rw [lexScanString]
  cases hscan : scanString s with
  | none => exact Nat.zero_le _
  | some scanned =>
      obtain ⟨text, rest⟩ := scanned
      obtain ⟨hlen, hplain⟩ := scanString_length hscan
      dsimp only
      cases hvalue : unescape text with
      | none =>
          simp only [Token.length]
          omega
      | some value =>
          simp only [Token.length, stringLength]
          rcases unescape_length hvalue with hlt | ⟨rfl, hmem⟩
          · split
            · omega
            · omega
          · rw [if_pos (hplain hmem)]
            omega

section

variable (strtod : CStr → Option Double)

theorem scanInteger_length (text : CStr) : (scanInteger text).length ≤ 1 := by
  rw [scanInteger]
  split
  · exact Nat.le_refl 1
  · exact Nat.zero_le 1

theorem scanReal_length (text : CStr) : (scanReal strtod text).length ≤ 1 := by
  rw [scanReal]
  split
  · exact Nat.zero_le 1
  · exact Nat.le_refl 1

theorem scanExponent_length (text s : CStr) :
    (scanExponent strtod text s).1.length ≤ 1 ∧
    (scanExponent strtod text s).2.length ≤ s.length := by
  cases s with
  | nil => exact ⟨scanReal_length strtod text, Nat.le_refl 0⟩
  | cons c rest =>
      rw [scanExponent]
      split
      · generalize rest.take _ = sign
        have hdrop := (List.drop_suffix sign.length rest).length_le
        dsimp only
        split
        · exact ⟨Nat.zero_le 1, hdrop.trans (Nat.le_succ _)⟩
        · refine ⟨scanReal_length strtod _, ?_⟩
          exact ((List.dropWhile_suffix _).length_le.trans hdrop).trans (Nat.le_succ _)
      · exact ⟨scanReal_length strtod text, Nat.le_refl _⟩

theorem scanFraction_length (text s : CStr) :
    (scanFraction strtod text s).1.length ≤ 1 ∧
    (scanFraction strtod text s).2.length ≤ s.length := by
  cases s with
  | nil => exact ⟨scanInteger_length text, Nat.le_refl 0⟩
  | cons c rest =>
      rw [scanFraction]
      split
      · split
        · exact ⟨Nat.zero_le 1, Nat.le_succ _⟩
        · obtain ⟨htoken, hrest⟩ := scanExponent_length strtod
            (text ++ c :: rest.takeWhile lIsDigit) (rest.dropWhile lIsDigit)
          exact ⟨htoken, (hrest.trans (List.dropWhile_suffix _).length_le).trans (Nat.le_succ _)⟩
      · split
        · exact scanExponent_length strtod text (c :: rest)
        · exact ⟨scanInteger_length text, Nat.le_refl _⟩

theorem lexScanNumber_length (s : CStr) :
    (lexScanNumber strtod s).1.length + (lexScanNumber strtod s).2.length ≤ s.length := by
  rw [lexScanNumber]
  generalize s.take _ = sign
  have hdrop := (List.drop_suffix sign.length s).length_le
  generalize s.drop sign.length = digits at hdrop
  split
  · rename_i rest
    rw [List.length_cons] at hdrop
    split
    · rw [Token.length, Nat.zero_add]
      exact (Nat.le_succ _).trans hdrop
    · obtain ⟨htoken, hrest⟩ := scanFraction_length strtod (sign ++ [48]) rest
      omega
  · split
    · rw [Token.length, Nat.zero_add]
      exact hdrop
    · rename_i hdigits
      obtain ⟨htoken, hrest⟩ := scanFraction_length strtod
        (sign ++ digits.takeWhile lIsDigit) (digits.dropWhile lIsDigit)
      have hsplit := congrArg List.length
        (List.takeWhile_append_dropWhile (p := lIsDigit) (l := digits))
      have hone : 1 ≤ (digits.takeWhile lIsDigit).length := by
        rw [List.isEmpty_iff] at hdigits
        exact List.length_pos_iff.mpr hdigits
      rw [List.length_append] at hsplit
      omega

theorem identifier_length (text : CStr) : (identifier text).length ≤ 1 := by
  rw [identifier]
  split
  · exact Nat.le_refl 1
  · split
    · exact Nat.le_refl 1
    · split
      · exact Nat.le_refl 1
      · exact Nat.zero_le 1

theorem lexScan_length {atEnd : Token} (hend : atEnd.length = 0) (s : CStr) :
    (lexScan strtod atEnd s).1.length + (lexScan strtod atEnd s).2.length ≤ s.length := by
  rw [lexScan]
  have hblank := (List.dropWhile_suffix
    (fun c : UInt8 => c == 32 || c == 9 || c == 10 || c == 13) (l := s)).length_le
  generalize s.dropWhile _ = text at hblank
  cases text with
  | nil => exact (hend.trans_le (Nat.zero_le _))
  | cons c rest =>
      rw [List.length_cons] at hblank
      dsimp only
      split
      · exact (Nat.add_comm 1 rest.length).trans_le hblank
      · split
        · exact (lexScanString_length rest).trans hblank
        · split
          · exact (lexScanNumber_length strtod (c :: rest)).trans hblank
          · split
            · have hident := identifier_length (c :: rest.takeWhile lIsAlpha)
              have hrest := (List.dropWhile_suffix lIsAlpha (l := rest)).length_le
              dsimp only
              omega
            · exact (Nat.zero_add rest.length).trans_le ((Nat.le_succ _).trans hblank)

/-! The parser. -/

variable {strtod}

theorem elementsLength_append (elements : List Json) (element : Json) :
    elementsLength (elements ++ [element]) =
      elementsLength elements + (textLength element + 1) := by
  induction elements with
  | nil => exact Nat.add_comm _ _
  | cons first rest ih =>
      rw [List.cons_append, elementsLength, elementsLength, ih, Nat.add_assoc (_ + 1)]

theorem membersLength_set (members : List (CStr × Json)) (key : CStr) (value : Json) :
    membersLength (jsonObjectSet members key value) ≤
      membersLength members + (stringLength key + 1 + textLength value + 1) := by
  induction members with
  | nil => exact (Nat.add_comm _ _).le
  | cons first rest ih =>
      obtain ⟨key', value'⟩ := first
      rw [jsonObjectSet]
      split
      · simp only [membersLength]
        omega
      · simp only [membersLength]
        omega

/-- The parser takes at least the text of what it gives. -/
structure TakesText (strtod : CStr → Option Double) (atEnd : Token) (fuel : Nat) : Prop where
  value : ∀ token s value rest, parseValue strtod atEnd fuel token s = some (value, rest) →
    textLength value + rest.length ≤ token.length + s.length
  object : ∀ object token s members rest,
    parseObject strtod atEnd fuel object token s = some (members, rest) →
      membersLength members + rest.length ≤ membersLength object + (token.length + s.length)
  array : ∀ array token s elements rest,
    parseArray strtod atEnd fuel array token s = some (elements, rest) →
      elementsLength elements + rest.length ≤ elementsLength array + (token.length + s.length)

variable {atEnd : Token}

/-- What a value comes from: one token, an opening brace or an opening bracket. -/
inductive ValueStep (strtod : CStr → Option Double) (atEnd : Token) (fuel : Nat) (s : CStr) :
    Token → Json → CStr → Prop
  | scalar {token : Token} {value : Json} (hlength : textLength value = token.length) :
      ValueStep strtod atEnd fuel s token value s
  | emptyObject : ValueStep strtod atEnd fuel s (.punct 123) (.object []) (lexScan strtod atEnd s).2
  | object {members : List (CStr × Json)} {rest : CStr}
      (hobject : parseObject strtod atEnd fuel [] (lexScan strtod atEnd s).1
        (lexScan strtod atEnd s).2 = some (members, rest)) :
      ValueStep strtod atEnd fuel s (.punct 123) (.object members) rest
  | emptyArray : ValueStep strtod atEnd fuel s (.punct 91) (.array []) (lexScan strtod atEnd s).2
  | array {elements : List Json} {rest : CStr}
      (harray : parseArray strtod atEnd fuel [] (lexScan strtod atEnd s).1
        (lexScan strtod atEnd s).2 = some (elements, rest)) :
      ValueStep strtod atEnd fuel s (.punct 91) (.array elements) rest

theorem parseValue_step {fuel : Nat} {token : Token} {s rest : CStr} {value : Json}
    (h : parseValue strtod atEnd (fuel + 1) token s = some (value, rest)) :
    ValueStep strtod atEnd fuel s token value rest := by
  rw [parseValue.eq_def] at h
  dsimp only at h
  split at h
  · cases h
    exact .scalar rfl
  · cases h
    exact .scalar rfl
  · cases h
    exact .scalar rfl
  · cases h
    exact .scalar rfl
  · cases h
    exact .scalar rfl
  · cases h
    exact .scalar rfl
  · split at h
    · cases h
      exact .emptyObject
    · obtain ⟨⟨members, rest⟩, hobject, heq⟩ := Option.map_eq_some_iff.mp h
      cases heq
      exact .object hobject
  · split at h
    · cases h
      exact .emptyArray
    · obtain ⟨⟨elements, rest⟩, harray, heq⟩ := Option.map_eq_some_iff.mp h
      cases heq
      exact .array harray
  · cases h

theorem parseValue_length (hend : atEnd.length = 0) {fuel : Nat} (ih : TakesText strtod atEnd fuel)
    {token : Token} {s rest : CStr} {value : Json}
    (h : parseValue strtod atEnd (fuel + 1) token s = some (value, rest)) :
    textLength value + rest.length ≤ token.length + s.length := by
  have hscan := lexScan_length strtod hend s
  cases parseValue_step h with
  | scalar hlength => exact Nat.add_le_add_right hlength.le _
  | emptyObject => exact Nat.add_le_add_left ((Nat.le_add_left _ _).trans hscan) 1
  | emptyArray => exact Nat.add_le_add_left ((Nat.le_add_left _ _).trans hscan) 1
  | object hobject =>
      have hmembers := ih.object _ _ _ _ _ hobject
      simp only [membersLength, textLength, Token.length_punct] at hmembers ⊢
      omega
  | array harray =>
      have helements := ih.array _ _ _ _ _ harray
      simp only [elementsLength, textLength, Token.length_punct] at helements ⊢
      omega

theorem parseObject_length (hend : atEnd.length = 0) {fuel : Nat} (ih : TakesText strtod atEnd fuel)
    {object members : List (CStr × Json)} {token : Token} {s rest : CStr}
    (h : parseObject strtod atEnd (fuel + 1) object token s = some (members, rest)) :
    membersLength members + rest.length ≤ membersLength object + (token.length + s.length) := by
  cases token with
  | string key =>
      rw [parseObject] at h
      have hscan := lexScan_length strtod hend s
      generalize lexScan strtod atEnd s = colon at h hscan
      dsimp only at h
      split at h
      · rename_i hcolon
        have hfirst := lexScan_length strtod hend colon.2
        split at h
        · cases h
        · rename_i value s' hvalue
          have htaken := ih.value _ _ _ _ hvalue
          have hset := membersLength_set object key value
          have hnext := lexScan_length strtod hend s'
          generalize lexScan strtod atEnd s' = next at h hnext
          rw [hcolon, Token.length_punct] at hscan
          rw [Token.length]
          split at h
          · rename_i hcomma
            have hkey := lexScan_length strtod hend next.2
            have hrest := ih.object _ _ _ _ _ h
            rw [hcomma, Token.length_punct] at hnext
            omega
          · split at h
            · rename_i hbrace
              cases h
              rw [hbrace, Token.length_punct] at hnext
              omega
            · cases h
      · cases h
  | _ => cases h

theorem parseArray_length (hend : atEnd.length = 0) {fuel : Nat} (ih : TakesText strtod atEnd fuel)
    {array elements : List Json} {token : Token} {s rest : CStr}
    (h : parseArray strtod atEnd (fuel + 1) array token s = some (elements, rest)) :
    elementsLength elements + rest.length ≤ elementsLength array + (token.length + s.length) := by
  rw [parseArray] at h
  split at h
  · cases h
  · rename_i element s' hvalue
    have htaken := ih.value _ _ _ _ hvalue
    have hscan := lexScan_length strtod hend s'
    dsimp only at h
    split at h
    · rename_i hcomma
      have hnext := lexScan_length strtod hend (lexScan strtod atEnd s').2
      have hrest := ih.array _ _ _ _ _ h
      rw [elementsLength_append] at hrest
      rw [hcomma, Token.length_punct] at hscan
      omega
    · split at h
      · rename_i hbracket
        cases h
        rw [elementsLength_append]
        rw [hbracket, Token.length_punct] at hscan
        omega
      · cases h

theorem takesText (hend : atEnd.length = 0) (fuel : Nat) : TakesText strtod atEnd fuel := by
  induction fuel with
  | zero =>
      constructor
      case value =>
        intro token s value rest h
        cases h
      case object =>
        intro object token s members rest h
        cases h
      case array =>
        intro array token s elements rest h
        cases h
  | succ fuel ih =>
      exact ⟨fun _ _ _ _ h => parseValue_length hend ih h,
        fun _ _ _ _ _ h => parseObject_length hend ih h,
        fun _ _ _ _ _ h => parseArray_length hend ih h⟩

/-! More fuel changes nothing. -/

theorem Token.eq_of_length {token : Token} (h : token.length = 0) :
    token = .invalid ∨ token = .eof := by
  cases token with
  | invalid => exact Or.inl rfl
  | eof => exact Or.inr rfl
  | string value =>
      rw [Token.length, stringLength] at h
      omega
  | _ => cases h

theorem parseValue_end {token : Token} (h : token.length = 0) (fuel : Nat) (s : CStr) :
    parseValue strtod atEnd fuel token s = none := by
  cases fuel with
  | zero => rfl
  | succ fuel =>
      rcases Token.eq_of_length h with rfl | rfl
      · rfl
      · rfl

theorem parseObject_end {token : Token} (h : token.length = 0) (fuel : Nat)
    (object : List (CStr × Json)) (s : CStr) :
    parseObject strtod atEnd fuel object token s = none := by
  cases fuel with
  | zero => rfl
  | succ fuel =>
      rcases Token.eq_of_length h with rfl | rfl
      · rfl
      · rfl

theorem parseArray_end {token : Token} (h : token.length = 0) (fuel : Nat) (array : List Json)
    (s : CStr) : parseArray strtod atEnd fuel array token s = none := by
  cases fuel with
  | zero => rfl
  | succ fuel => rw [parseArray, parseValue_end h]

theorem token_le_textLength {fuel : Nat} {token : Token} {s rest : CStr} {value : Json}
    (h : parseValue strtod atEnd fuel token s = some (value, rest)) :
    token.length ≤ textLength value := by
  cases fuel with
  | zero => cases h
  | succ fuel =>
      cases parseValue_step h with
      | scalar hlength => exact hlength.ge
      | emptyObject | emptyArray => exact Nat.le_refl 1
      | object | array => exact Nat.le_add_right 1 _

theorem parseValue_rest (hend : atEnd.length = 0) {fuel : Nat} {token : Token} {s rest : CStr}
    {value : Json} (h : parseValue strtod atEnd fuel token s = some (value, rest)) :
    rest.length ≤ s.length := by
  have htaken := (takesText hend fuel).value _ _ _ _ h
  have hvalue := token_le_textLength h
  omega

/-- One unit of fuel for each token and each nesting. -/
structure EnoughFuel (strtod : CStr → Option Double) (atEnd : Token) (fuel : Nat) : Prop where
  value : ∀ token s, 2 * s.length + 1 ≤ fuel →
    parseValue strtod atEnd (fuel + 1) token s = parseValue strtod atEnd fuel token s
  object : ∀ object token s, 2 * s.length + 2 ≤ fuel →
    parseObject strtod atEnd (fuel + 1) object token s =
      parseObject strtod atEnd fuel object token s
  array : ∀ array token s, 2 * s.length + 2 ≤ fuel →
    parseArray strtod atEnd (fuel + 1) array token s = parseArray strtod atEnd fuel array token s

theorem parseValue_fuel (hend : atEnd.length = 0) {fuel : Nat} (ih : EnoughFuel strtod atEnd fuel)
    {token : Token} {s : CStr} (hfuel : 2 * s.length + 1 ≤ fuel + 1) :
    parseValue strtod atEnd (fuel + 2) token s = parseValue strtod atEnd (fuel + 1) token s := by
  have hscan := lexScan_length strtod hend s
  rw [parseValue.eq_def, parseValue.eq_def strtod atEnd (fuel + 1)]
  dsimp only
  generalize lexScan strtod atEnd s = scanned at hscan
  have hrest : scanned.1.length = 0 ∨ 2 * scanned.2.length + 2 ≤ fuel := by omega
  have hobject : parseObject strtod atEnd (fuel + 1) [] scanned.1 scanned.2 =
      parseObject strtod atEnd fuel [] scanned.1 scanned.2 := by
    rcases hrest with hzero | hle
    · rw [parseObject_end hzero, parseObject_end hzero]
    · exact ih.object _ _ _ hle
  have harray : parseArray strtod atEnd (fuel + 1) [] scanned.1 scanned.2 =
      parseArray strtod atEnd fuel [] scanned.1 scanned.2 := by
    rcases hrest with hzero | hle
    · rw [parseArray_end hzero, parseArray_end hzero]
    · exact ih.array _ _ _ hle
  rw [hobject, harray]

theorem parseObject_fuel (hend : atEnd.length = 0) {fuel : Nat} (ih : EnoughFuel strtod atEnd fuel)
    {object : List (CStr × Json)} {token : Token} {s : CStr}
    (hfuel : 2 * s.length + 2 ≤ fuel + 1) :
    parseObject strtod atEnd (fuel + 2) object token s =
      parseObject strtod atEnd (fuel + 1) object token s := by
  cases token with
  | string key =>
      have hscan := lexScan_length strtod hend s
      rw [parseObject, parseObject]
      generalize lexScan strtod atEnd s = colon at hscan
      dsimp only
      split
      · rename_i hcolon
        rw [hcolon, Token.length_punct] at hscan
        have hfirst := lexScan_length strtod hend colon.2
        rw [ih.value _ _ (by omega)]
        split
        · rfl
        · rename_i value s' hvalue
          have hvalue := parseValue_rest hend hvalue
          have hnext := lexScan_length strtod hend s'
          generalize lexScan strtod atEnd s' = next at hnext
          split
          · rename_i hcomma
            rw [hcomma, Token.length_punct] at hnext
            have hkey := lexScan_length strtod hend next.2
            exact ih.object _ _ _ (by omega)
          · rfl
      · rfl
  | _ => rfl

theorem parseArray_fuel (hend : atEnd.length = 0) {fuel : Nat} (ih : EnoughFuel strtod atEnd fuel)
    {array : List Json} {token : Token} {s : CStr} (hfuel : 2 * s.length + 2 ≤ fuel + 1) :
    parseArray strtod atEnd (fuel + 2) array token s =
      parseArray strtod atEnd (fuel + 1) array token s := by
  rw [parseArray, parseArray, ih.value _ _ (by omega)]
  split
  · rfl
  · rename_i value s' hvalue
    have hvalue := parseValue_rest hend hvalue
    have hnext := lexScan_length strtod hend s'
    generalize lexScan strtod atEnd s' = next at hnext
    dsimp only
    split
    · rename_i hcomma
      rw [hcomma, Token.length_punct] at hnext
      have hfirst := lexScan_length strtod hend next.2
      exact ih.array _ _ _ (by omega)
    · rfl

theorem enoughFuel (hend : atEnd.length = 0) (fuel : Nat) : EnoughFuel strtod atEnd fuel := by
  induction fuel with
  | zero =>
      constructor
      case value =>
        intro token s h
        omega
      case object =>
        intro object token s h
        omega
      case array =>
        intro array token s h
        omega
  | succ fuel ih =>
      exact ⟨fun _ _ h => parseValue_fuel hend ih h, fun _ _ _ h => parseObject_fuel hend ih h,
        fun _ _ _ h => parseArray_fuel hend ih h⟩

/-- The fuel that `parseJson` starts with is as good as any more. -/
theorem parseJson_fuel (hend : atEnd.length = 0) {s : CStr} {fuel : Nat}
    (hfuel : 2 * s.length ≤ fuel)
    (hfirst : 1 ≤ (lexScan strtod atEnd s).1.length) :
    parseValue strtod atEnd fuel (lexScan strtod atEnd s).1 (lexScan strtod atEnd s).2 =
      parseValue strtod atEnd (2 * s.length) (lexScan strtod atEnd s).1
        (lexScan strtod atEnd s).2 := by
  have hscan := lexScan_length strtod hend s
  induction fuel, hfuel using Nat.le_induction with
  | base => rfl
  | succ fuel hfuel ih => rw [(enoughFuel hend fuel).value _ _ (by omega), ih]

theorem parseJson_length (hend : atEnd.length = 0) {s : CStr} {value : Json}
    (h : parseJson strtod atEnd s = some value) : textLength value ≤ s.length := by
  rw [parseJson] at h
  have hscan := lexScan_length strtod hend s
  generalize lexScan strtod atEnd s = first at h hscan
  split at h
  · split at h
    · cases h
    · rename_i value' rest hvalue
      split at h
      · cases h
        have htaken := (takesText hend _).value _ _ _ _ hvalue
        omega
      · cases h
  · cases h

end

/-! The stream. -/

theorem length_stream_le (pending : Nat) (s : List UInt8) :
    (stream pending s).1.length ≤ s.length := by
  fun_induction stream pending s with
  | case1 => exact Nat.le_refl _
  | case2 pending c rest ih => exact Nat.succ_le_succ ih
  | case3 c rest count hcheck ih => exact Nat.succ_le_succ ih
  | case4 => exact Nat.zero_le _

theorem jsonLoads_length {strtod : CStr → Option Double} {s : CStr} {value : Json}
    (h : jsonLoads strtod s = some value) : textLength value ≤ s.length := by
  rw [jsonLoads] at h
  refine (parseJson_length ?_ h).trans (length_stream_le 0 s)
  split
  · rfl
  · rfl

/-! The members of an object, by key. -/

theorem membersLength_get {members : List (CStr × Json)} {key : CStr} {value : Json}
    (h : jsonObjectGet (some (.object members)) key = some value) :
    stringLength key + 1 + textLength value + 1 +
      membersLength (members.filter fun member => member.1 != key) ≤ membersLength members := by
  rw [jsonObjectGet] at h
  induction members with
  | nil => cases h
  | cons first rest ih =>
      obtain ⟨key', value'⟩ := first
      by_cases hkey : key' = key
      · subst hkey
        rw [List.find?_cons_of_pos (by simp)] at h
        obtain rfl := Option.some.inj h
        have hrest : membersLength (rest.filter fun member => member.1 != key') ≤
            membersLength rest := by
          clear ih h
          induction rest with
          | nil => exact Nat.le_refl _
          | cons second rest ih =>
              rw [List.filter_cons]
              split
              · exact Nat.add_le_add_left ih _
              · exact ih.trans (Nat.le_add_left _ _)
        rw [List.filter_cons_of_neg (by simp), membersLength]
        exact Nat.add_le_add_left hrest _
      · rw [List.find?_cons_of_neg (by simpa using hkey)] at h
        rw [List.filter_cons_of_pos (by simpa using hkey), membersLength, membersLength]
        have hle := ih h
        omega

theorem get_filter {members : List (CStr × Json)} {key other : CStr} (hne : other ≠ key) :
    jsonObjectGet (some (.object (members.filter fun member => member.1 != key))) other =
      jsonObjectGet (some (.object members)) other := by
  rw [jsonObjectGet, jsonObjectGet, List.find?_filter]
  congr 2
  funext member
  by_cases hother : member.1 = other
  · simp [hother, hne]
  · simp [hother]

/-! Strings that take no more than their own length are plain. -/

theorem stringLength_ge (s : CStr) : s.length + 2 ≤ stringLength s := Nat.le_add_right _ _

theorem plain_of_stringLength {s : CStr} (h : stringLength s ≤ s.length + 2) : Plain s := by
  rw [stringLength] at h
  by_contra hplain
  rw [if_neg hplain] at h
  omega

theorem elementsLength_ge (strings : List CStr) :
    (strings.map fun s => s.length + 3).sum ≤ elementsLength (strings.map .string) := by
  induction strings with
  | nil => exact Nat.le_refl _
  | cons s strings ih =>
      have hstring := stringLength_ge s
      simp only [List.map_cons, List.sum_cons, elementsLength, textLength]
      omega

theorem plain_of_elementsLength {strings : List CStr}
    (h : elementsLength (strings.map .string) ≤ (strings.map fun s => s.length + 3).sum) :
    ∀ s ∈ strings, Plain s := by
  induction strings with
  | nil => exact fun s hs => absurd hs List.not_mem_nil
  | cons s strings ih =>
      have hstring := stringLength_ge s
      have hrest := elementsLength_ge strings
      simp only [List.map_cons, List.sum_cons, elementsLength, textLength] at h
      rw [List.forall_mem_cons]
      exact ⟨plain_of_stringLength (by omega), ih (by omega)⟩

end SojCivicLight.Jansson
