import SojCivicLight.Stratum.Context

/-! `json_loads`: the stream that checks its input for UTF-8, the lexer, and the parser.
`strtod` is the conversion of a real number, none when it is refused; `readReal` is the one that the
lexer and the parser make. -/

namespace SojCivicLight.Jansson

open SojCivicLight.Stratum

/-! The stream. -/

def utf8CheckFirst (byte : UInt8) : Nat :=
  if byte < 0x80 then 1
  else if byte ≤ 0xbf then 0
  else if byte == 0xc0 || byte == 0xc1 then 0
  else if byte ≤ 0xdf then 2
  else if byte ≤ 0xef then 3
  else if byte ≤ 0xf4 then 4
  else 0

/-- `buffer` holds the first byte and the bytes after it. -/
def utf8CheckFull (first : UInt8) (buffer : List UInt8) : Bool :=
  let size := buffer.length + 1
  let mask := if size == 2 then 32 else if size == 3 then 16 else 8
  let value := buffer.foldl (fun value u => 64 * value + u.toNat % 64) (first.toNat % mask)
  (size == 2 || size == 3 || size == 4) && buffer.all (fun u => 0x80 ≤ u && u ≤ 0xbf) &&
    value ≤ 0x10ffff && !(0xd800 ≤ value && value ≤ 0xdfff) &&
    !((size == 2 && value < 0x80) || (size == 3 && value < 0x800) ||
      (size == 4 && value < 0x10000))

/-- The bytes delivered, and whether they end with the input and not in a sequence that is
not UTF-8. `pending` bytes have been checked already. -/
def stream : Nat → List UInt8 → List UInt8 × Bool
  | _, [] => ([], true)
  | pending + 1, c :: rest => (c :: (stream pending rest).1, (stream pending rest).2)
  | 0, c :: rest =>
      let count := utf8CheckFirst c
      -- past the end of the input every byte reads as EOF
      if count == 1 || (count != 0 &&
          utf8CheckFull c ((rest ++ [0xff, 0xff, 0xff]).take (count - 1))) then
        (c :: (stream (count - 1) rest).1, (stream (count - 1) rest).2)
      else ([], false)

/-! The lexer. -/

def lIsDigit (c : UInt8) : Bool := 48 ≤ c && c ≤ 57

def lIsAlpha (c : UInt8) : Bool := (65 ≤ c && c ≤ 90) || (97 ≤ c && c ≤ 122)

def lIsXDigit (c : UInt8) : Bool :=
  lIsDigit c || (65 ≤ c && c ≤ 70) || (97 ≤ c && c ≤ 102)

inductive Token where
  | invalid
  | eof
  | punct (c : UInt8)
  | string (value : CStr)
  | integer (value : Int)
  | real (value : Double)
  | true
  | false
  | null
deriving DecidableEq

def hexDigit (c : UInt8) : Nat :=
  if lIsDigit c then c.toNat - 48 else if 97 ≤ c then c.toNat - 97 + 10 else c.toNat - 65 + 10

def decodeUnicodeEscape (str : List UInt8) : Nat :=
  str.foldl (fun value c => 16 * value + hexDigit c) 0

def utf8Encode (codepoint : Nat) : List UInt8 :=
  if codepoint < 0x80 then [.ofNat codepoint]
  else if codepoint < 0x800 then
    [.ofNat (0xc0 + codepoint / 64), .ofNat (0x80 + codepoint % 64)]
  else if codepoint < 0x10000 then
    [.ofNat (0xe0 + codepoint / 4096), .ofNat (0x80 + codepoint / 64 % 64),
      .ofNat (0x80 + codepoint % 64)]
  else
    [.ofNat (0xf0 + codepoint / 262144), .ofNat (0x80 + codepoint / 4096 % 64),
      .ofNat (0x80 + codepoint / 64 % 64), .ofNat (0x80 + codepoint % 64)]

def isShortEscape (c : UInt8) : Bool :=
  c == 34 || c == 92 || c == 47 || c == 98 || c == 102 || c == 110 || c == 114 || c == 116

def shortEscape (c : UInt8) : UInt8 :=
  if c == 98 then 8 else if c == 102 then 12 else if c == 110 then 10
  else if c == 114 then 13 else if c == 116 then 9 else c

/-- The text of a string token up to the quote that closes it, and what comes after. -/
def scanString : CStr → Option (CStr × CStr)
  | [] => none
  | c :: rest =>
      if c == 34 then some ([], rest)
      else if c ≤ 0x1f then none
      else if c == 92 then
        match rest with
        | 117 :: h1 :: h2 :: h3 :: h4 :: rest =>
            if lIsXDigit h1 && lIsXDigit h2 && lIsXDigit h3 && lIsXDigit h4 then
              (scanString rest).map fun scanned =>
                (92 :: 117 :: h1 :: h2 :: h3 :: h4 :: scanned.1, scanned.2)
            else none
        | e :: rest =>
            if isShortEscape e then
              (scanString rest).map fun scanned => (92 :: e :: scanned.1, scanned.2)
            else none
        | [] => none
      else (scanString rest).map fun scanned => (c :: scanned.1, scanned.2)

def unescape : CStr → Option CStr
  | [] => some []
  | c :: rest =>
      if c == 92 then
        match rest with
        | 117 :: h1 :: h2 :: h3 :: h4 :: rest =>
            let value := decodeUnicodeEscape [h1, h2, h3, h4]
            if 0xd800 ≤ value ∧ value ≤ 0xdbff then
              match rest with
              | 92 :: 117 :: l1 :: l2 :: l3 :: l4 :: rest =>
                  let value2 := decodeUnicodeEscape [l1, l2, l3, l4]
                  if 0xdc00 ≤ value2 ∧ value2 ≤ 0xdfff then
                    (unescape rest).map
                      (utf8Encode (1024 * (value - 0xd800) + (value2 - 0xdc00) + 0x10000) ++ ·)
                  else none
              | _ => none
            else if 0xdc00 ≤ value ∧ value ≤ 0xdfff then none
            else if value = 0 then none
            else (unescape rest).map (utf8Encode value ++ ·)
        | e :: rest => (unescape rest).map (shortEscape e :: ·)
        | [] => none
      else (unescape rest).map (c :: ·)

/-! Reals. -/

/-- `jsonp_strtod`: `strtod` gives the value, and whether it sets `errno` to `ERANGE`. -/
def jsonpStrtod (strtod : CStr → Double × Bool) (text : CStr) : Option Double :=
  let (value, erange) := strtod text
  if erange && !value.isZero then none else some value

def isNan (x : Double) : Bool := 0x7ff0000000000000 < x.bits &&& 0x7fffffffffffffff

def isInf (x : Double) : Bool := x.bits &&& 0x7fffffffffffffff == 0x7ff0000000000000

def jsonReal (value : Double) : Option Double :=
  if isNan value || isInf value then none else some value

/-- What `json_loads` makes of the text of a real: either refusal ends it. -/
def readReal (strtod : CStr → Double × Bool) (text : CStr) : Option Double :=
  (jsonpStrtod strtod text).bind jsonReal

section

variable (strtod : CStr → Option Double)

def decimal (digits : CStr) : Nat := digits.foldl (fun n c => 10 * n + (c.toNat - 48)) 0

/-- `strtoll`, without its bounds. -/
def strtoll : CStr → Int
  | 45 :: digits => -(decimal digits : Int)
  | digits => decimal digits

def scanInteger (text : CStr) : Token :=
  if -2 ^ 63 ≤ strtoll text ∧ strtoll text < 2 ^ 63 then .integer (strtoll text) else .invalid

def scanReal (text : CStr) : Token :=
  match strtod text with
  | none => .invalid
  | some value => .real value

def scanExponent (text : CStr) : CStr → Token × CStr
  | c :: rest =>
      if c == 69 || c == 101 then
        let sign := rest.take (if rest.head? = some 43 ∨ rest.head? = some 45 then 1 else 0)
        let digits := rest.drop sign.length
        if (digits.takeWhile lIsDigit).isEmpty then (.invalid, digits)
        else
          (scanReal strtod (text ++ c :: sign ++ digits.takeWhile lIsDigit),
            digits.dropWhile lIsDigit)
      else (scanReal strtod text, c :: rest)
  | [] => (scanReal strtod text, [])

def scanFraction (text : CStr) : CStr → Token × CStr
  | c :: rest =>
      if c == 46 then
        if (rest.takeWhile lIsDigit).isEmpty then (.invalid, rest)
        else
          scanExponent strtod (text ++ c :: rest.takeWhile lIsDigit) (rest.dropWhile lIsDigit)
      else if c == 69 || c == 101 then scanExponent strtod text (c :: rest)
      else (scanInteger text, c :: rest)
  | [] => (scanInteger text, [])

def lexScanNumber (s : CStr) : Token × CStr :=
  let sign := s.take (if s.head? = some 45 then 1 else 0)
  match s.drop sign.length with
  | 48 :: rest =>
      if rest.head?.any lIsDigit then (.invalid, rest) else scanFraction strtod (sign ++ [48]) rest
  | digits =>
      if (digits.takeWhile lIsDigit).isEmpty then (.invalid, digits)
      else scanFraction strtod (sign ++ digits.takeWhile lIsDigit) (digits.dropWhile lIsDigit)

def lexScanString (s : CStr) : Token × CStr :=
  match scanString s with
  | none => (.invalid, [])
  | some (text, rest) =>
      match unescape text with
      | none => (.invalid, rest)
      | some value => (.string value, rest)

def identifier (text : CStr) : Token :=
  if text = cstr "true" then .true
  else if text = cstr "false" then .false
  else if text = cstr "null" then .null
  else .invalid

/-- `atEnd` is what the end of the stream is read as. -/
def lexScan (atEnd : Token) (s : CStr) : Token × CStr :=
  match s.dropWhile fun c => c == 32 || c == 9 || c == 10 || c == 13 with
  | [] => (atEnd, [])
  | c :: rest =>
      if c == 123 || c == 125 || c == 91 || c == 93 || c == 58 || c == 44 then (.punct c, rest)
      else if c == 34 then lexScanString rest
      else if lIsDigit c || c == 45 then lexScanNumber strtod (c :: rest)
      else if lIsAlpha c then
        (identifier (c :: rest.takeWhile lIsAlpha), rest.dropWhile lIsAlpha)
      else (.invalid, rest)

/-! The parser. -/

def jsonObjectSet : List (CStr × Json) → CStr → Json → List (CStr × Json)
  | [], key, value => [(key, value)]
  | member :: members, key, value =>
      if member.1 == key then (key, value) :: members
      else member :: jsonObjectSet members key value

variable (atEnd : Token)

mutual

/-- A value from its first token on. -/
def parseValue : Nat → Token → CStr → Option (Json × CStr)
  | 0, _, _ => none
  | fuel + 1, token, s =>
      match token with
      | .string value => some (.string value, s)
      | .integer value => some (.integer value, s)
      | .real value => some (.real value, s)
      | .true => some (.bool true, s)
      | .false => some (.bool false, s)
      | .null => some (.null, s)
      | .punct 123 =>
          let scanned := lexScan strtod atEnd s
          if scanned.1 = .punct 125 then some (.object [], scanned.2)
          else
            (parseObject fuel [] scanned.1 scanned.2).map fun parsed =>
              (.object parsed.1, parsed.2)
      | .punct 91 =>
          let scanned := lexScan strtod atEnd s
          if scanned.1 = .punct 93 then some (.array [], scanned.2)
          else
            (parseArray fuel [] scanned.1 scanned.2).map fun parsed =>
              (.array parsed.1, parsed.2)
      | _ => none

/-- The loop over the members, from the token of a key on. -/
def parseObject : Nat → List (CStr × Json) → Token → CStr → Option (List (CStr × Json) × CStr)
  | fuel + 1, object, .string key, s =>
      let colon := lexScan strtod atEnd s
      if colon.1 = .punct 58 then
        let first := lexScan strtod atEnd colon.2
        match parseValue fuel first.1 first.2 with
        | none => none
        | some (value, s) =>
            let object := jsonObjectSet object key value
            let next := lexScan strtod atEnd s
            if next.1 = .punct 44 then
              let scanned := lexScan strtod atEnd next.2
              parseObject fuel object scanned.1 scanned.2
            else if next.1 = .punct 125 then some (object, next.2)
            else none
      else none
  | _, _, _, _ => none

/-- The loop over the elements, from the first token of one on. -/
def parseArray : Nat → List Json → Token → CStr → Option (List Json × CStr)
  | 0, _, _, _ => none
  | fuel + 1, array, token, s =>
      match parseValue fuel token s with
      | none => none
      | some (elem, s) =>
          let array := array ++ [elem]
          let next := lexScan strtod atEnd s
          if next.1 = .punct 44 then
            let scanned := lexScan strtod atEnd next.2
            parseArray fuel array scanned.1 scanned.2
          else if next.1 = .punct 93 then some (array, next.2)
          else none

end

end

def parseJson (strtod : CStr → Option Double) (atEnd : Token) (s : CStr) : Option Json :=
  let first := lexScan strtod atEnd s
  if first.1 = .punct 91 ∨ first.1 = .punct 123 then
    match parseValue strtod atEnd (2 * s.length) first.1 first.2 with
    | none => none
    | some (value, s) => if (lexScan strtod atEnd s).1 = .eof then some value else none
  else none

def jsonLoads (strtod : CStr → Option Double) (string : CStr) : Option Json :=
  let delivered := stream 0 string
  parseJson strtod (if delivered.2 then .eof else .invalid) delivered.1

/-! Only the end of the stream is read as an end. -/

section

variable {strtod : CStr → Option Double}

theorem scanInteger_ne_eof (text : CStr) : scanInteger text ≠ .eof := by
  rw [scanInteger]
  split
  · exact Token.noConfusion
  · exact Token.noConfusion

theorem scanReal_ne_eof (text : CStr) : scanReal strtod text ≠ .eof := by
  rw [scanReal]
  split
  · exact Token.noConfusion
  · exact Token.noConfusion

theorem scanExponent_ne_eof (text s : CStr) : (scanExponent strtod text s).1 ≠ .eof := by
  cases s with
  | nil => exact scanReal_ne_eof text
  | cons c rest =>
      rw [scanExponent]
      split
      · generalize rest.take _ = sign
        dsimp only
        split
        · exact Token.noConfusion
        · exact scanReal_ne_eof _
      · exact scanReal_ne_eof text

theorem scanFraction_ne_eof (text s : CStr) : (scanFraction strtod text s).1 ≠ .eof := by
  cases s with
  | nil => exact scanInteger_ne_eof text
  | cons c rest =>
      rw [scanFraction]
      split
      · split
        · exact Token.noConfusion
        · exact scanExponent_ne_eof _ _
      · split
        · exact scanExponent_ne_eof _ _
        · exact scanInteger_ne_eof text

theorem lexScanNumber_ne_eof (s : CStr) : (lexScanNumber strtod s).1 ≠ .eof := by
  rw [lexScanNumber]
  generalize s.take _ = sign
  split
  · split
    · exact Token.noConfusion
    · exact scanFraction_ne_eof _ _
  · split
    · exact Token.noConfusion
    · exact scanFraction_ne_eof _ _

theorem lexScanString_ne_eof (s : CStr) : (lexScanString s).1 ≠ .eof := by
  rw [lexScanString]
  split
  · exact Token.noConfusion
  · split
    · exact Token.noConfusion
    · exact Token.noConfusion

theorem identifier_ne_eof (text : CStr) : identifier text ≠ .eof := by
  rw [identifier]
  split
  · exact Token.noConfusion
  · split
    · exact Token.noConfusion
    · split
      · exact Token.noConfusion
      · exact Token.noConfusion

theorem lexScan_eof {atEnd : Token} {s : CStr} (h : (lexScan strtod atEnd s).1 = .eof) :
    atEnd = .eof := by
  rw [lexScan] at h
  split at h
  · exact h
  · split at h
    · exact Token.noConfusion h
    · split at h
      · exact absurd h (lexScanString_ne_eof _)
      · split at h
        · exact absurd h (lexScanNumber_ne_eof _)
        · split at h
          · exact absurd h (identifier_ne_eof _)
          · exact Token.noConfusion h

theorem parseJson_eof {atEnd : Token} {s : CStr} {value : Json}
    (h : parseJson strtod atEnd s = some value) : atEnd = .eof := by
  rw [parseJson] at h
  split at h
  · split at h
    · cases h
    · split at h
      · rename_i hend
        exact lexScan_eof hend
      · cases h
  · cases h

theorem jsonLoads_utf8 {s : CStr} {value : Json} (h : jsonLoads strtod s = some value) :
    (stream 0 s).2 = true := by
  have heof := parseJson_eof h
  split at heof
  · assumption
  · cases heof

end

end SojCivicLight.Jansson
