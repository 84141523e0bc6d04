import SojCivicLight.Jansson.PlainText

/-! `json_dumps`: the text written for a value.  `snprintf` is what `%.17g` prints for a real.
A value of the document is known by its place, its index in each array and object around it; `chain`
is the order in which the hash table of the object at a place holds its keys. -/

namespace SojCivicLight.Jansson

open SojCivicLight.Stratum

/-! The flags. -/

def jsonIndent (flags : UInt64) : Nat := (flags &&& 0x1f).toNat

def jsonCompact (flags : UInt64) : Bool := flags &&& 0x20 != 0

def jsonEnsureAscii (flags : UInt64) : Bool := flags &&& 0x40 != 0

def jsonSortKeys (flags : UInt64) : Bool := flags &&& 0x80 != 0

def jsonPreserveOrder (flags : UInt64) : Bool := flags &&& 0x100 != 0

def jsonEncodeAny (flags : UInt64) : Bool := flags &&& 0x200 != 0

def jsonEscapeSlash (flags : UInt64) : Bool := flags &&& 0x400 != 0

/-! Strings. -/

/-- The code point of a sequence that `utf8CheckFull` accepts. -/
def utf8Value (first : UInt8) (buffer : List UInt8) : Nat :=
  let size := buffer.length + 1
  let mask := if size == 2 then 32 else if size == 3 then 16 else 8
  buffer.foldl (fun value u => 64 * value + u.toNat % 64) (first.toNat % mask)

/-- The code point of the character that starts with a byte, and how many of the bytes after it
belong to it. -/
def utf8Iterate (c : UInt8) (rest : CStr) : Option (Nat × Nat) :=
  let count := utf8CheckFirst c
  if count == 0 then none
  else if count == 1 then some (c.toNat, 0)
  -- the terminator continues no sequence
  else if utf8CheckFull c ((rest ++ [0, 0, 0]).take (count - 1)) then
    some (utf8Value c (rest.take (count - 1)), count - 1)
  else none

def mustEscape (flags : UInt64) (codepoint : Nat) : Bool :=
  codepoint == 92 || codepoint == 34 || decide (codepoint < 0x20) ||
    (jsonEscapeSlash flags && codepoint == 47) ||
    (jsonEnsureAscii flags && decide (0x7f < codepoint))

/-- `\u%04x` -/
def unicodeEscape (value : Nat) : CStr :=
  [92, 117, Util.hexDigit (.ofNat (value / 4096)), Util.hexDigit (.ofNat (value / 256 % 16)),
    Util.hexDigit (.ofNat (value / 16 % 16)), Util.hexDigit (.ofNat (value % 16))]

def escapeText (codepoint : Nat) : CStr :=
  if codepoint = 92 then [92, 92]
  else if codepoint = 34 then [92, 34]
  else if codepoint = 8 then [92, 98]
  else if codepoint = 12 then [92, 102]
  else if codepoint = 10 then [92, 110]
  else if codepoint = 13 then [92, 114]
  else if codepoint = 9 then [92, 116]
  else if codepoint = 47 then [92, 47]
  else if codepoint < 0x10000 then unicodeEscape codepoint
  else
    unicodeEscape (0xd800 + (codepoint - 0x10000) / 1024) ++
      unicodeEscape (0xdc00 + (codepoint - 0x10000) % 1024)

/-- `run` is read but not yet written, and is not when what comes next is not UTF-8. -/
def dumpRun (flags : UInt64) (run : CStr) : CStr → CStr × Bool
  | [] => (run, true)
  | c :: rest =>
      match utf8Iterate c rest with
      | none => ([], false)
      | some (codepoint, extra) =>
          if mustEscape flags codepoint then
            let more := dumpRun flags [] (rest.drop extra)
            (run ++ escapeText codepoint ++ more.1, more.2)
          else dumpRun flags (run ++ c :: rest.take extra) (rest.drop extra)
termination_by s => s.length
decreasing_by
  all_goals
    rw [List.length_drop]
    exact Nat.lt_succ_of_le (Nat.sub_le _ _)

/-- What is written, which is not taken back on a failure. -/
def dumpString (flags : UInt64) (str : CStr) : CStr × Bool :=
  let body := dumpRun flags [] str
  (34 :: body.1 ++ if body.2 then [34] else [], body.2)

/-! Numbers. -/

def decimalText (n : Nat) : CStr := (Nat.toDigits 10 n).map fun c => c.toNat.toUInt8

/-- `%lld` -/
def integerText (n : Int) : CStr :=
  if n < 0 then 45 :: decimalText n.natAbs else decimalText n.natAbs

/-- `MAX_REAL_STR_LENGTH` -/
def maxRealStrLength : Nat := 100

/-- The end of `jsonp_dtostr`: the plus and the leading zeros of the exponent are removed. -/
def shortExponent (buffer : CStr) : CStr :=
  match buffer.dropWhile (· != 101) with
  | [] => buffer
  | e :: start =>
      -- the sign or first digit of the exponent is stepped over, and stays if it is a minus
      let sign := start.take (if start.head? = some 45 then 1 else 0)
      buffer.takeWhile (· != 101) ++ e :: sign ++ (start.drop 1).dropWhile (· == 48)

/-- `jsonp_dtostr` in a buffer of `size` bytes, where `snprintf` prints `printed`; none is the -1
of a buffer that is too small. -/
def jsonpDtostr (size : Nat) (printed : CStr) : Option CStr :=
  if size ≤ printed.length then none
  else if 46 ∈ printed ∨ 101 ∈ printed then some (shortExponent printed)
  else if size ≤ printed.length + 3 then none
  else some (shortExponent (printed ++ [46, 48]))

/-! Values. -/

def dumpIndent (flags : UInt64) (depth : Nat) (space : Bool) : CStr :=
  if 0 < jsonIndent flags then 10 :: List.replicate (depth * jsonIndent flags) 32
  else if space && !jsonCompact flags then [32]
  else []

def separator (flags : UInt64) : CStr := if jsonCompact flags then [58] else [58, 32]

/-- The items between the brackets, none when one of them could not be written. -/
def dumpItems (flags : UInt64) (depth : Nat) : List (Option CStr) → Option CStr
  | [] => some []
  | none :: _ => none
  | [some item] => some (item ++ dumpIndent flags depth false)
  | some item :: items =>
      (dumpItems flags depth items).map fun more =>
        item ++ 44 :: dumpIndent flags (depth + 1) true ++ more

/-- `strcmp(key1, key2) <= 0` -/
def objectKeyCompareKeys (key1 key2 : CStr) : Bool := decide (key1 ≤ key2)

section

variable (snprintf : Double → CStr) (chain : List Nat → List CStr → List CStr)

/-- The keys of an object, whose members are listed in the order of their serials, in the order
in which they are written. -/
def dumpedKeys (flags : UInt64) (place : List Nat) (keys : List CStr) : List CStr :=
  if jsonSortKeys flags then keys.mergeSort objectKeyCompareKeys
  else if jsonPreserveOrder flags then keys
  else chain place keys

def dumpMember (flags : UInt64) (values : List (CStr × Option CStr)) (key : CStr) : Option CStr :=
  -- what `dump_string` returns for a key is not looked at
  ((values.lookup key).bind id).map fun value =>
    (dumpString flags key).1 ++ separator flags ++ value

mutual

def doDump (flags : UInt64) (place : List Nat) : Json → Option CStr
  | .null => some (cstr "null")
  | .bool true => some (cstr "true")
  | .bool false => some (cstr "false")
  | .integer value => some (integerText value)
  | .real value => jsonpDtostr maxRealStrLength (snprintf value)
  | .string value => if (dumpString flags value).2 then some (dumpString flags value).1 else none
  | .array elements =>
      let n := castInt elements.length
      if n = 0 then some [91, 93]
      else
        (dumpItems flags place.length ((dumpElements flags place 0 elements).take n.toNat)).map
          fun items => 91 :: dumpIndent flags (place.length + 1) false ++ items ++ [93]
  | .object members =>
      if members.isEmpty then some [123, 125]
      else
        let values := dumpMembers flags place 0 members
        (dumpItems flags place.length
          ((dumpedKeys chain flags place (members.map (·.1))).map (dumpMember flags values))).map
            fun items => 123 :: dumpIndent flags (place.length + 1) false ++ items ++ [125]

def dumpElements (flags : UInt64) (place : List Nat) : Nat → List Json → List (Option CStr)
  | _, [] => []
  | i, element :: elements =>
      doDump flags (i :: place) element :: dumpElements flags place (i + 1) elements

def dumpMembers (flags : UInt64) (place : List Nat) :
    Nat → List (CStr × Json) → List (CStr × Option CStr)
  | _, [] => []
  | i, (key, value) :: members =>
      (key, doDump flags (i :: place) value) :: dumpMembers flags place (i + 1) members

end

def jsonDumpCallback (flags : UInt64) (json : Json) : Option CStr :=
  match json with
  | .array _ => doDump snprintf chain flags [] json
  | .object _ => doDump snprintf chain flags [] json
  | _ => if jsonEncodeAny flags then doDump snprintf chain flags [] json else none

def jsonDumps (flags : UInt64) (json : Json) : Option CStr :=
  jsonDumpCallback snprintf chain flags json

end

end SojCivicLight.Jansson
