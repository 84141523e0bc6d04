import SojCivicLight.Jansson.DumpNumber

/-! A value that `json_dumps` has written is read back by `json_loads`, and is equal to it. -/

namespace SojCivicLight.Jansson

open SojCivicLight.Stratum

/-! `json_equal`. -/

/-- `==` of two doubles. -/
def doubleEqual (x y : Double) : Bool :=
  !isNan x && !isNan y && (x == y || (x.isZero && y.isZero))

mutual

def jsonEqual : Json → Json → Bool
  | .null, .null => true
  | .bool value1, .bool value2 => value1 == value2
  | .integer value1, .integer value2 => value1 == value2
  | .real value1, .real value2 => doubleEqual value1 value2
  | .string value1, .string value2 => value1 == value2
  | .array elements1, .array elements2 =>
      elements1.length == elements2.length && jsonArrayEqual elements1 elements2
  | .object members1, .object members2 =>
      members1.length == members2.length && jsonObjectEqual members1 members2
  | _, _ => false

def jsonArrayEqual : List Json → List Json → Bool
  | value1 :: elements1, value2 :: elements2 =>
      jsonEqual value1 value2 && jsonArrayEqual elements1 elements2
  | _, _ => true

def jsonObjectEqual : List (CStr × Json) → List (CStr × Json) → Bool
  | [], _ => true
  | (key, value1) :: members1, members2 =>
      (match jsonObjectGet (some (.object members2)) key with
        | none => false
        | some value2 => jsonEqual value1 value2) && jsonObjectEqual members1 members2

end

/-- Induction over the elements of arrays and the members of objects. -/
@[elab_as_elim]
theorem json_induction {motive : Json → Prop} (null : motive .null)
    (bool : ∀ value, motive (.bool value)) (integer : ∀ value, motive (.integer value))
    (real : ∀ value, motive (.real value)) (string : ∀ value, motive (.string value))
    (array : ∀ elements, (∀ element ∈ elements, motive element) → motive (.array elements))
    (object : ∀ members, (∀ member ∈ members, motive member.2) → motive (.object members))
    (value : Json) : motive value :=
  @Json.rec motive (fun elements => ∀ element ∈ elements, motive element)
    (fun members => ∀ member ∈ members, motive member.2) (fun member => motive member.2)
    null bool integer real string array object
    (fun _ h => absurd h List.not_mem_nil)
    (fun _ _ first rest => List.forall_mem_cons.mpr ⟨first, rest⟩)
    (fun _ h => absurd h List.not_mem_nil)
    (fun _ _ first rest => List.forall_mem_cons.mpr ⟨first, rest⟩)
    (fun _ _ h => h) value

/-! The values that can be held. -/

/-- A number that is printed and read back as it is. -/
def PrintsBack (snprintf : Double → CStr) (strtod : CStr → Option Double) (x : Double) : Prop :=
  Printed snprintf strtod x ∧ isNan x = false

mutual

/-- The reals of a value, at any depth. -/
def reals : Json → List Double
  | .real value => [value]
  | .array elements => elementReals elements
  | .object members => memberReals members
  | _ => []

def elementReals : List Json → List Double
  | [] => []
  | element :: elements => reals element ++ elementReals elements

def memberReals : List (CStr × Json) → List Double
  | [] => []
  | (_, value) :: members => reals value ++ memberReals members

end

theorem mem_elementReals {elements : List Json} {element : Json} (h : element ∈ elements)
    {x : Double} (hx : x ∈ reals element) : x ∈ elementReals elements := by
  induction elements with
  | nil => cases h
  | cons first elements ih =>
      rw [elementReals, List.mem_append]
      rcases List.mem_cons.mp h with rfl | hmem
      · exact Or.inl hx
      · exact Or.inr (ih hmem)

theorem mem_memberReals {members : List (CStr × Json)} {member : CStr × Json}
    (h : member ∈ members) {x : Double} (hx : x ∈ reals member.2) : x ∈ memberReals members := by
  induction members with
  | nil => cases h
  | cons first members ih =>
      rw [memberReals, List.mem_append]
      rcases List.mem_cons.mp h with rfl | hmem
      · exact Or.inl hx
      · exact Or.inr (ih hmem)

section

variable (P : Double → Prop)

mutual

/-- A value as the constructors of `json_t` leave it, with reals that meet `P`. -/
def WellFormed : Json → Prop
  | .integer value => -2 ^ 63 ≤ value ∧ value < 2 ^ 63
  | .real value => P value
  | .string value => IsText value
  | .array elements => elements.length < 2 ^ 31 ∧ ElementsWellFormed elements
  | .object members => (members.map (·.1)).Nodup ∧ MembersWellFormed members
  | _ => True

def ElementsWellFormed : List Json → Prop
  | [] => True
  | element :: elements => WellFormed element ∧ ElementsWellFormed elements

def MembersWellFormed : List (CStr × Json) → Prop
  | [] => True
  | (key, value) :: members => (IsText key ∧ WellFormed value) ∧ MembersWellFormed members

end

end

section

variable {P : Double → Prop}

theorem elementsWellFormed_iff (elements : List Json) :
    ElementsWellFormed P elements ↔
      ∀ element ∈ elements, WellFormed P element := by
  induction elements with
  | nil => simp [ElementsWellFormed]
  | cons element elements ih => rw [ElementsWellFormed, ih, List.forall_mem_cons]

theorem membersWellFormed_iff (members : List (CStr × Json)) :
    MembersWellFormed P members ↔
      ∀ member ∈ members, IsText member.1 ∧ WellFormed P member.2 := by
  induction members with
  | nil => simp [MembersWellFormed]
  | cons member members ih =>
      obtain ⟨key, value⟩ := member
      rw [MembersWellFormed, ih, List.forall_mem_cons]

theorem WellFormed.reals {Q : Double → Prop} {value : Json} (h : WellFormed P value)
    (hreals : ∀ x ∈ reals value, P x → Q x) : WellFormed Q value := by
  induction value using json_induction with
  | null | bool => trivial
  | integer value => exact h
  | real value => exact hreals value (List.mem_singleton_self value) h
  | string value => exact h
  | array elements ih =>
      obtain ⟨hlen, helements⟩ := h
      rw [elementsWellFormed_iff] at helements
      exact ⟨hlen, (elementsWellFormed_iff elements).mpr fun element hmem =>
        ih element hmem (helements element hmem) fun x hx => hreals x (mem_elementReals hmem hx)⟩
  | object members ih =>
      obtain ⟨hnodup, hmembers⟩ := h
      rw [membersWellFormed_iff] at hmembers
      exact ⟨hnodup, (membersWellFormed_iff members).mpr fun member hmem =>
        ⟨(hmembers member hmem).1, ih member hmem (hmembers member hmem).2
          fun x hx => hreals x (mem_memberReals hmem hx)⟩⟩

end

/-! Texts that are read back. -/

section

variable {strtod : CStr → Option Double}

/-- The parser takes a value from the front of a string. -/
def ParsesAt (strtod : CStr → Option Double) (fuel : Nat) (s : CStr) (value : Json) (rest : CStr) :
    Prop :=
  parseValue strtod .eof fuel (lexScan strtod .eof s).1 (lexScan strtod .eof s).2 =
    some (value, rest)

/-- A text that is UTF-8, and stands on one line when nothing is indented. -/
structure LineText (flags : UInt64) (text : CStr) : Prop where
  utf8 : (stream 0 text).2 = true
  line : jsonIndent flags = 0 → ∀ c ∈ text, 0x1f < c

/-- A text that stands for a value. -/
structure Written (strtod : CStr → Option Double) (flags : UInt64) (text : CStr) (value : Json) :
    Prop extends LineText flags text where
  reads : ∃ least, ∀ fuel ≥ least, ∀ rest, Ends rest →
    ParsesAt strtod fuel (text ++ rest) value rest

theorem LineText.append {flags : UInt64} {s t : CStr} (hs : LineText flags s)
    (ht : LineText flags t) : LineText flags (s ++ t) where
  utf8 := by
    rw [stream_append (Nat.zero_le _) hs.utf8]
    exact ht.utf8
  line := fun h => List.forall_mem_append.mpr ⟨hs.line h, ht.line h⟩

theorem lineText_printable (flags : UInt64) {s : CStr} (h : ∀ c ∈ s, 0x1f < c ∧ c < 0x80) :
    LineText flags s where
  utf8 := utf8_of_printable h
  line := fun _ c hc => (h c hc).1

theorem LineText.cons {flags : UInt64} {c : UInt8} (hc : 0x1f < c ∧ c < 0x80) {s : CStr}
    (h : LineText flags s) : LineText flags (c :: s) :=
  (lineText_printable flags (s := [c]) (List.forall_mem_singleton.mpr hc)).append h

/-- A text that is a token by itself. -/
theorem written_token {flags : UInt64} {text : CStr} {token : Token} {value : Json}
    (printable : ∀ c ∈ text, 0x1f < c ∧ c < 0x80)
    (hscan : ∀ rest, Ends rest → lexScan strtod .eof (text ++ rest) = (token, rest))
    (hvalue : ∀ fuel s, parseValue strtod .eof (fuel + 1) token s = some (value, s)) :
    Written strtod flags text value where
  toLineText := lineText_printable flags printable
  reads := ⟨1, fun fuel hfuel rest hrest => by
    obtain ⟨fuel, rfl⟩ := Nat.exists_eq_add_of_le' hfuel
    rw [ParsesAt, hscan rest hrest, hvalue]⟩

theorem lexScan_word {word : CStr} (hword : ∀ c ∈ word, lIsAlpha c = true) {c : UInt8}
    {letters : CStr} (heq : word = c :: letters) {rest : CStr} (hrest : Ends rest) :
    lexScan strtod .eof (word ++ rest) = (identifier word, rest) := by
  subst heq
  rw [List.forall_mem_cons] at hword
  obtain ⟨hfirst, hletters⟩ := hword
  have hclass : (c == 32 || c == 9 || c == 10 || c == 13) = false ∧
      (c == 123 || c == 125 || c == 91 || c == 93 || c == 58 || c == 44) = false ∧
      (c == 34) = false ∧ (lIsDigit c || c == 45) = false := by
    revert hfirst
    clear hletters
    revert c
    apply Util.forall_byte
    decide +kernel
  have htake : (letters ++ rest).takeWhile lIsAlpha = letters ∧
      (letters ++ rest).dropWhile lIsAlpha = rest := by
    rw [List.takeWhile_append_of_pos hletters, List.dropWhile_append_of_pos hletters]
    cases rest with
    | nil => exact ⟨List.append_nil _, rfl⟩
    | cons b rest =>
        have hb := (hrest b rfl).2.1
        rw [List.takeWhile_cons_of_neg (by rw [hb]; exact Bool.false_ne_true),
          List.dropWhile_cons_of_neg (by rw [hb]; exact Bool.false_ne_true)]
        exact ⟨List.append_nil _, rfl⟩
  rw [List.cons_append, lexScan,
    List.dropWhile_cons_of_neg (by rw [hclass.1]; exact Bool.false_ne_true)]
  dsimp only
  rw [hclass.2.1, hclass.2.2.1, hclass.2.2.2, hfirst, htake.1, htake.2]
  rfl

theorem lexScan_quoted {s body : CStr} (h : StringBody s body) (rest : CStr) :
    lexScan strtod .eof (34 :: (body ++ [34]) ++ rest) = (.string s, rest) := by
  have hscan : lexScan strtod .eof (34 :: (body ++ [34]) ++ rest) =
      lexScanString (body ++ [34] ++ rest) := rfl
  rw [hscan, lexScanString, List.append_assoc, List.cons_append, List.nil_append, h.scan]
  dsimp only
  rw [h.unescape]

theorem lexScan_space {c : UInt8} (hc : (c == 32 || c == 9 || c == 10 || c == 13) = true)
    (s : CStr) : lexScan strtod .eof (c :: s) = lexScan strtod .eof s := by
  rw [lexScan, lexScan, List.dropWhile_cons, if_pos hc]

theorem dumpIndent_space (flags : UInt64) (depth : Nat) (space : Bool) :
    ∀ c ∈ dumpIndent flags depth space, c = 10 ∨ c = 32 := by
  intro c hc
  rw [dumpIndent] at hc
  split at hc
  · rcases List.mem_cons.mp hc with rfl | hc
    · exact Or.inl rfl
    · exact Or.inr (List.eq_of_mem_replicate hc)
  · split at hc
    · exact Or.inr (List.mem_singleton.mp hc)
    · cases hc

theorem lexScan_indent (flags : UInt64) (depth : Nat) (space : Bool) (s : CStr) :
    lexScan strtod .eof (dumpIndent flags depth space ++ s) = lexScan strtod .eof s := by
  have hspace := dumpIndent_space flags depth space
  generalize dumpIndent flags depth space = indent at hspace ⊢
  induction indent with
  | nil => rfl
  | cons c indent ih =>
      rw [List.forall_mem_cons] at hspace
      rw [List.cons_append, lexScan_space (by rcases hspace.1 with rfl | rfl <;> rfl), ih hspace.2]

theorem lineText_indent (flags : UInt64) (depth : Nat) (space : Bool) :
    LineText flags (dumpIndent flags depth space) where
  utf8 := by
    refine stream_ascii fun c hc => ?_
    rcases dumpIndent_space flags depth space c hc with rfl | rfl
    · decide
    · decide
  line := fun h => by
    rw [dumpIndent, if_neg (by omega)]
    split
    · exact List.all_iff_forall_prop.mp (by decide)
    · exact List.all_iff_forall_prop.mp (by decide)

theorem ends_indent (flags : UInt64) (depth : Nat) {rest : CStr} (hrest : Ends rest) :
    Ends (dumpIndent flags depth false ++ rest) := by
  rw [dumpIndent]
  split
  · exact ends_cons (by decide) _
  · exact hrest

/-! The items between brackets. -/

theorem parseArray_items {flags : UInt64} (depth : Nat) {items : List (CStr × Json)}
    (h : ∀ item ∈ items, Written strtod flags item.1 item.2) (hne : items ≠ []) :
    ∃ body, dumpItems flags depth (items.map fun item => some item.1) = some body ∧
      LineText flags body ∧ ∃ least, ∀ fuel ≥ least, ∀ array rest,
        parseArray strtod .eof fuel array (lexScan strtod .eof (body ++ 93 :: rest)).1
          (lexScan strtod .eof (body ++ 93 :: rest)).2 =
            some (array ++ items.map (·.2), rest) := by
  induction items with
  | nil => exact absurd rfl hne
  | cons item items ih =>
      rw [List.forall_mem_cons] at h
      obtain ⟨least, hleast⟩ := h.1.reads
      cases items with
      | nil =>
          refine ⟨_, rfl, h.1.toLineText.append (lineText_indent flags depth false), least + 1,
            fun fuel hfuel array rest => ?_⟩
          obtain ⟨fuel, rfl⟩ := Nat.exists_eq_add_of_le' (Nat.le_of_add_left_le hfuel)
          have hvalue := hleast fuel (by omega) (dumpIndent flags depth false ++ 93 :: rest)
            (ends_indent flags depth (ends_cons (by decide) rest))
          have hclose : lexScan strtod .eof (93 :: rest) = (.punct 93, rest) := rfl
          rw [ParsesAt, ← List.append_assoc] at hvalue
          rw [parseArray, hvalue]
          dsimp only
          rw [lexScan_indent, hclose]
          rfl
      | cons second items =>
          obtain ⟨body, hbody, hline, leastRest, hrest⟩ := ih h.2 (List.cons_ne_nil _ _)
          refine ⟨item.1 ++ 44 :: dumpIndent flags (depth + 1) true ++ body, ?_,
            (h.1.toLineText.append
              ((lineText_indent flags (depth + 1) true).cons (by decide))).append hline,
            max least leastRest + 1, fun fuel hfuel array rest => ?_⟩
          · rw [List.map_cons] at hbody
            rw [List.map_cons, List.map_cons, dumpItems, hbody]
            · rfl
            · exact List.cons_ne_nil _ _
          · obtain ⟨fuel, rfl⟩ := Nat.exists_eq_add_of_le' (Nat.le_of_add_left_le hfuel)
            have hvalue := hleast fuel (by omega)
              (44 :: (dumpIndent flags (depth + 1) true ++ (body ++ 93 :: rest)))
              (ends_cons (by decide) _)
            have hcomma : lexScan strtod .eof
                (44 :: (dumpIndent flags (depth + 1) true ++ (body ++ 93 :: rest))) =
                (.punct 44, dumpIndent flags (depth + 1) true ++ (body ++ 93 :: rest)) := rfl
            have htext : item.1 ++ 44 :: dumpIndent flags (depth + 1) true ++ body ++ 93 :: rest =
                item.1 ++ 44 :: (dumpIndent flags (depth + 1) true ++ (body ++ 93 :: rest)) := by
              simp only [List.append_assoc, List.cons_append]
            rw [ParsesAt] at hvalue
            rw [htext, parseArray, hvalue]
            dsimp only
            rw [hcomma, if_pos rfl, lexScan_indent, hrest fuel (by omega), List.append_assoc]
            rfl

theorem jsonObjectSet_new {members : List (CStr × Json)} {key : CStr}
    (h : key ∉ members.map (·.1)) (value : Json) :
    jsonObjectSet members key value = members ++ [(key, value)] := by
  induction members with
  | nil => rfl
  | cons member members ih =>
      rw [List.map_cons, List.mem_cons, not_or] at h
      rw [jsonObjectSet, if_neg (by simpa using Ne.symm h.1), ih h.2]
      rfl

theorem lineText_separator (flags : UInt64) : LineText flags (separator flags) := by
  refine lineText_printable flags ?_
  rw [separator]
  split
  · exact List.all_iff_forall_prop.mp (by decide)
  · exact List.all_iff_forall_prop.mp (by decide)

theorem lexScan_separator (flags : UInt64) (s : CStr) :
    ∃ after, lexScan strtod .eof (separator flags ++ s) = (.punct 58, after) ∧
      lexScan strtod .eof after = lexScan strtod .eof s := by
  rw [separator]
  split
  · exact ⟨s, rfl, rfl⟩
  · exact ⟨32 :: s, rfl, lexScan_space rfl s⟩

/-- What is written for a member. -/
def memberText (flags : UInt64) (key text : CStr) : CStr :=
  (dumpString flags key).1 ++ separator flags ++ text

theorem lineText_string (flags : UInt64) {s : CStr} (h : IsText s) :
    LineText flags (dumpString flags s).1 := by
  obtain ⟨body, hbody, htext⟩ := dumpString_text flags h
  have hclose : LineText flags [34] :=
    lineText_printable flags (List.all_iff_forall_prop.mp (by decide))
  rw [htext]
  exact ((LineText.mk hbody.utf8 fun _ => hbody.printable).append hclose).cons (by decide)

theorem lineText_member {flags : UInt64} {key text : CStr} {value : Json} (hkey : IsText key)
    (h : Written strtod flags text value) : LineText flags (memberText flags key text) :=
  ((lineText_string flags hkey).append (lineText_separator flags)).append h.toLineText

/-- The parser's loop takes a member, and looks at what comes next. -/
theorem parseObject_memberText {flags : UInt64} {key text : CStr} {value : Json}
    (hkey : IsText key) {fuel : Nat} {rest : CStr}
    (hvalue : ParsesAt strtod fuel (text ++ rest) value rest) (object : List (CStr × Json)) :
    parseObject strtod .eof (fuel + 1) object
        (lexScan strtod .eof (memberText flags key text ++ rest)).1
        (lexScan strtod .eof (memberText flags key text ++ rest)).2 =
      let object := jsonObjectSet object key value
      let next := lexScan strtod .eof rest
      if next.1 = .punct 44 then
        parseObject strtod .eof fuel object (lexScan strtod .eof next.2).1
          (lexScan strtod .eof next.2).2
      else if next.1 = .punct 125 then some (object, next.2)
      else none := by
  obtain ⟨body, hbody, htext⟩ := dumpString_text flags hkey
  obtain ⟨after, hcolon, hafter⟩ := @lexScan_separator strtod flags (text ++ rest)
  rw [memberText, htext, List.append_assoc, List.append_assoc, lexScan_quoted hbody, parseObject,
    hcolon]
  dsimp only
  rw [if_pos rfl, hafter, hvalue]

theorem parseObject_items {flags : UInt64} (depth : Nat) {items : List (CStr × CStr × Json)}
    (h : ∀ item ∈ items, IsText item.1 ∧ Written strtod flags item.2.1 item.2.2)
    (hne : items ≠ []) :
    ∃ body, dumpItems flags depth
        (items.map fun item => some (memberText flags item.1 item.2.1)) = some body ∧
      LineText flags body ∧ ∃ least, ∀ fuel ≥ least, ∀ object rest,
        (object.map (·.1) ++ items.map (·.1)).Nodup →
        parseObject strtod .eof fuel object (lexScan strtod .eof (body ++ 125 :: rest)).1
          (lexScan strtod .eof (body ++ 125 :: rest)).2 =
            some (object ++ items.map fun item => (item.1, item.2.2), rest) := by
  induction items with
  | nil => exact absurd rfl hne
  | cons item items ih =>
      obtain ⟨key, text, value⟩ := item
      rw [List.forall_mem_cons] at h
      obtain ⟨⟨hkey, hwritten⟩, hitems⟩ := h
      obtain ⟨least, hleast⟩ := hwritten.reads
      cases items with
      | nil =>
          refine ⟨_, rfl,
            (lineText_member hkey hwritten).append (lineText_indent flags depth false),
            least + 1, fun fuel hfuel object rest hnodup => ?_⟩
          obtain ⟨fuel, rfl⟩ := Nat.exists_eq_add_of_le' (Nat.le_of_add_left_le hfuel)
          have hvalue := hleast fuel (by omega) (dumpIndent flags depth false ++ 125 :: rest)
            (ends_indent flags depth (ends_cons (by decide) rest))
          have hclose : lexScan strtod .eof (125 :: rest) = (.punct 125, rest) := rfl
          have hnew : key ∉ object.map (·.1) := fun hmem =>
            (List.nodup_append.mp hnodup).2.2 key hmem key List.mem_cons_self rfl
          rw [List.append_assoc, parseObject_memberText hkey hvalue, lexScan_indent, hclose,
            jsonObjectSet_new hnew]
          rfl
      | cons second items =>
          obtain ⟨body, hbody, hline, leastRest, hrest⟩ := ih hitems (List.cons_ne_nil _ _)
          refine ⟨memberText flags key text ++ 44 :: dumpIndent flags (depth + 1) true ++ body, ?_,
            ((lineText_member hkey hwritten).append
              ((lineText_indent flags (depth + 1) true).cons (by decide))).append hline,
            max least leastRest + 1, fun fuel hfuel object rest hnodup => ?_⟩
          · rw [List.map_cons] at hbody
            rw [List.map_cons, List.map_cons, dumpItems, hbody]
            · rfl
            · exact List.cons_ne_nil _ _
          · obtain ⟨fuel, rfl⟩ := Nat.exists_eq_add_of_le' (Nat.le_of_add_left_le hfuel)
            have hvalue := hleast fuel (by omega)
              (44 :: (dumpIndent flags (depth + 1) true ++ (body ++ 125 :: rest)))
              (ends_cons (by decide) _)
            have hcomma : lexScan strtod .eof
                (44 :: (dumpIndent flags (depth + 1) true ++ (body ++ 125 :: rest))) =
                (.punct 44, dumpIndent flags (depth + 1) true ++ (body ++ 125 :: rest)) := rfl
            have htext : memberText flags key text ++ 44 :: dumpIndent flags (depth + 1) true ++
                body ++ 125 :: rest = memberText flags key text ++
                  44 :: (dumpIndent flags (depth + 1) true ++ (body ++ 125 :: rest)) := by
              simp only [List.append_assoc, List.cons_append]
            have hnew : key ∉ object.map (·.1) := fun hmem =>
              (List.nodup_append.mp hnodup).2.2 key hmem key List.mem_cons_self rfl
            rw [htext, parseObject_memberText hkey hvalue, hcomma, jsonObjectSet_new hnew]
            dsimp only
            rw [if_pos rfl, lexScan_indent, hrest fuel (by omega), List.append_assoc]
            · rfl
            · rw [List.map_append, List.append_assoc]
              exact hnodup

end

/-! Whole values. -/

section

variable (chain : List Nat → List CStr → List CStr)

mutual

/-- The value with the members of each object in the order in which they are written. -/
def arranged (flags : UInt64) (place : List Nat) : Json → Json
  | .array elements => .array (arrangedElements flags place 0 elements)
  | .object members =>
      .object ((dumpedKeys chain flags place (members.map (·.1))).filterMap fun key =>
        ((arrangedMembers flags place 0 members).lookup key).map (key, ·))
  | value => value

def arrangedElements (flags : UInt64) (place : List Nat) : Nat → List Json → List Json
  | _, [] => []
  | i, element :: elements =>
      arranged flags (i :: place) element :: arrangedElements flags place (i + 1) elements

def arrangedMembers (flags : UInt64) (place : List Nat) :
    Nat → List (CStr × Json) → List (CStr × Json)
  | _, [] => []
  | i, (key, value) :: members =>
      (key, arranged flags (i :: place) value) :: arrangedMembers flags place (i + 1) members

end

/-- The hash table holds each key once, in whatever order. -/
def Chains : Prop := ∀ place keys, (chain place keys).Perm keys

end

section

variable {snprintf : Double → CStr} {strtod : CStr → Option Double}
  {chain : List Nat → List CStr → List CStr}

theorem dumpedKeys_perm (hchain : Chains chain) (flags : UInt64) (place : List Nat)
    (keys : List CStr) : (dumpedKeys chain flags place keys).Perm keys := by
  rw [dumpedKeys]
  split
  · exact List.mergeSort_perm keys _
  · split
    · exact List.Perm.refl keys
    · exact hchain place keys

/-- A value is written at every place it may stand at. -/
def WrittenAt (snprintf : Double → CStr) (strtod : CStr → Option Double)
    (chain : List Nat → List CStr → List CStr) (flags : UInt64) (value : Json) : Prop :=
  ∀ place, ∃ text, doDump snprintf chain flags place value = some text ∧
    Written strtod flags text (arranged chain flags place value)

theorem dumpElements_written {flags : UInt64} {elements : List Json}
    (h : ∀ element ∈ elements, WrittenAt snprintf strtod chain flags element) (place : List Nat)
    (i : Nat) : ∃ items : List (CStr × Json),
      dumpElements snprintf chain flags place i elements = items.map (fun item => some item.1) ∧
      arrangedElements chain flags place i elements = items.map (·.2) ∧
      ∀ item ∈ items, Written strtod flags item.1 item.2 := by
  induction elements generalizing i with
  | nil => exact ⟨[], rfl, rfl, fun _ hmem => absurd hmem List.not_mem_nil⟩
  | cons element elements ih =>
      rw [List.forall_mem_cons] at h
      obtain ⟨text, htext, hwritten⟩ := h.1 (i :: place)
      obtain ⟨items, hdumped, harranged, hitems⟩ := ih h.2 (i + 1)
      refine ⟨(text, arranged chain flags (i :: place) element) :: items, ?_, ?_, ?_⟩
      · rw [dumpElements, htext, hdumped]
        rfl
      · rw [arrangedElements, harranged]
        rfl
      · rw [List.forall_mem_cons]
        exact ⟨hwritten, hitems⟩

theorem dumpMembers_written {flags : UInt64} {members : List (CStr × Json)}
    (h : ∀ member ∈ members, WrittenAt snprintf strtod chain flags member.2) (place : List Nat)
    (i : Nat) {key : CStr} (hkey : key ∈ members.map (·.1)) :
    ∃ text value, (dumpMembers snprintf chain flags place i members).lookup key =
        some (some text) ∧
      (arrangedMembers chain flags place i members).lookup key = some value ∧
      Written strtod flags text value := by
  induction members generalizing i with
  | nil => cases hkey
  | cons member members ih =>
      obtain ⟨first, value⟩ := member
      rw [List.forall_mem_cons] at h
      rw [dumpMembers, arrangedMembers]
      by_cases heq : key = first
      · subst heq
        obtain ⟨text, htext, hwritten⟩ := h.1 (i :: place)
        refine ⟨text, _, ?_, List.lookup_cons_self, hwritten⟩
        rw [htext, List.lookup_cons_self]
      · rw [List.map_cons, List.mem_cons] at hkey
        have hne : (key == first) = false := beq_false_of_ne heq
        rw [List.lookup_cons, List.lookup_cons, hne]
        exact ih h.2 (i + 1) (hkey.resolve_left heq)

/-- The keys that are written, each with the text of its value and what it is read as. -/
theorem dumpedItems {flags : UInt64} {values : List (CStr × Option CStr)}
    {members : List (CStr × Json)} {keys : List CStr} (hkeys : ∀ key ∈ keys, IsText key)
    (h : ∀ key ∈ keys, ∃ text value, values.lookup key = some (some text) ∧
      members.lookup key = some value ∧ Written strtod flags text value) :
    ∃ items : List (CStr × CStr × Json), keys = items.map (·.1) ∧
      keys.map (dumpMember flags values) =
        items.map (fun item => some (memberText flags item.1 item.2.1)) ∧
      keys.filterMap (fun key => (members.lookup key).map (key, ·)) =
        items.map (fun item => (item.1, item.2.2)) ∧
      ∀ item ∈ items, IsText item.1 ∧ Written strtod flags item.2.1 item.2.2 := by
  induction keys with
  | nil => exact ⟨[], rfl, rfl, rfl, fun _ hmem => absurd hmem List.not_mem_nil⟩
  | cons key keys ih =>
      rw [List.forall_mem_cons] at h hkeys
      obtain ⟨text, value, htext, hvalue, hwritten⟩ := h.1
      obtain ⟨items, rfl, hdumped, hmembers, hitems⟩ := ih hkeys.2 h.2
      refine ⟨(key, text, value) :: items, rfl, ?_, ?_, ?_⟩
      · rw [List.map_cons, hdumped, dumpMember, htext]
        rfl
      · rw [List.filterMap_cons, hvalue]
        dsimp only [Option.map_some]
        rw [hmembers]
        rfl
      · rw [List.forall_mem_cons]
        exact ⟨⟨hkeys.1, hwritten⟩, hitems⟩

theorem token_of_parseArray {fuel : Nat} {array : List Json} {token : Token} {s : CStr}
    {parsed : List Json × CStr} (h : parseArray strtod .eof fuel array token s = some parsed) :
    token ≠ .punct 93 := by
  rintro rfl
  cases fuel with
  | zero => cases h
  | succ fuel =>
      cases fuel with
      | zero => cases h
      | succ fuel => cases h

theorem token_of_parseObject {fuel : Nat} {object : List (CStr × Json)} {token : Token} {s : CStr}
    {parsed : List (CStr × Json) × CStr}
    (h : parseObject strtod .eof fuel object token s = some parsed) : token ≠ .punct 125 := by
  rintro rfl
  cases fuel with
  | zero => cases h
  | succ fuel => cases h

theorem lineText_brackets {flags : UInt64} {body : CStr} (h : LineText flags body) (depth : Nat)
    (first last : UInt8) (hfirst : 0x1f < first ∧ first < 0x80)
    (hlast : 0x1f < last ∧ last < 0x80) :
    LineText flags (first :: dumpIndent flags depth false ++ body ++ [last]) :=
  (((lineText_indent flags depth false).cons hfirst).append h).append
    (lineText_printable flags (List.forall_mem_singleton.mpr hlast))

theorem array_written {flags : UInt64} {elements : List Json} (hlen : elements.length < 2 ^ 31)
    (h : ∀ element ∈ elements, WrittenAt snprintf strtod chain flags element) :
    WrittenAt snprintf strtod chain flags (.array elements) := by
  intro place
  obtain ⟨items, hdumped, harranged, hitems⟩ := dumpElements_written h place 0
  have hcount : items.length = elements.length := by
    have hlength : ∀ (elements : List Json) (i : Nat),
        (arrangedElements chain flags place i elements).length = elements.length := by
      intro elements
      induction elements with
      | nil => exact fun _ => rfl
      | cons element elements ih =>
          intro i
          rw [arrangedElements, List.length_cons, List.length_cons, ih]
    rw [← hlength elements 0, harranged, List.length_map]
  rw [arranged, harranged, doDump, castInt_of_lt hlen, hdumped]
  cases elements with
  | nil =>
      obtain rfl := List.length_eq_zero_iff.mp hcount
      have hline : LineText flags [91, 93] :=
        lineText_printable flags (List.all_iff_forall_prop.mp (by decide))
      refine ⟨[91, 93], rfl, hline, 1, fun fuel hfuel rest _ => ?_⟩
      obtain ⟨fuel, rfl⟩ := Nat.exists_eq_add_of_le' hfuel
      rfl
  | cons element elements =>
      have hne : items ≠ [] := by
        rintro rfl
        cases hcount
      obtain ⟨body, hbody, hline, least, hleast⟩ := parseArray_items place.length hitems hne
      refine ⟨_, ?_, lineText_brackets hline (place.length + 1) 91 93 (by decide) (by decide),
        least + 1, fun fuel hfuel rest _ => ?_⟩
      · have hlength : ((element :: elements).length : Int) ≠ 0 := by
          rw [List.length_cons]
          omega
        rw [if_neg hlength, Int.toNat_natCast, List.take_of_length_le (by simp [hcount]), hbody]
        rfl
      · obtain ⟨fuel, rfl⟩ := Nat.exists_eq_add_of_le' (Nat.le_of_add_left_le hfuel)
        have hparsed := hleast fuel (by omega) [] rest
        have htext : 91 :: dumpIndent flags (place.length + 1) false ++ body ++ [93] ++ rest =
            91 :: (dumpIndent flags (place.length + 1) false ++ (body ++ 93 :: rest)) := by
          simp only [List.append_assoc, List.cons_append, List.nil_append]
        have hopen : lexScan strtod .eof
            (91 :: (dumpIndent flags (place.length + 1) false ++ (body ++ 93 :: rest))) =
            (.punct 91, dumpIndent flags (place.length + 1) false ++ (body ++ 93 :: rest)) := rfl
        rw [ParsesAt, htext, hopen, parseValue, lexScan_indent,
          if_neg (token_of_parseArray hparsed), hparsed]
        rfl

theorem object_written (hchain : Chains chain) {flags : UInt64} {members : List (CStr × Json)}
    (hnodup : (members.map (·.1)).Nodup) (hkeys : ∀ key ∈ members.map (·.1), IsText key)
    (h : ∀ member ∈ members, WrittenAt snprintf strtod chain flags member.2) :
    WrittenAt snprintf strtod chain flags (.object members) := by
  intro place
  have hperm := dumpedKeys_perm hchain flags place (members.map (·.1))
  obtain ⟨items, hitemKeys, hdumped, harranged, hitems⟩ :=
    @dumpedItems strtod flags (dumpMembers snprintf chain flags place 0 members)
      (arrangedMembers chain flags place 0 members) _
      (fun key hkey => hkeys key (hperm.subset hkey))
      fun key hkey => dumpMembers_written h place 0 (hperm.subset hkey)
  rw [arranged, harranged, doDump]
  cases members with
  | nil =>
      obtain rfl : items = [] := by
        have hnone := hperm.eq_nil
        rw [hitemKeys] at hnone
        exact List.map_eq_nil_iff.mp hnone
      have hline : LineText flags [123, 125] :=
        lineText_printable flags (List.all_iff_forall_prop.mp (by decide))
      refine ⟨[123, 125], rfl, hline, 1, fun fuel hfuel rest _ => ?_⟩
      obtain ⟨fuel, rfl⟩ := Nat.exists_eq_add_of_le' hfuel
      rfl
  | cons member members =>
      have hne : items ≠ [] := by
        rintro rfl
        have hlength := hperm.length_eq
        rw [hitemKeys] at hlength
        cases hlength
      obtain ⟨body, hbody, hline, least, hleast⟩ := parseObject_items place.length hitems hne
      refine ⟨_, ?_, lineText_brackets hline (place.length + 1) 123 125 (by decide) (by decide),
        least + 1, fun fuel hfuel rest _ => ?_⟩
      · rw [if_neg (by simp)]
        dsimp only
        rw [hdumped, hbody]
        rfl
      · obtain ⟨fuel, rfl⟩ := Nat.exists_eq_add_of_le' (Nat.le_of_add_left_le hfuel)
        have hparsed := hleast fuel (by omega) [] rest (by
          rw [List.map_nil, List.nil_append, ← hitemKeys]
          exact hperm.nodup_iff.mpr hnodup)
        have htext : 123 :: dumpIndent flags (place.length + 1) false ++ body ++ [125] ++ rest =
            123 :: (dumpIndent flags (place.length + 1) false ++ (body ++ 125 :: rest)) := by
          simp only [List.append_assoc, List.cons_append, List.nil_append]
        have hopen : lexScan strtod .eof
            (123 :: (dumpIndent flags (place.length + 1) false ++ (body ++ 125 :: rest))) =
            (.punct 123, dumpIndent flags (place.length + 1) false ++ (body ++ 125 :: rest)) := rfl
        rw [ParsesAt, htext, hopen, parseValue, lexScan_indent,
          if_neg (token_of_parseObject hparsed), hparsed]
        rfl

theorem word_written {flags : UInt64} {word : CStr} (hword : word.all lIsAlpha)
    {c : UInt8} {letters : CStr} (heq : word = c :: letters) {value : Json}
    (hvalue : ∀ fuel s,
      parseValue strtod .eof (fuel + 1) (identifier word) s = some (value, s)) :
    Written strtod flags word value := by
  have hprintable : ∀ c : UInt8, lIsAlpha c = true → 0x1f < c ∧ c < 0x80 := by
    apply Util.forall_byte
    decide +kernel
  have hword := List.all_eq_true.mp hword
  exact written_token (fun c hc => hprintable c (hword c hc))
    (fun rest hrest => lexScan_word hword heq hrest) hvalue

/-- Every value that can be held is written, and what is written stands for it. -/
theorem doDump_written (hchain : Chains chain) (flags : UInt64) {value : Json}
    (h : WellFormed (PrintsBack snprintf strtod) value) :
    WrittenAt snprintf strtod chain flags value := by
  induction value using json_induction with
  | null => exact fun place => ⟨_, rfl, word_written (by decide) rfl fun _ _ => rfl⟩
  | bool value =>
      cases value with
      | true => exact fun place => ⟨_, rfl, word_written (by decide) rfl fun _ _ => rfl⟩
      | false => exact fun place => ⟨_, rfl, word_written (by decide) rfl fun _ _ => rfl⟩
  | integer value =>
      exact fun place => ⟨_, rfl, written_token (printable_integerText value)
        (fun rest hrest => lexScan_integerText h hrest) fun _ _ => rfl⟩
  | real value =>
      obtain ⟨text, hdump, hvalue⟩ := Option.bind_eq_some_iff.mp h.1.reads
      exact fun place => ⟨text, hdump, written_token (printable_dtostr h.1 hdump)
        (fun rest hrest => lexScan_dtostr h.1 hdump hvalue hrest) fun _ _ => rfl⟩
  | string value =>
      intro place
      obtain ⟨body, hbody, htext⟩ := dumpString_text flags h
      refine ⟨(dumpString flags value).1, ?_, lineText_string flags h, 1,
        fun fuel hfuel rest _ => ?_⟩
      · rw [doDump, htext]
        rfl
      · obtain ⟨fuel, rfl⟩ := Nat.exists_eq_add_of_le' hfuel
        rw [ParsesAt, htext, lexScan_quoted hbody]
        rfl
  | array elements ih =>
      obtain ⟨hlen, helements⟩ := h
      rw [elementsWellFormed_iff] at helements
      exact array_written hlen fun element hmem => ih element hmem (helements element hmem)
  | object members ih =>
      obtain ⟨hnodup, hmembers⟩ := h
      rw [membersWellFormed_iff] at hmembers
      refine object_written hchain hnodup (fun key hkey => ?_)
        fun member hmem => ih member hmem (hmembers member hmem).2
      obtain ⟨member, hmem, rfl⟩ := List.mem_map.mp hkey
      exact (hmembers member hmem).1

/-! The value read is equal to the value written. -/

theorem jsonObjectGet_lookup (members : List (CStr × Json)) (key : CStr) :
    jsonObjectGet (some (.object members)) key = members.lookup key := by
  rw [jsonObjectGet]
  induction members with
  | nil => rfl
  | cons member members ih =>
      obtain ⟨first, value⟩ := member
      by_cases heq : key = first
      · subst heq
        rw [List.find?_cons_of_pos (by simp), List.lookup_cons_self]
        rfl
      · have hne : (key == first) = false := beq_false_of_ne heq
        rw [List.find?_cons_of_neg (by simpa using Ne.symm heq), ih, List.lookup_cons, hne]

theorem lookup_filterMap (f : CStr → Option Json) {keys : List CStr} {key : CStr}
    (h : key ∈ keys) : (keys.filterMap fun key => (f key).map (key, ·)).lookup key = f key := by
  induction keys with
  | nil => cases h
  | cons first keys ih =>
      rw [List.filterMap_cons]
      by_cases heq : key = first
      · subst heq
        cases hvalue : f key with
        | none =>
            rw [Option.map_none]
            dsimp only
            by_cases hmem : key ∈ keys
            · rw [ih hmem, hvalue]
            · rw [List.lookup_eq_none_iff]
              intro member hmember
              obtain ⟨other, hother, hmap⟩ := List.mem_filterMap.mp hmember
              obtain ⟨value, -, rfl⟩ := Option.map_eq_some_iff.mp hmap
              rw [bne_iff_ne]
              rintro rfl
              exact hmem hother
        | some value =>
            rw [Option.map_some]
            dsimp only
            rw [List.lookup_cons_self]
      · have hne : (key == first) = false := beq_false_of_ne heq
        have hrest := ih ((List.mem_cons.mp h).resolve_left heq)
        cases f first with
        | none => exact hrest
        | some value =>
            rw [Option.map_some]
            dsimp only
            rw [List.lookup_cons, hne]
            exact hrest

theorem lookup_arrangedMembers {flags : UInt64} {place : List Nat} {members : List (CStr × Json)}
    (hnodup : (members.map (·.1)).Nodup) {key : CStr} {value : Json} (h : (key, value) ∈ members)
    (i : Nat) : ∃ j, (arrangedMembers chain flags place i members).lookup key =
      some (arranged chain flags (j :: place) value) := by
  induction members generalizing i with
  | nil => cases h
  | cons member members ih =>
      obtain ⟨first, value'⟩ := member
      rw [List.map_cons, List.nodup_cons] at hnodup
      rw [arrangedMembers]
      rcases List.mem_cons.mp h with heq | hmem
      · cases heq
        exact ⟨i, List.lookup_cons_self⟩
      · have hne : (key == first) = false := by
          refine beq_false_of_ne ?_
          rintro rfl
          exact hnodup.1 (List.mem_map.mpr ⟨_, hmem, rfl⟩)
        rw [List.lookup_cons, hne]
        exact ih hnodup.2 hmem (i + 1)

theorem jsonObjectEqual_of_forall {members1 members2 : List (CStr × Json)}
    (h : ∀ member ∈ members1, ∃ value, members2.lookup member.1 = some value ∧
      jsonEqual member.2 value = true) : jsonObjectEqual members1 members2 = true := by
  induction members1 with
  | nil => rw [jsonObjectEqual]
  | cons member members1 ih =>
      obtain ⟨key, value1⟩ := member
      rw [List.forall_mem_cons] at h
      obtain ⟨value2, hlookup, hequal⟩ := h.1
      rw [jsonObjectEqual, jsonObjectGet_lookup, hlookup, ih h.2]
      dsimp only
      rw [hequal]
      rfl

theorem jsonEqual_arranged (hchain : Chains chain) (flags : UInt64) {value : Json}
    (h : WellFormed (PrintsBack snprintf strtod) value) (place : List Nat) :
    jsonEqual value (arranged chain flags place value) = true := by
  induction value using json_induction generalizing place with
  | null => rfl
  | bool value => simp [arranged, jsonEqual]
  | integer value => simp [arranged, jsonEqual]
  | real value => simp [arranged, jsonEqual, doubleEqual, h.2]
  | string value => simp [arranged, jsonEqual]
  | array elements ih =>
      have helements := (elementsWellFormed_iff elements).mp h.2
      have hequal : ∀ i, elements.length = (arrangedElements chain flags place i elements).length ∧
          jsonArrayEqual elements (arrangedElements chain flags place i elements) = true := by
        clear h
        induction elements with
        | nil =>
            intro i
            rw [arrangedElements, jsonArrayEqual]
            · exact ⟨rfl, rfl⟩
            · intro _ _ _ _ heq
              cases heq
        | cons element elements ihElements =>
            intro i
            rw [List.forall_mem_cons] at ih helements
            obtain ⟨hlength, hrest⟩ := ihElements ih.2 helements.2 (i + 1)
            rw [arrangedElements, jsonArrayEqual, ih.1 helements.1, hrest]
            exact ⟨congrArg (· + 1) hlength, rfl⟩
      rw [arranged, jsonEqual, (hequal 0).2, ← (hequal 0).1]
      simp
  | object members ih =>
      obtain ⟨hnodup, hmembers⟩ := h
      rw [membersWellFormed_iff] at hmembers
      have hperm := dumpedKeys_perm hchain flags place (members.map (·.1))
      have hlookup : ∀ key ∈ members.map (·.1), ∃ value,
          (arrangedMembers chain flags place 0 members).lookup key = some value := by
        intro key hkey
        obtain ⟨member, hmem, rfl⟩ := List.mem_map.mp hkey
        obtain ⟨j, hj⟩ := @lookup_arrangedMembers chain flags place members hnodup _ _ hmem 0
        exact ⟨_, hj⟩
      have hlength : ∀ keys : List CStr, (∀ key ∈ keys, key ∈ members.map (·.1)) →
          (keys.filterMap fun key => ((arrangedMembers chain flags place 0 members).lookup key).map
            (key, ·)).length = keys.length := by
        intro keys hkeys
        induction keys with
        | nil => rfl
        | cons key keys ihKeys =>
            rw [List.forall_mem_cons] at hkeys
            obtain ⟨value, hvalue⟩ := hlookup key hkeys.1
            rw [List.filterMap_cons, hvalue]
            dsimp only [Option.map_some]
            rw [List.length_cons, List.length_cons, ihKeys hkeys.2]
      rw [arranged, jsonEqual, hlength _ fun key hkey => hperm.subset hkey, hperm.length_eq,
        List.length_map, beq_self_eq_true, Bool.true_and]
      refine jsonObjectEqual_of_forall fun member hmem => ?_
      have hkey : member.1 ∈ members.map (·.1) := List.mem_map_of_mem hmem
      obtain ⟨j, hj⟩ := @lookup_arrangedMembers chain flags place members hnodup _ _ hmem 0
      exact ⟨_, (lookup_filterMap _ (hperm.symm.subset hkey)).trans hj,
        ih member hmem (hmembers member hmem).2 _⟩

/-! With the order preserved nothing moves. -/

theorem filterMap_lookup {members : List (CStr × Json)} (hnodup : (members.map (·.1)).Nodup) :
    (members.map (·.1)).filterMap (fun key => (members.lookup key).map (key, ·)) = members := by
  induction members with
  | nil => rfl
  | cons member members ih =>
      obtain ⟨first, value⟩ := member
      rw [List.map_cons, List.nodup_cons] at hnodup
      have hrest : (members.map (·.1)).filterMap
          (fun key => (((first, value) :: members).lookup key).map (key, ·)) =
          (members.map (·.1)).filterMap (fun key => (members.lookup key).map (key, ·)) := by
        refine List.filterMap_congr fun key hkey => ?_
        have hne : (key == first) = false := by
          refine beq_false_of_ne ?_
          rintro rfl
          exact hnodup.1 hkey
        rw [List.lookup_cons, hne]
      rw [List.map_cons, List.filterMap_cons, List.lookup_cons_self, hrest, ih hnodup.2]
      rfl

theorem arranged_preserved {flags : UInt64} (hsort : jsonSortKeys flags = false)
    (hpreserve : jsonPreserveOrder flags = true) {value : Json}
    (h : WellFormed (PrintsBack snprintf strtod) value) (place : List Nat) :
    arranged chain flags place value = value := by
  induction value using json_induction generalizing place with
  | null => rfl
  | bool value => rfl
  | integer value => rfl
  | real value => rfl
  | string value => rfl
  | array elements ih =>
      have helements := (elementsWellFormed_iff elements).mp h.2
      have hsame : ∀ i, arrangedElements chain flags place i elements = elements := by
        clear h
        induction elements with
        | nil => exact fun _ => rfl
        | cons element elements ihElements =>
            intro i
            rw [List.forall_mem_cons] at ih helements
            rw [arrangedElements, ih.1 helements.1, ihElements ih.2 helements.2]
      rw [arranged, hsame]
  | object members ih =>
      obtain ⟨hnodup, hmembers⟩ := h
      rw [membersWellFormed_iff] at hmembers
      have hsame : ∀ i, arrangedMembers chain flags place i members = members := by
        clear hnodup
        induction members with
        | nil => exact fun _ => rfl
        | cons member members ihMembers =>
            intro i
            obtain ⟨key, value⟩ := member
            rw [List.forall_mem_cons] at ih hmembers
            rw [arrangedMembers, ih.1 hmembers.1.2, ihMembers ih.2 hmembers.2]
      rw [arranged, hsame, dumpedKeys, if_neg (by rw [hsort]; exact Bool.false_ne_true),
        if_pos hpreserve, filterMap_lookup hnodup]

theorem jsonEqual_self {value : Json} (h : WellFormed (PrintsBack snprintf strtod) value) :
    jsonEqual value value = true := by
  have hequal := @jsonEqual_arranged snprintf strtod (fun _ keys => keys)
    (fun _ keys => List.Perm.refl keys) 0x100 value h []
  rwa [arranged_preserved rfl rfl h] at hequal

/-! `json_dumps` and `json_loads`. -/

/-- `json_is_array` or `json_is_object` -/
def isContainer : Json → Bool
  | .array _ => true
  | .object _ => true
  | _ => false

/-- The first byte of what is written for an array or an object. -/
theorem doDump_container {flags : UInt64} {place : List Nat} {value : Json}
    (hroot : isContainer value = true) {text : CStr}
    (h : doDump snprintf chain flags place value = some text) :
    ∃ c rest, text = c :: rest ∧ (c = 91 ∨ c = 123) := by
  cases value with
  | array elements =>
      rw [doDump] at h
      split at h
      · cases h
        exact ⟨_, _, rfl, Or.inl rfl⟩
      · obtain ⟨items, -, rfl⟩ := Option.map_eq_some_iff.mp h
        exact ⟨_, _, rfl, Or.inl rfl⟩
  | object members =>
      rw [doDump] at h
      split at h
      · cases h
        exact ⟨_, _, rfl, Or.inr rfl⟩
      · obtain ⟨items, -, rfl⟩ := Option.map_eq_some_iff.mp h
        exact ⟨_, _, rfl, Or.inr rfl⟩
  | _ => cases hroot

theorem jsonLoads_written {flags : UInt64} {text : CStr} {value : Json}
    (h : Written strtod flags text value)
    (hroot : ∃ c rest, text = c :: rest ∧ (c = 91 ∨ c = 123)) :
    jsonLoads strtod text = some value := by
  obtain ⟨least, hleast⟩ := h.reads
  have hparsed := hleast (max least (2 * text.length)) (Nat.le_max_left _ _) []
    fun c hc => absurd hc (by simp)
  rw [List.append_nil, ParsesAt] at hparsed
  have hopen : ∃ c, (lexScan strtod .eof text).1 = .punct c ∧ (c = 91 ∨ c = 123) := by
    obtain ⟨c, rest, rfl, rfl | rfl⟩ := hroot
    · exact ⟨91, rfl, Or.inl rfl⟩
    · exact ⟨123, rfl, Or.inr rfl⟩
  obtain ⟨c, htoken, hc⟩ := hopen
  rw [parseJson_fuel rfl (Nat.le_max_right _ _) (by rw [htoken]; exact Nat.le_refl 1)] at hparsed
  have hfirst : (lexScan strtod .eof text).1 = .punct 91 ∨
      (lexScan strtod .eof text).1 = .punct 123 := by
    rw [htoken]
    rcases hc with rfl | rfl
    · exact Or.inl rfl
    · exact Or.inr rfl
  have hend : (lexScan strtod .eof []).1 = .eof := rfl
  rw [jsonLoads, stream_fst h.utf8, h.utf8, if_pos rfl, parseJson, if_pos hfirst, hparsed]
  dsimp only
  rw [if_pos hend]

/-- What is written for an array or an object reads as the value with its members in the order in
which they were written. -/
theorem jsonDumps_read (hchain : Chains chain) (flags : UInt64) {value : Json}
    (h : WellFormed (PrintsBack snprintf strtod) value) (hroot : isContainer value = true) :
    ∃ text, jsonDumps snprintf chain flags value = some text ∧
      jsonLoads strtod text = some (arranged chain flags [] value) ∧
      (jsonIndent flags = 0 → 10 ∉ text) := by
  obtain ⟨text, htext, hwritten⟩ := doDump_written hchain flags h []
  have hdumps : jsonDumps snprintf chain flags value = some text := by
    rw [jsonDumps, jsonDumpCallback.eq_def]
    cases value with
    | array elements => exact htext
    | object members => exact htext
    | _ => cases hroot
  refine ⟨text, hdumps, jsonLoads_written hwritten (doDump_container hroot htext),
    fun hindent hmem => ?_⟩
  exact absurd (hwritten.line hindent 10 hmem) (by decide)

/-- What `json_dumps` writes for an array or an object, `json_loads` reads back as an equal value,
whatever the flags and the order of the hash tables; with `JSON_PRESERVE_ORDER` it is the very
value, and without `JSON_INDENT` the text is one line. -/
theorem jsonLoads_jsonDumps (hchain : Chains chain) (flags : UInt64) {value : Json}
    (h : WellFormed (PrintsBack snprintf strtod) value) (hroot : isContainer value = true) :
    ∃ text read, jsonDumps snprintf chain flags value = some text ∧
      jsonLoads strtod text = some read ∧ jsonEqual value read = true ∧
      (jsonSortKeys flags = false → jsonPreserveOrder flags = true → read = value) ∧
      (jsonIndent flags = 0 → 10 ∉ text) := by
  obtain ⟨text, htext, hread, hline⟩ := jsonDumps_read hchain flags h hroot
  exact ⟨text, _, htext, hread, jsonEqual_arranged hchain flags h [],
    fun hsort hpreserve => arranged_preserved hsort hpreserve h [], hline⟩

end

/-! One half, the only real that is printed and read. -/

def half : Double := ⟨0x3fe0000000000000⟩

def printHalf (_ : Double) : CStr := cstr "0.5"

def readHalf (text : CStr) : Option Double := if text = cstr "0.5" then some half else none

theorem printed_half : Printed printHalf readHalf half where
  shape := ⟨⟨false, [48], [53], none⟩, ⟨⟨by decide, by decide, fun _ => rfl⟩, by decide,
    fun _ h => absurd h (by simp)⟩, rfl⟩
  reads := by decide

/-- A value with a real, a key that is not ASCII and an array. -/
def halfValue : Json :=
  .object [(cstr "id", .real half), ([0xc3, 0xa9, 10], .array [.integer (-7), .null])]

theorem wellFormed_halfValue : WellFormed (PrintsBack printHalf readHalf) halfValue :=
  ⟨by decide, ⟨⟨rfl, by decide⟩, printed_half, by decide⟩,
    ⟨⟨rfl, by decide⟩, by decide, ⟨by decide, by decide⟩, trivial, trivial⟩, trivial⟩

theorem jsonLoads_jsonDumps_half :
    ∃ text read, jsonDumps printHalf (fun _ keys => keys.reverse) 0x43 halfValue = some text ∧
      jsonLoads readHalf text = some read ∧ jsonEqual halfValue read = true ∧
      (jsonSortKeys 0x43 = false → jsonPreserveOrder 0x43 = true → read = halfValue) ∧
      (jsonIndent 0x43 = 0 → 10 ∉ text) :=
  jsonLoads_jsonDumps (fun _ keys => keys.reverse_perm) 0x43 wellFormed_halfValue rfl

end SojCivicLight.Jansson
