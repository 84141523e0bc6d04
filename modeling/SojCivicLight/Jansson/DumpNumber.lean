import Mathlib.Data.List.TakeWhile
import SojCivicLight.Jansson.DumpString

/-! A number that is written is read back, and nothing after it. -/

namespace SojCivicLight.Jansson

open SojCivicLight.Stratum

/-- What comes after a number or a word ends it. -/
def Ends (rest : CStr) : Prop :=
  ∀ c ∈ rest.head?, lIsDigit c = false ∧ lIsAlpha c = false ∧ c ≠ 46

theorem ends_cons {c : UInt8} (h : lIsDigit c = false ∧ lIsAlpha c = false ∧ c ≠ 46)
    (rest : CStr) : Ends (c :: rest) := by
  intro b hb
  cases hb
  exact h

/-! Runs of digits. -/

def Digits (s : CStr) : Prop := ∀ c ∈ s, lIsDigit c = true

instance (s : CStr) : Decidable (Digits s) := List.decidableBAll _ s

theorem Digits.takeWhile {s : CStr} (h : Digits s) {rest : CStr}
    (hrest : ∀ c ∈ rest.head?, lIsDigit c = false) :
    (s ++ rest).takeWhile lIsDigit = s ∧ (s ++ rest).dropWhile lIsDigit = rest := by
  rw [List.takeWhile_append_of_pos h, List.dropWhile_append_of_pos h]
  cases rest with
  | nil => exact ⟨List.append_nil s, rfl⟩
  | cons c rest =>
      have hc := hrest c rfl
      rw [List.takeWhile_cons_of_neg (by rw [hc]; exact Bool.false_ne_true),
        List.dropWhile_cons_of_neg (by rw [hc]; exact Bool.false_ne_true)]
      exact ⟨List.append_nil s, rfl⟩

theorem decimalText_digits (n : Nat) : Digits (decimalText n) := by
  intro c hc
  obtain ⟨digit, hdigit, rfl⟩ := List.mem_map.mp hc
  have h := Nat.isDigit_of_mem_toDigits (by decide) (by decide) hdigit
  simp only [Char.isDigit, Bool.and_eq_true, decide_eq_true_eq, UInt32.le_iff_toNat_le] at h
  simp only [lIsDigit, Bool.and_eq_true, decide_eq_true_eq, UInt8.le_iff_toNat_le]
  have hnat : digit.toNat.toUInt8.toNat = digit.toNat := by
    have : digit.toNat ≤ 57 := h.2
    exact Nat.mod_eq_of_lt (by omega)
  rw [hnat]
  exact h

theorem decimal_decimalText (n : Nat) : decimal (decimalText n) = n := by
  have hdigit : ∀ digit ∈ Nat.toDigits 10 n, digit.toNat.toUInt8.toNat = digit.toNat := by
    intro digit hdigit
    have h := Nat.isDigit_of_mem_toDigits (by decide) (by decide) hdigit
    simp only [Char.isDigit, Bool.and_eq_true, decide_eq_true_eq, UInt32.le_iff_toNat_le] at h
    have : digit.toNat ≤ 57 := h.2
    exact Nat.mod_eq_of_lt (by omega)
  have hfold : ∀ (digits : List Char) (init : Nat),
      (∀ digit ∈ digits, digit.toNat.toUInt8.toNat = digit.toNat) →
      (digits.map fun c => c.toNat.toUInt8).foldl (fun n c => 10 * n + (c.toNat - 48)) init =
        Nat.ofDigitChars 10 digits init := by
    intro digits init h
    induction digits generalizing init with
    | nil => rfl
    | cons digit digits ih =>
        rw [List.forall_mem_cons] at h
        rw [List.map_cons, List.foldl_cons, h.1, ih _ h.2, Nat.ofDigitChars_cons]
        rfl
  rw [decimal, decimalText, hfold _ _ hdigit, Nat.ofDigitChars_ten_toDigits]

/-- A number is written without leading zeros. -/
theorem decimalText_zero_or (n : Nat) :
    n = 0 ∧ decimalText n = [48] ∨ ∃ c rest, decimalText n = c :: rest ∧ c ≠ 48 := by
  induction n using Nat.strong_induction_on with
  | h n ih =>
      rw [decimalText, Nat.toDigits_eq_if (by decide)]
      split
      · rename_i hlt
        rcases Nat.eq_zero_or_pos n with rfl | hpos
        · exact Or.inl ⟨rfl, rfl⟩
        · refine Or.inr ⟨_, _, rfl, ?_⟩
          have hdigit : ∀ d : Fin 10, d.val ≠ 0 → (Nat.digitChar d).toNat.toUInt8 ≠ 48 := by decide
          exact hdigit ⟨n, hlt⟩ (Nat.ne_of_gt hpos)
      · rename_i hge
        rcases ih (n / 10) (by omega) with ⟨hzero, -⟩ | ⟨c, rest, htext, hc⟩
        · omega
        · rw [decimalText] at htext
          rw [List.map_append, htext]
          exact Or.inr ⟨c, _, rfl, hc⟩

/-! Integers. -/

section

variable {strtod : CStr → Option Double} {atEnd : Token}

theorem scanFraction_ends (text : CStr) {rest : CStr} (h : Ends rest) :
    scanFraction strtod text rest = (scanInteger text, rest) := by
  cases rest with
  | nil => rfl
  | cons c rest =>
      obtain ⟨-, halpha, hpoint⟩ := h c rfl
      have hexp : (c == 69 || c == 101) = false := by
        revert halpha
        clear hpoint h
        revert c
        apply Util.forall_byte
        decide +kernel
      rw [scanFraction, if_neg (by simpa using hpoint),
        if_neg (by rw [hexp]; exact Bool.false_ne_true)]

theorem scanExponent_ends (text : CStr) {rest : CStr} (h : Ends rest) :
    scanExponent strtod text rest = (scanReal strtod text, rest) := by
  cases rest with
  | nil => rfl
  | cons c rest =>
      obtain ⟨-, halpha, hpoint⟩ := h c rfl
      have hexp : (c == 69 || c == 101) = false := by
        revert halpha
        clear hpoint h
        revert c
        apply Util.forall_byte
        decide +kernel
      rw [scanExponent, if_neg (by rw [hexp]; exact Bool.false_ne_true)]

/-- The digits before the point or the exponent: none of them leads with a zero. -/
structure Whole (whole : CStr) : Prop where
  digits : Digits whole
  nonempty : whole ≠ []
  zero : whole.head? = some 48 → whole = [48]

/-- The sign and the first digits of a number are scanned before anything else. -/
theorem lexScanNumber_whole {sign whole rest : CStr} (hsign : sign = [] ∨ sign = [45])
    (h : Whole whole) (hrest : ∀ c ∈ rest.head?, lIsDigit c = false) :
    lexScanNumber strtod (sign ++ (whole ++ rest)) = scanFraction strtod (sign ++ whole) rest := by
  obtain ⟨digits, nonempty, zero⟩ := h
  obtain ⟨d, ds, rfl⟩ := List.exists_cons_of_ne_nil nonempty
  have hd : lIsDigit d = true := digits d List.mem_cons_self
  have hminus : d ≠ 45 := by
    rintro rfl
    cases hd
  have htake : (sign ++ (d :: ds ++ rest)).take
      (if (sign ++ (d :: ds ++ rest)).head? = some 45 then 1 else 0) = sign := by
    rcases hsign with rfl | rfl
    · rw [List.nil_append, List.cons_append, List.head?_cons, if_neg (by simpa using hminus)]
      rfl
    · rfl
  obtain ⟨htakeWhile, hdropWhile⟩ := digits.takeWhile hrest
  rw [lexScanNumber, htake, List.drop_left]
  by_cases hzero : d = 48
  · subst hzero
    obtain rfl : ds = [] := by simpa using zero rfl
    have hhead : rest.head?.any lIsDigit = false := by
      cases rest with
      | nil => rfl
      | cons c rest => exact hrest c rfl
    change (if rest.head?.any lIsDigit = true then _ else _) = _
    rw [hhead]
    rfl
  · rw [List.cons_append] at htakeWhile hdropWhile ⊢
    split
    · rename_i heq
      cases heq
      exact absurd rfl hzero
    · rw [htakeWhile, hdropWhile]
      rfl

theorem lexScan_number {sign whole rest : CStr} (hsign : sign = [] ∨ sign = [45])
    (h : Whole whole) : lexScan strtod atEnd (sign ++ (whole ++ rest)) =
      lexScanNumber strtod (sign ++ (whole ++ rest)) := by
  obtain ⟨d, ds, rfl⟩ := List.exists_cons_of_ne_nil h.nonempty
  have hd : lIsDigit d = true := h.digits d List.mem_cons_self
  rcases hsign with rfl | rfl
  · clear h
    rw [List.nil_append, List.cons_append]
    have hclass : ((d == 32 || d == 9 || d == 10 || d == 13) = false) ∧
        (d == 123 || d == 125 || d == 91 || d == 93 || d == 58 || d == 44) = false ∧
        (d == 34) = false := by
      revert hd
      revert d
      apply Util.forall_byte
      decide +kernel
    rw [lexScan, List.dropWhile_cons_of_neg (by rw [hclass.1]; exact Bool.false_ne_true)]
    dsimp only
    rw [hclass.2.1, hclass.2.2, hd]
    rfl
  · rfl

theorem scanInteger_integerText {n : Int} (h : -2 ^ 63 ≤ n ∧ n < 2 ^ 63) :
    scanInteger (integerText n) = .integer n := by
  have hvalue : strtoll (integerText n) = n := by
    rw [integerText]
    split
    · rw [strtoll, decimal_decimalText]
      omega
    · have hpos : strtoll (decimalText n.natAbs) = decimal (decimalText n.natAbs) := by
        rcases hdigits : decimalText n.natAbs with _ | ⟨c, rest⟩
        · rfl
        · have hc : lIsDigit c = true :=
            decimalText_digits n.natAbs c (by rw [hdigits]; exact List.mem_cons_self)
          unfold strtoll
          split
          · rename_i heq
            obtain ⟨rfl, -⟩ := List.cons.inj heq
            cases hc
          · rfl
      rw [hpos, decimal_decimalText]
      omega
  rw [scanInteger, hvalue, if_pos h]

theorem whole_decimalText (n : Nat) : Whole (decimalText n) where
  digits := decimalText_digits n
  nonempty := by
    rcases decimalText_zero_or n with ⟨-, htext⟩ | ⟨c, rest, htext, -⟩
    · simp [htext]
    · simp [htext]
  zero := by
    rcases decimalText_zero_or n with ⟨-, htext⟩ | ⟨c, rest, htext, hc⟩
    · exact fun _ => htext
    · rw [htext, List.head?_cons, Option.some.injEq]
      exact fun h => absurd h hc

theorem lexScan_integerText {n : Int} (h : -2 ^ 63 ≤ n ∧ n < 2 ^ 63) {rest : CStr}
    (hrest : Ends rest) : lexScan strtod atEnd (integerText n ++ rest) = (.integer n, rest) := by
  obtain ⟨sign, hsign, htext⟩ : ∃ sign, (sign = [] ∨ sign = [45]) ∧
      integerText n = sign ++ decimalText n.natAbs := by
    rw [integerText]
    split
    · exact ⟨[45], Or.inr rfl, rfl⟩
    · exact ⟨[], Or.inl rfl, rfl⟩
  have hwhole := whole_decimalText n.natAbs
  have hinteger := scanInteger_integerText h
  rw [htext] at hinteger ⊢
  rw [List.append_assoc, lexScan_number hsign hwhole,
    lexScanNumber_whole hsign hwhole fun c hc => (hrest c hc).1, scanFraction_ends _ hrest,
    hinteger]

/-! Reals. -/

/-- A run of digits that is not empty, after a mark of its own. -/
structure Marked (mark part run : CStr) : Prop where
  text : part = mark ++ run
  digits : Digits run
  nonempty : run ≠ []

/-- The parts of a real: it has a fraction or an exponent. -/
structure RealText (sign whole point power : CStr) : Prop where
  signed : sign = [] ∨ sign = [45]
  digits : Whole whole
  fraction : point = [] ∨ ∃ run, Marked [46] point run
  exponent : power = [] ∨ ∃ run, Marked [101] power run ∨ Marked [101, 45] power run
  real : point ≠ [] ∨ power ≠ []

theorem Digits.head {s : CStr} (h : Digits s) {p : UInt8 → Prop}
    (hp : ∀ c, lIsDigit c = true → p c) :
    ∀ c ∈ s.head?, p c := fun c hc => hp c (h c (List.mem_of_mem_head? hc))

theorem scanExponent_marked (text : CStr) {power digits rest : CStr}
    (h : Marked [101] power digits ∨ Marked [101, 45] power digits) (hrest : Ends rest) :
    scanExponent strtod text (power ++ rest) = (scanReal strtod (text ++ power), rest) := by
  have hends : ∀ c ∈ rest.head?, lIsDigit c = false := fun c hc => (hrest c hc).1
  rcases h with ⟨rfl, hdigits, hnonempty⟩ | ⟨rfl, hdigits, hnonempty⟩
  · obtain ⟨htake, hdrop⟩ := hdigits.takeWhile hends
    obtain ⟨d, ds, rfl⟩ := List.exists_cons_of_ne_nil hnonempty
    have hd : d ≠ 43 ∧ d ≠ 45 := by
      have hdigit := hdigits d List.mem_cons_self
      constructor
      · rintro rfl
        cases hdigit
      · rintro rfl
        cases hdigit
    have hsign : (d :: ds ++ rest).take (if (d :: ds ++ rest).head? = some 43 ∨
        (d :: ds ++ rest).head? = some 45 then 1 else 0) = [] := by
      rw [List.cons_append, List.head?_cons, if_neg (by simpa using hd)]
      rfl
    rw [List.append_assoc, List.cons_append, List.nil_append, scanExponent, if_pos (by decide)]
    simp only [hsign, List.length_nil, List.drop_zero, htake, hdrop, List.isEmpty_cons,
      Bool.false_eq_true, if_false, List.append_assoc]
  · obtain ⟨htake, hdrop⟩ := hdigits.takeWhile hends
    have hsign : (45 :: (digits ++ rest)).take (if (45 :: (digits ++ rest)).head? = some 43 ∨
        (45 :: (digits ++ rest)).head? = some 45 then 1 else 0) = [45] := rfl
    have hempty : digits.isEmpty = false := by simpa using hnonempty
    have hpower : [101, 45] ++ digits ++ rest = 101 :: 45 :: (digits ++ rest) := rfl
    rw [hpower, scanExponent, if_pos (by decide)]
    simp only [hsign, List.length_singleton, List.drop_succ_cons, List.drop_zero, htake, hdrop,
      hempty, Bool.false_eq_true, if_false, List.append_assoc, List.cons_append, List.nil_append]

/-- A real is scanned to its end. -/
theorem lexScan_realText {sign whole point power rest : CStr}
    (h : RealText sign whole point power) (hrest : Ends rest) :
    lexScan strtod atEnd (sign ++ (whole ++ (point ++ power)) ++ rest) =
      (scanReal strtod (sign ++ (whole ++ (point ++ power))), rest) := by
  obtain ⟨hsign, hwhole, hpoint, hpower, hreal⟩ := h
  have hmark : ∀ c ∈ (power ++ rest).head?, lIsDigit c = false := by
    rcases hpower with rfl | ⟨digits, ⟨rfl, -, -⟩ | ⟨rfl, -, -⟩⟩
    · exact fun c hc => (hrest c hc).1
    · intro c hc
      cases hc
      rfl
    · intro c hc
      cases hc
      rfl
  have hpowers : ∀ text, scanExponent strtod text (power ++ rest) =
      (scanReal strtod (text ++ power), rest) := by
    intro text
    rcases hpower with rfl | ⟨digits, hpower⟩
    · rw [List.nil_append, List.append_nil, scanExponent_ends text hrest]
    · exact scanExponent_marked text hpower hrest
  rw [List.append_assoc, List.append_assoc, List.append_assoc, lexScan_number hsign hwhole]
  rcases hpoint with rfl | ⟨digits, rfl, hdigits, hnonempty⟩
  · rw [List.nil_append, lexScanNumber_whole hsign hwhole hmark, List.nil_append]
    rcases hpower with rfl | ⟨digits, hpower⟩
    · exact absurd rfl (hreal.resolve_left fun h => h rfl)
    · obtain ⟨after, hafter⟩ : ∃ after, power ++ rest = 101 :: after := by
        rcases hpower with ⟨rfl, -, -⟩ | ⟨rfl, -, -⟩
        · exact ⟨_, rfl⟩
        · exact ⟨_, rfl⟩
      have hexponent : scanFraction strtod (sign ++ whole) (power ++ rest) =
          scanExponent strtod (sign ++ whole) (power ++ rest) := by
        rw [hafter]
        rfl
      rw [hexponent, hpowers, List.append_assoc]
  · obtain ⟨htake, hdrop⟩ := hdigits.takeWhile hmark
    rw [lexScanNumber_whole hsign hwhole (by
      intro c hc
      cases hc
      rfl)]
    have hpoint : [46] ++ digits ++ (power ++ rest) = 46 :: (digits ++ (power ++ rest)) := rfl
    rw [hpoint, scanFraction, if_pos (by decide), htake, hdrop, if_neg (by simpa using hnonempty),
      hpowers]
    simp

end

theorem Digits.printable {s : CStr} (h : Digits s) : ∀ c ∈ s, 0x1f < c ∧ c < 0x80 := by
  intro c hc
  have hdigit := h c hc
  revert hdigit
  clear hc
  revert c
  apply Util.forall_byte
  decide +kernel

theorem RealText.printable {sign whole point power : CStr} (h : RealText sign whole point power) :
    ∀ c ∈ sign ++ (whole ++ (point ++ power)), 0x1f < c ∧ c < 0x80 := by
  obtain ⟨hsign, hwhole, hpoint, hpower, -⟩ := h
  simp only [List.forall_mem_append]
  refine ⟨?_, hwhole.digits.printable, ?_, ?_⟩
  · rcases hsign with rfl | rfl
    · exact fun c hc => absurd hc List.not_mem_nil
    · exact List.all_iff_forall_prop.mp (by decide)
  · rcases hpoint with rfl | ⟨digits, rfl, hdigits, -⟩
    · exact fun c hc => absurd hc List.not_mem_nil
    · exact List.forall_mem_append.mpr ⟨List.all_iff_forall_prop.mp (by decide), hdigits.printable⟩
  · rcases hpower with rfl | ⟨digits, ⟨rfl, hdigits, -⟩ | ⟨rfl, hdigits, -⟩⟩
    · exact fun c hc => absurd hc List.not_mem_nil
    · exact List.forall_mem_append.mpr ⟨List.all_iff_forall_prop.mp (by decide), hdigits.printable⟩
    · exact List.forall_mem_append.mpr ⟨List.all_iff_forall_prop.mp (by decide), hdigits.printable⟩

/-! What is printed for a real. -/

/-- The shape of what `%.17g` prints for a finite number. -/
structure PrintedReal where
  negative : Bool
  whole : CStr
  fraction : CStr
  exponent : Option (Bool × CStr)

namespace PrintedReal

def sign (p : PrintedReal) : CStr := if p.negative then [45] else []

def point (p : PrintedReal) : CStr := if p.fraction = [] then [] else 46 :: p.fraction

def power (p : PrintedReal) : CStr :=
  match p.exponent with
  | none => []
  | some (negative, digits) => 101 :: (if negative then 45 else 43) :: digits

def text (p : PrintedReal) : CStr := p.sign ++ (p.whole ++ (p.point ++ p.power))

structure Wf (p : PrintedReal) : Prop where
  whole : Whole p.whole
  fraction : Digits p.fraction
  exponent : ∀ e ∈ p.exponent, Digits e.2 ∧ ∃ c ∈ e.2, c ≠ 48

end PrintedReal

/-- What is known of how a real is printed and read: the shape of the text, and that it fits into
the buffer of `do_dump` and has the same value after the sign and the zeros of the exponent are
gone. -/
structure Printed (snprintf : Double → CStr) (strtod : CStr → Option Double) (x : Double) :
    Prop where
  shape : ∃ p : PrintedReal, p.Wf ∧ snprintf x = p.text
  reads : (jsonpDtostr maxRealStrLength (snprintf x)).bind strtod = some x

namespace PrintedReal

/-- The fraction and the exponent after `jsonp_dtostr` has gone over them. -/
def dumpedPoint (p : PrintedReal) : CStr :=
  if p.fraction = [] ∧ p.exponent = none then [46, 48] else p.point

def dumpedPower (p : PrintedReal) : CStr :=
  match p.exponent with
  | none => []
  | some (negative, digits) =>
      101 :: (if negative then [45] else []) ++ digits.dropWhile (· == 48)

end PrintedReal

theorem Digits.not_mark {s : CStr} (h : Digits s) : 46 ∉ s ∧ 101 ∉ s ∧ 45 ∉ s := by
  refine ⟨fun hmem => ?_, fun hmem => ?_, fun hmem => ?_⟩
  · cases h _ hmem
  · cases h _ hmem
  · cases h _ hmem

theorem PrintedReal.sign_cases (p : PrintedReal) : p.sign = [] ∨ p.sign = [45] := by
  rw [sign]
  split
  · exact Or.inr rfl
  · exact Or.inl rfl

theorem PrintedReal.before_power {p : PrintedReal} (h : p.Wf) :
    101 ∉ p.sign ++ (p.whole ++ p.point) := by
  have hsign : 101 ∉ p.sign := by
    rcases p.sign_cases with hsign | hsign
    · simp [hsign]
    · simp [hsign]
  have hpoint : 101 ∉ p.point := by
    rw [point]
    split
    · exact List.not_mem_nil
    · simpa using h.fraction.not_mark.2.1
  simp only [List.mem_append, not_or]
  exact ⟨hsign, h.whole.digits.not_mark.2.1, hpoint⟩

theorem takeWhile_ne {a : UInt8} {s : CStr} (h : a ∉ s) (rest : CStr) :
    (s ++ a :: rest).takeWhile (· != a) = s ∧ (s ++ a :: rest).dropWhile (· != a) = a :: rest := by
  have hne : ∀ c ∈ s, (c != a) = true := by
    intro c hc
    rw [bne_iff_ne]
    rintro rfl
    exact h hc
  rw [List.takeWhile_append_of_pos hne, List.dropWhile_append_of_pos hne]
  simp

theorem jsonpDtostr_eq_some {size : Nat} {printed text : CStr}
    (h : jsonpDtostr size printed = some text) :
    text =
      shortExponent (if 46 ∈ printed ∨ 101 ∈ printed then printed else printed ++ [46, 48]) := by
  rw [jsonpDtostr] at h
  split at h
  · cases h
  · split at h
    · rename_i hmark
      rw [if_pos hmark]
      exact (Option.some.inj h).symm
    · rename_i hmark
      rw [if_neg hmark]
      split at h
      · cases h
      · exact (Option.some.inj h).symm

/-- What is written for a printed real. -/
theorem jsonpDtostr_text {p : PrintedReal} (h : p.Wf) {size : Nat} {text : CStr}
    (hdump : jsonpDtostr size p.text = some text) :
    text = p.sign ++ (p.whole ++ (p.dumpedPoint ++ p.dumpedPower)) := by
  have hbefore := PrintedReal.before_power h
  have htext : p.text = p.sign ++ (p.whole ++ p.point) ++ p.power := by
    simp only [PrintedReal.text, List.append_assoc]
  rw [jsonpDtostr_eq_some hdump, shortExponent, PrintedReal.dumpedPoint, PrintedReal.dumpedPower]
  cases hexponent : p.exponent with
  | none =>
      have hpower : p.power = [] := by
        rw [PrintedReal.power, hexponent]
      rw [htext, hpower, List.append_nil]
      have hdrop : ∀ s : CStr, 101 ∉ s → s.dropWhile (· != 101) = [] := by
        intro s hs
        rw [List.dropWhile_eq_nil_iff]
        intro c hc
        rw [bne_iff_ne]
        rintro rfl
        exact hs hc
      by_cases hfraction : p.fraction = []
      · have hpoint : p.point = [] := by rw [PrintedReal.point, if_pos hfraction]
        have hmarks : ¬ (46 ∈ p.sign ++ (p.whole ++ p.point) ∨
            101 ∈ p.sign ++ (p.whole ++ p.point)) := by
          rintro (hmem | hmem)
          · rw [hpoint, List.append_nil, List.mem_append] at hmem
            rcases hmem with hmem | hmem
            · rcases p.sign_cases with hsign | hsign
              · simp [hsign] at hmem
              · simp [hsign] at hmem
            · exact h.whole.digits.not_mark.1 hmem
          · exact hbefore hmem
        rw [if_neg hmarks, if_pos ⟨hfraction, rfl⟩, hdrop _ (by
          rw [List.mem_append, not_or]
          exact ⟨hbefore, by decide⟩)]
        simp [hpoint]
      · have hpoint : p.point = 46 :: p.fraction := by rw [PrintedReal.point, if_neg hfraction]
        have hmark : 46 ∈ p.sign ++ (p.whole ++ p.point) := by simp [hpoint]
        rw [if_pos (Or.inl hmark), if_neg (fun hboth => hfraction hboth.1), hdrop _ hbefore]
        simp
  | some exponent =>
      obtain ⟨negative, digits⟩ := exponent
      have hpower : p.power = 101 :: (if negative then 45 else 43) :: digits := by
        rw [PrintedReal.power, hexponent]
      obtain ⟨htake, hdrop⟩ := takeWhile_ne hbefore ((if negative then 45 else 43) :: digits)
      rw [htext, hpower, if_pos (Or.inr (by simp)), hdrop]
      dsimp only
      have hpoint : ¬ (p.fraction = [] ∧ some (negative, digits) = none) :=
        fun hboth => Option.some_ne_none _ hboth.2
      rw [htake, if_neg hpoint]
      cases negative with
      | true => simp
      | false => simp

theorem PrintedReal.realText {p : PrintedReal} (h : p.Wf) :
    RealText p.sign p.whole p.dumpedPoint p.dumpedPower where
  signed := p.sign_cases
  digits := h.whole
  fraction := by
    rw [dumpedPoint]
    split
    · exact Or.inr ⟨[48], rfl, by decide, by decide⟩
    · rw [point]
      split
      · exact Or.inl rfl
      · rename_i hfraction
        exact Or.inr ⟨p.fraction, rfl, h.fraction, hfraction⟩
  exponent := by
    rw [dumpedPower]
    cases hexponent : p.exponent with
    | none => exact Or.inl rfl
    | some exponent =>
        obtain ⟨negative, digits⟩ := exponent
        obtain ⟨hdigits, c, hc, hne⟩ := h.exponent _ hexponent
        have hrest : Digits (digits.dropWhile (· == 48)) :=
          fun c hc => hdigits c ((List.dropWhile_sublist _).subset hc)
        have hnonempty : digits.dropWhile (· == 48) ≠ [] := by
          rw [ne_eq, List.dropWhile_eq_nil_iff]
          exact fun hall => hne (by simpa using hall c hc)
        refine Or.inr ⟨digits.dropWhile (· == 48), ?_⟩
        cases negative with
        | true => exact Or.inr ⟨rfl, hrest, hnonempty⟩
        | false => exact Or.inl ⟨rfl, hrest, hnonempty⟩
  real := by
    by_cases hboth : p.fraction = [] ∧ p.exponent = none
    · exact Or.inl (by rw [dumpedPoint, if_pos hboth]; exact List.cons_ne_nil _ _)
    · rw [dumpedPoint, if_neg hboth, point, dumpedPower]
      rcases not_and_or.mp hboth with hfraction | hexponent
      · exact Or.inl (by rw [if_neg hfraction]; exact List.cons_ne_nil _ _)
      · obtain ⟨exponent, hexponent⟩ := Option.ne_none_iff_exists'.mp hexponent
        exact Or.inr (by rw [hexponent]; exact List.cons_ne_nil _ _)

section

variable {snprintf : Double → CStr} {strtod : CStr → Option Double} {atEnd : Token}

theorem lexScan_dtostr {x : Double} (h : Printed snprintf strtod x) {size : Nat} {text : CStr}
    (hdump : jsonpDtostr size (snprintf x) = some text) (hvalue : strtod text = some x)
    {rest : CStr} (hrest : Ends rest) : lexScan strtod atEnd (text ++ rest) = (.real x, rest) := by
  obtain ⟨p, hwf, htext⟩ := h.shape
  rw [htext] at hdump
  rw [jsonpDtostr_text hwf hdump] at hvalue ⊢
  rw [lexScan_realText (PrintedReal.realText hwf) hrest, scanReal, hvalue]

theorem printable_dtostr {x : Double} (h : Printed snprintf strtod x) {size : Nat} {text : CStr}
    (hdump : jsonpDtostr size (snprintf x) = some text) : ∀ c ∈ text, 0x1f < c ∧ c < 0x80 := by
  obtain ⟨p, hwf, htext⟩ := h.shape
  rw [htext] at hdump
  rw [jsonpDtostr_text hwf hdump]
  exact (PrintedReal.realText hwf).printable

theorem printable_integerText (n : Int) : ∀ c ∈ integerText n, 0x1f < c ∧ c < 0x80 := by
  rw [integerText]
  split
  · exact List.forall_mem_cons.mpr ⟨by decide, (decimalText_digits _).printable⟩
  · exact (decimalText_digits _).printable

end

end SojCivicLight.Jansson
