import SojCivicLight.Library.Lines
import SojCivicLight.Stratum.Context

/-! The lines sent to the pool.  `send_line` holds `sock_lock`, so that what one call writes is
not interleaved with another. -/

namespace SojCivicLight.Stratum

open SojCivicLight.Library

/-- What one turn of the send loop meets: no socket or none that can be written now, the bytes that
were taken, none for now, or an error. -/
inductive Send where
  | notReady
  | sent (n : Nat)
  | again
  | failed

/-- The bytes written, and what the loop returns, none when there are no more turns. -/
def sendLoop : List Send → List UInt8 → List UInt8 × Option Bool
  | _, [] => ([], some true)
  | [], _ :: _ => ([], none)
  | .notReady :: _, _ :: _ => ([], some false)
  | .failed :: _, _ :: _ => ([], some false)
  | .again :: turns, c :: s => sendLoop turns (c :: s)
  | .sent n :: turns, c :: s =>
      let more := sendLoop turns ((c :: s).drop n)
      ((c :: s).take n ++ more.1, more.2)

def sendLine (turns : List Send) (s : CStr) : List UInt8 × Option Bool :=
  sendLoop turns (s ++ [10])

theorem sendLoop_true {turns : List Send} {s : List UInt8}
    (h : (sendLoop turns s).2 = some true) : (sendLoop turns s).1 = s := by
  fun_induction sendLoop turns s with
  | case1 => rfl
  | case2 => cases h
  | case3 => cases h
  | case4 => cases h
  | case5 turns c s ih => exact ih h
  | case6 n turns c s more ih => rw [ih h, List.take_append_drop]

/-- A call that does not return true has not written all. -/
theorem sendLoop_part {turns : List Send} {s : List UInt8}
    (h : (sendLoop turns s).2 ≠ some true) :
    ∃ rest, rest ≠ [] ∧ s = (sendLoop turns s).1 ++ rest := by
  fun_induction sendLoop turns s with
  | case1 => exact absurd rfl h
  | case2 c s => exact ⟨c :: s, List.cons_ne_nil c s, rfl⟩
  | case3 _ c s => exact ⟨c :: s, List.cons_ne_nil c s, rfl⟩
  | case4 _ c s => exact ⟨c :: s, List.cons_ne_nil c s, rfl⟩
  | case5 turns c s ih => exact ih h
  | case6 n turns c s more ih =>
      obtain ⟨rest, hne, heq⟩ := ih h
      refine ⟨rest, hne, ?_⟩
      rw [List.append_assoc, ← heq, List.take_append_drop]

/-- A turn that takes bytes leaves fewer, so that a call ends when each of its turns does. -/
theorem sendLoop_ends {turns : List Send} {s : List UInt8} (hlen : s.length ≤ turns.length)
    (h : ∀ turn ∈ turns, ∃ n, 0 < n ∧ turn = .sent n) : (sendLoop turns s).2 = some true := by
  fun_induction sendLoop turns s with
  | case1 => rfl
  | case2 => cases hlen
  | case3 =>
      obtain ⟨n, -, hturn⟩ := h _ List.mem_cons_self
      cases hturn
  | case4 =>
      obtain ⟨n, -, hturn⟩ := h _ List.mem_cons_self
      cases hturn
  | case5 =>
      obtain ⟨n, -, hturn⟩ := h _ List.mem_cons_self
      cases hturn
  | case6 n turns c s more ih =>
      rw [List.forall_mem_cons] at h
      obtain ⟨⟨m, hpos, hturn⟩, hturns⟩ := h
      cases hturn
      refine ih ?_ hturns
      rw [List.length_cons, List.length_cons] at hlen
      rw [List.length_drop, List.length_cons]
      omega

/-! A run of calls. -/

/-- A call of `stratum_send_line`: its string and the turns that it meets. -/
structure SendCall where
  line : CStr
  turns : List Send

namespace SendCall

def written (call : SendCall) : List UInt8 := (sendLine call.turns call.line).1

def returned (call : SendCall) : Option Bool := (sendLine call.turns call.line).2

end SendCall

/-- The bytes that the calls on one connection put on the wire. -/
def wire (calls : List SendCall) : List UInt8 := calls.flatMap SendCall.written

/-- The lines that calls leave on the wire after the part of a line, and the part at the end: a call
that is cut short runs into the next one. -/
def linesOf : List UInt8 → List SendCall → List (List UInt8) × List UInt8
  | part, [] => ([], part)
  | part, call :: calls =>
      if call.returned = some true then
        let more := linesOf [] calls
        ((part ++ call.line) :: more.1, more.2)
      else linesOf (part ++ call.written) calls

theorem SendCall.written_true {call : SendCall} (h : call.returned = some true) :
    call.written = call.line ++ [10] := sendLoop_true h

theorem SendCall.written_part {call : SendCall} (hline : 10 ∉ call.line)
    (h : call.returned ≠ some true) : 10 ∉ call.written := by
  obtain ⟨rest, hne, heq⟩ := sendLoop_part h
  change call.line ++ [10] = call.written ++ rest at heq
  obtain ⟨init, last, rfl⟩ := List.eq_nil_or_concat rest |>.resolve_left hne
  rw [List.concat_eq_append, ← List.append_assoc] at heq
  obtain ⟨heq, -⟩ := List.append_inj' heq rfl
  rw [heq, List.mem_append, not_or] at hline
  exact hline.1

/-- What the pool makes of the wire when it cuts it into lines. -/
theorem cutAt_wire {calls : List SendCall} (h : ∀ call ∈ calls, 10 ∉ call.line)
    {part : List UInt8} (hpart : 10 ∉ part) :
    cutAt 10 (part ++ wire calls) = linesOf part calls := by
  induction calls generalizing part with
  | nil =>
      rw [wire, List.flatMap_nil, List.append_nil, linesOf]
      clear h
      induction part with
      | nil => rfl
      | cons a part ih =>
          obtain ⟨ha, hrest⟩ := List.ne_and_not_mem_of_not_mem_cons hpart
          rw [cutAt, ih hrest]
          exact if_neg (Ne.symm ha)
  | cons call calls ih =>
      rw [List.forall_mem_cons] at h
      have hwire : wire (call :: calls) = call.written ++ wire calls := List.flatMap_cons
      rw [hwire, linesOf]
      split
      · rename_i htrue
        have hnone : 10 ∉ part ++ call.line := by
          rw [List.mem_append, not_or]
          exact ⟨hpart, h.1⟩
        have hrest := @ih h.2 [] List.not_mem_nil
        rw [List.nil_append] at hrest
        rw [call.written_true htrue, List.append_assoc, ← List.append_assoc,
          List.singleton_append, cutAt_part hnone, hrest]
      · rename_i hfalse
        rw [← List.append_assoc]
        refine ih h.2 ?_
        rw [List.mem_append, not_or]
        exact ⟨hpart, call.written_part h.1 hfalse⟩

/-- No call returns true after one that has not and has written part of its line. -/
def Unbroken : List SendCall → Prop
  | [] => True
  | call :: calls =>
      (call.returned = some true ∨ call.written = [] ∨
        ∀ later ∈ calls, later.returned ≠ some true) ∧ Unbroken calls

def completed (calls : List SendCall) : List CStr :=
  (calls.filter fun call => call.returned = some true).map SendCall.line

theorem linesOf_iff (part : List UInt8) (calls : List SendCall) :
    (linesOf part calls).1 = completed calls ↔
      (part = [] ∨ ∀ call ∈ calls, call.returned ≠ some true) ∧ Unbroken calls := by
  induction calls generalizing part with
  | nil => simp [linesOf, completed, Unbroken]
  | cons call calls ih =>
      rw [linesOf, Unbroken]
      by_cases htrue : call.returned = some true
      · have hcompleted : completed (call :: calls) = call.line :: completed calls := by
          simp [completed, htrue]
        have hpart : part ++ call.line = call.line ↔ part = [] := List.append_left_eq_self
        rw [if_pos htrue, hcompleted, List.cons.injEq, ih, hpart]
        simp [htrue]
      · have hcompleted : completed (call :: calls) = completed calls := by
          simp [completed, htrue]
        rw [if_neg htrue, hcompleted, ih, List.append_eq_nil_iff, List.forall_mem_cons]
        constructor
        · rintro ⟨⟨hpart, hwritten⟩ | hnone, hrest⟩
          · exact ⟨Or.inl hpart, Or.inr (Or.inl hwritten), hrest⟩
          · exact ⟨Or.inr ⟨htrue, hnone⟩, Or.inr (Or.inr hnone), hrest⟩
        · rintro ⟨hpart, hcall, hrest⟩
          refine ⟨?_, hrest⟩
          rcases hcall with hcall | hwritten | hnone
          · exact absurd hcall htrue
          · rcases hpart with hpart | ⟨-, hnone⟩
            · exact Or.inl ⟨hpart, hwritten⟩
            · exact Or.inr hnone
          · exact Or.inr hnone

theorem wire_lines {calls : List SendCall} (h : ∀ call ∈ calls, 10 ∉ call.line) :
    (cutAt 10 (wire calls)).1 = (linesOf [] calls).1 := by
  have hcut := @cutAt_wire calls h [] List.not_mem_nil
  rw [List.nil_append] at hcut
  rw [hcut]

theorem linesOf_unbroken {calls : List SendCall} :
    (linesOf [] calls).1 = completed calls ↔ Unbroken calls := by
  rw [linesOf_iff]
  exact and_iff_right (Or.inl rfl)

/-- The pool reads the completed lines, each once and in order and no other, exactly when no call
completes after one that was cut short. -/
theorem wire_lines_iff {calls : List SendCall} (h : ∀ call ∈ calls, 10 ∉ call.line) :
    (cutAt 10 (wire calls)).1 = completed calls ↔ Unbroken calls := by
  rw [wire_lines h, linesOf_unbroken]

theorem wire_lines_iff_short : (cutAt 10 (wire [⟨cstr "a", [.sent 1, .sent 1]⟩,
    ⟨cstr "b", [.notReady]⟩, ⟨cstr "cd", [.sent 2, .failed]⟩])).1 =
      completed [⟨cstr "a", [.sent 1, .sent 1]⟩, ⟨cstr "b", [.notReady]⟩,
        ⟨cstr "cd", [.sent 2, .failed]⟩] :=
  (wire_lines_iff (by decide)).mpr (by
    refine ⟨Or.inl rfl, Or.inr (Or.inl rfl), Or.inr (Or.inr ?_), trivial⟩
    exact fun _ h => absurd h List.not_mem_nil)

end SojCivicLight.Stratum
