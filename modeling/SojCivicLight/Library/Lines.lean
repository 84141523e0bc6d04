import Mathlib.Data.List.TakeWhile

/-! Cutting a sequence at a separator, and what a terminated buffer holds. -/

namespace SojCivicLight.Library

variable {α : Type} [DecidableEq α]

/-- The parts that end with a separator, without it, and what follows the last one. -/
def cutAt (sep : α) : List α → List (List α) × List α
  | [] => ([], [])
  | a :: rest =>
      let cut := cutAt sep rest
      if a = sep then ([] :: cut.1, cut.2)
      else
        match cut.1 with
        | [] => ([], a :: cut.2)
        | part :: parts => ((a :: part) :: parts, cut.2)

theorem cutAt_part {sep : α} {part : List α} (h : sep ∉ part) (rest : List α) :
    cutAt sep (part ++ sep :: rest) = (part :: (cutAt sep rest).1, (cutAt sep rest).2) := by
  induction part with
  | nil =>
      rw [List.nil_append, cutAt]
      exact if_pos rfl
  | cons a part ih =>
      obtain ⟨ha, hpart⟩ := List.ne_and_not_mem_of_not_mem_cons h
      rw [List.cons_append, cutAt, ih hpart]
      exact if_neg (Ne.symm ha)

/-- Parts that are each ended by a separator are the first ones of the whole. -/
theorem cutAt_parts {sep : α} {parts : List (List α)} (h : ∀ part ∈ parts, sep ∉ part)
    (rest : List α) :
    cutAt sep (parts.flatMap (· ++ [sep]) ++ rest) =
      (parts ++ (cutAt sep rest).1, (cutAt sep rest).2) := by
  induction parts with
  | nil => rfl
  | cons part parts ih =>
      obtain ⟨hpart, hparts⟩ := List.forall_mem_cons.mp h
      rw [List.flatMap_cons, List.append_assoc, List.append_assoc, List.singleton_append,
        cutAt_part hpart, ih hparts]
      rfl

/-- What stands before the first `sep`. -/
def before (sep : α) (xs : List α) : List α := xs.takeWhile (· ≠ sep)

theorem notMem_before (sep : α) (xs : List α) : sep ∉ before sep xs := by
  intro h
  have := List.mem_takeWhile_imp h
  simp at this

theorem before_append {sep : α} {xs : List α} (h : sep ∉ xs) (ys : List α) :
    before sep (xs ++ sep :: ys) = xs := by
  rw [before, List.takeWhile_append_of_pos fun a ha => by
    simpa using fun heq : a = sep => h (heq ▸ ha)]
  simp

theorem before_eq_self {sep : α} {xs : List α} (h : sep ∉ xs) : before sep xs = xs := by
  rw [before, List.takeWhile_eq_self_iff]
  intro a ha
  simpa using fun heq : a = sep => h (heq ▸ ha)

/-- A sequence that holds a separator is cut there. -/
theorem eq_before_append {sep : α} {xs : List α} (h : sep ∈ xs) :
    ∃ rest, xs = before sep xs ++ sep :: rest := by
  induction xs with
  | nil => contradiction
  | cons a xs ih =>
      by_cases ha : a = sep
      · subst ha
        exact ⟨xs, by simp [before]⟩
      · obtain ⟨rest, hrest⟩ := ih ((List.mem_cons.mp h).resolve_left (Ne.symm ha))
        have hbefore : before sep (a :: xs) = a :: before sep xs := by
          simp [before, ha]
        refine ⟨rest, ?_⟩
        rw [hbefore, List.cons_append, ← hrest]

end SojCivicLight.Library
