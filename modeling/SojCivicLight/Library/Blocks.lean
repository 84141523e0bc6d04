import Mathlib.Data.List.Basic

/-! Folding a step function over the whole blocks of a message, with the bytes that do
not fill a block left over. -/

namespace SojCivicLight.Library

variable {α σ : Type}

/-- Run `step` over the whole blocks of `n` elements, from the front. -/
def foldBlocks (n : Nat) (step : σ → List α → σ) (s : σ) (l : List α) : σ :=
  if _h : 0 < n ∧ n ≤ l.length then
    foldBlocks n step (step s (l.take n)) (l.drop n)
  else
    s
termination_by l.length
decreasing_by
  rw [List.length_drop]
  omega

/-- The elements after the last whole block. -/
def leftover (n : Nat) (l : List α) : List α := l.drop (l.length / n * n)

section

variable {n : Nat} {step : σ → List α → σ} {s : σ} {l r : List α}

theorem foldBlocks_short (h : l.length < n) : foldBlocks n step s l = s := by
  rw [foldBlocks, dif_neg (by omega)]

theorem foldBlocks_block (hn : 0 < n) (h : l.length = n) :
    foldBlocks n step s (l ++ r) = foldBlocks n step (step s l) r := by
  rw [foldBlocks, dif_pos ⟨hn, by rw [List.length_append]; omega⟩, List.take_left' h,
    List.drop_left' h]

theorem foldBlocks_one (hn : 0 < n) (h : l.length = n) :
    foldBlocks n step s l = step s l := by
  have := @foldBlocks_block α σ n step s l [] hn h
  rwa [List.append_nil, foldBlocks_short (show ([] : List α).length < n from hn)] at this

theorem leftover_length (hn : 0 < n) : (leftover n l).length = l.length % n := by
  rw [leftover, List.length_drop, Nat.mul_comm]
  have := Nat.div_add_mod l.length n
  have := Nat.mod_lt l.length hn
  omega

theorem leftover_short (h : l.length < n) : leftover n l = l := by
  rw [leftover, Nat.div_eq_of_lt h, Nat.zero_mul, List.drop_zero]

theorem leftover_drop (hn : 0 < n) (h : n ≤ l.length) :
    leftover n (l.drop n) = leftover n l := by
  have hdiv : l.length / n = (l.length - n) / n + 1 := by
    rw [← Nat.add_div_right (l.length - n) hn, Nat.sub_add_cancel h]
  rw [leftover, leftover, List.drop_drop, List.length_drop, hdiv, Nat.succ_mul, Nat.add_comm]

/-- A message is folded by folding a part of it and then the rest after the elements that
part has left over. -/
theorem foldBlocks_append (hn : 0 < n) (s : σ) (l r : List α) :
    foldBlocks n step s (l ++ r) =
      foldBlocks n step (foldBlocks n step s l) (leftover n l ++ r) := by
  induction s, l using foldBlocks.induct n step with
  | case1 s l h ih =>
      have hblock : (l.take n).length = n := by
        rw [List.length_take]
        omega
      have hsplit : l ++ r = l.take n ++ (l.drop n ++ r) := by
        rw [← List.append_assoc, List.take_append_drop]
      have hfold : foldBlocks n step s l =
          foldBlocks n step (step s (l.take n)) (l.drop n) := by
        rw [foldBlocks, dif_pos h]
      rw [hsplit, foldBlocks_block hn hblock, ih, hfold, leftover_drop hn h.2]
  | case2 s l h =>
      have hshort : l.length < n := by omega
      rw [foldBlocks_short hshort, leftover_short hshort]

theorem leftover_append (hn : 0 < n) (l r : List α) :
    leftover n (l ++ r) = leftover n (leftover n l ++ r) := by
  have hlen := @leftover_length α n l hn
  have hmod := Nat.div_add_mod l.length n
  have hle : l.length / n * n ≤ l.length := Nat.div_mul_le_self _ _
  have hdiv : (l ++ r).length / n = l.length / n + (leftover n l ++ r).length / n := by
    rw [List.length_append, List.length_append, hlen]
    have hsum : l.length + r.length = l.length % n + r.length + n * (l.length / n) := by omega
    rw [hsum, Nat.add_mul_div_left _ _ hn, Nat.add_comm]
  have hdrop : leftover n l ++ r = (l ++ r).drop (l.length / n * n) := by
    rw [leftover, List.drop_append_of_le_length hle]
  calc leftover n (l ++ r)
      = ((l ++ r).drop (l.length / n * n)).drop ((leftover n l ++ r).length / n * n) := by
        rw [leftover, hdiv, Nat.add_mul, List.drop_drop]
    _ = leftover n (leftover n l ++ r) := by rw [← hdrop, ← leftover]

end

/-! A list of pieces that all have the same length. -/

section Pieces

variable {β : Type} {f : α → List β} {n : Nat}

theorem length_flatMap_pieces (h : ∀ a, (f a).length = n) (l : List α) :
    (l.flatMap f).length = n * l.length := by
  induction l with
  | nil => rfl
  | cons a l ih =>
      rw [List.flatMap_cons, List.length_append, h, ih, List.length_cons, Nat.mul_succ,
        Nat.add_comm]

theorem take_flatMap_pieces (h : ∀ a, (f a).length = n) (l : List α) (k : Nat) :
    (l.flatMap f).take (n * k) = (l.take k).flatMap f := by
  induction l generalizing k with
  | nil => rw [List.flatMap_nil, List.take_nil, List.take_nil, List.flatMap_nil]
  | cons a l ih =>
      cases k with
      | zero => rfl
      | succ k =>
          have hlen : n * (k + 1) = (f a).length + n * k := by
            rw [h, Nat.mul_succ, Nat.add_comm]
          rw [List.flatMap_cons, List.take_succ_cons, List.flatMap_cons, ← ih, hlen,
            List.take_length_add_append]

theorem drop_flatMap_pieces (h : ∀ a, (f a).length = n) (l : List α) (k : Nat) :
    (l.flatMap f).drop (n * k) = (l.drop k).flatMap f := by
  induction l generalizing k with
  | nil => rw [List.flatMap_nil, List.drop_nil, List.drop_nil, List.flatMap_nil]
  | cons a l ih =>
      cases k with
      | zero => rfl
      | succ k =>
          have hlen : n * (k + 1) = (f a).length + n * k := by
            rw [h, Nat.mul_succ, Nat.add_comm]
          rw [List.flatMap_cons, List.drop_succ_cons, ← ih, hlen, List.drop_length_add_append]

end Pieces

end SojCivicLight.Library
