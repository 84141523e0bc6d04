import Mathlib.Logic.Function.Basic
import Mathlib.Data.Nat.ModEq

/-! A ring of slots that keeps the last elements of a history, each new one in the place of the
oldest. -/

namespace SojCivicLight.Library

structure RingBuffer (n : Nat) (α : Type) where
  slots : Fin n → α
  next : Fin n
  count : Nat

namespace RingBuffer

variable {n : Nat} [NeZero n] {α : Type}

def slot (k : Nat) : Fin n := ⟨k % n, Nat.mod_lt k (Nat.pos_of_neZero n)⟩

/-- A ring with one element, in the first of the slots. -/
def start (slots : Fin n → α) (x : α) : RingBuffer n α where
  slots := Function.update slots (slot 0) x
  next := slot 1
  count := 1

def push (ring : RingBuffer n α) (x : α) : RingBuffer n α where
  slots := Function.update ring.slots ring.next x
  next := slot (ring.next + 1)
  count := if ring.count < n then ring.count + 1 else ring.count

/-- The element that was put in `age` pushes ago. -/
def back (ring : RingBuffer n α) (age : Nat) : α := ring.slots (slot (ring.next + n - age))

/-- The ring holds the last elements of a history, whose first element is the oldest. -/
structure Holds (ring : RingBuffer n α) (history : List α) : Prop where
  next : ring.next = slot history.length
  count : ring.count = min n history.length
  slots : ∀ i (hi : i < history.length), history.length ≤ i + n →
    ring.slots (slot i) = history[i]

theorem holds_start (slots : Fin n → α) (x : α) : (start slots x).Holds [x] where
  next := rfl
  count := (Nat.min_eq_right (Nat.pos_of_neZero n)).symm
  slots i hi _ := by
    have hzero : i = 0 := Nat.lt_one_iff.mp hi
    subst hzero
    exact Function.update_self (slot 0) x slots

theorem slot_ne {i j : Nat} (hlt : i < j) (hle : j < i + n) : slot (n := n) i ≠ slot j := by
  intro h
  have hmod : i % n = j % n := congrArg Fin.val h
  have hdvd := (Nat.modEq_iff_dvd' hlt.le).mp hmod
  exact absurd (Nat.le_of_dvd (Nat.sub_pos_of_lt hlt) hdvd) (by omega)

theorem Holds.push {ring : RingBuffer n α} {history : List α} (h : ring.Holds history) (x : α) :
    (ring.push x).Holds (history ++ [x]) where
  next := by
    apply Fin.ext
    rw [RingBuffer.push, h.next, List.length_append, List.length_singleton]
    exact Nat.mod_add_mod ..
  count := by
    have := h.count
    rw [RingBuffer.push, List.length_append, List.length_singleton]
    dsimp only
    split <;> omega
  slots i hi hle := by
    rw [List.length_append, List.length_singleton] at hi hle
    rw [RingBuffer.push, h.next]
    dsimp only
    rcases Nat.lt_or_eq_of_le (Nat.le_of_lt_succ hi) with hold | rfl
    · rw [Function.update_of_ne (slot_ne hold (by omega)), h.slots i hold (by omega),
        List.getElem_append_left hold]
    · rw [Function.update_self, List.getElem_concat_length rfl]

/-- Going back in the ring is going back in the history. -/
theorem Holds.back {ring : RingBuffer n α} {history : List α} (h : ring.Holds history)
    {age : Nat} (hpos : 0 < age) (hage : age ≤ ring.count) :
    ∃ hi : history.length - age < history.length,
      ring.back age = history[history.length - age] := by
  have hcount := h.count
  have hslot : slot (n := n) (history.length % n + n - age) = slot (history.length - age) := by
    apply Fin.ext
    have hdiv := Nat.div_add_mod history.length n
    have hsum : history.length % n + n - age + n * (history.length / n) =
        history.length - age + n := by omega
    calc (history.length % n + n - age) % n
        = (history.length % n + n - age + n * (history.length / n)) % n :=
          (Nat.add_mul_mod_self_left ..).symm
      _ = (history.length - age) % n := by rw [hsum, Nat.add_mod_right]
  have hnext : ring.next.val = history.length % n := congrArg Fin.val h.next
  refine ⟨by omega, ?_⟩
  rw [RingBuffer.back, hnext, hslot]
  exact h.slots _ _ (by omega)

end RingBuffer

end SojCivicLight.Library
