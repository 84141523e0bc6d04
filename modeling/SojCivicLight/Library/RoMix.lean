import Mathlib.Algebra.Group.Nat.Defs
import Mathlib.Data.List.GetD
import Mathlib.Data.Nat.Log

/-! Mixing over a table: the table is filled with the blocks a mixing function goes through, and
then walked, each place that is read being rewritten. -/

namespace SojCivicLight.Library

/-- A mixing function of blocks that carries a state of its own, with the difference of two blocks
and the number a block stands for. -/
structure RoMix (α σ : Type) where
  mix : α → σ → α × σ
  xor : α → α → α
  index : α → Nat

structure RoMixState (α σ : Type) where
  table : List α
  block : α
  rest : σ

/-- A place below `i`, among the last `n` of them where `n` is the greatest power of two that is
at most `i`. -/
def wrap (x i : Nat) : Nat := x % 2 ^ Nat.log 2 i + (i - 2 ^ Nat.log 2 i)

namespace RoMix

variable {α σ : Type} (M : RoMix α σ)

/-- The next block of a table: from the second on, an earlier one is added. -/
def feed (s : RoMixState α σ) : α :=
  if s.table.length ≤ 1 then s.block
  else M.xor s.block (s.table.getD (wrap (M.index s.block) s.table.length) s.block)

def fillStep (s : RoMixState α σ) : RoMixState α σ :=
  let t := M.mix (M.feed s) s.rest
  { table := s.table ++ [s.block], block := t.1, rest := t.2 }

def fill : Nat → RoMixState α σ → RoMixState α σ
  | 0, s => s
  | n + 1, s => M.fillStep (fill n s)

def walkStep (s : RoMixState α σ) : RoMixState α σ :=
  let j := M.index s.block % s.table.length
  let block := M.xor s.block (s.table.getD j s.block)
  let t := M.mix block s.rest
  { table := s.table.set j block, block := t.1, rest := t.2 }

def walk : Nat → RoMixState α σ → RoMixState α σ
  | 0, s => s
  | n + 1, s => walk n (M.walkStep s)

/-- Two passes: a table of `N` blocks, and `n` steps over it. -/
def run (N n : Nat) (block : α) (rest : σ) : RoMixState α σ :=
  M.walk n (M.fill N { table := [], block, rest })

end RoMix

theorem wrap_lt (x : Nat) {i : Nat} (hi : 0 < i) : wrap x i < i := by
  have hpow : 2 ^ Nat.log 2 i ≤ i := Nat.pow_log_le_self 2 (Nat.pos_iff_ne_zero.mp hi)
  have hmod : x % 2 ^ Nat.log 2 i < 2 ^ Nat.log 2 i := Nat.mod_lt x (Nat.two_pow_pos _)
  unfold wrap
  omega

/-- The power of two as a mask. -/
theorem wrap_mask (x : Nat) {i k : Nat} (hlow : 2 ^ k ≤ i) (hhigh : i < 2 ^ (k + 1)) :
    wrap x i = (x &&& (2 ^ k - 1)) + (i - 2 ^ k) := by
  have hlog : Nat.log 2 i = k := Nat.log_eq_of_pow_le_of_lt_pow hlow hhigh
  rw [wrap, hlog, Nat.and_two_pow_sub_one_eq_mod]

namespace RoMix

variable {α σ : Type} (M : RoMix α σ) (s : RoMixState α σ)

theorem length_fillStep : (M.fillStep s).table.length = s.table.length + 1 :=
  List.length_append

theorem length_fill (n : Nat) : (M.fill n s).table.length = s.table.length + n := by
  induction n with
  | zero => rfl
  | succ n ih => rw [fill, length_fillStep, ih, Nat.add_assoc]

end RoMix

end SojCivicLight.Library
