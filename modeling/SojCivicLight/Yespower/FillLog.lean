import SojCivicLight.Yespower.Kernels

/-! What the two-lane fill loops read and write: the same program over any block mixes, run
with block mixes that keep a list of their calls. -/

namespace SojCivicLight.Yespower

open SojCivicLight.Library

variable {ρ κ : Type} [DecidableEq ρ]

/-- Two-lane block mixes, with each lane's context as locals. -/
structure PairKernels (ρ κ : Type) where
  mix : (Fin 2 → Nat) → (Fin 2 → Nat) → Nat → Lanes 2 ρ M128 κ → Lanes 2 ρ M128 κ
  mixXor : (Fin 2 → Nat) → (Fin 2 → Nat) → (Fin 2 → Nat) → Nat → Lanes 2 ρ M128 κ →
    Lanes 2 ρ M128 (κ × UInt32)

section Program

variable (K : PairKernels ρ κ) (reg : Fin 2 → ρ)

def pairRoundWith (r : Nat) (V : Fin 2 → Nat) (n i : Nat) (P : Lanes 2 ρ M128 (Smix1Vars κ)) :
    Lanes 2 ρ M128 (Smix1Vars κ) :=
  let blk := 64 * (2 * r)
  let X := fun l => (P.st l).X
  let Y := fun l => X l + blk
  let Vj := fun l => V l + blk * (((P.st l).j &&& (n - 1)) + i - 1)
  let Q := K.mixXor X Vj Y r ⟨P.heap, fun l => (P.st l).ctx⟩
  let Vj := fun l => V l + blk * (((Q.st l).2.toNat &&& (n - 1)) + i)
  let X := fun l => Y l + blk
  let Q := K.mixXor Y Vj X r ⟨Q.heap, fun l => (Q.st l).1⟩
  { heap := Q.heap
    st := fun l => { ctx := (Q.st l).1, X := X l, Y := Y l, j := (Q.st l).2.toNat } }

end Program

/-- What a block mix reads, and the place it writes. -/
structure FillCall where
  inputs : List Nat
  output : Nat

/-- The same kernels, with the calls of each lane beside its context. -/
def PairKernels.logged (K : PairKernels ρ κ) : PairKernels ρ (κ × List FillCall) where
  mix Bin Bout r P :=
    let Q := K.mix Bin Bout r ⟨P.heap, fun l => (P.st l).1⟩
    ⟨Q.heap, fun l => (Q.st l, (P.st l).2 ++ [⟨[Bin l], Bout l⟩])⟩
  mixXor Bin1 Bin2 Bout r P :=
    let Q := K.mixXor Bin1 Bin2 Bout r ⟨P.heap, fun l => (P.st l).1⟩
    ⟨Q.heap, fun l =>
      (((Q.st l).1, (P.st l).2 ++ [⟨[Bin1 l, Bin2 l], Bout l⟩]), (Q.st l).2)⟩

section Erase

variable (K : PairKernels ρ κ) (reg : Fin 2 → ρ)

end Erase

/-! The order in which the slots are filled. -/

def slotAt (r V k : Nat) : Nat := V + 64 * (2 * r) * k

/-- The mixes inside slot 0, and then those of the slots 1 and 2. -/
def startCalls (r V : Nat) : List FillCall :=
  (List.range' 1 (r - 1)).map (fun i => ⟨[V + 64 * ((i - 1) * 2)], V + 64 * (i * 2)⟩) ++
    [⟨[slotAt r V 0], slotAt r V 1⟩, ⟨[slotAt r V 1], slotAt r V 2⟩]

/-- The mix of slot `k` with the slot `js k`: it fills the next slot, or `XY` behind the last. -/
def slotCall (r N V XY : Nat) (js : Nat → Nat) (k : Nat) : FillCall where
  inputs := [slotAt r V k, slotAt r V (js k)]
  output := if k + 1 < N then slotAt r V (k + 1) else XY

/-- The slots up to `last` are filled, one after the other, each from the slot before it and
one before that. -/
def FilledTo (r N V XY last : Nat) (calls : List FillCall) : Prop :=
  ∃ js : Nat → Nat, (∀ k, 2 ≤ k → k < last → js k < k) ∧
    calls = startCalls r V ++ (List.range' 2 (last - 2)).map (slotCall r N V XY js)

theorem slotAt_succ (r V k : Nat) : slotAt r V (k + 1) = slotAt r V k + 64 * (2 * r) := by
  rw [slotAt, slotAt, Nat.mul_succ, Nat.add_assoc]

theorem FilledTo.next {r N V XY k : Nat} {calls : List FillCall} (h : FilledTo r N V XY k calls)
    (hk : 2 ≤ k) {j : Nat} (hj : j < k) {output : Nat}
    (houtput : output = if k + 1 < N then slotAt r V (k + 1) else XY) :
    FilledTo r N V XY (k + 1) (calls ++ [⟨[slotAt r V k, slotAt r V j], output⟩]) := by
  obtain ⟨js, hjs, rfl⟩ := h
  refine ⟨Function.update js k j, fun i hi hlt => ?_, ?_⟩
  · rcases Nat.lt_or_eq_of_le (Nat.le_of_lt_succ hlt) with hlt | rfl
    · rw [Function.update_of_ne (Nat.ne_of_lt hlt)]
      exact hjs i hi hlt
    · rwa [Function.update_self]
  · have hold : (List.range' 2 (k - 2)).map (slotCall r N V XY (Function.update js k j)) =
        (List.range' 2 (k - 2)).map (slotCall r N V XY js) := by
      refine List.map_congr_left fun i hi => ?_
      have hne : i ≠ k := by
        have := List.mem_range'_1.mp hi
        omega
      rw [slotCall, slotCall, Function.update_of_ne hne]
    have hcount : k + 1 - 2 = k - 2 + 1 := by omega
    have hlast : 2 + (k - 2) = k := by omega
    rw [hcount, List.range'_1_concat, List.map_append, hold, hlast, List.append_assoc,
      List.map_singleton, slotCall, Function.update_self, houtput]

section Fill

variable {K : PairKernels ρ κ} {reg : Fin 2 → ρ} {r N : Nat} {V XY : Fin 2 → Nat} {l : Fin 2}

/-- The state is in slot `k`, and the slots up to it are filled. -/
structure InSlot (r N : Nat) (V XY : Fin 2 → Nat) (l : Fin 2) (k : Nat)
    (P : Lanes 2 ρ M128 (Smix1Vars (κ × List FillCall))) : Prop where
  two_le : 2 ≤ k
  X : (P.st l).X = slotAt r (V l) k
  calls : FilledTo r N (V l) (XY l) k (P.st l).ctx.2

/-- Two mixes after each other, the second from where the first one has put its result. -/
theorem FilledTo.next_two {r N V XY k last j j' : Nat} {calls : List FillCall} {X output : Nat}
    (h : FilledTo r N V XY k calls) (hk : 2 ≤ k) (hlast : last = k + 2) (hroom : k + 1 < N)
    (hX : X = slotAt r V k) (hj : j < k) (hj' : j' < k + 1)
    (houtput : output = if last < N then slotAt r V last else XY) :
    FilledTo r N V XY last
      (calls ++ [⟨[X, slotAt r V j], X + 64 * (2 * r)⟩] ++
        [⟨[X + 64 * (2 * r), slotAt r V j'], output⟩]) := by
  have hY : X + 64 * (2 * r) = slotAt r V (k + 1) := by rw [slotAt_succ, hX]
  subst hlast
  rw [hY, hX]
  have hfirst := h.next hk hj (if_pos hroom).symm
  exact hfirst.next (Nat.le_succ_of_le hk) hj' houtput

omit [DecidableEq ρ] in
theorem InSlot.round {P : Lanes 2 ρ M128 (Smix1Vars (κ × List FillCall))} {n i k : Nat}
    (h : InSlot r N V XY l k P) (hn : 0 < n) (hi : 1 ≤ i) (hk : k + 1 = n + i)
    (hroom : k + 2 < N) : InSlot r N V XY l (k + 2) (pairRoundWith K.logged r V n i P) := by
  obtain ⟨j, j', hcalls⟩ : ∃ j j', ((pairRoundWith K.logged r V n i P).st l).ctx.2 =
      (P.st l).ctx.2 ++
        [⟨[(P.st l).X, slotAt r (V l) ((j &&& (n - 1)) + i - 1)], (P.st l).X + 64 * (2 * r)⟩] ++
        [⟨[(P.st l).X + 64 * (2 * r), slotAt r (V l) ((j' &&& (n - 1)) + i)],
          (P.st l).X + 64 * (2 * r) + 64 * (2 * r)⟩] := ⟨_, _, rfl⟩
  have hX : ((pairRoundWith K.logged r V n i P).st l).X =
      (P.st l).X + 64 * (2 * r) + 64 * (2 * r) := rfl
  have hnext : (P.st l).X + 64 * (2 * r) + 64 * (2 * r) = slotAt r (V l) (k + 2) := by
    rw [slotAt_succ, slotAt_succ, h.X]
  have hj : j &&& (n - 1) ≤ n - 1 := Nat.and_le_right
  have hj' : j' &&& (n - 1) ≤ n - 1 := Nat.and_le_right
  refine ⟨Nat.le_add_right_of_le h.two_le, hX.trans hnext, ?_⟩
  rw [hcalls]
  refine h.calls.next_two h.two_le rfl (Nat.lt_of_succ_lt hroom) h.X ?_ ?_ ?_
  · omega
  · omega
  · rw [if_pos hroom]
    exact hnext

end Fill

end SojCivicLight.Yespower
