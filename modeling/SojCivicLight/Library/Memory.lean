import Mathlib.Order.Interval.Set.LinearOrder
import Mathlib.Data.List.FinRange
import Mathlib.Logic.Function.Basic
import SojCivicLight.Library.Loop

/-! Byte-addressed memory accessed in aligned 16-byte words, several such regions
side by side, and two rules about programs that run over them: a store far from an
address does not change what is read there, and two runs that agree on what they
read go on agreeing on what they have written. -/

namespace SojCivicLight.Library

/-- One allocated region: the value of its 16-byte word number `a`. -/
abbrev Region (α : Type) := Nat → α

/-- The aligned 16-byte load at byte address `p`. -/
def load (m : Region α) (p : Nat) : α := m (p / 16)

/-- The aligned 16-byte store at byte address `p`. -/
def store (m : Region α) (p : Nat) (v : α) : Region α := Function.update m (p / 16) v

/-- Two word addresses whose 16 bytes do not overlap. -/
def Apart (p q : Nat) : Prop := p + 16 ≤ q ∨ q + 16 ≤ p

@[simp] theorem load_store_self (m : Region α) (p : Nat) (v : α) :
    load (store m p v) p = v := by
  simp [load, store]

theorem load_store_apart {p q : Nat} (h : Apart p q) (m : Region α) (v : α) :
    load (store m q v) p = load m p := by
  have hne : p / 16 ≠ q / 16 := by
    unfold Apart at h
    omega
  simp [load, store, Function.update_of_ne hne]

/-! Two contents of one region that agree on a set of byte addresses. -/

/-- The contents agree on the word of every byte address of the set. -/
def Agree (known : Set Nat) (m m' : Region α) : Prop :=
  ∀ p ∈ known, load m p = load m' p

section Agree

variable {known known' : Set Nat} {m m' : Region α}

theorem Agree.mono (h : Agree known m m') (sub : known' ⊆ known) : Agree known' m m' :=
  fun p hp => h p (sub hp)

theorem Agree.eq_of_univ (h : Agree Set.univ m m') : m = m' := by
  funext a
  have := h (16 * a) (Set.mem_univ _)
  rwa [load, load, Nat.mul_div_cancel_left a (by decide)] at this

theorem Agree.store_keep (h : Agree known m m') (q : Nat) (v : α) :
    Agree known (store m q v) (store m' q v) := by
  intro p hp
  by_cases hword : p / 16 = q / 16
  · simp [load, store, hword]
  · simpa [load, store, Function.update_of_ne hword] using h p hp

theorem Agree.store (h : Agree known m m') {q : Nat} (aligned : q % 16 = 0) (v : α) :
    Agree (known ∪ Set.Ico q (q + 16)) (Library.store m q v) (Library.store m' q v) := by
  intro p hp
  rcases hp with hp | ⟨hlo, hhi⟩
  · exact h.store_keep q v p hp
  · have hword : p / 16 = q / 16 := by omega
    simp [load, Library.store, hword]

theorem union_Ico_extend {known : Set Nat} {a b c : Nat} :
    known ∪ Set.Ico a c ⊆ known ∪ Set.Ico a b ∪ Set.Ico b c := by
  rw [Set.union_assoc]
  exact Set.union_subset_union_right known Set.Ico_subset_Ico_union_Ico

end Agree

/-! Several regions, one a lane. -/

abbrev Heap (ρ α : Type) := ρ → Region α

/-- The state of `n` lanes that run in lockstep: the heap and each lane's locals. -/
structure Lanes (n : Nat) (ρ α σ : Type) where
  heap : Heap ρ α
  st : Fin n → σ

namespace Lanes

variable {n : Nat} {ρ α σ τ : Type} [DecidableEq ρ]

/-- What lane `l` sees: its own region and its own locals. -/
def lane (reg : Fin n → ρ) (P : Lanes n ρ α σ) (l : Fin n) : Region α × σ :=
  (P.heap (reg l), P.st l)

def onLane (reg : Fin n → ρ) (l : Fin n) (f : Region α × σ → Region α × σ)
    (P : Lanes n ρ α σ) : Lanes n ρ α σ :=
  { heap := Function.update P.heap (reg l) (f (P.lane reg l)).1
    st := Function.update P.st l (f (P.lane reg l)).2 }

@[simp] theorem lane_onLane_self (reg : Fin n → ρ) (l : Fin n)
    (f : Region α × σ → Region α × σ) (P : Lanes n ρ α σ) :
    (P.onLane reg l f).lane reg l = f (P.lane reg l) := by
  simp [onLane, lane]

theorem lane_onLane_ne {reg : Fin n → ρ} (hreg : Function.Injective reg) {l k : Fin n}
    (hne : l ≠ k) (f : Region α × σ → Region α × σ) (P : Lanes n ρ α σ) :
    (P.onLane reg k f).lane reg l = P.lane reg l := by
  have hreg' : reg l ≠ reg k := fun h => hne (hreg h)
  simp [onLane, lane, Function.update_of_ne hne, Function.update_of_ne hreg']

end Lanes

section Loops

variable {n : Nat} {ρ α σ : Type} {reg : Fin n → ρ} {l : Fin n}

theorem Lanes.lane_forUp {round : Nat → Lanes n ρ α σ → Lanes n ρ α σ}
    {f : Nat → Region α × σ → Region α × σ} {lo hi step : Nat}
    (hround : ∀ k P, lo + step * k < hi →
      (round (lo + step * k) P).lane reg l = f (lo + step * k) (P.lane reg l))
    (P : Lanes n ρ α σ) :
    (forUp lo hi step round P).lane reg l = forUp lo hi step f (P.lane reg l) :=
  @forUp_rel _ _ lo hi step round f P (P.lane reg l) (fun _ P s => P.lane reg l = s) rfl
    (fun k P s hk h => by rw [hround k P hk, h])

theorem Lanes.lane_forDoubling {N : Nat} {round : Nat → Lanes n ρ α σ → Lanes n ρ α σ}
    {f : Nat → Region α × σ → Region α × σ}
    (hround : ∀ k P, (round k P).lane reg l = f k (P.lane reg l))
    (start : Nat) (P : Lanes n ρ α σ) :
    (forDoubling N round start P).2 = (forDoubling N f start (P.lane reg l)).2 ∧
      (forDoubling N round start P).1.lane reg l =
        (forDoubling N f start (P.lane reg l)).1 :=
  @forDoubling_rel _ _ N round f (fun _ P s => P.lane reg l = s)
    (fun k P s _ _ h => by rw [hround k P, h]) start P (P.lane reg l) rfl

theorem Lanes.lane_doWhileMinusTwo {round : Lanes n ρ α σ → Lanes n ρ α σ}
    {f : Region α × σ → Region α × σ}
    (hround : ∀ P, (round P).lane reg l = f (P.lane reg l)) (count : Nat)
    (P : Lanes n ρ α σ) :
    (doWhileMinusTwo round count P).lane reg l = doWhileMinusTwo f count (P.lane reg l) :=
  @doWhileMinusTwo_rel _ _ round f (fun P s => P.lane reg l = s)
    (fun P s h => by rw [hround P, h]) count P (P.lane reg l) rfl

end Loops

/-- The same statement run for lane 0 and then for lane 1, with each lane's own
arguments. -/
def Lanes.both {ρ α σ : Type} [DecidableEq ρ] (reg : Fin 2 → ρ)
    (f : Fin 2 → Region α × σ → Region α × σ) (P : Lanes 2 ρ α σ) : Lanes 2 ρ α σ :=
  (P.onLane reg 0 (f 0)).onLane reg 1 (f 1)

theorem Lanes.lane_both {ρ α σ : Type} [DecidableEq ρ] {reg : Fin 2 → ρ}
    (hreg : Function.Injective reg) (f : Fin 2 → Region α × σ → Region α × σ)
    (P : Lanes 2 ρ α σ) (l : Fin 2) :
    (P.both reg f).lane reg l = f l (P.lane reg l) := by
  match l with
  | 0 => rw [both, lane_onLane_ne hreg (by decide), lane_onLane_self]
  | 1 => rw [both, lane_onLane_self, lane_onLane_ne hreg (by decide)]

/-- What a statement does to a view of the locals, whatever the memory holds. -/
theorem Lanes.view_both {ρ α σ β : Type} [DecidableEq ρ] (reg : Fin 2 → ρ)
    {f : Fin 2 → Region α × σ → Region α × σ} {view : σ → β} {g : β → β}
    (hf : ∀ l s, view (f l s).2 = g (view s.2)) (P : Lanes 2 ρ α σ) (l : Fin 2) :
    view ((P.both reg f).st l) = g (view (P.st l)) := by
  match l with
  | 0 => exact hf 0 (P.lane reg 0)
  | 1 => exact hf 1 ((P.onLane reg 0 (f 0)).lane reg 1)

/-- The same statement run for every lane in turn, lane 0 first, with each lane's own
arguments. -/
def Lanes.all {n : Nat} {ρ α σ : Type} [DecidableEq ρ] (reg : Fin n → ρ)
    (f : Fin n → Region α × σ → Region α × σ) (P : Lanes n ρ α σ) : Lanes n ρ α σ :=
  (List.finRange n).foldl (fun P l => P.onLane reg l (f l)) P

theorem Lanes.lane_foldl_onLane {n : Nat} {ρ α σ : Type} [DecidableEq ρ] {reg : Fin n → ρ}
    (hreg : Function.Injective reg) (f : Fin n → Region α × σ → Region α × σ) (l : Fin n)
    (order : List (Fin n)) (nodup : order.Nodup) (P : Lanes n ρ α σ) :
    (order.foldl (fun P l => P.onLane reg l (f l)) P).lane reg l =
      if l ∈ order then f l (P.lane reg l) else P.lane reg l := by
  induction order generalizing P with
  | nil => rfl
  | cons k order ih =>
      obtain ⟨fresh, nodup⟩ := List.nodup_cons.mp nodup
      rw [List.foldl_cons, ih nodup]
      rcases eq_or_ne l k with rfl | hne
      · rw [if_neg fresh, if_pos List.mem_cons_self, lane_onLane_self]
      · rw [lane_onLane_ne hreg hne]
        simp only [List.mem_cons, hne, false_or]

theorem Lanes.lane_all {n : Nat} {ρ α σ : Type} [DecidableEq ρ] {reg : Fin n → ρ}
    (hreg : Function.Injective reg) (f : Fin n → Region α × σ → Region α × σ)
    (P : Lanes n ρ α σ) (l : Fin n) : (P.all reg f).lane reg l = f l (P.lane reg l) := by
  rw [all, lane_foldl_onLane hreg f l _ (List.nodup_finRange n), if_pos (List.mem_finRange l)]

end SojCivicLight.Library
