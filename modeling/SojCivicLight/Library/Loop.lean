import Mathlib.Algebra.Group.Nat.Defs
import Mathlib.Data.List.Basic
import Mathlib.Order.Basic

/-! Counted loops of C as folds, with the two rules their proofs use: a map that
commutes with the body commutes with the loop, and what one round preserves the
whole loop preserves. -/

namespace SojCivicLight.Library

/-- `for (i = lo; i < hi; i += step) s = body(i, s);` -/
def forUp (lo hi step : Nat) (body : Nat → σ → σ) (s : σ) : σ :=
  (List.range' lo ((hi - lo + step - 1) / step) step).foldl (fun s i => body i s) s

theorem mem_forUp_range {lo hi step i : Nat}
    (member : i ∈ List.range' lo ((hi - lo + step - 1) / step) step) :
    ∃ k, i = lo + step * k ∧ i < hi := by
  obtain ⟨k, bound, rfl⟩ := List.mem_range'.mp member
  refine ⟨k, rfl, ?_⟩
  have hstep : 0 < step := by
    rcases Nat.eq_zero_or_pos step with rfl | hpos
    · simp at bound
    · exact hpos
  have hk : step * (k + 1) ≤ hi - lo + step - 1 := by
    calc step * (k + 1) ≤ step * ((hi - lo + step - 1) / step) :=
          Nat.mul_le_mul_left _ bound
      _ ≤ hi - lo + step - 1 := Nat.mul_div_le _ _
  rw [Nat.mul_add] at hk
  omega

theorem forUp_of_le {lo hi : Nat} (h : hi ≤ lo) (body : Nat → σ → σ) (s : σ) :
    forUp lo hi 1 body s = s := by
  have hzero : (hi - lo + 1 - 1) / 1 = 0 := by
    rw [Nat.div_one]
    omega
  rw [forUp, hzero]
  rfl

theorem forUp_peel {lo hi : Nat} (h : lo < hi) (body : Nat → σ → σ) (s : σ) :
    forUp lo hi 1 body s = forUp (lo + 1) hi 1 body (body lo s) := by
  have hcount : (hi - lo + 1 - 1) / 1 = (hi - (lo + 1) + 1 - 1) / 1 + 1 := by
    simp only [Nat.div_one]
    omega
  rw [forUp, hcount, List.range'_succ, List.foldl_cons]
  rfl

theorem forUp_succ {lo hi : Nat} (h : lo ≤ hi) (body : Nat → σ → σ) (s : σ) :
    forUp lo (hi + 1) 1 body s = body hi (forUp lo hi 1 body s) := by
  have hcount : (hi + 1 - lo + 1 - 1) / 1 = (hi - lo + 1 - 1) / 1 + 1 := by
    simp only [Nat.div_one]
    omega
  rw [forUp, hcount, List.range'_1_concat, List.foldl_append]
  simp only [List.foldl_cons, List.foldl_nil, forUp, Nat.div_one]
  rw [show lo + (hi - lo + 1 - 1) = hi by omega]

theorem forUp_split {lo mid hi : Nat} (hlo : lo ≤ mid) (hhi : mid ≤ hi)
    (body : Nat → σ → σ) (s : σ) :
    forUp lo hi 1 body s = forUp mid hi 1 body (forUp lo mid 1 body s) := by
  have hcount : (hi - lo + 1 - 1) / 1 =
      (mid - lo + 1 - 1) / 1 + (hi - mid + 1 - 1) / 1 := by
    simp only [Nat.div_one]
    omega
  rw [forUp, hcount, ← List.range'_append_1, List.foldl_append]
  simp only [forUp, Nat.div_one]
  rw [show lo + (mid - lo + 1 - 1) = mid by omega]

/-- The invariant rule: a relation between the counter and the state that holds
at the start and is carried over each round holds after the loop, at the first
counter value that fails the test. -/
theorem forUp_inv {lo hi step : Nat} {body : Nat → σ → σ} {s : σ}
    (inv : Nat → σ → Prop) (start : inv lo s)
    (round : ∀ k s, lo + step * k < hi → inv (lo + step * k) s →
      inv (lo + step * (k + 1)) (body (lo + step * k) s)) :
    inv (lo + step * ((hi - lo + step - 1) / step)) (forUp lo hi step body s) := by
  have main : ∀ count k s, (∀ k', k ≤ k' → k' < k + count → lo + step * k' < hi) →
      inv (lo + step * k) s →
      inv (lo + step * (k + count))
        ((List.range' (lo + step * k) count step).foldl (fun s i => body i s) s) := by
    intro count
    induction count with
    | zero => intro k s _ h; exact h
    | succ count ih =>
        intro k s bound h
        rw [List.range'_succ, List.foldl_cons]
        have next := ih (k + 1) (body (lo + step * k) s)
          (fun k' hlo hhi => bound k' (by omega) (by omega))
          (round k s (bound k (by omega) (by omega)) h)
        have haddr : lo + step * (k + 1) = lo + step * k + step := by
          rw [Nat.mul_add]; omega
        rw [haddr] at next
        rw [show k + (count + 1) = k + 1 + count by omega]
        exact next
  have bound : ∀ k', 0 ≤ k' → k' < 0 + (hi - lo + step - 1) / step →
      lo + step * k' < hi := by
    intro k' _ hk'
    have member : lo + step * k' ∈
        List.range' lo ((hi - lo + step - 1) / step) step :=
      List.mem_range'.mpr ⟨k', by omega, rfl⟩
    obtain ⟨_, _, hlt⟩ := mem_forUp_range member
    exact hlt
  have final := main ((hi - lo + step - 1) / step) 0 s bound (by simpa using start)
  simpa [forUp] using final

/-- The simulation rule: two loops over the same counter values stay related
when each round, on related states, keeps them related. -/
theorem forUp_rel {lo hi step : Nat} {body₁ : Nat → σ → σ} {body₂ : Nat → τ → τ}
    {s : σ} {t : τ} (rel : Nat → σ → τ → Prop) (start : rel lo s t)
    (round : ∀ k s t, lo + step * k < hi → rel (lo + step * k) s t →
      rel (lo + step * (k + 1)) (body₁ (lo + step * k) s) (body₂ (lo + step * k) t)) :
    rel (lo + step * ((hi - lo + step - 1) / step))
      (forUp lo hi step body₁ s) (forUp lo hi step body₂ t) := by
  have paired : ∀ (l : List Nat) (p : σ × τ),
      l.foldl (fun p i => (body₁ i p.1, body₂ i p.2)) p =
        (l.foldl (fun s i => body₁ i s) p.1, l.foldl (fun t i => body₂ i t) p.2) := by
    intro l
    induction l with
    | nil => intro p; rfl
    | cons i l ih => intro p; exact ih _
  have joint := @forUp_inv (σ × τ) lo hi step (fun i p => (body₁ i p.1, body₂ i p.2))
    (s, t) (fun i p => rel i p.1 p.2) start (fun k p hlt h => round k p.1 p.2 hlt h)
  rw [forUp, paired] at joint
  exact joint

theorem forUp_rel_unit {lo hi : Nat} (hle : lo ≤ hi) {body₁ : Nat → σ → σ}
    {body₂ : Nat → τ → τ} {s : σ} {t : τ} (rel : Nat → σ → τ → Prop) (start : rel lo s t)
    (round : ∀ i s t, lo ≤ i → i < hi → rel i s t → rel (i + 1) (body₁ i s) (body₂ i t)) :
    rel hi (forUp lo hi 1 body₁ s) (forUp lo hi 1 body₂ t) := by
  have main := @forUp_rel σ τ lo hi 1 body₁ body₂ s t rel start (fun k s t hlt h => by
    rw [Nat.one_mul] at hlt h ⊢
    rw [Nat.one_mul]
    exact round (lo + k) s t (by omega) hlt h)
  rw [Nat.one_mul, Nat.div_one, show lo + (hi - lo + 1 - 1) = hi by omega] at main
  exact main

theorem forUp_inv_unit {lo hi : Nat} (hle : lo ≤ hi) {body : Nat → σ → σ} {s : σ}
    (inv : Nat → σ → Prop) (start : inv lo s)
    (round : ∀ i s, lo ≤ i → i < hi → inv i s → inv (i + 1) (body i s)) :
    inv hi (forUp lo hi 1 body s) :=
  @forUp_rel_unit σ σ lo hi hle body body s s (fun i s _ => inv i s) start
    (fun i s _ hlo hhi h => round i s hlo hhi h)

/-- The loop over rounds that may fail, where the first failure is the result. -/
def forUpOption (lo hi step : Nat) (body : Nat → σ → Option σ) (s : σ) : Option σ :=
  forUp lo hi step (fun i s => s.bind (body i)) (some s)

/-- Rounds that succeed as long as an invariant holds, and keep it, are a loop that
succeeds. -/
theorem forUpOption_eq {lo hi : Nat} (hle : lo ≤ hi) {body : Nat → σ → Option σ}
    {body' : Nat → σ → σ} {s : σ} (inv : σ → Prop) (start : inv s)
    (round : ∀ i s, inv s → body i s = some (body' i s) ∧ inv (body' i s)) :
    forUpOption lo hi 1 body s = some (forUp lo hi 1 body' s) ∧
      inv (forUp lo hi 1 body' s) :=
  @forUp_rel_unit (Option σ) σ lo hi hle (fun i s => s.bind (body i)) body' (some s) s
    (fun _ s t => s = some t ∧ inv t) ⟨rfl, start⟩ (by
      rintro i s t - - ⟨rfl, h⟩
      exact round i t h)

/-- `for (n = n0; n < N; n <<= 1) s = body(n, s);`, with the final `n`. -/
def forDoubling (N : Nat) (body : Nat → σ → σ) (n : Nat) (s : σ) : σ × Nat :=
  if h : 0 < n ∧ n < N then
    forDoubling N body (n * 2) (body n s)
  else
    (s, n)
termination_by N - n

theorem forDoubling_step {N n : Nat} (h : 0 < n ∧ n < N) (body : Nat → σ → σ) (s : σ) :
    forDoubling N body n s = forDoubling N body (n * 2) (body n s) := by
  rw [forDoubling, dif_pos h]

theorem forDoubling_done {N n : Nat} (h : ¬(0 < n ∧ n < N)) (body : Nat → σ → σ) (s : σ) :
    forDoubling N body n s = (s, n) := by
  rw [forDoubling, dif_neg h]

theorem forDoubling_rel {N : Nat} {body₁ : Nat → σ → σ} {body₂ : Nat → τ → τ}
    (rel : Nat → σ → τ → Prop)
    (round : ∀ n s t, 0 < n → n < N → rel n s t → rel (n * 2) (body₁ n s) (body₂ n t)) :
    ∀ {n : Nat} {s : σ} {t : τ}, rel n s t →
      (forDoubling N body₁ n s).2 = (forDoubling N body₂ n t).2 ∧
        rel (forDoubling N body₁ n s).2 (forDoubling N body₁ n s).1
          (forDoubling N body₂ n t).1 := by
  intro n s
  induction n, s using forDoubling.induct N body₁ with
  | case1 n s h ih =>
      intro t start
      rw [forDoubling_step h, forDoubling_step h]
      exact ih (round n s t h.1 h.2 start)
  | case2 n s h =>
      intro t start
      rw [forDoubling_done h, forDoubling_done h]
      exact ⟨rfl, start⟩

/-- The doubling loop from a power of two goes through the powers of two. -/
theorem forDoubling_inv {N : Nat} {body : Nat → σ → σ} (inv : Nat → σ → Prop)
    (round : ∀ k s, 2 ^ k < N → inv k s → inv (k + 1) (body (2 ^ k) s)) {k : Nat} {s : σ}
    (start : inv k s) :
    ∃ l, (forDoubling N body (2 ^ k) s).2 = 2 ^ l ∧ inv l (forDoubling N body (2 ^ k) s).1 := by
  obtain ⟨_, l, hexit, hinv⟩ := @forDoubling_rel σ Unit N body (fun _ t => t)
    (fun n s _ => ∃ k, n = 2 ^ k ∧ inv k s)
    (fun n s _ _ hlt ⟨k, hn, h⟩ =>
      ⟨k + 1, by rw [hn, Nat.pow_succ], hn ▸ round k s (hn ▸ hlt) h⟩)
    (2 ^ k) s () ⟨k, rfl, start⟩
  exact ⟨l, hexit, hinv⟩

/-- Where the doubling loop stops: the last value run through the body is below the
bound and its double is not. -/
theorem forDoubling_exit {N : Nat} {body : Nat → σ → σ} {n : Nat} {s : σ} (hpos : 0 < n)
    (hlt : n < N) :
    ∃ k, (forDoubling N body n s).2 = n * 2 ^ k * 2 ∧ n * 2 ^ k < N ∧ N ≤ n * 2 ^ k * 2 := by
  induction n, s using forDoubling.induct N body with
  | case1 n s h ih =>
      rw [forDoubling_step h]
      by_cases hnext : n * 2 < N
      · obtain ⟨k, hexit, hbelow, habove⟩ := ih (by omega) hnext
        have hpow : n * 2 * 2 ^ k = n * 2 ^ (k + 1) := by
          rw [Nat.pow_succ', Nat.mul_assoc]
        rw [hpow] at hexit hbelow habove
        exact ⟨k + 1, hexit, hbelow, habove⟩
      · rw [forDoubling_done (by omega)]
        exact ⟨0, by simp, by simpa using hlt, by simpa using Nat.le_of_not_lt hnext⟩
  | case2 n s h => exact absurd ⟨hpos, hlt⟩ h

/-- `do s = body(s); while (n -= 2);` for an even `n` of at least two. -/
def doWhileMinusTwo (body : σ → σ) : Nat → σ → σ
  | n + 2, s => doWhileMinusTwo body n (body s)
  | _, s => s

theorem doWhileMinusTwo_rel {body₁ : σ → σ} {body₂ : τ → τ} (rel : σ → τ → Prop)
    (round : ∀ s t, rel s t → rel (body₁ s) (body₂ t)) (n : Nat) {s : σ} {t : τ}
    (start : rel s t) :
    rel (doWhileMinusTwo body₁ n s) (doWhileMinusTwo body₂ n t) := by
  induction n, s using doWhileMinusTwo.induct body₁ generalizing t with
  | case1 n s ih => exact ih (round s t start)
  | case2 n s h =>
      match n with
      | 0 => exact start
      | 1 => exact start
      | n + 2 => exact absurd rfl (h n)

end SojCivicLight.Library
