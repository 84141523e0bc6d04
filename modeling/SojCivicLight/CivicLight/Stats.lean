import Mathlib.Algebra.Order.Ring.Rat
import Mathlib.Data.List.Chain
import Mathlib.Tactic.Linarith
import Mathlib.Tactic.NormNum
import SojCivicLight.Library.RingBuffer

/-! The hash rates of the statistics thread, in exact arithmetic. -/

namespace SojCivicLight.CivicLight

open SojCivicLight.Library

structure Timeval where
  tvSec : Int
  tvUsec : Int

def timevalSeconds (tv : Timeval) : ℚ := tv.tvSec + tv.tvUsec * (1 / 1000000)

structure RateSample where
  time : Timeval
  hashes : ℚ

abbrev RateSample.seconds (sample : RateSample) : ℚ := timevalSeconds sample.time

/-- `rate_samples`, `rate_sample_next` and `rate_sample_count` -/
abbrev RateSamples := RingBuffer 92 RateSample

/-- The loop of `window_rate`, from the latest sample back to the first one before the window. -/
def oldestIn (rates : RateSamples) (cutoff : ℚ) (age : Nat) (oldest : Option RateSample) :
    Option RateSample :=
  if age ≤ rates.count then
    let sample := rates.back age
    if sample.seconds < cutoff then oldest else oldestIn rates cutoff (age + 1) (some sample)
  else oldest
termination_by rates.count + 1 - age

def windowRate (rates : RateSamples) (now : Timeval) (hashes : ℚ) (windowSeconds : Nat) : ℚ :=
  let nowSeconds := timevalSeconds now
  let cutoff := nowSeconds - windowSeconds
  match oldestIn rates cutoff 1 none with
  | none => 0
  | some oldest =>
      let elapsed := nowSeconds - oldest.seconds
      if 0 < elapsed then (hashes - oldest.hashes) / elapsed else 0

structure Rates where
  rate1m : ℚ
  rate5m : ℚ
  rate15m : ℚ

/-- One round of `civiclight_stats_thread`: what it reports and the samples behind it. -/
def statsRound (rates : RateSamples) (now : RateSample) : Rates × RateSamples where
  fst :=
    { rate1m := windowRate rates now.time now.hashes 60
      rate5m := windowRate rates now.time now.hashes 300
      rate15m := windowRate rates now.time now.hashes 900 }
  snd := rates.push now

/-- The samples after the start of the thread and some rounds. -/
def statsRun (memory : Fin 92 → RateSample) (started : RateSample) (rounds : List RateSample) :
    RateSamples :=
  rounds.foldl (fun rates now => (statsRound rates now).2) (RingBuffer.start memory started)

/-! The rate over a window, from all samples ever taken. -/

/-- The rate since the oldest sample in the window, with the samples in the order they were
taken. -/
def rateSince (history : List RateSample) (now : RateSample) (windowSeconds : Nat) : ℚ :=
  match history.find? fun sample => now.seconds - windowSeconds ≤ sample.seconds with
  | none => 0
  | some oldest =>
      if now.seconds = oldest.seconds then 0
      else (now.hashes - oldest.hashes) / (now.seconds - oldest.seconds)

/-- The clock does not go back, and each sample is ten seconds behind the one before it. -/
structure Spaced (history : List RateSample) (now : RateSample) : Prop where
  apart : history.IsChain fun earlier later => earlier.seconds + 10 ≤ later.seconds
  past : ∀ sample ∈ history, sample.seconds ≤ now.seconds

theorem holds_statsRun (memory : Fin 92 → RateSample) (started : RateSample)
    (rounds : List RateSample) :
    (statsRun memory started rounds).Holds (started :: rounds) := by
  have step : ∀ {rates : RateSamples} {history : List RateSample}, rates.Holds history →
      (rounds.foldl (fun rates now => (statsRound rates now).2) rates).Holds
        (history ++ rounds) := by
    induction rounds with
    | nil =>
        intro rates history h
        rw [List.append_nil]
        exact h
    | cons now rounds ih =>
        intro rates history h
        rw [List.append_cons]
        exact ih (h.push now)
  exact step (RingBuffer.holds_start memory started)

theorem Spaced.elapsed {history : List RateSample} {now : RateSample} (h : Spaced history now)
    {i k : Nat} (hk : i + k < history.length) :
    history[i].seconds + 10 * k ≤ history[i + k].seconds := by
  induction k with
  | zero => simp
  | succ k ih =>
      have hstep := List.isChain_iff_getElem.mp h.apart (i + k) hk
      have := ih (Nat.lt_of_succ_lt hk)
      have hindex : i + (k + 1) = i + k + 1 := rfl
      simp only [hindex]
      push_cast
      linarith

/-- A sample that the ring has let go of is older than the widest window. -/
theorem Spaced.evicted {history : List RateSample} {now : RateSample} (h : Spaced history now)
    {i : Nat} (hi : i + 92 < history.length) : history[i].seconds + 920 ≤ now.seconds := by
  have hlast := h.past history[i + 92] (List.getElem_mem hi)
  have := h.elapsed hi
  push_cast at this
  linarith

theorem Spaced.le_of_le {history : List RateSample} {now : RateSample} (h : Spaced history now)
    {i j : Nat} (hij : i ≤ j) (hj : j < history.length) :
    history[i].seconds ≤ history[j].seconds := by
  obtain ⟨k, rfl⟩ := Nat.exists_eq_add_of_le hij
  have := h.elapsed hj
  have : (0 : ℚ) ≤ k := Nat.cast_nonneg k
  linarith

theorem find?_of_split {history : List RateSample} {cutoff : ℚ} {k : Nat}
    (before : ∀ sample ∈ history.take k, sample.seconds < cutoff)
    (inside : ∀ sample ∈ history.drop k, cutoff ≤ sample.seconds) :
    history.find? (fun sample => cutoff ≤ sample.seconds) = (history.drop k).head? := by
  have hnone : (history.take k).find? (fun sample => cutoff ≤ sample.seconds) = none := by
    rw [List.find?_eq_none]
    intro sample hsample hin
    exact absurd (before sample hsample) (not_lt_of_ge (of_decide_eq_true hin))
  conv_lhs => rw [← List.take_append_drop k history]
  rw [List.find?_append, hnone, Option.none_or]
  cases hdrop : history.drop k with
  | nil => rfl
  | cons sample rest =>
      rw [hdrop] at inside
      exact List.find?_cons_of_pos (decide_eq_true (inside sample (List.mem_cons_self ..)))

/-- The loop finds the oldest sample in the window: `k` samples have been looked at. -/
theorem oldestIn_eq {rates : RateSamples} {history : List RateSample} {now : RateSample}
    (holds : rates.Holds history) (spaced : Spaced history now) {cutoff : ℚ}
    (hcutoff : now.seconds - 900 ≤ cutoff) {k : Nat} (hk : k ≤ rates.count)
    (inside : ∀ sample ∈ history.drop (history.length - k), cutoff ≤ sample.seconds) :
    oldestIn rates cutoff (k + 1) (history.drop (history.length - k)).head? =
      history.find? fun sample => cutoff ≤ sample.seconds := by
  have hcount := holds.count
  induction hleft : rates.count - k generalizing k with
  | zero =>
      -- what is not in the ring is older than any window
      rw [oldestIn, if_neg (by omega)]
      refine (find?_of_split (fun sample hsample => ?_) inside).symm
      obtain ⟨i, hi, rfl⟩ := List.mem_take_iff_getElem.mp hsample
      have := spaced.evicted (i := i) (by omega)
      linarith
  | succ left ih =>
      have hage : k + 1 ≤ rates.count := by omega
      obtain ⟨hindex, hback⟩ := holds.back (Nat.succ_pos k) hage
      rw [oldestIn, if_pos hage, hback]
      dsimp only
      by_cases hold : history[history.length - (k + 1)].seconds < cutoff
      · rw [if_pos hold]
        refine (find?_of_split (fun sample hsample => ?_) inside).symm
        obtain ⟨i, hi, rfl⟩ := List.mem_take_iff_getElem.mp hsample
        have := spaced.le_of_le (i := i) (show i ≤ history.length - (k + 1) by omega) hindex
        linarith
      · have hdrop : history.drop (history.length - (k + 1)) =
            history[history.length - (k + 1)] :: history.drop (history.length - k) := by
          rw [List.drop_eq_getElem_cons hindex]
          congr 2
          omega
        have next := ih hage (fun sample hsample => by
          rw [hdrop] at hsample
          rcases List.mem_cons.mp hsample with rfl | hsample
          · exact le_of_not_gt hold
          · exact inside sample hsample) (by omega)
        rw [if_neg hold, ← next, hdrop, List.head?_cons]

/-- The ring of 92 samples gives the rates that all samples would give. -/
theorem window_rate_of_history (memory : Fin 92 → RateSample) (started : RateSample)
    (rounds : List RateSample) (now : RateSample) (spaced : Spaced (started :: rounds) now)
    (windowSeconds : Nat)
    (hwindow : windowSeconds = 60 ∨ windowSeconds = 300 ∨ windowSeconds = 900) :
    windowRate (statsRun memory started rounds) now.time now.hashes windowSeconds =
      rateSince (started :: rounds) now windowSeconds := by
  have hcutoff : now.seconds - 900 ≤ now.seconds - windowSeconds := by
    rcases hwindow with rfl | rfl | rfl <;> push_cast <;> linarith
  have hfind := oldestIn_eq (holds_statsRun memory started rounds) spaced hcutoff (Nat.zero_le _)
    (fun sample hsample => by
      rw [Nat.sub_zero, List.drop_length] at hsample
      exact absurd hsample List.not_mem_nil)
  rw [Nat.sub_zero, List.drop_length, List.head?_nil] at hfind
  rw [windowRate, rateSince, ← hfind]
  dsimp only
  cases holdest : oldestIn (statsRun memory started rounds)
      (timevalSeconds now.time - windowSeconds) 1 none with
  | none => rfl
  | some oldest =>
      rw [holdest] at hfind
      have hmem : oldest ∈ started :: rounds := List.mem_of_find?_eq_some hfind.symm
      have hpast := spaced.past oldest hmem
      dsimp only
      by_cases hsame : now.seconds = oldest.seconds
      · have hzero : ¬0 < now.seconds - oldest.seconds := by
          rw [hsame, sub_self]
          exact lt_irrefl 0
        rw [if_pos hsame, if_neg hzero]
      · rw [if_neg hsame, if_pos (sub_pos.mpr (lt_of_le_of_ne hpast (Ne.symm hsame)))]

theorem window_rate_three :
    windowRate (statsRun (fun _ => ⟨⟨0, 0⟩, 0⟩) ⟨⟨100, 0⟩, 5⟩ [⟨⟨110, 500000⟩, 50⟩])
        ⟨121, 0⟩ 110 60 =
      rateSince [⟨⟨100, 0⟩, 5⟩, ⟨⟨110, 500000⟩, 50⟩] ⟨⟨121, 0⟩, 110⟩ 60 :=
  window_rate_of_history _ _ [⟨⟨110, 500000⟩, 50⟩] ⟨⟨121, 0⟩, 110⟩
    ⟨by simp [timevalSeconds]; norm_num, by simp [timevalSeconds]; norm_num⟩ 60 (Or.inl rfl)

end SojCivicLight.CivicLight
