import Mathlib.Data.List.Basic

/-! Runs of a partial step function, with the steps taken recorded latest first.
Invariant rules, and the rules that say exactly which runs keep a property. -/

namespace SojCivicLight.Library

variable {σ ε : Type} {step : σ → ε → Option σ} {init : σ}

inductive Run (step : σ → ε → Option σ) (init : σ) : List (σ × ε) → σ → Prop
  | start : Run step init [] init
  | next {trace s e s'} : Run step init trace s → step s e = some s' →
      Run step init ((s, e) :: trace) s'

/-- Every step taken meets `C`, read on the state before the step. -/
def Steps (C : σ → ε → Prop) (trace : List (σ × ε)) : Prop :=
  ∀ taken ∈ trace, C taken.1 taken.2

/-- `P` holds in every state visited, the last one included. -/
def Visits (P : σ → Prop) (trace : List (σ × ε)) (s : σ) : Prop :=
  P s ∧ ∀ taken ∈ trace, P taken.1

@[simp] theorem steps_nil (C : σ → ε → Prop) : Steps C [] :=
  fun _ member => absurd member List.not_mem_nil

@[simp] theorem steps_cons {C : σ → ε → Prop} {s : σ} {e : ε} {trace : List (σ × ε)} :
    Steps C ((s, e) :: trace) ↔ C s e ∧ Steps C trace := by
  simp [Steps]

@[simp] theorem visits_cons {P : σ → Prop} {s s' : σ} {e : ε} {trace : List (σ × ε)} :
    Visits P ((s, e) :: trace) s' ↔ P s' ∧ Visits P trace s := by
  simp [Visits]

/-- The invariant rule. -/
theorem Run.invariant {trace : List (σ × ε)} {s : σ} (run : Run step init trace s)
    (Inv : σ → Prop) (start : Inv init)
    (keep : ∀ s e s', Inv s → step s e = some s' → Inv s') : Inv s := by
  induction run with
  | start => exact start
  | next _ taken ih => exact keep _ _ _ ih taken

/-- The invariant rule for runs whose steps all meet `C`. -/
theorem Run.invariant_of_steps {trace : List (σ × ε)} {s : σ} (run : Run step init trace s)
    (Inv : σ → Prop) (C : σ → ε → Prop) (start : Inv init)
    (keep : ∀ s e s', Inv s → C s e → step s e = some s' → Inv s')
    (steps : Steps C trace) : Inv s := by
  induction run with
  | start => exact start
  | next _ taken ih =>
      rw [steps_cons] at steps
      exact keep _ _ _ (ih steps.2) steps.1 taken

/-- In a run whose steps all meet `C`, they all meet what `Inv` gives. -/
theorem Run.steps_of_steps {trace : List (σ × ε)} {s : σ} (run : Run step init trace s)
    (Inv : σ → Prop) {C D : σ → ε → Prop} (start : Inv init)
    (keep : ∀ s e s', Inv s → C s e → step s e = some s' → Inv s')
    (gives : ∀ s e s', Inv s → C s e → step s e = some s' → D s e)
    (steps : Steps C trace) : Steps D trace := by
  induction run with
  | start => exact steps_nil D
  | next run taken ih =>
      rw [steps_cons] at steps ⊢
      have inv := run.invariant_of_steps Inv C start keep steps.2
      exact ⟨gives _ _ _ inv steps.1 taken, ih steps.2⟩

/-- When `Inv` gives `P` and survives the steps that meet `C`, and the other steps break
`P`, the runs that keep `P` are those whose steps meet `C`. -/
theorem Run.visits_iff_steps {trace : List (σ × ε)} {s : σ} (run : Run step init trace s)
    {P : σ → Prop} (Inv : σ → Prop) (C : σ → ε → Prop) (start : Inv init) (holds : ∀ s, Inv s → P s)
    (keep : ∀ s e s', Inv s → C s e → step s e = some s' → Inv s')
    (breaks : ∀ s e s', Inv s → ¬ C s e → step s e = some s' → ¬ P s') :
    Visits P trace s ↔ Steps C trace := by
  induction run with
  | start => exact ⟨fun _ => steps_nil C, fun _ => ⟨holds _ start, by simp⟩⟩
  | @next trace s e s' run taken ih =>
      rw [visits_cons, steps_cons]
      constructor
      · rintro ⟨hs', hvisits⟩
        have steps := ih.mp hvisits
        have inv := run.invariant_of_steps Inv C start keep steps
        exact ⟨Classical.byContradiction fun hC => breaks _ _ _ inv hC taken hs', steps⟩
      · rintro ⟨hC, steps⟩
        have inv := run.invariant_of_steps Inv C start keep steps
        exact ⟨holds _ (keep _ _ _ inv hC taken), ih.mpr steps⟩

/-- Two conditions on a step that agree wherever `Inv` holds agree on runs. -/
theorem Run.steps_congr {trace : List (σ × ε)} {s : σ} (run : Run step init trace s)
    (Inv : σ → Prop) {C D : σ → ε → Prop} (start : Inv init)
    (keep : ∀ s e s', Inv s → step s e = some s' → Inv s')
    (agree : ∀ s e s', Inv s → step s e = some s' → (C s e ↔ D s e)) :
    Steps C trace ↔ Steps D trace := by
  induction run with
  | start => simp
  | next run taken ih =>
      rw [steps_cons, steps_cons, ih, agree _ _ _ (run.invariant Inv start keep) taken]

/-- A step that misses `C` leads from `Inv` to `Bad`, which no step leaves. -/
theorem Run.inv_or_bad {trace : List (σ × ε)} {s : σ} (run : Run step init trace s)
    (Inv Bad : σ → Prop) (C : σ → ε → Prop) (start : Inv init)
    (keep : ∀ s e s', Inv s → C s e → step s e = some s' → Inv s')
    (breaks : ∀ s e s', Inv s → ¬ C s e → step s e = some s' → Bad s')
    (stays : ∀ s e s', Bad s → step s e = some s' → Bad s') :
    (Steps C trace ∧ Inv s) ∨ (¬ Steps C trace ∧ Bad s) := by
  induction run with
  | start => exact Or.inl ⟨steps_nil C, start⟩
  | @next trace s e s' run taken ih =>
      rw [steps_cons]
      rcases ih with ⟨steps, inv⟩ | ⟨steps, bad⟩
      · by_cases hC : C s e
        · exact Or.inl ⟨⟨hC, steps⟩, keep _ _ _ inv hC taken⟩
        · exact Or.inr ⟨fun h => hC h.1, breaks _ _ _ inv hC taken⟩
      · exact Or.inr ⟨fun h => steps h.2, stays _ _ _ bad taken⟩

/-- The state after a list of events, when each of them is enabled. -/
def exec (step : σ → ε → Option σ) : σ → List ε → Option σ
  | s, [] => some s
  | s, e :: es => (step s e).bind (exec step · es)

theorem Run.exec {trace : List (σ × ε)} {s s' : σ} {es : List ε} (run : Run step init trace s)
    (h : exec step s es = some s') :
    ∃ trace', Run step init trace' s' ∧ trace'.map Prod.snd = es.reverse ++ trace.map Prod.snd := by
  induction es generalizing trace s with
  | nil =>
      obtain rfl : s = s' := Option.some.inj h
      exact ⟨trace, run, rfl⟩
  | cons e es ih =>
      obtain ⟨t, taken, rest⟩ := Option.bind_eq_some_iff.mp h
      obtain ⟨trace', run', hevents⟩ := ih (run.next taken) rest
      exact ⟨trace', run', by simpa using hevents⟩

/-- The step function where only steps that meet `C` are enabled. -/
def guarded (step : σ → ε → Option σ) (C : σ → ε → Prop) [∀ s e, Decidable (C s e)] (s : σ)
    (e : ε) : Option σ :=
  if C s e then step s e else none

theorem Run.of_guarded {C : σ → ε → Prop} [∀ s e, Decidable (C s e)]
    {trace : List (σ × ε)} {s : σ} (run : Run (guarded step C) init trace s) :
    Run step init trace s ∧ Steps C trace := by
  induction run with
  | start => exact ⟨.start, steps_nil C⟩
  | next run taken ih =>
      rw [guarded] at taken
      split at taken
      · rename_i met
        exact ⟨ih.1.next taken, (steps_cons ..).mpr ⟨met, ih.2⟩⟩
      · contradiction

/-- The step function beside an observer that takes a note of each step. -/
def observed {γ : Type} (step : σ → ε → Option σ) (note : σ → ε → σ → γ → γ) (s : σ × γ)
    (e : ε) : Option (σ × γ) :=
  (step s.1 e).map fun s' => (s', note s.1 e s' s.2)

theorem observed_eq_some {γ : Type} {note : σ → ε → σ → γ → γ} {s t : σ × γ} {e : ε} :
    observed step note s e = some t ↔
      ∃ s', step s.1 e = some s' ∧ (s', note s.1 e s' s.2) = t := Option.map_eq_some_iff

end SojCivicLight.Library
