import SojCivicLight.Yespower.FourStart
import SojCivicLight.Yespower.Simulation

/-! The tables as a log.  A pwxform stores what its registers go through at the write
offset, and no later pwxform stores there before the offset has gone round.  So the
tables a hash leaves tell its early pwxforms apart. -/

namespace SojCivicLight.Yespower

open SojCivicLight.Library

section Pwxform

variable {S : Nat} {s : Region M128 × Yp2State}

theorem TablesOk.S0_cases {S0 S1 S2 w : Nat} (h : TablesOk S S0 S1 S2 w) :
    S0 = S ∨ S0 = S + 32768 ∨ S0 = S + 65536 :=
  mem_tables_iff.mp (h.perm.mem_iff.mp (by simp))

theorem TablesOk.S1_cases {S0 S1 S2 w : Nat} (h : TablesOk S S0 S1 S2 w) :
    S1 = S ∨ S1 = S + 32768 ∨ S1 = S + 65536 :=
  mem_tables_iff.mp (h.perm.mem_iff.mp (by simp))

theorem TablesOk.S0_ne_S1 {S0 S1 S2 w : Nat} (h : TablesOk S S0 S1 S2 w) : S0 ≠ S1 := by
  have hdistinct : [S0, S1, S2].Nodup := h.perm.nodup_iff.mpr (by simp)
  intro heq
  simp [heq] at hdistinct

/-- The offset of a byte in its table. -/
def tableOffset (S p : Nat) : Nat := (p - S) % 32768

theorem load_word (m : Region M128) (p : Nat) : load m (p / 16 * 16) = load m p := by
  rw [load, load, Nat.mul_div_cancel _ (by decide)]

theorem pwxformRoundWrite2_mem (s : Region M128 × Yp2State) :
    (pwxformRoundWrite2 s).1 =
      store (store s.1 (s.2.S0 + s.2.w) ((pwxformRoundWrite2 s).2.x 0)) (s.2.S1 + s.2.w)
        ((pwxformRoundWrite2 s).2.x 1) := by
  simp [pwxformRoundWrite2, pwxformStepWrite, pwxformStep, bumpW, Yp2State.setX,
    Function.update]

theorem pwxformRoundWrite2_x (s : Region M128 × Yp2State) :
    (pwxformRoundWrite2 s).2.x 2 =
        pwxformSimd (pwxformRoundWrite2 s).1 s.2.S0 s.2.S1 (s.2.x 2) ∧
      (pwxformRoundWrite2 s).2.x 3 =
        pwxformSimd (pwxformRoundWrite2 s).1 s.2.S0 s.2.S1 (s.2.x 3) := by
  constructor <;>
  simp [pwxformRoundWrite2, pwxformStepWrite, pwxformStep, bumpW, Yp2State.setX,
    Function.update]

theorem pwxformRoundWrite4_mem (s : Region M128 × Yp2State) :
    (pwxformRoundWrite4 s).1 =
      store (store (pwxformStepWrite 1 Yp2State.S1 (pwxformStepWrite 0 Yp2State.S0 s)).1
        (s.2.S0 + (s.2.w + 16)) ((pwxformRoundWrite4 s).2.x 2)) (s.2.S1 + (s.2.w + 16))
        ((pwxformRoundWrite4 s).2.x 3) := by
  simp [pwxformRoundWrite4, pwxformStepWrite, bumpW, Yp2State.setX, Function.update]

section Offsets

variable {p : Nat}

theorem TablesOk.places {S S0 S1 S2 w : Nat} (h : TablesOk S S0 S1 S2 w) :
    (S0 = S ∨ S0 = S + 32768 ∨ S0 = S + 65536) ∧
      (S1 = S ∨ S1 = S + 32768 ∨ S1 = S + 65536) ∧ S0 ≠ S1 ∧ w % 64 = 0 ∧ w < 32768 :=
  ⟨h.S0_cases, h.S1_cases, h.S0_ne_S1, h.aligned, h.bound⟩

theorem load_roundWrite4_offset (aligned : S % 16 = 0) (h : s.2.TablesOk S)
    (hp : p ∈ Set.Ico S (S + 98304))
    (hoff : tableOffset S p < s.2.w ∨ s.2.w + 32 ≤ tableOffset S p) :
    load (pwxformRoundWrite4 s).1 p = load s.1 p := by
  obtain ⟨h0, h1, -, hw, hbound⟩ := h.places
  obtain ⟨hlo, hhi⟩ := hp
  unfold tableOffset at hoff
  rw [← load_word _ p, ← load_word _ p]
  apply load_pwxformRoundWrite4
  · rcases h0 with h0 | h0 | h0 <;> rw [h0] <;> omega
  · rcases h1 with h1 | h1 | h1 <;> rw [h1] <;> omega

theorem load_roundWrite2_offset (aligned : S % 16 = 0)
    (h0 : s.2.S0 = S ∨ s.2.S0 = S + 32768 ∨ s.2.S0 = S + 65536)
    (h1 : s.2.S1 = S ∨ s.2.S1 = S + 32768 ∨ s.2.S1 = S + 65536)
    (hw : s.2.w % 16 = 0) (hbound : s.2.w + 16 ≤ 32768) (hp : p ∈ Set.Ico S (S + 98304))
    (hoff : tableOffset S p < s.2.w ∨ s.2.w + 16 ≤ tableOffset S p) :
    load (pwxformRoundWrite2 s).1 p = load s.1 p := by
  obtain ⟨hlo, hhi⟩ := hp
  unfold tableOffset at hoff
  rw [← load_word _ p, ← load_word _ p]
  apply load_pwxformRoundWrite2
  · rcases h0 with h0 | h0 | h0 <;> rw [h0] <;> omega
  · rcases h1 with h1 | h1 | h1 <;> rw [h1] <;> omega

theorem load_beforeLast (aligned : S % 16 = 0) (h : s.2.TablesOk S)
    (hp : p ∈ Set.Ico S (S + 98304))
    (hoff : tableOffset S p < s.2.w ∨ s.2.w + 48 ≤ tableOffset S p) :
    load (pwxformRoundWrite2 (pwxformRoundWrite4 s)).1 p = load s.1 p := by
  obtain ⟨h0, h1, -, hw, hbound⟩ := h.places
  have hround := pwxformRoundWrite4_w s
  rw [← pwxformRoundWrite4_S0 s] at h0
  rw [← pwxformRoundWrite4_S1 s] at h1
  rw [load_roundWrite2_offset (s := pwxformRoundWrite4 s) aligned h0 h1 (by omega) (by omega) hp
    (by omega), load_roundWrite4_offset aligned h hp (by omega)]

theorem load_lastRound (aligned : S % 16 = 0) (h : s.2.TablesOk S)
    (hp : p ∈ Set.Ico S (S + 98304))
    (hoff : tableOffset S p < s.2.w + 48 ∨ s.2.w + 64 ≤ tableOffset S p) :
    load (pwxform s).1 p = load (pwxformRoundWrite2 (pwxformRoundWrite4 s)).1 p := by
  obtain ⟨h0, h1, -, hw, hbound⟩ := h.places
  have hround := pwxformRoundWrite2_w (pwxformRoundWrite4 s)
  rw [pwxformRoundWrite4_w] at hround
  rw [← pwxformRoundWrite4_S0 s, ← pwxformRoundWrite2_S0] at h0
  rw [← pwxformRoundWrite4_S1 s, ← pwxformRoundWrite2_S1] at h1
  rw [pwxform, maskAndRotate_fst]
  exact load_roundWrite2_offset aligned h0 h1 (by omega) (by omega) hp (by omega)

/-- A pwxform stores at the 64 offsets from `w` on, and nowhere else in the tables. -/
theorem load_pwxform_offset (aligned : S % 16 = 0) (h : s.2.TablesOk S)
    (hp : p ∈ Set.Ico S (S + 98304))
    (hoff : tableOffset S p < s.2.w ∨ s.2.w + 64 ≤ tableOffset S p) :
    load (pwxform s).1 p = load s.1 p := by
  rw [load_lastRound aligned h hp (by omega), load_beforeLast aligned h hp (by omega)]

end Offsets

/-! What the log says: the registers a pwxform leaves are read off the tables it leaves. -/

theorem load_roundWrite2_columns {t : Region M128 × Yp2State}
    (hapart : Apart (t.2.S0 + t.2.w) (t.2.S1 + t.2.w)) :
    load (pwxformRoundWrite2 t).1 (t.2.S0 + t.2.w) = (pwxformRoundWrite2 t).2.x 0 ∧
      load (pwxformRoundWrite2 t).1 (t.2.S1 + t.2.w) = (pwxformRoundWrite2 t).2.x 1 := by
  rw [pwxformRoundWrite2_mem]
  exact ⟨by rw [load_store_apart hapart, load_store_self], load_store_self _ _ _⟩

theorem load_roundWrite4_columns
    (hapart : Apart (s.2.S0 + (s.2.w + 16)) (s.2.S1 + (s.2.w + 16))) :
    load (pwxformRoundWrite4 s).1 (s.2.S0 + (s.2.w + 16)) = (pwxformRoundWrite4 s).2.x 2 ∧
      load (pwxformRoundWrite4 s).1 (s.2.S1 + (s.2.w + 16)) = (pwxformRoundWrite4 s).2.x 3 := by
  rw [pwxformRoundWrite4_mem]
  exact ⟨by rw [load_store_apart hapart, load_store_self], load_store_self _ _ _⟩

theorem pwxform_x (aligned : S % 16 = 0) (h : s.2.TablesOk S) :
    let before := (pwxformRoundWrite2 (pwxformRoundWrite4 s)).1
    let after := (pwxform s).1
    let twice (X : M128) := pwxformSimd after s.2.S0 s.2.S1 (pwxformSimd before s.2.S0 s.2.S1 X)
    (pwxform s).2.x 0 = load after (s.2.S0 + (s.2.w + 48)) ∧
      (pwxform s).2.x 1 = load after (s.2.S1 + (s.2.w + 48)) ∧
      (pwxform s).2.x 2 = twice (load after (s.2.S0 + (s.2.w + 16))) ∧
      (pwxform s).2.x 3 = twice (load after (s.2.S1 + (s.2.w + 16))) := by
  obtain ⟨h0, h1, hne, hw, hbound⟩ := h.places
  have hapart : ∀ i, i + 16 ≤ 64 → Apart (s.2.S0 + (s.2.w + i)) (s.2.S1 + (s.2.w + i)) := by
    intro i hi
    unfold Apart
    omega
  -- columns 2 and 3 are stored once, in the first round, and stay in the tables
  have hkept : ∀ p, p ∈ Set.Ico S (S + 98304) → tableOffset S p = s.2.w + 16 →
      load (pwxform s).1 p = load (pwxformRoundWrite4 s).1 p := by
    intro p hp hoff
    have hround := pwxformRoundWrite4_w s
    rw [← pwxformRoundWrite4_S0 s] at h0
    rw [← pwxformRoundWrite4_S1 s] at h1
    rw [load_lastRound aligned h hp (by omega),
      load_roundWrite2_offset aligned h0 h1 (by omega) (by omega) hp (by omega)]
  have hlast := load_roundWrite2_columns (t := pwxformRoundWrite2 (pwxformRoundWrite4 s))
  simp only [pwxformRoundWrite2_S0, pwxformRoundWrite2_S1, pwxformRoundWrite2_w,
    pwxformRoundWrite4_S0, pwxformRoundWrite4_S1, pwxformRoundWrite4_w, Nat.add_assoc,
    Nat.reduceAdd] at hlast
  have hlast := hlast (hapart 48 (by omega))
  have hfirst := load_roundWrite4_columns (hapart 16 (by omega))
  have hbefore := pwxformRoundWrite2_x (pwxformRoundWrite4 s)
  have hafter := pwxformRoundWrite2_x (pwxformRoundWrite2 (pwxformRoundWrite4 s))
  simp only [pwxformRoundWrite2_S0, pwxformRoundWrite2_S1, pwxformRoundWrite4_S0,
    pwxformRoundWrite4_S1] at hbefore hafter
  have hmem : (pwxform s).1 =
      (pwxformRoundWrite2 (pwxformRoundWrite2 (pwxformRoundWrite4 s))).1 := by
    rw [pwxform, maskAndRotate_fst]
  have hx : (pwxform s).2.x =
      (pwxformRoundWrite2 (pwxformRoundWrite2 (pwxformRoundWrite4 s))).2.x := by
    rw [pwxform, maskAndRotate]
  rw [← hmem] at hlast hafter
  simp only [hx]
  refine ⟨hlast.1.symm, hlast.2.symm, ?_, ?_⟩
  · rw [hkept _ ⟨by omega, by omega⟩ (by unfold tableOffset; omega), hfirst.1, ← hbefore.1,
      hafter.1]
  · rw [hkept _ ⟨by omega, by omega⟩ (by unfold tableOffset; omega), hfirst.2, ← hbefore.2,
      hafter.2]

theorem pwxformSimd_agree {m m' : Region M128} (hmem : Agree (Set.Ico S (S + 98304)) m m')
    (h : s.2.TablesOk S) (X : M128) :
    pwxformSimd m s.2.S0 s.2.S1 X = pwxformSimd m' s.2.S0 s.2.S1 X :=
  @StepAgree.simd S _ (m, s.2) (m', s.2)
    { mem := hmem
      locals := rfl
      tables := Set.Subset.refl _
      S0_mem := h.S0_mem
      S1_mem := h.S1_mem } X

theorem Agree.eq_of_inside {m m' : Region M128} (inside : Agree (Set.Ico S (S + 98304)) m m')
    (outside : ∀ p, p + 16 ≤ S ∨ S + 98304 ≤ p → load m p = load m' p)
    (aligned : S % 16 = 0) : m = m' := by
  funext a
  have hword : load m (16 * a) = load m' (16 * a) := by
    by_cases hp : 16 * a ∈ Set.Ico S (S + 98304)
    · exact inside _ hp
    · rw [Set.mem_Ico] at hp
      exact outside _ (by omega)
  rwa [load, load, Nat.mul_div_cancel_left a (by decide)] at hword

/-- Two pwxforms from states that differ in their registers alone, and that leave the same
tables, leave the same. -/
theorem pwxform_eq_of_tables (aligned : S % 16 = 0) (h : s.2.TablesOk S) (X : Blk)
    (htab : Agree (Set.Ico S (S + 98304)) (pwxform (s.1, { s.2 with x := X })).1
      (pwxform s).1) :
    pwxform (s.1, { s.2 with x := X }) = pwxform s := by
  have h' : (s.1, { s.2 with x := X }).2.TablesOk S := h
  have hbefore : Agree (Set.Ico S (S + 98304))
      (pwxformRoundWrite2 (pwxformRoundWrite4 (s.1, { s.2 with x := X }))).1
      (pwxformRoundWrite2 (pwxformRoundWrite4 s)).1 := by
    intro p hp
    by_cases hoff : tableOffset S p < s.2.w ∨ s.2.w + 48 ≤ tableOffset S p
    · exact (load_beforeLast aligned h' hp hoff).trans (load_beforeLast aligned h hp hoff).symm
    · have hlog := htab p hp
      rwa [load_lastRound aligned h' hp (by dsimp only; omega),
        load_lastRound aligned h hp (by omega)] at hlog
  have hplaces := h.places
  have hread : ∀ i < 64, ∀ T, T = s.2.S0 ∨ T = s.2.S1 →
      load (pwxform (s.1, { s.2 with x := X })).1 (T + (s.2.w + i)) =
        load (pwxform s).1 (T + (s.2.w + i)) := by
    intro i hi T hT
    exact htab _ ⟨by omega, by omega⟩
  have htwice : ∀ Y, pwxformSimd (pwxform (s.1, { s.2 with x := X })).1 s.2.S0 s.2.S1
      (pwxformSimd (pwxformRoundWrite2 (pwxformRoundWrite4 (s.1, { s.2 with x := X }))).1
        s.2.S0 s.2.S1 Y) =
      pwxformSimd (pwxform s).1 s.2.S0 s.2.S1
        (pwxformSimd (pwxformRoundWrite2 (pwxformRoundWrite4 s)).1 s.2.S0 s.2.S1 Y) := by
    intro Y
    rw [pwxformSimd_agree htab h, pwxformSimd_agree hbefore h]
  obtain ⟨x0, x1, x2, x3⟩ := pwxform_x aligned h
  obtain ⟨x0', x1', x2', x3'⟩ := pwxform_x aligned h'
  dsimp only at x0' x1' x2' x3'
  have hx : (pwxform (s.1, { s.2 with x := X })).2.x = (pwxform s).2.x := by
    funext k
    match k with
    | 0 => rw [x0, x0', hread 48 (by omega) _ (Or.inl rfl)]
    | 1 => rw [x1, x1', hread 48 (by omega) _ (Or.inr rfl)]
    | 2 => rw [x2, x2', hread 16 (by omega) _ (Or.inl rfl), htwice]
    | 3 => rw [x3, x3', hread 16 (by omega) _ (Or.inr rfl), htwice]
  have hfields : ∀ t : Region M128 × Yp2State, (pwxform t).2 =
      { x := (pwxform t).2.x, S0 := t.2.S2, S1 := t.2.S0, S2 := t.2.S1
        w := (t.2.w + 64) &&& smask2_1_0.toNat } := fun _ => rfl
  refine Prod.ext ?_ ?_
  · exact Agree.eq_of_inside htab
      (fun p hp => (load_pwxform h' hp).trans (load_pwxform h hp).symm) aligned
  · rw [hfields, hfields s, hx]

end Pwxform

/-! Rounds: one pwxform between statements that leave the tables and their pointers
alone. -/

/-- A statement that changes no more than registers and memory outside the tables. -/
structure Silent (S : Nat) (f : Region M128 × Yp2State → Region M128 × Yp2State) : Prop where
  mem : ∀ s, Agree (Set.Ico S (S + 98304)) (f s).1 s.1
  S0 : ∀ s, (f s).2.S0 = s.2.S0
  S1 : ∀ s, (f s).2.S1 = s.2.S1
  S2 : ∀ s, (f s).2.S2 = s.2.S2
  w : ∀ s, (f s).2.w = s.2.w

structure LogRound (S : Nat) (round : Region M128 × Yp2State → Region M128 × Yp2State) :
    Prop where
  tablesOk : ∀ s, s.2.TablesOk S → (round s).2.TablesOk S
  w : ∀ s, s.2.TablesOk S → (round s).2.w = (s.2.w + 64) % 32768
  mem : ∀ s p, s.2.TablesOk S → p ∈ Set.Ico S (S + 98304) →
    tableOffset S p < s.2.w ∨ s.2.w + 64 ≤ tableOffset S p → load (round s).1 p = load s.1 p

section Rounds

variable {S : Nat}

theorem Silent.tablesOk {f : Region M128 × Yp2State → Region M128 × Yp2State}
    (silent : Silent S f) {s : Region M128 × Yp2State} (h : s.2.TablesOk S) :
    (f s).2.TablesOk S := by
  rw [Yp2State.TablesOk, silent.S0, silent.S1, silent.S2, silent.w]
  exact h

theorem silent_xorX (p : Nat) : Silent S (xorX p) :=
  ⟨fun _ _ _ => rfl, fun _ => rfl, fun _ => rfl, fun _ => rfl, fun _ => rfl⟩

theorem silent_id : Silent S id :=
  ⟨fun _ _ _ => rfl, fun _ => rfl, fun _ => rfl, fun _ => rfl, fun _ => rfl⟩

theorem Silent.comp {f g : Region M128 × Yp2State → Region M128 × Yp2State}
    (hf : Silent S f) (hg : Silent S g) : Silent S (fun s => f (g s)) :=
  { mem := fun s p hp => (hf.mem (g s) p hp).trans (hg.mem s p hp)
    S0 := fun s => (hf.S0 (g s)).trans (hg.S0 s)
    S1 := fun s => (hf.S1 (g s)).trans (hg.S1 s)
    S2 := fun s => (hf.S2 (g s)).trans (hg.S2 s)
    w := fun s => (hf.w (g s)).trans (hg.w s) }

theorem tables_storeBlk {q : Nat} (aligned : q % 16 = 0) (out : q + 64 ≤ S ∨ S + 98304 ≤ q)
    (m : Region M128) (b : Blk) : Agree (Set.Ico S (S + 98304)) (storeBlk m q b) m :=
  agree_storeBlk_outside m aligned b fun p hp => by
    obtain ⟨hlo, hhi⟩ := hp
    omega

theorem silent_writeX {q : Nat} (aligned : q % 16 = 0) (out : q + 64 ≤ S ∨ S + 98304 ≤ q) :
    Silent S (writeX q) :=
  { mem := fun s => tables_storeBlk aligned out s.1 s.2.x
    S0 := fun _ => rfl
    S1 := fun _ => rfl
    S2 := fun _ => rfl
    w := fun _ => rfl }

theorem silent_xorXWriteXorY2 {q : Nat} (aligned : q % 16 = 0)
    (out : q + 64 ≤ S ∨ S + 98304 ≤ q) (inp : Nat) : Silent S (xorXWriteXorY2 q inp) :=
  { mem := fun s => tables_storeBlk aligned out s.1 _
    S0 := fun _ => rfl
    S1 := fun _ => rfl
    S2 := fun _ => rfl
    w := fun _ => rfl }

theorem silent_writeRound {Bout last i r : Nat} (aligned : Bout % 16 = 0)
    (out : OutOfTables S r Bout) (hi : i < 2 * r) :
    Silent S (fun s => if i ≠ last then writeX (Bout + 64 * i) s else s) := by
  unfold OutOfTables at out
  by_cases hne : i ≠ last
  · simp only [if_pos hne]
    exact silent_writeX (by omega) (by omega)
  · simp only [if_neg hne]
    exact silent_id

theorem logRound_of_silent (aligned : S % 16 = 0)
    {pre post : Region M128 × Yp2State → Region M128 × Yp2State} (hpre : Silent S pre)
    (hpost : Silent S post) : LogRound S (fun s => post (pwxform (pre s))) :=
  { tablesOk := fun s h => hpost.tablesOk (tablesOk_pwxform (hpre.tablesOk h))
    w := fun s h => by
      have hmask := (hpre.tablesOk h).aligned
      have hbound := (hpre.tablesOk h).bound
      have hnext : (pwxform (pre s)).2.w = ((pre s).2.w + 64) &&& smask2_1_0.toNat := rfl
      rw [hpost.w, hnext, and_smask2_1_0 (by omega) (by omega), hpre.w]
    mem := fun s p h hp hoff => by
      rw [hpost.mem _ p hp,
        load_pwxform_offset aligned (hpre.tablesOk h) hp (by rwa [hpre.w]), hpre.mem _ p hp] }

variable {round : Nat → Region M128 × Yp2State → Region M128 × Yp2State}

theorem load_rounds {lo hi : Nat} (hle : lo ≤ hi)
    (hround : ∀ i, lo ≤ i → i < hi → LogRound S (round i)) {s : Region M128 × Yp2State}
    (h : s.2.TablesOk S) (hroom : s.2.w + 64 * (hi - lo) ≤ 32768) :
    (forUp lo hi 1 round s).2.TablesOk S ∧
      (forUp lo hi 1 round s).2.w = (s.2.w + 64 * (hi - lo)) % 32768 ∧
      ∀ p ∈ Set.Ico S (S + 98304),
        tableOffset S p < s.2.w ∨ s.2.w + 64 * (hi - lo) ≤ tableOffset S p →
        load (forUp lo hi 1 round s).1 p = load s.1 p := by
  refine forUp_inv_unit hle (fun i (t : Region M128 × Yp2State) => t.2.TablesOk S ∧
    t.2.w = (s.2.w + 64 * (i - lo)) % 32768 ∧ ∀ p ∈ Set.Ico S (S + 98304),
      tableOffset S p < s.2.w ∨ s.2.w + 64 * (i - lo) ≤ tableOffset S p →
        load t.1 p = load s.1 p) ?_ ?_
  · have hbound := h.bound
    exact ⟨h, by omega, fun _ _ _ => rfl⟩
  · rintro i t hlo hhi ⟨hok, hw, hmem⟩
    have hlog := hround i hlo hhi
    refine ⟨hlog.tablesOk t hok, ?_, fun p hp hoff => ?_⟩
    · rw [hlog.w t hok]
      omega
    · rw [hlog.mem t p hok hp (by omega), hmem p hp (by omega)]

/-- What round `i` has stored is still there after the last round. -/
theorem load_rounds_kept {count i : Nat} (hi : i < count)
    (hround : ∀ i < count, LogRound S (round i)) {s : Region M128 × Yp2State}
    (h : s.2.TablesOk S) (hroom : s.2.w + 64 * count ≤ 32768) {p : Nat}
    (hp : p ∈ Set.Ico S (S + 98304)) (hoff : tableOffset S p < s.2.w + 64 * (i + 1)) :
    load (forUp 0 count 1 round s).1 p = load (round i (forUp 0 i 1 round s)).1 p := by
  obtain ⟨hok, hw, -⟩ := load_rounds (Nat.zero_le (i + 1))
    (fun k _ hk => hround k (by omega)) h (by omega)
  rw [forUp_split (Nat.zero_le (i + 1)) hi, ← forUp_succ (Nat.zero_le i) round s]
  rcases Nat.lt_or_eq_of_le (show i + 1 ≤ count from hi) with hlt | rfl
  · obtain ⟨-, -, hmem⟩ := load_rounds hi (fun k _ hk => hround k hk) hok (by omega)
    exact hmem p hp (by omega)
  · rw [forUp_of_le (Nat.le_refl _)]

end Rounds

end SojCivicLight.Yespower
