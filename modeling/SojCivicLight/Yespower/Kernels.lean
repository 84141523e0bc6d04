import SojCivicLight.Yespower.LaneKernels

/-! SMix over any block mixes.  The scalar SMix and each lane of the two-lane SMix are
this one program, run with their own kernels. -/

namespace SojCivicLight.Yespower

open SojCivicLight.Library

/-- The block mixes of a fill loop, with their context as locals. -/
structure FillKernels (κ : Type) where
  mix : Nat → Nat → Nat → Region M128 × κ → Region M128 × κ
  mixXor : Nat → Nat → Nat → Nat → Region M128 × κ → Region M128 × κ × UInt32

variable {κ : Type}

def smix1RoundWith (K : FillKernels κ) (r V n i : Nat) (s : Region M128 × Smix1Vars κ) :
    Region M128 × Smix1Vars κ :=
  let blk := 64 * (2 * r)
  let Y := s.2.X + blk
  let j := (s.2.j &&& (n - 1)) + (i - 1)
  let t := K.mixXor s.2.X (V + blk * j) Y r (s.1, s.2.ctx)
  let j := (t.2.2.toNat &&& (n - 1)) + i
  let X := Y + blk
  let t := K.mixXor Y (V + blk * j) X r (t.1, t.2.1)
  (t.1, { ctx := t.2.1, X, Y, j := t.2.2.toNat })

/-- The part of `smix1` before its fill loop. -/
def smix1StartWith (K : FillKernels κ) (B r V : Nat) (s : Region M128 × κ) :
    Region M128 × Smix1Vars κ :=
  let blk := 64 * (2 * r)
  let X := V
  let Y := V + blk
  let m := forUp 0 2 1 (fun i => shuffleIn (B + 64 * i) Y (X + 64 * i)) s.1
  let s := forUp 1 r 1 (fun i => K.mix (X + 64 * ((i - 1) * 2)) (X + 64 * (i * 2)) 1) (m, s.2)
  let s := K.mix X Y r s
  let X := Y + blk
  let s := K.mix Y X r s
  (s.1, { ctx := s.2, X, Y, j := (integerify s.1 X r).toNat })

/-- The inner loop of the fill phase `n`. -/
def smix1FillWith (K : FillKernels κ) (r N V n : Nat) (s : Region M128 × Smix1Vars κ) :
    Region M128 × Smix1Vars κ :=
  forUp 1 (if n < N / 2 then n else N - 1 - n) 2 (smix1RoundWith K r V n) s

/-- The part of `smix1` after its fill loop, which left `n`. -/
def smix1EndWith (K : FillKernels κ) (B r N V XY n : Nat) (s : Region M128 × Smix1Vars κ) :
    Region M128 × κ :=
  let blk := 64 * (2 * r)
  let X := s.2.X
  let Y := X + blk
  let j := (s.2.j &&& (n - 1)) + (N - 2 - n)
  let t := K.mixXor X (V + blk * j) Y r (s.1, s.2.ctx)
  let j := (t.2.2.toNat &&& (n - 1)) + (N - 1 - n)
  let t := K.mixXor Y (V + blk * j) XY r (t.1, t.2.1)
  (forUp 0 (2 * r) 1 (fun i => unshuffleOut (XY + 64 * i) (XY + blk) (B + 64 * i)) t.1, t.2.1)

def smix1With (K : FillKernels κ) (B r N V XY : Nat) (s : Region M128 × κ) :
    Region M128 × κ :=
  let t := forDoubling N (smix1FillWith K r N V) 2 (smix1StartWith K B r V s)
  smix1EndWith K B r N V XY (t.2 / 2) t.1

/-- `blockmix` and `blockmix_xor` with their optional context. -/
def scalarKernels : FillKernels (Option PwxformCtx) where
  mix := fun Bin Bout r s => blockmix s.1 Bin Bout r s.2
  mixXor := fun Bin1 Bin2 Bout r s => blockmixXor s.1 Bin1 Bin2 Bout r s.2

/-- One lane of the paired Salsa20/2 kernels. -/
def salsaKernels : FillKernels Unit where
  mix := fun Bin Bout _ s => (blockmixSalsa s.1 Bin Bout, ())
  mixXor := fun Bin1 Bin2 Bout _ s =>
    let t := blockmixSalsaXor s.1 Bin1 Bin2 Bout
    (t.1, (), t.2)

/-- One lane of the pwxform kernels. -/
def pipeKernels : FillKernels PwxformCtx where
  mix := fun Bin Bout r s => blockmixPwxform s.1 Bin Bout r s.2
  mixXor := fun Bin1 Bin2 Bout r s => blockmixXorPipe s.1 Bin1 Bin2 Bout r s.2

theorem smix1_eq (m : Region M128) (B r N V XY : Nat) (ctx : Option PwxformCtx) :
    smix1 m B r N V XY ctx = smix1With scalarKernels B r N V XY (m, ctx) := by
  have hround : smix1Round r V = smix1RoundWith scalarKernels r V := rfl
  simp only [smix1, hround, smix1With, smix1StartWith, smix1EndWith, scalarKernels]
  rfl

/-- The block mix of the random walk, with its context as locals. -/
abbrev SaveKernel := Nat → Nat → Nat → Region M128 × PwxformCtx → Region M128 × PwxformCtx × UInt32

def smix2RoundWith (K : SaveKernel) (r N V X : Nat) (s : Region M128 × Smix2Vars) :
    Region M128 × Smix2Vars :=
  let blk := 64 * (2 * r)
  let t := K X (V + blk * s.2.j) r (s.1, s.2.ctx)
  let t := K X (V + blk * (t.2.2.toNat &&& (N - 1))) r (t.1, t.2.1)
  (t.1, { ctx := t.2.1, j := t.2.2.toNat &&& (N - 1) })

def smix2With (K : SaveKernel) (B r N Nloop V XY : Nat) (s : Region M128 × PwxformCtx) :
    Region M128 × PwxformCtx :=
  let X := XY
  let Y := XY + 64 * (2 * r)
  let m := forUp 0 (2 * r) 1 (fun i => shuffleIn (B + 64 * i) Y (X + 64 * i)) s.1
  let s := (m, ({ ctx := s.2, j := (integerify m X r).toNat &&& (N - 1) } : Smix2Vars))
  let s := doWhileMinusTwo (smix2RoundWith K r N V X) Nloop s
  (forUp 0 (2 * r) 1 (fun i => unshuffleOut (X + 64 * i) Y (B + 64 * i)) s.1, s.2.ctx)

def scalarSave : SaveKernel := fun Bin1out Bin2 r s => blockmixXorSave s.1 Bin1out Bin2 r s.2

def pipeSave : SaveKernel := fun Bin1out Bin2 r s => blockmixXorSavePipe s.1 Bin1out Bin2 r s.2

theorem smix2_eq (m : Region M128) (B r N Nloop V XY : Nat) (ctx : PwxformCtx) :
    smix2 m B r N Nloop V XY ctx = smix2With scalarSave B r N Nloop V XY (m, ctx) := by
  rfl

/-! The slots of a fill loop. -/

/-- The doubled phase counter of a fill loop with an even bound ends with room for the
two last slots. -/
theorem fill_exit {σ : Type} {N : Nat} (hN : 4 ≤ N) (heven : N % 2 = 0)
    (body : Nat → σ → σ) (s : σ) :
    ∃ n, (forDoubling N body 2 s).2 = n * 2 ∧ n % 2 = 0 ∧ 0 < n ∧ n + 2 ≤ N ∧ N ≤ n * 2 := by
  obtain ⟨k, hexit, hbelow, habove⟩ :=
    @forDoubling_exit σ N body 2 s (by omega) (by omega)
  have hpos : 0 < 2 ^ k := Nat.two_pow_pos k
  exact ⟨2 * 2 ^ k, hexit, by omega, by omega, by omega, habove⟩

/-- Phase `n` starts with slot `n` filled, and the last phase ends two slots before the
end. -/
def phaseSlot (N n : Nat) : Nat := if n < N then n else N - 2

/-- The inner loop of the fill phase `n`, with any round. -/
def fillPhase {σ : Type} (N : Nat) (round : Nat → Nat → σ → σ) (n : Nat) (s : σ) : σ :=
  forUp 1 (if n < N / 2 then n else N - 1 - n) 2 (round n) s

section Slots

variable {σ τ : Type} {N : Nat} {body₁ : Nat → Nat → σ → σ} {body₂ : Nat → Nat → τ → τ}
  {rel : Nat → σ → τ → Prop}

theorem fillPhase_slots (heven : N % 2 = 0)
    (round : ∀ n i slot s s', 0 < n → 1 ≤ i → slot + 1 = n + i → slot + 2 < N →
      rel slot s s' → rel (slot + 2) (body₁ n i s) (body₂ n i s'))
    {n : Nat} (hn : 0 < n) (hphase : n % 2 = 0) (hlt : n < N) {s : σ} {s' : τ}
    (h : rel (phaseSlot N n) s s') :
    rel (phaseSlot N (n * 2)) (fillPhase N body₁ n s) (fillPhase N body₂ n s') := by
  rw [phaseSlot, if_pos hlt] at h
  have loop := fun bound (hbound : n + bound < N) =>
    @forUp_rel _ _ 1 bound 2 (body₁ n) (body₂ n) s s'
      (fun i => rel (n + i - 1)) (by simpa using h)
      (fun k s s' hk h => by
        have hslot : n + (1 + 2 * (k + 1)) - 1 = n + (1 + 2 * k) - 1 + 2 := by omega
        rw [hslot]
        exact round n (1 + 2 * k) _ s s' hn (by omega) (by omega) (by omega) h)
  simp only [fillPhase]
  by_cases hhalf : n < N / 2
  · -- a full phase fills `n` more slots
    have := loop n (by omega)
    rw [if_pos hhalf, phaseSlot, if_pos (by omega)]
    rwa [show n + (1 + 2 * ((n - 1 + 2 - 1) / 2)) - 1 = n * 2 by omega] at this
  · have := loop (N - 1 - n) (by omega)
    rw [if_neg hhalf, phaseSlot, if_neg (by omega)]
    rwa [show n + (1 + 2 * ((N - 1 - n - 1 + 2 - 1) / 2)) - 1 = N - 2 by omega] at this

/-- Two fill loops, slot by slot: they leave the same phase counter, with all slots but the
last two filled. -/
theorem fillPhases_slots (hN : 4 ≤ N) (heven : N % 2 = 0)
    (round : ∀ n i slot s s', 0 < n → 1 ≤ i → slot + 1 = n + i → slot + 2 < N →
      rel slot s s' → rel (slot + 2) (body₁ n i s) (body₂ n i s'))
    {s : σ} {s' : τ} (start : rel 2 s s') :
    ∃ n, 0 < n ∧ n + 2 ≤ N ∧ (forDoubling N (fillPhase N body₁) 2 s).2 = n * 2 ∧
      (forDoubling N (fillPhase N body₂) 2 s').2 = n * 2 ∧
      rel (N - 2) (forDoubling N (fillPhase N body₁) 2 s).1
        (forDoubling N (fillPhase N body₂) 2 s').1 := by
  have loop := forDoubling_rel (fun n s s' => n % 2 = 0 ∧ rel (phaseSlot N n) s s')
    (fun n s s' hpos hlt h =>
      ⟨by omega, fillPhase_slots heven round hpos h.1 hlt h.2⟩)
    (n := 2) ⟨rfl, by rw [phaseSlot, if_pos (by omega)]; exact start⟩
  obtain ⟨n, hexit, _, hn, hroom, habove⟩ := fill_exit hN heven (fillPhase N body₁) s
  obtain ⟨hsame, _, hfill⟩ := loop
  rw [hexit, phaseSlot, if_neg (by omega)] at hfill
  exact ⟨n, hn, hroom, hexit, hsame.symm.trans hexit, hfill⟩

variable {κ κ' : Type} {K : FillKernels κ} {K' : FillKernels κ'} {r V : Nat}
  {rel : Nat → Region M128 × Smix1Vars κ → Region M128 × Smix1Vars κ' → Prop}

/-- The fill loops of two SMix. -/
theorem fill_slots (hN : 4 ≤ N) (heven : N % 2 = 0)
    (round : ∀ n i slot s s', 0 < n → 1 ≤ i → slot + 1 = n + i → slot + 2 < N →
      rel slot s s' →
      rel (slot + 2) (smix1RoundWith K r V n i s) (smix1RoundWith K' r V n i s'))
    {s : Region M128 × Smix1Vars κ} {s' : Region M128 × Smix1Vars κ'} (start : rel 2 s s') :
    ∃ n, 0 < n ∧ n + 2 ≤ N ∧ (forDoubling N (smix1FillWith K r N V) 2 s).2 = n * 2 ∧
      (forDoubling N (smix1FillWith K' r N V) 2 s').2 = n * 2 ∧
      rel (N - 2) (forDoubling N (smix1FillWith K r N V) 2 s).1
        (forDoubling N (smix1FillWith K' r N V) 2 s').1 :=
  fillPhases_slots hN heven round start

end Slots

/-! The lanes of the two-lane SMix. -/

section Lanes

variable {ρ : Type} [DecidableEq ρ] {reg : Fin 2 → ρ}

theorem lane_civicSmix1Salsa2wayRound (hreg : Function.Injective reg) (V : Fin 2 → Nat)
    {n i : Nat} (hi : 1 ≤ i) (P : Lanes 2 ρ M128 (Smix1Vars Unit)) (l : Fin 2) :
    (civicSmix1Salsa2wayRound reg V n i P).lane reg l =
      smix1RoundWith salsaKernels 1 (V l) n i (P.lane reg l) := by
  have hindex : ∀ j, (j &&& (n - 1)) + i - 1 = (j &&& (n - 1)) + (i - 1) := by omega
  have hmix := fun Bin1 Bin2 Bout h => Prod.ext_iff.mp
    (lane_civicBlockmixSalsaXor2way hreg Bin1 Bin2 Bout h l)
  simp only at hmix
  simp only [civicSmix1Salsa2wayRound, smix1RoundWith, salsaKernels, Lanes.lane, hindex,
    (hmix _ _ _ _).1, (hmix _ _ _ _).2]

theorem lane_civicSmix1_1_0_2wayRound (hreg : Function.Injective reg) (r : Nat)
    (V : Fin 2 → Nat) {n i : Nat} (hi : 1 ≤ i)
    (P : Lanes 2 ρ M128 (Smix1Vars PwxformCtx)) (l : Fin 2) :
    (civicSmix1_1_0_2wayRound reg r V n i P).lane reg l =
      smix1RoundWith pipeKernels r (V l) n i (P.lane reg l) := by
  have hindex : ∀ j, (j &&& (n - 1)) + i - 1 = (j &&& (n - 1)) + (i - 1) := by omega
  have hmix := fun Bin1 Bin2 Bout Q => Prod.ext_iff.mp
    (lane_civicBlockmixXor2wayPipe hreg Bin1 Bin2 Bout r Q l)
  simp only [Lanes.lane] at hmix
  simp only [civicSmix1_1_0_2wayRound, smix1RoundWith, pipeKernels, Lanes.lane, ctxLanes,
    hindex, (hmix _ _ _ _).1, (hmix _ _ _ _).2]

theorem lane_civicSmix1Salsa2wayStart (hreg : Function.Injective reg) (B V : Fin 2 → Nat)
    (h : Heap ρ M128) (l : Fin 2) :
    (civicSmix1Salsa2wayStart reg B V h).lane reg l =
      smix1StartWith salsaKernels (B l) 1 (V l) (h (reg l), ()) := by
  simp only [civicSmix1Salsa2wayStart, smix1StartWith, salsaKernels, Lanes.lane,
    forUp_of_le (Nat.le_refl 1), lane_civicBlockmixSalsa2way hreg, lane_eachLane hreg]

theorem lane_civicSmix1Salsa2wayEnd (hreg : Function.Injective reg) (B V XY : Fin 2 → Nat)
    {N n : Nat} (hn : n + 2 ≤ N) (P : Lanes 2 ρ M128 (Smix1Vars Unit)) (l : Fin 2) :
    civicSmix1Salsa2wayEnd reg B V XY N n P (reg l) =
      (smix1EndWith salsaKernels (B l) 1 N (V l) (XY l) n (P.lane reg l)).1 := by
  have hindex2 : ∀ j, (j &&& (n - 1)) + N - 2 - n = (j &&& (n - 1)) + (N - 2 - n) := by omega
  have hindex1 : ∀ j, (j &&& (n - 1)) + N - 1 - n = (j &&& (n - 1)) + (N - 1 - n) := by omega
  have hmix := fun Bin1 Bin2 Bout h => Prod.ext_iff.mp
    (lane_civicBlockmixSalsaXor2way hreg Bin1 Bin2 Bout h l)
  simp only at hmix
  simp only [civicSmix1Salsa2wayEnd, smix1EndWith, salsaKernels, Lanes.lane, hindex1, hindex2,
    lane_eachLane hreg, (hmix _ _ _ _).1, (hmix _ _ _ _).2]

theorem lane_civicSmix1Salsa2way (hreg : Function.Injective reg) (B V XY : Fin 2 → Nat)
    (h : Heap ρ M128) (l : Fin 2) :
    civicSmix1Salsa2way reg B V XY h (reg l) =
      (smix1With salsaKernels (B l) 1 768 (V l) (XY l) (h (reg l), ())).1 := by
  have hfill := @Lanes.lane_forDoubling 2 ρ M128 (Smix1Vars Unit) reg l 768
    (fun n P => forUp 1 (if n < 768 / 2 then n else 768 - 1 - n) 2
      (civicSmix1Salsa2wayRound reg V n) P)
    (smix1FillWith salsaKernels 1 768 (V l))
    (fun n P => Lanes.lane_forUp (fun k P _ =>
      lane_civicSmix1Salsa2wayRound hreg V (by omega) P l) P) 2
    (civicSmix1Salsa2wayStart reg B V h)
  rw [lane_civicSmix1Salsa2wayStart hreg] at hfill
  obtain ⟨n, hexit, _, _, hroom, _⟩ := @fill_exit _ 768 (by omega) rfl
    (smix1FillWith salsaKernels 1 768 (V l))
    (smix1StartWith salsaKernels (B l) 1 (V l) (h (reg l), ()))
  have hhalf : n * 2 / 2 = n := by omega
  simp only [civicSmix1Salsa2way, smix1With, hfill.1, hexit, hhalf]
  rw [lane_civicSmix1Salsa2wayEnd hreg _ _ _ hroom, hfill.2]

theorem lane_civicSmix1_1_0_2wayStart (hreg : Function.Injective reg) (B : Fin 2 → Nat)
    (r : Nat) (V : Fin 2 → Nat) (P : Lanes 2 ρ M128 PwxformCtx) (l : Fin 2) :
    (civicSmix1_1_0_2wayStart reg B r V P).lane reg l =
      smix1StartWith pipeKernels (B l) r (V l) (P.lane reg l) := by
  have hmix := fun Bin Bout r Q => Prod.ext_iff.mp
    (lane_civicBlockmix2way hreg Bin Bout r Q l)
  simp only [Lanes.lane] at hmix
  have hloop := fun (X : Fin 2 → Nat) Q =>
    Prod.ext_iff.mp (@Lanes.lane_forUp 2 ρ M128 PwxformCtx reg l
      (fun i => civicBlockmix2way reg (fun l => X l + 64 * ((i - 1) * 2))
        (fun l => X l + 64 * (i * 2)) 1)
      (fun i => pipeKernels.mix (X l + 64 * ((i - 1) * 2)) (X l + 64 * (i * 2)) 1) 1 r 1
      (fun k Q _ => lane_civicBlockmix2way hreg _ _ 1 Q l) Q)
  simp only [Lanes.lane] at hloop
  simp only [civicSmix1_1_0_2wayStart, smix1StartWith, Lanes.lane, (hmix _ _ _ _).1,
    (hmix _ _ _ _).2, (hloop _ _).1, (hloop _ _).2, ctxLanes, lane_eachLane hreg]
  rfl

theorem lane_civicSmix1_1_0_2wayEnd (hreg : Function.Injective reg) (B : Fin 2 → Nat)
    (r : Nat) (V XY : Fin 2 → Nat) {N n : Nat} (hn : n + 2 ≤ N)
    (P : Lanes 2 ρ M128 (Smix1Vars PwxformCtx)) (l : Fin 2) :
    (civicSmix1_1_0_2wayEnd reg B r N V XY n P).lane reg l =
      smix1EndWith pipeKernels (B l) r N (V l) (XY l) n (P.lane reg l) := by
  have hindex2 : ∀ j, (j &&& (n - 1)) + N - 2 - n = (j &&& (n - 1)) + (N - 2 - n) := by omega
  have hindex1 : ∀ j, (j &&& (n - 1)) + N - 1 - n = (j &&& (n - 1)) + (N - 1 - n) := by omega
  have hmix := fun Bin1 Bin2 Bout Q => Prod.ext_iff.mp
    (lane_civicBlockmixXor2wayPipe hreg Bin1 Bin2 Bout r Q l)
  simp only [Lanes.lane] at hmix
  simp only [civicSmix1_1_0_2wayEnd, smix1EndWith, pipeKernels, Lanes.lane, ctxLanes, hindex1,
    hindex2, lane_eachLane hreg, (hmix _ _ _ _).1, (hmix _ _ _ _).2]

theorem lane_civicSmix1_1_0_2way (hreg : Function.Injective reg) (B : Fin 2 → Nat)
    (r : Nat) {N : Nat} (hN : 4 ≤ N) (heven : N % 2 = 0) (V XY : Fin 2 → Nat)
    (P : Lanes 2 ρ M128 PwxformCtx) (l : Fin 2) :
    (civicSmix1_1_0_2way reg B r N V XY P).lane reg l =
      smix1With pipeKernels (B l) r N (V l) (XY l) (P.lane reg l) := by
  have hfill := @Lanes.lane_forDoubling 2 ρ M128 (Smix1Vars PwxformCtx) reg l N
    (fun n P => forUp 1 (if n < N / 2 then n else N - 1 - n) 2
      (civicSmix1_1_0_2wayRound reg r V n) P)
    (smix1FillWith pipeKernels r N (V l))
    (fun n P => Lanes.lane_forUp (fun k P _ =>
      lane_civicSmix1_1_0_2wayRound hreg r V (by omega) P l) P) 2
    (civicSmix1_1_0_2wayStart reg B r V P)
  rw [lane_civicSmix1_1_0_2wayStart hreg] at hfill
  obtain ⟨n, hexit, _, _, hroom, _⟩ := fill_exit hN heven
    (smix1FillWith pipeKernels r N (V l))
    (smix1StartWith pipeKernels (B l) r (V l) (P.lane reg l))
  have hhalf : n * 2 / 2 = n := by omega
  simp only [civicSmix1_1_0_2way, smix1With, hfill.1, hexit, hhalf]
  rw [lane_civicSmix1_1_0_2wayEnd hreg _ _ _ _ hroom, hfill.2]

theorem lane_civicSmix2_1_0_2wayRound (hreg : Function.Injective reg) (r N : Nat)
    (V X : Fin 2 → Nat) (P : Lanes 2 ρ M128 Smix2Vars) (l : Fin 2) :
    (civicSmix2_1_0_2wayRound reg r N V X P).lane reg l =
      smix2RoundWith pipeSave r N (V l) (X l) (P.lane reg l) := by
  have hmix := fun Bin1 Bin2 Q => Prod.ext_iff.mp
    (lane_civicBlockmixXorSave2wayPipe hreg Bin1 Bin2 r Q l)
  simp only [Lanes.lane] at hmix
  simp only [civicSmix2_1_0_2wayRound, smix2RoundWith, pipeSave, Lanes.lane, ctxLanes,
    (hmix _ _ _).1, (hmix _ _ _).2]

theorem lane_civicSmix2_1_0_2way (hreg : Function.Injective reg) (B : Fin 2 → Nat)
    (r N Nloop : Nat) (V XY : Fin 2 → Nat) (P : Lanes 2 ρ M128 PwxformCtx) (l : Fin 2) :
    (civicSmix2_1_0_2way reg B r N Nloop V XY P).lane reg l =
      smix2With pipeSave (B l) r N Nloop (V l) (XY l) (P.lane reg l) := by
  have hwalk := fun Q => Prod.ext_iff.mp (Lanes.lane_doWhileMinusTwo
    (fun P => lane_civicSmix2_1_0_2wayRound hreg r N V XY P l) Nloop Q)
  simp only [Lanes.lane] at hwalk
  simp only [civicSmix2_1_0_2way, smix2With, Lanes.lane, ctxLanes, lane_eachLane hreg,
    (hwalk _).1, (hwalk _).2]

end Lanes

end SojCivicLight.Yespower
