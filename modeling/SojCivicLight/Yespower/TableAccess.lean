import SojCivicLight.Yespower.TwoWayVariants

/-! Where `civic_pwxform_2way_ilv` reads and writes: the same function with each access
checked against the tables, in any sequence of block mixes. -/

namespace SojCivicLight.Yespower

open SojCivicLight.Library

variable {ρ : Type} [DecidableEq ρ]

/-- Sixteen bytes at the offset `off` of a table. -/
def InTable (T : Fin 3 → Nat) (p off : Nat) : Prop := (∃ i, p = T i) ∧ off + 16 ≤ 32768

instance (T : Fin 3 → Nat) (p off : Nat) : Decidable (InTable T p off) :=
  inferInstanceAs (Decidable (_ ∧ _))

instance (T : Fin 3 → Nat) (S0 S1 S2 w : Nat) : Decidable (TablesAt T S0 S1 S2 w) :=
  decidable_of_iff ([S0, S1, S2].Perm [T 0, T 1, T 2] ∧ w % 64 = 0 ∧ w < 32768)
    ⟨fun h => ⟨h.1, h.2.1, h.2.2⟩, fun h => ⟨h.perm, h.aligned, h.bound⟩⟩

def loadTable (T : Fin 3 → Nat) (m : Region M128) (p off : Nat) : Option M128 :=
  if InTable T p off then some (load m (p + off)) else none

def storeTable (T : Fin 3 → Nat) (reg : Fin 2 → ρ) (l : Fin 2) (h : Heap ρ M128)
    (p off : Nat) (v : M128) : Option (Heap ρ M128) :=
  if InTable T p off then some (Heap.storeLane reg l h (p + off) v) else none

section Checked

variable (T : Fin 2 → Fin 3 → Nat) (reg : Fin 2 → ρ)

def checkedIlvStep (k : Fin 4) (member : Yp2State → Nat) (P : Lanes 2 ρ M128 Yp2State) :
    Option (Lanes 2 ρ M128 Yp2State) := do
  let a := P.st 0
  let b := P.st 1
  let xa := extract64 (a.x k) &&& smask2_1_0
  let xb := extract64 (b.x k) &&& smask2_1_0
  let adda ← loadTable (T 0) (P.heap (reg 0)) a.S0 xa.toUInt32.toNat
  let addb ← loadTable (T 1) (P.heap (reg 1)) b.S0 xb.toUInt32.toNat
  let xora ← loadTable (T 0) (P.heap (reg 0)) a.S1 (xa >>> 32).toUInt32.toNat
  let xorb ← loadTable (T 1) (P.heap (reg 1)) b.S1 (xb >>> 32).toUInt32.toNat
  let Ya := mmMulEpu32 (hi32 (a.x k)) (a.x k)
  let Yb := mmMulEpu32 (hi32 (b.x k)) (b.x k)
  let va := mmXorSi128 (mmAddEpi64 Ya adda) xora
  let vb := mmXorSi128 (mmAddEpi64 Yb addb) xorb
  let heap ← storeTable (T 0) reg 0 P.heap (member a) a.w va
  let heap ← storeTable (T 1) reg 1 heap (member b) b.w vb
  some { heap, st := ![a.setX k va, b.setX k vb] }

def checkedPwx (k : Fin 4) (P : Lanes 2 ρ M128 Yp2State) :
    Option (Lanes 2 ρ M128 Yp2State) := do
  let a := P.st 0
  let b := P.st 1
  let xa := extract64 (a.x k) &&& smask2_1_0
  let xb := extract64 (b.x k) &&& smask2_1_0
  let X := mmMulEpu32 (hi32 (a.x k)) (a.x k)
  let X := mmAddEpi64 X (← loadTable (T 0) (P.heap (reg 0)) a.S0 xa.toUInt32.toNat)
  let va := mmXorSi128 X (← loadTable (T 0) (P.heap (reg 0)) a.S1 (xa >>> 32).toUInt32.toNat)
  let X := mmMulEpu32 (hi32 (b.x k)) (b.x k)
  let X := mmAddEpi64 X (← loadTable (T 1) (P.heap (reg 1)) b.S0 xb.toUInt32.toNat)
  let vb := mmXorSi128 X (← loadTable (T 1) (P.heap (reg 1)) b.S1 (xb >>> 32).toUInt32.toNat)
  some { heap := P.heap, st := ![a.setX k va, b.setX k vb] }

/-- `civic_pwxform_2way_ilv`, which fails unless the tables of both lanes are in order at its
start and each of its accesses lies inside one of them. -/
def checkedPwxform (P : Lanes 2 ρ M128 Yp2State) : Option (Lanes 2 ρ M128 Yp2State) := do
  let bump := Lanes.both reg (fun _ => bumpW)
  guard (∀ l, (P.st l).TablesAt (T l))
  let P ← checkedIlvStep T reg 0 Yp2State.S0 P
  let P ← checkedIlvStep T reg 1 Yp2State.S1 P
  let P ← checkedIlvStep T reg 2 Yp2State.S0 (bump P)
  let P ← checkedIlvStep T reg 3 Yp2State.S1 P
  let P ← checkedIlvStep T reg 0 Yp2State.S0 (bump P)
  let P ← checkedIlvStep T reg 1 Yp2State.S1 P
  let P ← checkedPwx T reg 2 (bump P)
  let P ← checkedPwx T reg 3 P
  let P ← checkedIlvStep T reg 0 Yp2State.S0 P
  let P ← checkedIlvStep T reg 1 Yp2State.S1 P
  let P ← checkedPwx T reg 2 (bump P)
  let P ← checkedPwx T reg 3 P
  some (Lanes.both reg (fun _ => maskAndRotate) P)

end Checked

/-- The table pointers of both lanes are tables, and `w` leaves room for `room` bytes. -/
structure Rooms (T : Fin 2 → Fin 3 → Nat) (room : Nat) (P : Lanes 2 ρ M128 Yp2State) :
    Prop where
  S0_mem : ∀ l, ∃ i, (P.st l).S0 = T l i
  S1_mem : ∀ l, ∃ i, (P.st l).S1 = T l i
  room : ∀ l, (P.st l).w + room ≤ 32768

section Steps

variable {T : Fin 2 → Fin 3 → Nat} {reg : Fin 2 → ρ} {room : Nat} {P : Lanes 2 ρ M128 Yp2State}

omit [DecidableEq ρ] in
theorem rooms_start (h : ∀ l, (P.st l).TablesAt (T l)) : Rooms T 64 P where
  S0_mem l := (h l).S0_mem
  S1_mem l := (h l).S1_mem
  room l := by
    have haligned := (h l).aligned
    have hbound := (h l).bound
    omega

theorem Rooms.ilvStep (h : Rooms T room P) (k : Fin 4) (member : Yp2State → Nat) :
    Rooms T room (civicIlvStep reg k member P) where
  S0_mem l := match l with
    | 0 => h.S0_mem 0
    | 1 => h.S0_mem 1
  S1_mem l := match l with
    | 0 => h.S1_mem 0
    | 1 => h.S1_mem 1
  room l := match l with
    | 0 => h.room 0
    | 1 => h.room 1

omit [DecidableEq ρ] in
theorem Rooms.pwx (h : Rooms T room P) (k : Fin 4) :
    Rooms T room (civicPwx_1_0_2way reg k P) where
  S0_mem l := match l with
    | 0 => h.S0_mem 0
    | 1 => h.S0_mem 1
  S1_mem l := match l with
    | 0 => h.S1_mem 0
    | 1 => h.S1_mem 1
  room l := match l with
    | 0 => h.room 0
    | 1 => h.room 1

theorem Rooms.bump (h : Rooms T (room + 16) P) :
    Rooms T room (Lanes.both reg (fun _ => bumpW) P) where
  S0_mem l := by
    rw [@Lanes.view_both _ _ _ _ _ reg (fun _ => bumpW) Yp2State.S0 id (fun _ _ => rfl)]
    exact h.S0_mem l
  S1_mem l := by
    rw [@Lanes.view_both _ _ _ _ _ reg (fun _ => bumpW) Yp2State.S1 id (fun _ _ => rfl)]
    exact h.S1_mem l
  room l := by
    rw [@Lanes.view_both _ _ _ _ _ reg (fun _ => bumpW) Yp2State.w (· + 16) (fun _ _ => rfl)]
    have := h.room l
    omega

omit [DecidableEq ρ] in
theorem Rooms.inTable_lo (h : Rooms T room P) (l : Fin 2) (x : UInt64) :
    InTable (T l) (P.st l).S0 (x &&& smask2_1_0).toUInt32.toNat :=
  ⟨h.S0_mem l, Nat.add_le_add_right (masked_lo_le x) 16⟩

omit [DecidableEq ρ] in
theorem Rooms.inTable_hi (h : Rooms T room P) (l : Fin 2) (x : UInt64) :
    InTable (T l) (P.st l).S1 ((x &&& smask2_1_0) >>> 32).toUInt32.toNat :=
  ⟨h.S1_mem l, Nat.add_le_add_right (masked_hi_le x) 16⟩

theorem checkedIlvStep_eq (h : Rooms T (room + 16) P) (k : Fin 4) {member : Yp2State → Nat}
    (hmember : ∀ l, ∃ i, member (P.st l) = T l i) :
    checkedIlvStep T reg k member P = some (civicIlvStep reg k member P) := by
  have hstore : ∀ l, InTable (T l) (member (P.st l)) (P.st l).w := by
    intro l
    have := h.room l
    exact ⟨hmember l, by omega⟩
  simp only [checkedIlvStep, loadTable, storeTable, if_pos (h.inTable_lo 0 _),
    if_pos (h.inTable_lo 1 _), if_pos (h.inTable_hi 0 _), if_pos (h.inTable_hi 1 _),
    if_pos (hstore 0), if_pos (hstore 1), Option.bind_eq_bind, Option.bind_some]
  rfl

omit [DecidableEq ρ] in
theorem checkedPwx_eq (h : Rooms T room P) (k : Fin 4) :
    checkedPwx T reg k P = some (civicPwx_1_0_2way reg k P) := by
  simp only [checkedPwx, loadTable, if_pos (h.inTable_lo 0 _), if_pos (h.inTable_lo 1 _),
    if_pos (h.inTable_hi 0 _), if_pos (h.inTable_hi 1 _), Option.bind_eq_bind, Option.bind_some]
  rfl

theorem checkedIlvStep_S0 (reg : Fin 2 → ρ) (h : Rooms T (room + 16) P) (k : Fin 4) :
    checkedIlvStep T reg k Yp2State.S0 P = some (civicIlvStep reg k Yp2State.S0 P) ∧
      Rooms T (room + 16) (civicIlvStep reg k Yp2State.S0 P) :=
  ⟨checkedIlvStep_eq h k h.S0_mem, h.ilvStep k Yp2State.S0⟩

/-- The writing step of the second table, and the `CIVIC_ILV_BUMP` behind it. -/
theorem checkedIlvStep_S1 (reg : Fin 2 → ρ) (h : Rooms T (room + 16) P) (k : Fin 4) :
    checkedIlvStep T reg k Yp2State.S1 P = some (civicIlvStep reg k Yp2State.S1 P) ∧
      Rooms T room (Lanes.both reg (fun _ => bumpW) (civicIlvStep reg k Yp2State.S1 P)) :=
  ⟨checkedIlvStep_eq h k h.S1_mem, (h.ilvStep k Yp2State.S1).bump⟩

omit [DecidableEq ρ] in
theorem checkedPwx_keeps (reg : Fin 2 → ρ) (h : Rooms T room P) (k : Fin 4) :
    checkedPwx T reg k P = some (civicPwx_1_0_2way reg k P) ∧
      Rooms T room (civicPwx_1_0_2way reg k P) :=
  ⟨checkedPwx_eq h k, h.pwx k⟩

/-- With the tables in order no check fails. -/
theorem checkedPwxform_eq (h : ∀ l, (P.st l).TablesAt (T l)) :
    checkedPwxform T reg P = some (civicPwxform2wayIlv reg P) := by
  -- four bumps use up the room of 64 bytes
  obtain ⟨e0, r0⟩ := checkedIlvStep_S0 reg (rooms_start h) 0
  obtain ⟨e1, r1⟩ := checkedIlvStep_S1 reg r0 1
  obtain ⟨e2, r2⟩ := checkedIlvStep_S0 reg r1 2
  obtain ⟨e3, r3⟩ := checkedIlvStep_S1 reg r2 3
  obtain ⟨e4, r4⟩ := checkedIlvStep_S0 reg r3 0
  obtain ⟨e5, r5⟩ := checkedIlvStep_S1 reg r4 1
  obtain ⟨e6, r6⟩ := checkedPwx_keeps reg r5 2
  obtain ⟨e7, r7⟩ := checkedPwx_keeps reg r6 3
  obtain ⟨e8, r8⟩ := checkedIlvStep_S0 reg r7 0
  obtain ⟨e9, r9⟩ := checkedIlvStep_S1 reg r8 1
  obtain ⟨e10, r10⟩ := checkedPwx_keeps reg r9 2
  obtain ⟨e11, -⟩ := checkedPwx_keeps reg r10 3
  unfold checkedPwxform
  refine Option.bind_eq_some_iff.mpr ⟨(), if_pos h, ?_⟩
  refine Option.bind_eq_some_iff.mpr ⟨_, e0, ?_⟩
  refine Option.bind_eq_some_iff.mpr ⟨_, e1, ?_⟩
  refine Option.bind_eq_some_iff.mpr ⟨_, e2, ?_⟩
  refine Option.bind_eq_some_iff.mpr ⟨_, e3, ?_⟩
  refine Option.bind_eq_some_iff.mpr ⟨_, e4, ?_⟩
  refine Option.bind_eq_some_iff.mpr ⟨_, e5, ?_⟩
  refine Option.bind_eq_some_iff.mpr ⟨_, e6, ?_⟩
  refine Option.bind_eq_some_iff.mpr ⟨_, e7, ?_⟩
  refine Option.bind_eq_some_iff.mpr ⟨_, e8, ?_⟩
  refine Option.bind_eq_some_iff.mpr ⟨_, e9, ?_⟩
  refine Option.bind_eq_some_iff.mpr ⟨_, e10, ?_⟩
  refine Option.bind_eq_some_iff.mpr ⟨_, e11, ?_⟩
  rfl

end Steps

/-! The pointers. -/

structure Pointers where
  S0 : Nat
  S1 : Nat
  S2 : Nat
  w : Nat

def Yp2State.pointers (st : Yp2State) : Pointers := ⟨st.S0, st.S1, st.S2, st.w⟩

def PwxformCtx.pointers (ctx : PwxformCtx) : Pointers := ⟨ctx.S0, ctx.S1, ctx.S2, ctx.w⟩

def Pointers.TablesAt (T : Fin 3 → Nat) (p : Pointers) : Prop :=
  Yespower.TablesAt T p.S0 p.S1 p.S2 p.w

section Pointers

variable {reg : Fin 2 → ρ} (P : Lanes 2 ρ M128 Yp2State) (l : Fin 2)

theorem pointers_civicIlvStep (k : Fin 4) (member : Yp2State → Nat) :
    ((civicIlvStep reg k member P).st l).pointers = (P.st l).pointers := by
  match l with
  | 0 => rfl
  | 1 => rfl

omit [DecidableEq ρ] in
theorem pointers_civicPwx (k : Fin 4) :
    ((civicPwx_1_0_2way reg k P).st l).pointers = (P.st l).pointers := by
  match l with
  | 0 => rfl
  | 1 => rfl

theorem pointers_bump : ((Lanes.both reg (fun _ => bumpW) P).st l).pointers =
    { (P.st l).pointers with w := (P.st l).pointers.w + 16 } :=
  @Lanes.view_both _ _ _ _ _ reg (fun _ => bumpW) Yp2State.pointers
    (fun p => { p with w := p.w + 16 }) (fun _ _ => rfl) P l

theorem pointers_maskAndRotate : ((Lanes.both reg (fun _ => maskAndRotate) P).st l).pointers =
    ⟨(P.st l).pointers.S2, (P.st l).pointers.S0, (P.st l).pointers.S1,
      (P.st l).pointers.w &&& smask2_1_0.toNat⟩ :=
  @Lanes.view_both _ _ _ _ _ reg (fun _ => maskAndRotate) Yp2State.pointers
    (fun p => ⟨p.S2, p.S0, p.S1, p.w &&& smask2_1_0.toNat⟩) (fun _ _ => rfl) P l

theorem tablesAt_civicPwxform2wayIlv {T : Fin 3 → Nat} (h : (P.st l).pointers.TablesAt T) :
    ((civicPwxform2wayIlv reg P).st l).pointers.TablesAt T := by
  simp only [civicPwxform2wayIlv, pointers_maskAndRotate, pointers_bump, pointers_civicIlvStep,
    pointers_civicPwx]
  exact TablesAt.rotate h

end Pointers

/-! Block mixes. -/

/-- A two-lane block mix as its tables see it: it loads the contexts, runs rounds with one
`civic_pwxform_2way` each, and stores the contexts.  What it does around the pwxforms leaves
the table pointers alone; `τ` are the locals of a lane. -/
structure TwoWayMix (ρ τ : Type) where
  state : τ → Yp2State
  withState : τ → Yp2State → τ
  rounds : Nat
  start : Lanes 2 ρ M128 PwxformCtx → Lanes 2 ρ M128 τ
  before : Nat → Lanes 2 ρ M128 τ → Lanes 2 ρ M128 τ
  after : Nat → Lanes 2 ρ M128 τ → Lanes 2 ρ M128 τ
  finish : (Fin 2 → PwxformCtx) → Lanes 2 ρ M128 τ → Lanes 2 ρ M128 PwxformCtx
  state_withState : ∀ t st, state (withState t st) = st
  pointers_start : ∀ P l, (state ((start P).st l)).pointers = (P.st l).pointers
  pointers_before : ∀ i Q l, (state ((before i Q).st l)).pointers = (state (Q.st l)).pointers
  pointers_after : ∀ i Q l, (state ((after i Q).st l)).pointers = (state (Q.st l)).pointers
  pointers_finish : ∀ ctx Q l, ((finish ctx Q).st l).pointers = (state (Q.st l)).pointers

namespace TwoWayMix

variable {τ : Type} (K : TwoWayMix ρ τ) (T : Fin 2 → Fin 3 → Nat) (reg : Fin 2 → ρ)

/-- The states of both lanes. -/
def states (Q : Lanes 2 ρ M128 τ) : Lanes 2 ρ M128 Yp2State :=
  { heap := Q.heap, st := fun l => K.state (Q.st l) }

def withStates (Q : Lanes 2 ρ M128 τ) (R : Lanes 2 ρ M128 Yp2State) : Lanes 2 ρ M128 τ :=
  { heap := R.heap, st := fun l => K.withState (Q.st l) (R.st l) }

def round (i : Nat) (Q : Lanes 2 ρ M128 τ) : Lanes 2 ρ M128 τ :=
  let Q := K.before i Q
  K.after i (K.withStates Q (civicPwxform2wayIlv reg (K.states Q)))

def run (P : Lanes 2 ρ M128 PwxformCtx) : Lanes 2 ρ M128 PwxformCtx :=
  K.finish P.st (forUp 0 K.rounds 1 (K.round reg) (K.start P))

def checkedRound (i : Nat) (Q : Lanes 2 ρ M128 τ) : Option (Lanes 2 ρ M128 τ) := do
  let Q := K.before i Q
  let R ← checkedPwxform T reg (K.states Q)
  some (K.after i (K.withStates Q R))

def checkedRun (P : Lanes 2 ρ M128 PwxformCtx) : Option (Lanes 2 ρ M128 PwxformCtx) := do
  let Q ← forUpOption 0 K.rounds 1 (K.checkedRound T reg) (K.start P)
  some (K.finish P.st Q)

variable {T reg}

theorem checkedRound_eq (i : Nat) {Q : Lanes 2 ρ M128 τ}
    (h : ∀ l, (K.state (Q.st l)).pointers.TablesAt (T l)) :
    K.checkedRound T reg i Q = some (K.round reg i Q) ∧
      ∀ l, (K.state ((K.round reg i Q).st l)).pointers.TablesAt (T l) := by
  have hbefore : ∀ l, ((K.states (K.before i Q)).st l).pointers.TablesAt (T l) := by
    intro l
    rw [states, K.pointers_before]
    exact h l
  constructor
  · rw [checkedRound, checkedPwxform_eq hbefore]
    rfl
  · intro l
    rw [round, K.pointers_after, withStates, K.state_withState]
    exact tablesAt_civicPwxform2wayIlv _ l (hbefore l)

/-- A mix that starts with its tables in order passes all its checks, and leaves the tables
in order. -/
theorem checkedRun_eq {P : Lanes 2 ρ M128 PwxformCtx}
    (h : ∀ l, (P.st l).pointers.TablesAt (T l)) :
    K.checkedRun T reg P = some (K.run reg P) ∧
      ∀ l, ((K.run reg P).st l).pointers.TablesAt (T l) := by
  obtain ⟨hloop, hend⟩ := forUpOption_eq (Nat.zero_le K.rounds)
    (fun Q : Lanes 2 ρ M128 τ => ∀ l, (K.state (Q.st l)).pointers.TablesAt (T l))
    (s := K.start P) (fun l => by rw [K.pointers_start]; exact h l)
    (fun i Q hQ => K.checkedRound_eq i hQ)
  constructor
  · rw [checkedRun, hloop]
    rfl
  · intro l
    rw [run, K.pointers_finish]
    exact hend l

end TwoWayMix

section Kernels

variable (reg : Fin 2 → ρ)

/-- A kernel without a pipeline, which starts from the block `x` of each lane. -/
def directMix (Bout : Fin 2 → Nat) (last : Nat) (x : Fin 2 → Region M128 → Blk)
    (before : Nat → Lanes 2 ρ M128 Yp2State → Lanes 2 ρ M128 Yp2State)
    (hbefore : ∀ i Q l, ((before i Q).st l).pointers = (Q.st l).pointers) :
    TwoWayMix ρ Yp2State where
  state st := st
  withState _ st := st
  rounds := last + 1
  start P := { heap := P.heap, st := fun l => (P.st l).load (x l (P.heap (reg l))) }
  before := before
  after i Q := if i ≠ last then Lanes.both reg (fun l => writeX (Bout l + 64 * i)) Q else Q
  finish ctx Q :=
    { heap := Heap.storeBlks reg Q.heap (fun l => Bout l + 64 * last)
        (fun l => salsa20Two (Q.st l).x)
      st := fun l => (ctx l).save (Q.st l) }
  state_withState _ _ := rfl
  pointers_start _ _ := rfl
  pointers_before := hbefore
  pointers_after i Q l := by
    split
    · exact Lanes.view_both reg (g := id) (fun _ _ => rfl) Q l
    · rfl
  pointers_finish _ _ _ := rfl

theorem pointers_pipe {f : Fin 2 → Region M128 × PipeState → Region M128 × PipeState}
    (hf : ∀ l s, (f l s).2.st.pointers = s.2.st.pointers) (Q : Lanes 2 ρ M128 PipeState)
    (l : Fin 2) : ((Lanes.both reg f Q).st l).st.pointers = (Q.st l).st.pointers :=
  @Lanes.view_both _ _ _ _ _ reg f (fun q : PipeState => q.st.pointers) id hf Q l

/-- A pipelined kernel, which adds its blocks by `add`. -/
def pipeMix (Bin1 Bin2 Bout : Fin 2 → Nat) (last : Nat)
    (add : Nat → Fin 2 → Region M128 × PipeState → Region M128 × PipeState)
    (hadd : ∀ i l s, (add i l s).2.st.pointers = s.2.st.pointers) : TwoWayMix ρ PipeState where
  state q := q.st
  withState q st := { q with st := st }
  rounds := last + 1
  start := pipeInit reg Bin1 Bin2 last
  before i Q := Lanes.both reg (add i) (if i ≠ last then
    Lanes.both reg (fun l => pipeFetch (Bin2 l + 64 * (i + 1))) Q else Q)
  after i Q := Lanes.both reg (fun _ => pipeShift) (if i ≠ last then
    Lanes.both reg (fun l => PipeState.onState (writeX (Bout l + 64 * i))) Q else Q)
  finish ctx Q :=
    { heap := Heap.storeBlks reg Q.heap (fun l => Bout l + 64 * last)
        (fun l => salsa20Two (Q.st l).st.x)
      st := fun l => (ctx l).save (Q.st l).st }
  state_withState _ _ := rfl
  pointers_start _ _ := rfl
  pointers_before i Q l := by
    refine (pointers_pipe reg (hadd i) _ l).trans ?_
    split
    · exact pointers_pipe (f := fun l => pipeFetch (Bin2 l + 64 * (i + 1))) reg
        (fun _ _ => rfl) Q l
    · rfl
  pointers_after i Q l := by
    refine (pointers_pipe (f := fun _ => pipeShift) reg (fun _ _ => rfl) _ l).trans ?_
    split
    · exact pointers_pipe (f := fun l => PipeState.onState (writeX (Bout l + 64 * i))) reg
        (fun _ _ => rfl) Q l
    · rfl
  pointers_finish _ _ _ := rfl

def blockmixMix (Bin Bout : Fin 2 → Nat) (r : Nat) : TwoWayMix ρ Yp2State :=
  let last := r * 2 - 1
  directMix reg Bout last (fun l m => loadBlk m (Bin l + 64 * last))
    (fun i => Lanes.both reg (fun l => xorX (Bin l + 64 * i)))
    (fun _ => Lanes.view_both reg (g := id) (fun _ _ => rfl))

def xorMix (Bin1 Bin2 Bout : Fin 2 → Nat) (r : Nat) : TwoWayMix ρ Yp2State :=
  let last := r * 2 - 1
  directMix reg Bout last
    (fun l m => xorBlk (loadBlk m (Bin1 l + 64 * last)) (loadBlk m (Bin2 l + 64 * last)))
    (fun i => Lanes.both reg (fun l s => xorX (Bin2 l + 64 * i) (xorX (Bin1 l + 64 * i) s)))
    (fun _ => Lanes.view_both reg (g := id) (fun _ _ => rfl))

theorem pointers_xorSaveQ (Bin1out Bin2 : Fin 2 → Nat) (q : Fin 4)
    (P : Lanes 2 ρ M128 Yp2State) (l : Fin 2) :
    ((xorSaveQ reg Bin1out Bin2 q P).st l).pointers = (P.st l).pointers := by
  match l with
  | 0 => rfl
  | 1 => rfl

def xorSaveMix (Bin1out Bin2 : Fin 2 → Nat) (r : Nat) : TwoWayMix ρ Yp2State :=
  let last := r * 2 - 1
  directMix reg Bin1out last
    (fun l m => xorBlk (loadBlk m (Bin1out l + 64 * last)) (loadBlk m (Bin2 l + 64 * last)))
    (fun i => xorSaveLoop reg (fun l => Bin1out l + 64 * i) (fun l => Bin2 l + 64 * i))
    (fun _ _ _ => by simp only [xorSaveLoop, pointers_xorSaveQ])

def xorPipeMix (Bin1 Bin2 Bout : Fin 2 → Nat) (r : Nat) : TwoWayMix ρ PipeState :=
  pipeMix reg Bin1 Bin2 Bout (r * 2 - 1) (fun i l => pipeXor (Bin1 l + 64 * i))
    (fun _ _ _ => rfl)

def xorSavePipeMix (Bin1out Bin2 : Fin 2 → Nat) (r : Nat) : TwoWayMix ρ PipeState :=
  pipeMix reg Bin1out Bin2 Bin1out (r * 2 - 1)
    (fun i l => pipeXorSave (Bin1out l + 64 * i) (Bin2 l + 64 * i)) (fun _ _ _ => rfl)

/-- What a kernel with a result leaves in memory and in the contexts. -/
def contexts (Q : Lanes 2 ρ M128 (PwxformCtx × UInt32)) : Lanes 2 ρ M128 PwxformCtx :=
  { heap := Q.heap, st := fun l => (Q.st l).1 }

theorem civicBlockmix2way_run (Bin Bout : Fin 2 → Nat) (r : Nat)
    (P : Lanes 2 ρ M128 PwxformCtx) :
    civicBlockmix2way reg Bin Bout r P = (blockmixMix reg Bin Bout r).run reg P := rfl

theorem civicBlockmixXor2way_run (Bin1 Bin2 Bout : Fin 2 → Nat) (r : Nat)
    (P : Lanes 2 ρ M128 PwxformCtx) :
    contexts (civicBlockmixXor2way reg Bin1 Bin2 Bout r P) =
      (xorMix reg Bin1 Bin2 Bout r).run reg P := rfl

theorem civicBlockmixXorSave2way_run (Bin1out Bin2 : Fin 2 → Nat) (r : Nat)
    (P : Lanes 2 ρ M128 PwxformCtx) :
    contexts (civicBlockmixXorSave2way reg Bin1out Bin2 r P) =
      (xorSaveMix reg Bin1out Bin2 r).run reg P := rfl

theorem civicBlockmixXor2wayPipe_run (Bin1 Bin2 Bout : Fin 2 → Nat) (r : Nat)
    (P : Lanes 2 ρ M128 PwxformCtx) :
    contexts (civicBlockmixXor2wayPipe reg Bin1 Bin2 Bout r P) =
      (xorPipeMix reg Bin1 Bin2 Bout r).run reg P := rfl

theorem civicBlockmixXorSave2wayPipe_run (Bin1out Bin2 : Fin 2 → Nat) (r : Nat)
    (P : Lanes 2 ρ M128 PwxformCtx) :
    contexts (civicBlockmixXorSave2wayPipe reg Bin1out Bin2 r P) =
      (xorSavePipeMix reg Bin1out Bin2 r).run reg P := rfl

end Kernels

/-- What happens to the two contexts, one after the other: any block mix, and anything else
done to the memory. -/
inductive Call (ρ : Type) : Type 1
  | mix {τ : Type} (K : TwoWayMix ρ τ)
  | memory (f : Heap ρ M128 → Heap ρ M128)

def Call.run (reg : Fin 2 → ρ) (P : Lanes 2 ρ M128 PwxformCtx) :
    Call ρ → Lanes 2 ρ M128 PwxformCtx
  | .mix K => K.run reg P
  | .memory f => { P with heap := f P.heap }

def Call.checkedRun (T : Fin 2 → Fin 3 → Nat) (reg : Fin 2 → ρ)
    (P : Lanes 2 ρ M128 PwxformCtx) : Call ρ → Option (Lanes 2 ρ M128 PwxformCtx)
  | .mix K => K.checkedRun T reg P
  | .memory f => some { P with heap := f P.heap }

theorem Call.checkedRun_eq {T : Fin 2 → Fin 3 → Nat} (reg : Fin 2 → ρ)
    {P : Lanes 2 ρ M128 PwxformCtx} (h : ∀ l, (P.st l).pointers.TablesAt (T l)) (c : Call ρ) :
    c.checkedRun T reg P = some (c.run reg P) ∧
      ∀ l, ((c.run reg P).st l).pointers.TablesAt (T l) := by
  cases c with
  | mix K => exact K.checkedRun_eq h
  | memory f => exact ⟨rfl, h⟩

theorem calls_checked {T : Fin 2 → Fin 3 → Nat} (reg : Fin 2 → ρ) (calls : List (Call ρ))
    {P : Lanes 2 ρ M128 PwxformCtx} (h : ∀ l, (P.st l).pointers.TablesAt (T l)) :
    calls.foldlM (Call.checkedRun T reg) P = some (calls.foldl (Call.run reg) P) ∧
      ∀ l, ((calls.foldl (Call.run reg) P).st l).pointers.TablesAt (T l) := by
  induction calls generalizing P with
  | nil => exact ⟨rfl, h⟩
  | cons c calls ih =>
      obtain ⟨hrun, hnext⟩ := c.checkedRun_eq reg h
      rw [List.foldlM_cons, hrun]
      exact ih hnext

/-- No sequence of block mixes that starts with the three tables and `w = 0` fails a check,
and the kernels are such block mixes. -/
theorem calls_stay_in_tables (reg : Fin 2 → ρ) (T : Fin 2 → Fin 3 → Nat) (calls : List (Call ρ))
    (P : Lanes 2 ρ M128 PwxformCtx) (start : ∀ l, (P.st l).pointers = ⟨T l 0, T l 1, T l 2, 0⟩) :
    (calls.foldlM (Call.checkedRun T reg) P = some (calls.foldl (Call.run reg) P) ∧
      ∀ l, ((calls.foldl (Call.run reg) P).st l).pointers.TablesAt (T l)) ∧
    (∀ Bin Bout r P, civicBlockmix2way reg Bin Bout r P = (blockmixMix reg Bin Bout r).run reg P) ∧
    (∀ Bin1 Bin2 Bout r P, contexts (civicBlockmixXor2way reg Bin1 Bin2 Bout r P) =
      (xorMix reg Bin1 Bin2 Bout r).run reg P) ∧
    (∀ Bin1 Bin2 Bout r P, contexts (civicBlockmixXor2wayPipe reg Bin1 Bin2 Bout r P) =
      (xorPipeMix reg Bin1 Bin2 Bout r).run reg P) ∧
    (∀ Bin1out Bin2 r P, contexts (civicBlockmixXorSave2way reg Bin1out Bin2 r P) =
      (xorSaveMix reg Bin1out Bin2 r).run reg P) ∧
    ∀ Bin1out Bin2 r P, contexts (civicBlockmixXorSave2wayPipe reg Bin1out Bin2 r P) =
      (xorSavePipeMix reg Bin1out Bin2 r).run reg P := by
  have htables : ∀ l, (P.st l).pointers.TablesAt (T l) := by
    intro l
    rw [start l]
    exact ⟨List.Perm.refl _, rfl, Nat.zero_lt_succ _⟩
  exact ⟨calls_checked reg calls htables, civicBlockmix2way_run reg, civicBlockmixXor2way_run reg,
    civicBlockmixXor2wayPipe_run reg, civicBlockmixXorSave2way_run reg,
    civicBlockmixXorSave2wayPipe_run reg⟩

/-- A plain mix, a change of memory and a pipelined mix over tables that do not lie in the order
in which they are used. -/
theorem calls_stay_in_tables_two :
    let T : Fin 2 → Fin 3 → Nat := fun _ => ![40000, 0, 80000]
    let P : Lanes 2 (Fin 2) M128 PwxformCtx :=
      { heap := fun lane _ => ⟨lane.val.toUInt32, 0, 0, 0⟩
        st := fun _ => ⟨40000, 0, 80000, 0, 98304⟩ }
    let calls : List (Call (Fin 2)) :=
      [.mix (blockmixMix id (fun _ => 120000) (fun _ => 130000) 8), .memory (fun h => h),
        .mix (xorSavePipeMix id (fun _ => 130000) (fun _ => 140000) 8)]
    (calls.foldlM (Call.checkedRun T id) P).isSome = true := by
  intro T P calls
  have hrun := (calls_stay_in_tables id T calls P (fun _ => rfl)).1.1
  rw [hrun]
  rfl

end SojCivicLight.Yespower
