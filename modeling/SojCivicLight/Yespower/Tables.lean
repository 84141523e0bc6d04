import SojCivicLight.Yespower.Scalar

/-! The invariant of the S-tables: the three table pointers are the three 32 KiB tables
in some order and the write offset is a multiple of 64 inside a table.  From it, which
memory a pwxform can change and which memory it depends on. -/

namespace SojCivicLight.Yespower

open SojCivicLight.Library

theorem M128.d0_toUInt32 (x : M128) : x.d0.toUInt32 = x.w0 := by
  apply UInt32.toBitVec_inj.mp
  simp only [M128.d0]
  ext i hi
  simp

theorem smask2_1_0_toNat : smask2_1_0.toNat = 0x7ff000007ff0 := by decide

theorem and_smask2_1_0 {w : Nat} (aligned : w % 64 = 0) (bound : w ≤ 32768) :
    w &&& smask2_1_0.toNat = w % 32768 := by
  rw [smask2_1_0_toNat]
  have table : ∀ k ≤ 512, (64 * k) &&& 0x7ff000007ff0 = (64 * k) % 32768 := by
    decide +kernel
  have := table (w / 64) (by omega)
  rwa [show 64 * (w / 64) = w by omega] at this

theorem masked_lo_le (x : UInt64) : (x &&& smask2_1_0).toUInt32.toNat ≤ 32752 := by
  have h : (x &&& smask2_1_0).toUInt32.toNat = (x.toNat % 2 ^ 32) &&& 0x7ff0 := by
    rw [UInt64.toNat_toUInt32, UInt64.toNat_and, smask2_1_0_toNat, Nat.and_mod_two_pow]
  rw [h]
  exact Nat.and_le_right

theorem masked_hi_le (x : UInt64) :
    ((x &&& smask2_1_0) >>> 32).toUInt32.toNat ≤ 32752 := by
  have h : ((x &&& smask2_1_0) >>> 32).toUInt32.toNat =
      ((x.toNat >>> 32) &&& 0x7ff0) % 2 ^ 32 := by
    rw [UInt64.toNat_toUInt32, UInt64.toNat_shiftRight, UInt64.toNat_and,
      smask2_1_0_toNat, Nat.shiftRight_and_distrib]
    rfl
  rw [h]
  exact le_trans (Nat.mod_le _ _) Nat.and_le_right

/-- The state of the three tables at `T`, between two pwxforms. -/
structure TablesAt (T : Fin 3 → Nat) (S0 S1 S2 w : Nat) : Prop where
  perm : [S0, S1, S2].Perm [T 0, T 1, T 2]
  aligned : w % 64 = 0
  bound : w < 32768

abbrev Yp2State.TablesAt (T : Fin 3 → Nat) (st : Yp2State) : Prop :=
  Yespower.TablesAt T st.S0 st.S1 st.S2 st.w

abbrev PwxformCtx.TablesAt (T : Fin 3 → Nat) (ctx : PwxformCtx) : Prop :=
  Yespower.TablesAt T ctx.S0 ctx.S1 ctx.S2 ctx.w

/-- `n` bytes from `p` on lie outside the three tables. -/
def OutOf (T : Fin 3 → Nat) (p n : Nat) : Prop :=
  ∀ i, p + n ≤ T i ∨ T i + 32768 ≤ p

namespace TablesAt

variable {T : Fin 3 → Nat} {S0 S1 S2 w : Nat}

theorem S0_mem (h : TablesAt T S0 S1 S2 w) : ∃ i, S0 = T i := by
  have member : S0 ∈ [T 0, T 1, T 2] := h.perm.mem_iff.mp List.mem_cons_self
  simp only [List.mem_cons, List.not_mem_nil, or_false] at member
  rcases member with h | h | h
  · exact ⟨0, h⟩
  · exact ⟨1, h⟩
  · exact ⟨2, h⟩

theorem swap (h : TablesAt T S0 S1 S2 w) : TablesAt T S1 S0 S2 w :=
  { h with perm := (List.Perm.swap S0 S1 [S2]).trans h.perm }

theorem S1_mem (h : TablesAt T S0 S1 S2 w) : ∃ i, S1 = T i :=
  h.swap.S0_mem

theorem rotate (h : TablesAt T S0 S1 S2 w) :
    TablesAt T S2 S0 S1 ((w + 64) &&& smask2_1_0.toNat) := by
  have haligned := h.aligned
  have hbound := h.bound
  rw [and_smask2_1_0 (by omega) (by omega)]
  refine ⟨?_, by omega, by omega⟩
  have rotated : ([S2] ++ [S0, S1]).Perm ([S0, S1] ++ [S2]) := List.perm_append_comm
  exact rotated.trans h.perm

end TablesAt

/-- The state of the tables at `S`, between two pwxforms. -/
structure TablesOk (S S0 S1 S2 w : Nat) : Prop where
  perm : [S0, S1, S2].Perm [S, S + 32768, S + 65536]
  aligned : w % 64 = 0
  bound : w < 32768

abbrev Yp2State.TablesOk (S : Nat) (st : Yp2State) : Prop :=
  Yespower.TablesOk S st.S0 st.S1 st.S2 st.w

abbrev PwxformCtx.TablesOk (S : Nat) (ctx : PwxformCtx) : Prop :=
  Yespower.TablesOk S ctx.S0 ctx.S1 ctx.S2 ctx.w

/-- The tables at `S` are three tables behind each other. -/
theorem tablesOk_iff {S S0 S1 S2 w : Nat} :
    TablesOk S S0 S1 S2 w ↔ TablesAt ![S, S + 32768, S + 65536] S0 S1 S2 w :=
  ⟨fun h => ⟨h.perm, h.aligned, h.bound⟩, fun h => ⟨h.perm, h.aligned, h.bound⟩⟩

theorem outOf_tables {S p n : Nat} (outside : p + n ≤ S ∨ S + 98304 ≤ p) :
    OutOf ![S, S + 32768, S + 65536] p n := by
  intro i
  match i with
  | 0 =>
      change p + n ≤ S ∨ S + 32768 ≤ p
      omega
  | 1 =>
      change p + n ≤ S + 32768 ∨ S + 32768 + 32768 ≤ p
      omega
  | 2 =>
      change p + n ≤ S + 65536 ∨ S + 65536 + 32768 ≤ p
      omega

theorem mem_tables_iff {S T : Nat} :
    T ∈ [S, S + 32768, S + 65536] ↔ T = S ∨ T = S + 32768 ∨ T = S + 65536 := by
  simp

theorem TablesOk.S0_mem {S S0 S1 S2 w : Nat} (h : TablesOk S S0 S1 S2 w) :
    S ≤ S0 ∧ S0 + 32768 ≤ S + 98304 := by
  have member : S0 ∈ [S, S + 32768, S + 65536] := h.perm.mem_iff.mp (by simp)
  rcases mem_tables_iff.mp member with h | h | h <;> omega

theorem TablesOk.S1_mem {S S0 S1 S2 w : Nat} (h : TablesOk S S0 S1 S2 w) :
    S ≤ S1 ∧ S1 + 32768 ≤ S + 98304 :=
  (tablesOk_iff.mpr (tablesOk_iff.mp h).swap).S0_mem

theorem TablesOk.rotate {S S0 S1 S2 w : Nat} (h : TablesOk S S0 S1 S2 w) :
    TablesOk S S2 S0 S1 ((w + 64) &&& smask2_1_0.toNat) :=
  tablesOk_iff.mpr (tablesOk_iff.mp h).rotate

section Steps

variable (k : Fin 4) (Sw : Yp2State → Nat) (s : Region M128 × Yp2State)

@[simp] theorem pwxformStep_fst : (pwxformStep k s).1 = s.1 := rfl
@[simp] theorem pwxformStepWrite_S0 : (pwxformStepWrite k Sw s).2.S0 = s.2.S0 := rfl
@[simp] theorem pwxformStepWrite_S1 : (pwxformStepWrite k Sw s).2.S1 = s.2.S1 := rfl
@[simp] theorem pwxformStepWrite_w : (pwxformStepWrite k Sw s).2.w = s.2.w := rfl
@[simp] theorem bumpW_fst : (bumpW s).1 = s.1 := rfl
@[simp] theorem bumpW_S0 : (bumpW s).2.S0 = s.2.S0 := rfl
@[simp] theorem bumpW_S1 : (bumpW s).2.S1 = s.2.S1 := rfl
@[simp] theorem bumpW_w : (bumpW s).2.w = s.2.w + 16 := rfl
@[simp] theorem maskAndRotate_fst : (maskAndRotate s).1 = s.1 := rfl

theorem load_pwxformStepWrite {p : Nat} (h : Apart p (Sw s.2 + s.2.w)) :
    load (pwxformStepWrite k Sw s).1 p = load s.1 p :=
  load_store_apart h _ _

/-- Where a round's writing steps store: the tables at `S0` and `S1`, from `w` on. -/
theorem load_pwxformRoundWrite4 {p : Nat}
    (h0 : p + 16 ≤ s.2.S0 + s.2.w ∨ s.2.S0 + s.2.w + 32 ≤ p)
    (h1 : p + 16 ≤ s.2.S1 + s.2.w ∨ s.2.S1 + s.2.w + 32 ≤ p) :
    load (pwxformRoundWrite4 s).1 p = load s.1 p := by
  unfold pwxformRoundWrite4
  dsimp only
  rw [bumpW_fst, load_pwxformStepWrite, load_pwxformStepWrite, bumpW_fst,
    load_pwxformStepWrite, load_pwxformStepWrite]
  all_goals
    simp only [Apart, pwxformStepWrite_S0, pwxformStepWrite_S1, pwxformStepWrite_w,
      bumpW_S0, bumpW_S1, bumpW_w]
    omega

theorem load_pwxformRoundWrite2 {p : Nat}
    (h0 : p + 16 ≤ s.2.S0 + s.2.w ∨ s.2.S0 + s.2.w + 16 ≤ p)
    (h1 : p + 16 ≤ s.2.S1 + s.2.w ∨ s.2.S1 + s.2.w + 16 ≤ p) :
    load (pwxformRoundWrite2 s).1 p = load s.1 p := by
  unfold pwxformRoundWrite2
  dsimp only
  rw [pwxformStep_fst, pwxformStep_fst, bumpW_fst, load_pwxformStepWrite,
    load_pwxformStepWrite]
  · exact h0
  · exact h1

@[simp] theorem pwxformRoundWrite4_S0 : (pwxformRoundWrite4 s).2.S0 = s.2.S0 := rfl
@[simp] theorem pwxformRoundWrite4_S1 : (pwxformRoundWrite4 s).2.S1 = s.2.S1 := rfl
@[simp] theorem pwxformRoundWrite4_w : (pwxformRoundWrite4 s).2.w = s.2.w + 32 := rfl
@[simp] theorem pwxformRoundWrite2_S0 : (pwxformRoundWrite2 s).2.S0 = s.2.S0 := rfl
@[simp] theorem pwxformRoundWrite2_S1 : (pwxformRoundWrite2 s).2.S1 = s.2.S1 := rfl
@[simp] theorem pwxformRoundWrite2_w : (pwxformRoundWrite2 s).2.w = s.2.w + 16 := rfl

end Steps

theorem tablesAt_pwxform {T : Fin 3 → Nat} {s : Region M128 × Yp2State}
    (h : s.2.TablesAt T) : (pwxform s).2.TablesAt T :=
  TablesAt.rotate h

theorem tablesOk_pwxform {S : Nat} {s : Region M128 × Yp2State} (h : s.2.TablesOk S) :
    (pwxform s).2.TablesOk S :=
  tablesOk_iff.mpr (tablesAt_pwxform (tablesOk_iff.mp h))

/-- A pwxform changes nothing outside the tables. -/
theorem load_pwxform_of_out {T : Fin 3 → Nat} {p : Nat} {s : Region M128 × Yp2State}
    (h : s.2.TablesAt T) (outside : OutOf T p 16) : load (pwxform s).1 p = load s.1 p := by
  obtain ⟨i, h0⟩ := h.S0_mem
  obtain ⟨j, h1⟩ := h.S1_mem
  have hout0 := outside i
  have hout1 := outside j
  rw [← h0] at hout0
  rw [← h1] at hout1
  have haligned := h.aligned
  have hbound := h.bound
  unfold pwxform
  rw [maskAndRotate_fst, load_pwxformRoundWrite2, load_pwxformRoundWrite2,
    load_pwxformRoundWrite4]
  · omega
  · omega
  · simp only [pwxformRoundWrite4_S0, pwxformRoundWrite4_w]
    omega
  · simp only [pwxformRoundWrite4_S1, pwxformRoundWrite4_w]
    omega
  · simp only [pwxformRoundWrite2_S0, pwxformRoundWrite2_w, pwxformRoundWrite4_S0,
      pwxformRoundWrite4_w]
    omega
  · simp only [pwxformRoundWrite2_S1, pwxformRoundWrite2_w, pwxformRoundWrite4_S1,
      pwxformRoundWrite4_w]
    omega

theorem load_pwxform {S p : Nat} {s : Region M128 × Yp2State} (h : s.2.TablesOk S)
    (outside : p + 16 ≤ S ∨ S + 98304 ≤ p) :
    load (pwxform s).1 p = load s.1 p :=
  load_pwxform_of_out (tablesOk_iff.mp h) (outOf_tables outside)

/-! Blocks. -/

theorem loadBlk_congr {m m' : Region M128} {p : Nat}
    (h : ∀ k : Fin 4, load m (p + 16 * k.val) = load m' (p + 16 * k.val)) :
    loadBlk m p = loadBlk m' p :=
  funext h

theorem load_storeBlk_apart {p q : Nat} (h : p + 16 ≤ q ∨ q + 64 ≤ p)
    (m : Region M128) (b : Blk) : load (storeBlk m q b) p = load m p := by
  unfold storeBlk
  rw [load_store_apart, load_store_apart, load_store_apart, load_store_apart]
  all_goals
    unfold Apart
    omega

theorem loadBlk_storeBlk_apart {p q : Nat} (h : p + 64 ≤ q ∨ q + 64 ≤ p)
    (m : Region M128) (b : Blk) : loadBlk (storeBlk m q b) p = loadBlk m p := by
  apply loadBlk_congr
  intro k
  have := k.isLt
  exact load_storeBlk_apart (by omega) m b

theorem loadBlk_writeX_apart {p q : Nat} (h : p + 64 ≤ q ∨ q + 64 ≤ p)
    (s : Region M128 × Yp2State) : loadBlk (writeX q s).1 p = loadBlk s.1 p :=
  loadBlk_storeBlk_apart h s.1 s.2.x

theorem loadBlk_pwxform {T : Fin 3 → Nat} {p : Nat} {s : Region M128 × Yp2State}
    (h : s.2.TablesAt T) (outside : OutOf T p 64) :
    loadBlk (pwxform s).1 p = loadBlk s.1 p := by
  apply loadBlk_congr
  intro k
  have := k.isLt
  apply load_pwxform_of_out h
  intro i
  have := outside i
  omega

theorem storeBlk_storeBlk (m : Region M128) (p : Nat) (b : Blk) :
    storeBlk (storeBlk m p b) p b = storeBlk m p b := by
  funext a
  simp only [storeBlk, store, Function.update_apply]
  split_ifs <;> rfl

theorem loadBlk_storeBlk_self (m : Region M128) (p : Nat) (b : Blk) :
    loadBlk (storeBlk m p b) p = b := by
  have h1 : (p + 16) / 16 = p / 16 + 1 := by omega
  have h2 : (p + 32) / 16 = p / 16 + 2 := by omega
  have h3 : (p + 48) / 16 = p / 16 + 3 := by omega
  funext k
  match k with
  | 0 | 1 | 2 | 3 =>
      simp [loadBlk, storeBlk, load, store, h1, h2, h3]

theorem load_storeBlk_self (m : Region M128) (p : Nat) (b : Blk) :
    load (storeBlk m p b) p = b 0 := by
  unfold storeBlk
  rw [load_store_apart, load_store_apart, load_store_apart, load_store_self]
  all_goals
    unfold Apart
    omega

end SojCivicLight.Yespower
