import Mathlib.Logic.Function.Iterate
import SojCivicLight.Yespower.FourLanes

/-! The context of a hash counts its pwxforms: each one moves the write offset on and
rotates the tables, whatever it computes.  So the contexts of two runs stay as far apart
as the starts of their SMix have left them. -/

namespace SojCivicLight.Yespower

open SojCivicLight.Library

def ctxKernels : FillKernels PwxformCtx where
  mix := fun Bin Bout r s => blockmixPwxform s.1 Bin Bout r s.2
  mixXor := fun Bin1 Bin2 Bout r s => blockmixXorPwxform s.1 Bin1 Bin2 Bout r s.2

section Rename

variable {κ κ' : Type} {K : FillKernels κ} {K' : FillKernels κ'} (e : κ → κ')

def Smix1Vars.map (v : Smix1Vars κ) : Smix1Vars κ' :=
  { ctx := e v.ctx, X := v.X, Y := v.Y, j := v.j }

/-- The kernels `K'` are the kernels `K` with their contexts renamed. -/
structure Renames (K : FillKernels κ) (K' : FillKernels κ') : Prop where
  mix : ∀ Bin Bout r m c, K'.mix Bin Bout r (m, e c) =
    ((K.mix Bin Bout r (m, c)).1, e (K.mix Bin Bout r (m, c)).2)
  mixXor : ∀ Bin1 Bin2 Bout r m c, K'.mixXor Bin1 Bin2 Bout r (m, e c) =
    ((K.mixXor Bin1 Bin2 Bout r (m, c)).1, e (K.mixXor Bin1 Bin2 Bout r (m, c)).2.1,
      (K.mixXor Bin1 Bin2 Bout r (m, c)).2.2)

variable {e}

theorem Renames.start (renames : Renames e K K') (B r V : Nat) (m : Region M128) (c : κ) :
    smix1StartWith K' B r V (m, e c) =
      ((smix1StartWith K B r V (m, c)).1, (smix1StartWith K B r V (m, c)).2.map e) := by
  have hspread := fun m => @forUp_rel _ _ 1 r 1
    (fun i => K'.mix (V + 64 * ((i - 1) * 2)) (V + 64 * (i * 2)) 1)
    (fun i => K.mix (V + 64 * ((i - 1) * 2)) (V + 64 * (i * 2)) 1) (m, e c) (m, c)
    (fun _ s t => s = (t.1, e t.2)) rfl
    (fun k s t _ h => by rw [h, renames.mix])
  simp only [smix1StartWith, hspread, renames.mix, Smix1Vars.map]

theorem Renames.fill (renames : Renames e K K') (r N V n : Nat)
    (s : Region M128 × Smix1Vars κ) :
    smix1FillWith K' r N V n (s.1, s.2.map e) =
      ((smix1FillWith K r N V n s).1, (smix1FillWith K r N V n s).2.map e) := by
  refine forUp_rel (fun _ (s : Region M128 × Smix1Vars κ') (t : Region M128 × Smix1Vars κ) =>
    s = (t.1, t.2.map e)) rfl (fun k s t _ h => ?_)
  simp only [h, smix1RoundWith, Smix1Vars.map, renames.mixXor]

theorem Renames.smix1 (renames : Renames e K K') (B r N V XY : Nat) (m : Region M128) (c : κ) :
    smix1With K' B r N V XY (m, e c) =
      ((smix1With K B r N V XY (m, c)).1, e (smix1With K B r N V XY (m, c)).2) := by
  obtain ⟨hexit, hfill⟩ := @forDoubling_rel _ _ N (smix1FillWith K' r N V)
    (smix1FillWith K r N V) (fun _ s t => s = (t.1, t.2.map e))
    (fun n s t _ _ h => by rw [h, renames.fill]) 2 _ _ (renames.start B r V m c)
  simp only [smix1With, hexit, hfill, smix1EndWith, Smix1Vars.map, renames.mixXor]

end Rename

theorem ctxKernels_renames : Renames some ctxKernels scalarKernels :=
  { mix := fun _ _ _ _ _ => rfl, mixXor := fun _ _ _ _ _ _ => rfl }

theorem smix1_some (m : Region M128) (B r N V XY : Nat) (ctx : PwxformCtx) :
    smix1 m B r N V XY (some ctx) =
      ((smix1With ctxKernels B r N V XY (m, ctx)).1,
        some (smix1With ctxKernels B r N V XY (m, ctx)).2) := by
  rw [smix1_eq, ctxKernels_renames.smix1]

/-! What is left to do after the start of `smix1`: the rest of it, and `smix2`.  It is one
function for the scalar SMix and for a lane of the four. -/

def smixRest (B r N Nloop V XY : Nat) (s : Region M128 × Smix1Vars PwxformCtx) :
    Region M128 × PwxformCtx :=
  let t := forDoubling N (smix1FillWith ctxKernels r N V) 2 s
  let u := smix1EndWith ctxKernels B r N V XY (t.2 / 2) t.1
  smix2 u.1 B r N Nloop V XY u.2

theorem smixRest_ctxKernels (B r N Nloop V XY : Nat) (s : Region M128 × PwxformCtx) :
    smix2 (smix1With ctxKernels B r N V XY s).1 B r N Nloop V XY
        (smix1With ctxKernels B r N V XY s).2 =
      smixRest B r N Nloop V XY (smix1StartWith ctxKernels B r V s) :=
  rfl

theorem smixRest_fourKernels (B r N Nloop V XY : Nat) (s : Region M128 × PwxformCtx) :
    smix2 (smix1With (fourKernels r) B r N V XY s).1 B r N Nloop V XY
        (smix1With (fourKernels r) B r N V XY s).2 =
      smixRest B r N Nloop V XY (smix1StartWith (fourKernels r) B r V s) :=
  rfl

/-! One pwxform further. -/

def PwxformCtx.advance (ctx : PwxformCtx) : PwxformCtx :=
  { ctx with
    S0 := ctx.S2
    S1 := ctx.S0
    S2 := ctx.S1
    w := (ctx.w + 64) &&& smask2_1_0.toNat }

theorem save_pwxform (ctx : PwxformCtx) (s : Region M128 × Yp2State) :
    ctx.save (pwxform s).2 = (ctx.save s.2).advance := by
  have h4 : (pwxformRoundWrite4 s).2.S2 = s.2.S2 := rfl
  have h2 : ∀ t, (pwxformRoundWrite2 t).2.S2 = t.2.S2 := fun _ => rfl
  simp only [pwxform, maskAndRotate, PwxformCtx.save, PwxformCtx.advance, h2, h4,
    pwxformRoundWrite2_S0, pwxformRoundWrite2_S1, pwxformRoundWrite2_w,
    pwxformRoundWrite4_S0, pwxformRoundWrite4_S1, pwxformRoundWrite4_w]

theorem save_forUp {ctx : PwxformCtx}
    {round : Nat → Region M128 × Yp2State → Region M128 × Yp2State}
    (hround : ∀ i s, ctx.save (round i s).2 = (ctx.save s.2).advance) (count : Nat)
    (s : Region M128 × Yp2State) :
    ctx.save (forUp 0 count 1 round s).2 = PwxformCtx.advance^[count] (ctx.save s.2) :=
  forUp_inv_unit (Nat.zero_le count)
    (fun i (t : Region M128 × Yp2State) =>
      ctx.save t.2 = PwxformCtx.advance^[i] (ctx.save s.2)) rfl
    (fun i t _ _ h => by rw [hround, h, Function.iterate_succ_apply'])

/-! How far apart two contexts are. -/

section Count

variable {S : Nat} {ctx : PwxformCtx}

theorem TablesOk.advance (h : ctx.TablesOk S) : ctx.advance.TablesOk S := TablesOk.rotate h

theorem TablesOk.advance_w (h : ctx.TablesOk S) :
    ctx.advance.w = (ctx.w + 64) % 32768 := by
  have haligned := h.aligned
  have hbound := h.bound
  exact and_smask2_1_0 (by omega) (by omega)

theorem TablesOk.advance_iterate (h : ctx.TablesOk S) (count : Nat) :
    (PwxformCtx.advance^[count] ctx).TablesOk S := by
  induction count with
  | zero => exact h
  | succ count ih =>
      rw [Function.iterate_succ_apply']
      exact ih.advance

theorem advance_iterate_w (h : ctx.TablesOk S) (count : Nat) :
    (PwxformCtx.advance^[count] ctx).w = (ctx.w + 64 * count) % 32768 := by
  induction count with
  | zero =>
      have := h.bound
      simp only [Function.iterate_zero, id_eq]
      omega
  | succ count ih =>
      rw [Function.iterate_succ_apply', (h.advance_iterate count).advance_w, ih]
      omega

theorem advance_iterate_tables (ctx : PwxformCtx) (count : Nat) :
    let t := PwxformCtx.advance^[count] ctx
    (t.S0, t.S1, t.S2) = if count % 3 = 0 then (ctx.S0, ctx.S1, ctx.S2)
      else if count % 3 = 1 then (ctx.S2, ctx.S0, ctx.S1) else (ctx.S1, ctx.S2, ctx.S0) := by
  induction count generalizing ctx with
  | zero => rfl
  | succ count ih =>
      rw [Function.iterate_succ_apply]
      have hcases : count % 3 = 0 ∨ count % 3 = 1 ∨ count % 3 = 2 := by omega
      rcases hcases with h | h | h
      · have hnext : (count + 1) % 3 = 1 := by omega
        simpa [h, hnext, PwxformCtx.advance] using ih ctx.advance
      · have hnext : (count + 1) % 3 = 2 := by omega
        simpa [h, hnext, PwxformCtx.advance] using ih ctx.advance
      · have hnext : (count + 1) % 3 = 0 := by omega
        simpa [h, hnext, PwxformCtx.advance] using ih ctx.advance

theorem advance_iterate_Sbytes (ctx : PwxformCtx) (count : Nat) :
    (PwxformCtx.advance^[count] ctx).Sbytes = ctx.Sbytes := by
  induction count with
  | zero => rfl
  | succ count ih => rw [Function.iterate_succ_apply', PwxformCtx.advance, ih]

/-- A context comes round after 1536 pwxforms: the offset after 512, the tables after
three. -/
theorem advance_iterate_eq_iff (h : ctx.TablesOk S) (count : Nat) :
    PwxformCtx.advance^[count] ctx = ctx ↔ count % 1536 = 0 := by
  have hw := advance_iterate_w h count
  have htables := advance_iterate_tables ctx count
  have haligned := h.aligned
  have hbound := h.bound
  have hdistinct : [ctx.S0, ctx.S1, ctx.S2].Nodup :=
    h.perm.nodup_iff.mpr (by simp)
  simp only [List.nodup_cons, List.mem_cons, List.not_mem_nil, or_false, not_or] at hdistinct
  constructor
  · intro hsame
    rw [hsame] at hw htables
    have hthree : count % 3 = 0 := by
      by_contra hne
      rw [if_neg hne] at htables
      split_ifs at htables
      · exact hdistinct.1.2 (congrArg Prod.fst htables)
      · exact hdistinct.1.1 (congrArg Prod.fst htables)
    omega
  · intro hround
    rw [if_pos (by omega)] at htables
    obtain ⟨h0, h12⟩ := Prod.ext_iff.mp htables
    obtain ⟨h1, h2⟩ := Prod.ext_iff.mp h12
    have hSbytes := advance_iterate_Sbytes ctx count
    have hw' : (PwxformCtx.advance^[count] ctx).w = ctx.w := by omega
    generalize PwxformCtx.advance^[count] ctx = t at h0 h1 h2 hw' hSbytes
    obtain ⟨_, _, _, _, _⟩ := t
    obtain ⟨_, _, _, _, _⟩ := ctx
    simp_all

end Count

section Mixes

variable (m : Region M128) (Bin Bin1 Bin2 Bout : Nat) {r : Nat} (ctx : PwxformCtx)

theorem save_rounds (hr : 1 ≤ r)
    {round : Nat → Region M128 × Yp2State → Region M128 × Yp2State}
    (hround : ∀ i s, ctx.save (round i s).2 = (ctx.save s.2).advance) (X : Blk) :
    ctx.save (forUp 0 (r * 2 - 1 + 1) 1 round (m, ctx.load X)).2 =
      PwxformCtx.advance^[2 * r] ctx := by
  rw [save_forUp hround, show r * 2 - 1 + 1 = 2 * r by omega]
  rfl

theorem blockmixPwxform_ctx (hr : 1 ≤ r) :
    (blockmixPwxform m Bin Bout r ctx).2 = PwxformCtx.advance^[2 * r] ctx := by
  rw [blockmixPwxform_eq]
  refine save_rounds m ctx hr (fun i s => ?_) _
  rw [blockmixRound]
  split <;> exact save_pwxform ctx (xorX (Bin + 64 * i) s)

theorem blockmixPlain_ctx (hr : 1 ≤ r) :
    (blockmixPlain m Bin Bout r ctx).2 = PwxformCtx.advance^[2 * r] ctx := by
  refine save_rounds m ctx hr (fun i s => ?_) _
  rw [blockmixPlainRound]
  split <;> exact save_pwxform ctx s

theorem blockmixXorPwxform_ctx (hr : 1 ≤ r) :
    (blockmixXorPwxform m Bin1 Bin2 Bout r ctx).2.1 = PwxformCtx.advance^[2 * r] ctx := by
  rw [blockmixXorPwxform_eq _ _ _ _ hr]
  refine save_rounds m ctx hr (fun i s => ?_) _
  rw [blockmixXorRound]
  split <;> exact save_pwxform ctx (xorX (Bin2 + 64 * i) (xorX (Bin1 + 64 * i) s))

theorem blockmixXorSave_ctx (hr : 1 ≤ r) :
    (blockmixXorSave m Bin1 Bin2 r ctx).2.1 = PwxformCtx.advance^[2 * r] ctx := by
  rw [blockmixXorSave_eq _ _ _ hr]
  refine save_rounds m ctx hr (fun i s => ?_) _
  rw [blockmixXorSaveRound]
  split <;> exact save_pwxform ctx (xorXWriteXorY2 (Bin2 + 64 * i) (Bin1 + 64 * i) s)

end Mixes

def Advances (rel : PwxformCtx → PwxformCtx → Prop) : Prop :=
  ∀ c c', rel c c' → rel c.advance c'.advance

theorem Advances.iterate {rel : PwxformCtx → PwxformCtx → Prop} (advances : Advances rel)
    {c c' : PwxformCtx} (h : rel c c') (count : Nat) :
    rel (PwxformCtx.advance^[count] c) (PwxformCtx.advance^[count] c') := by
  induction count with
  | zero => exact h
  | succ count ih =>
      rw [Function.iterate_succ_apply', Function.iterate_succ_apply']
      exact advances _ _ ih

/-- What `smixRest` does to the contexts does not depend on the memories or the indices. -/
theorem smixRest_ctx {rel : PwxformCtx → PwxformCtx → Prop} (advances : Advances rel)
    {r : Nat} (hr : 1 ≤ r) (B N Nloop V XY : Nat)
    {s s' : Region M128 × Smix1Vars PwxformCtx} (h : rel s.2.ctx s'.2.ctx) :
    rel (smixRest B r N Nloop V XY s).2 (smixRest B r N Nloop V XY s').2 := by
  have hmix : ∀ (Bin1 Bin2 Bout Bin1' Bin2' Bout' : Nat) (m m' : Region M128)
      (c c' : PwxformCtx), rel c c' →
      rel (ctxKernels.mixXor Bin1 Bin2 Bout r (m, c)).2.1
        (ctxKernels.mixXor Bin1' Bin2' Bout' r (m', c')).2.1 := by
    intro Bin1 Bin2 Bout Bin1' Bin2' Bout' m m' c c' h
    simp only [ctxKernels, blockmixXorPwxform_ctx _ _ _ _ _ hr]
    exact advances.iterate h (2 * r)
  have hwalk : ∀ (Bin1 Bin2 Bin1' Bin2' : Nat) (m m' : Region M128) (c c' : PwxformCtx),
      rel c c' → rel (blockmixXorSave m Bin1 Bin2 r c).2.1
        (blockmixXorSave m' Bin1' Bin2' r c').2.1 := by
    intro Bin1 Bin2 Bin1' Bin2' m m' c c' h
    rw [blockmixXorSave_ctx _ _ _ _ hr, blockmixXorSave_ctx _ _ _ _ hr]
    exact advances.iterate h (2 * r)
  obtain ⟨_, hfill⟩ := @forDoubling_rel _ _ N (smix1FillWith ctxKernels r N V)
    (smix1FillWith ctxKernels r N V) (fun _ s s' => rel s.2.ctx s'.2.ctx)
    (fun n s s' _ _ h => forUp_rel
      (fun _ (s s' : Region M128 × Smix1Vars PwxformCtx) => rel s.2.ctx s'.2.ctx) h
      (fun k s s' _ h => hmix _ _ _ _ _ _ _ _ _ _ (hmix _ _ _ _ _ _ _ _ _ _ h))) 2 s s' h
  refine doWhileMinusTwo_rel
    (fun (s s' : Region M128 × Smix2Vars) => rel s.2.ctx s'.2.ctx) ?_ Nloop ?_
  · intro s s' h
    exact hwalk _ _ _ _ _ _ _ _ (hwalk _ _ _ _ _ _ _ _ h)
  · exact hmix _ _ _ _ _ _ _ _ _ _ (hmix _ _ _ _ _ _ _ _ _ _ hfill)

/-- The start of `smix1`: `count` pwxforms for each pair of blocks it spreads, and the two
mixes that fill the next two slots. -/
theorem smix1StartWith_ctx {K : FillKernels PwxformCtx} {r count : Nat} (hr : 1 ≤ r)
    (hspread : ∀ Bin Bout s, (K.mix Bin Bout 1 s).2 = PwxformCtx.advance^[count] s.2)
    (hmix : ∀ Bin Bout s, (K.mix Bin Bout r s).2 = PwxformCtx.advance^[2 * r] s.2)
    (B V : Nat) (s : Region M128 × PwxformCtx) :
    (smix1StartWith K B r V s).2.ctx =
      PwxformCtx.advance^[4 * r + count * (r - 1)] s.2 := by
  have hloop := fun m => @forUp_inv_unit (Region M128 × PwxformCtx) 1 r hr
    (fun i => K.mix (V + 64 * ((i - 1) * 2)) (V + 64 * (i * 2)) 1) (m, s.2)
    (fun i t => t.2 = PwxformCtx.advance^[count * (i - 1)] s.2) (by simp)
    (fun i t hlo _ h => by
      rw [hspread, h, ← Function.iterate_add_apply]
      congr 2
      obtain ⟨k, rfl⟩ : ∃ k, i = k + 1 := ⟨i - 1, by omega⟩
      rw [Nat.add_sub_cancel, Nat.add_sub_cancel, Nat.mul_succ, Nat.add_comm])
  simp only [smix1StartWith, hmix, hloop]
  rw [← Function.iterate_add_apply, ← Function.iterate_add_apply]
  congr 2
  omega

end SojCivicLight.Yespower
