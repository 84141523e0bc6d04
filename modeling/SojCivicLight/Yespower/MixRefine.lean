import SojCivicLight.Yespower.Agreement
import SojCivicLight.Yespower.TableRefine

/-! The block mixes in memory are the block mixes of lists of blocks. -/

namespace SojCivicLight.Yespower

open SojCivicLight.Library

/-- The `n` blocks at `p`. -/
def blksAt (m : Region M128) (p n : Nat) : List Blk :=
  (List.range n).map fun i => loadBlk m (p + 64 * i)

section Blocks

variable {m m' : Region M128} {p n : Nat}

@[simp] theorem length_blksAt (m : Region M128) (p n : Nat) : (blksAt m p n).length = n := by
  rw [blksAt, List.length_map, List.length_range]

theorem getD_map_range {α : Type} (f : Nat → α) {n i : Nat} (hi : i < n) (d : α) :
    ((List.range n).map f).getD i d = f i := by
  rw [List.getD_eq_getElem?_getD, List.getElem?_map, List.getElem?_range hi]
  rfl

theorem getD_blksAt {i : Nat} (hi : i < n) (d : Blk) :
    (blksAt m p n).getD i d = loadBlk m (p + 64 * i) :=
  getD_map_range _ hi d

theorem lastBlk_blksAt (hn : 0 < n) : lastBlk (blksAt m p n) = loadBlk m (p + 64 * (n - 1)) := by
  rw [lastBlk, length_blksAt, getD_blksAt (Nat.sub_one_lt_of_lt hn)]

theorem blksAt_congr (h : ∀ i < n, loadBlk m (p + 64 * i) = loadBlk m' (p + 64 * i)) :
    blksAt m p n = blksAt m' p n :=
  List.map_congr_left fun i hi => h i (List.mem_range.mp hi)

theorem blksAt_eq_iff {bs : List Blk} (hlen : bs.length = n) :
    blksAt m p n = bs ↔ ∀ i < n, loadBlk m (p + 64 * i) = bs.getD i Blk.zero := by
  constructor
  · rintro rfl i hi
    exact (getD_blksAt hi _).symm
  · intro h
    apply List.ext_getElem
    · rw [length_blksAt, hlen]
    · intro i hi hi'
      rw [length_blksAt] at hi
      rw [← List.getD_eq_getElem _ Blk.zero, ← List.getD_eq_getElem _ Blk.zero, getD_blksAt hi,
        h i hi]

theorem blksAt_append (m : Region M128) (p n k : Nat) :
    blksAt m p (n + k) = blksAt m p n ++ blksAt m (p + 64 * n) k := by
  rw [blksAt, List.range_add, List.map_append, List.map_map]
  congr 1
  refine List.map_congr_left fun i _ => ?_
  rw [Function.comp_apply, Nat.mul_add, Nat.add_assoc]

theorem xorBlks_blksAt (q : Nat) :
    xorBlks (blksAt m p n) (blksAt m' q n) =
      (List.range n).map fun i => xorBlk (loadBlk m (p + 64 * i)) (loadBlk m' (q + 64 * i)) := by
  rw [xorBlks, blksAt, blksAt, List.zipWith_map, List.zipWith_self]

end Blocks

/-- A register outside the tables at `S`. -/
def OffTables (S q : Nat) : Prop := q + 16 ≤ S ∨ S + 98304 ≤ q

/-- Nothing but `n` blocks at `p`, and what is not `free`, has changed. -/
def KeptBut (free : Nat → Prop) (p n : Nat) (m' m : Region M128) : Prop :=
  ∀ q, free q → q + 16 ≤ p ∨ p + 64 * n ≤ q → load m' q = load m q

theorem KeptBut.loadBlk {free : Nat → Prop} {p n q : Nat} {m' m : Region M128}
    (h : KeptBut free p n m' m) (hfree : ∀ i, i + 16 ≤ 64 → free (q + i))
    (apart : q + 64 ≤ p ∨ p + 64 * n ≤ q) : loadBlk m' q = loadBlk m q := by
  apply loadBlk_congr
  intro k
  have hk := k.isLt
  exact h _ (hfree _ (by omega)) (by omega)

/-! Inside a block mix. -/

/-- A context and the memory show the tables. -/
structure CtxShows (S : Nat) (m : Region M128) (ctx : PwxformCtx) (t : Tables) : Prop where
  ok : ctx.TablesOk S
  S0 : TableAt m ctx.S0 t.S0
  S1 : TableAt m ctx.S1 t.S1
  S2 : TableAt m ctx.S2 t.S2
  w : ctx.w = 16 * t.w

theorem TablesOk.apart {S S0 S1 S2 w : Nat} (h : TablesOk S S0 S1 S2 w) :
    TablesApart S0 S1 ∧ TablesApart S0 S2 ∧ TablesApart S1 S2 := by
  have hnodup : [S0, S1, S2].Nodup := h.perm.nodup_iff.mpr (by simp)
  have place : ∀ T ∈ [S0, S1, S2], T = S ∨ T = S + 32768 ∨ T = S + 65536 := fun T hT =>
    mem_tables_iff.mp (h.perm.mem_iff.mp hT)
  have h0 := place S0 (by simp)
  have h1 := place S1 (by simp)
  have h2 := place S2 (by simp)
  simp only [List.nodup_cons, List.mem_cons, List.not_mem_nil, or_false, not_or] at hnodup
  unfold TablesApart
  omega

theorem TableAt.congr {m m' : Region M128} {p : Nat} {f : Nat → M128} (h : TableAt m p f)
    (kept : ∀ q, p ≤ q → q + 16 ≤ p + 32768 → load m' q = load m q) : TableAt m' p f := by
  intro k hk
  rw [← h k hk]
  exact kept _ (by omega) (by omega)

theorem CtxShows.congr {S : Nat} {m m' : Region M128} {ctx : PwxformCtx} {t : Tables}
    (h : CtxShows S m ctx t)
    (kept : ∀ q, S ≤ q → q + 16 ≤ S + 98304 → load m' q = load m q) : CtxShows S m' ctx t := by
  have place : ∀ T ∈ [ctx.S0, ctx.S1, ctx.S2], T = S ∨ T = S + 32768 ∨ T = S + 65536 := fun T hT =>
    mem_tables_iff.mp (h.ok.perm.mem_iff.mp hT)
  have table : ∀ T ∈ [ctx.S0, ctx.S1, ctx.S2], ∀ q, T ≤ q → q + 16 ≤ T + 32768 →
      load m' q = load m q := by
    intro T hT q hlo hhi
    have hplace := place T hT
    exact kept q (by omega) (by omega)
  exact ⟨h.ok, h.S0.congr (table _ (by simp)), h.S1.congr (table _ (by simp)),
    h.S2.congr (table _ (by simp)), h.w⟩

/-- The state of a block mix, between two pwxforms, shows a block and its tables. -/
structure MixShows (S : Nat) (s : Region M128 × Yp2State) (a : Mixed) : Prop where
  ok : s.2.TablesOk S
  shows : Shows s a

theorem CtxShows.load {S : Nat} {m : Region M128} {ctx : PwxformCtx} {t : Tables}
    (h : CtxShows S m ctx t) (x : Blk) : MixShows S (m, ctx.load x) (x, t) := by
  obtain ⟨h01, h02, h12⟩ := h.ok.apart
  exact ⟨h.ok, rfl, h.S0, h.S1, h.S2, h.w, h01, h02, h12⟩

theorem MixShows.save {S : Nat} {s : Region M128 × Yp2State} {a : Mixed} (h : MixShows S s a)
    (ctx : PwxformCtx) : CtxShows S s.1 (ctx.save s.2) a.2 :=
  ⟨h.ok, h.shows.S0, h.shows.S1, h.shows.S2, h.shows.w⟩

section Loop

variable {S : Nat} {s : Region M128 × Yp2State} {a : Mixed}

theorem MixShows.congr (h : MixShows S s a) {m' : Region M128}
    (kept : ∀ q, S ≤ q → q + 16 ≤ S + 98304 → Library.load m' q = Library.load s.1 q) :
    MixShows S (m', s.2) a := by
  have ctx := (h.save ⟨0, 0, 0, 0, 0⟩).congr kept
  exact ⟨h.ok, { h.shows with S0 := ctx.S0, S1 := ctx.S1, S2 := ctx.S2 }⟩

theorem MixShows.pwxform (h : MixShows S s a) : MixShows S (pwxform s) (mixOne a) := by
  have hw := h.shows.w
  have haligned := h.ok.aligned
  have hbound := h.ok.bound
  exact ⟨tablesOk_pwxform h.ok, h.shows.pwxform (by omega) (by omega)⟩

theorem MixShows.xor (h : MixShows S s a) (b : Blk) :
    MixShows S (s.1, { s.2 with x := xorBlk s.2.x b }) (xorBlk a.1 b, a.2) :=
  ⟨h.ok, { h.shows with x := congrArg (xorBlk · b) h.shows.x }⟩

theorem mixedAfter_succ {bs : List Blk} (t : Tables) {i : Nat} (hi : i < bs.length) :
    mixedAfter bs t (i + 1) = mixRound (mixedAfter bs t i) (bs.getD i Blk.zero) := by
  rw [mixedAfter, List.take_add_one, List.foldl_append, List.getElem?_eq_getElem hi,
    List.getD_eq_getElem _ _ hi]
  rfl

/-- The rounds of a block mix.  A round changes memory by `eff` before its pwxform, mixes in the
block `feed` finds there, and writes all but the last of the blocks; `J` is what the memory keeps
holding of the inputs. -/
theorem mix_rounds {Bout last : Nat} {bs : List Blk} {t : Tables} (hlen : bs.length = last + 1)
    (out : Bout + 64 * (last + 1) ≤ S ∨ S + 98304 ≤ Bout)
    {round : Nat → Region M128 × Yp2State → Region M128 × Yp2State}
    (eff : Nat → Region M128 → Region M128) (feed : Nat → Region M128 → Blk)
    (J : Nat → Region M128 → Prop)
    (hround : ∀ i s, round i s =
      let s := Yespower.pwxform (eff i s.1, { s.2 with x := xorBlk s.2.x (feed i s.1) })
      if i ≠ last then writeX (Bout + 64 * i) s else s)
    (hfeed : ∀ i ≤ last, ∀ m, J i m → feed i m = bs.getD i Blk.zero)
    (heff : ∀ i ≤ last, ∀ m, J i m → ∀ q,
      (S ≤ q ∧ q + 16 ≤ S + 98304) ∨ (Bout ≤ q ∧ q + 16 ≤ Bout + 64 * i) →
        load (eff i m) q = load m q)
    (hJ : ∀ i ≤ last, ∀ m m', J i m → KeptBut (OffTables S) (Bout + 64 * i) 1 m' (eff i m) →
      J (i + 1) m')
    (start : MixShows S s (lastBlk bs, t)) (startJ : J 0 s.1) :
    MixShows S (forUp 0 (last + 1) 1 round s) (mixedAfter bs t (last + 1)) ∧
      (∀ k < last, loadBlk (forUp 0 (last + 1) 1 round s).1 (Bout + 64 * k) =
        (mixedAfter bs t (k + 1)).1) ∧ J (last + 1) (forUp 0 (last + 1) 1 round s).1 := by
  have loop := @forUp_inv_unit _ 0 (last + 1) (Nat.zero_le _) round s
    (fun i s => MixShows S s (mixedAfter bs t i) ∧
      (∀ k < i, k ≠ last → loadBlk s.1 (Bout + 64 * k) = (mixedAfter bs t (k + 1)).1) ∧ J i s.1)
    ⟨start, fun k hk => absurd hk (Nat.not_lt_zero k), startJ⟩ ?_
  · exact ⟨loop.1, fun k hk => loop.2.1 k (Nat.lt_succ_of_lt hk) (Nat.ne_of_lt hk), loop.2.2⟩
  rintro i s - hi ⟨shows, written, inputs⟩
  have hle : i ≤ last := Nat.le_of_lt_succ hi
  have kept := heff i hle s.1 inputs
  -- the pwxform changes the tables only
  have mixed : MixShows S
      (Yespower.pwxform (eff i s.1, { s.2 with x := xorBlk s.2.x (feed i s.1) }))
      (mixedAfter bs t (i + 1)) := by
    rw [mixedAfter_succ t (by omega), ← hfeed i hle s.1 inputs]
    exact ((shows.congr fun q hlo hhi => kept q (Or.inl ⟨hlo, hhi⟩)).xor _).pwxform
  have outside : ∀ q, OffTables S q → load (Yespower.pwxform
      (eff i s.1, { s.2 with x := xorBlk s.2.x (feed i s.1) })).1 q = load (eff i s.1) q :=
    fun q hq => load_pwxform shows.ok hq
  have hround := hround i s
  dsimp only at hround mixed outside
  generalize Yespower.pwxform _ = u at mixed outside hround
  have before : ∀ k < i, k ≠ last → loadBlk u.1 (Bout + 64 * k) = (mixedAfter bs t (k + 1)).1 := by
    intro k hk hne
    rw [← written k hk hne]
    apply loadBlk_congr
    intro j
    have hj := j.isLt
    rw [outside _ (by unfold OffTables; omega), kept _ (Or.inr ⟨by omega, by omega⟩)]
  rw [hround]
  by_cases hlast : i = last
  · rw [if_neg (not_not.mpr hlast)]
    refine ⟨mixed, fun k hk hne => before k (by omega) hne, hJ i hle s.1 u.1 inputs ?_⟩
    exact fun q hq _ => outside q hq
  · rw [if_pos hlast]
    have stored : ∀ q, q + 16 ≤ Bout + 64 * i ∨ Bout + 64 * i + 64 ≤ q →
        load (writeX (Bout + 64 * i) u).1 q = load u.1 q :=
      fun q hq => load_storeBlk_apart hq u.1 u.2.x
    refine ⟨mixed.congr fun q hlo hhi => stored q (by omega), fun k hk hne => ?_,
      hJ i hle s.1 _ inputs fun q hq hapart => ?_⟩
    · rcases Nat.lt_or_eq_of_le (Nat.le_of_lt_succ hk) with hlt | rfl
      · rw [loadBlk_writeX_apart (by omega), before k hlt hne]
      · exact (loadBlk_storeBlk_self u.1 _ u.2.x).trans mixed.shows.x
    · rw [stored q (by omega), outside q hq]

/-- The end of a block mix: Salsa20 and the last block. -/
theorem mix_finish {Bout last : Nat} {bs : List Blk} {t : Tables} (hlen : bs.length = last + 1)
    (out : Bout + 64 * (last + 1) ≤ S ∨ S + 98304 ≤ Bout) (ctx : PwxformCtx)
    (shows : MixShows S s (mixedAfter bs t (last + 1)))
    (written : ∀ k < last, loadBlk s.1 (Bout + 64 * k) = (mixedAfter bs t (k + 1)).1) :
    blksAt (storeBlk s.1 (Bout + 64 * last) (salsa20Two s.2.x)) Bout (last + 1) =
        (mixBlocks bs t).1 ∧
      CtxShows S (storeBlk s.1 (Bout + 64 * last) (salsa20Two s.2.x)) (ctx.save s.2)
        (mixBlocks bs t).2 := by
  have hcount : (mixBlocks bs t).1.length = last + 1 := by
    rw [mixBlocks, List.length_map, List.length_range, hlen]
  constructor
  · rw [blksAt_eq_iff hcount]
    intro i hi
    rw [mixBlocks, getD_map_range _ (by omega)]
    dsimp only
    rcases Nat.lt_or_eq_of_le (Nat.le_of_lt_succ hi) with hlt | rfl
    · rw [if_neg (by omega), loadBlk_storeBlk_apart (by omega), written i hlt]
    · rw [if_pos hlen.symm, loadBlk_storeBlk_self, salsa20_one, shows.shows.x]
  · have hrest : (mixBlocks bs t).2 = (mixedAfter bs t (last + 1)).2 := by rw [mixBlocks, hlen]
    rw [hrest]
    exact (shows.save ctx).congr fun q hlo hhi => load_storeBlk_apart (by omega) _ _

end Loop

/-! The three block mixes with pwxform. -/

section Mixes

variable {S r Bin Bin1 Bin2 Bout : Nat} {m : Region M128} {ctx : PwxformCtx} {t : Tables}

/-- Blocks off the tables and apart from the output are kept by a block mix. -/
theorem KeptBut.input {m' : Region M128} {n i p : Nat} (h : KeptBut (OffTables S) Bout n m' m)
    (clear : p + 64 * n ≤ S ∨ S + 98304 ≤ p)
    (apart : p + 64 * n ≤ Bout ∨ Bout + 64 * n ≤ p) (hi : i < n) :
    Yespower.loadBlk m' (p + 64 * i) = Yespower.loadBlk m (p + 64 * i) :=
  h.loadBlk (fun j hj => by unfold OffTables; omega) (by omega)

theorem KeptBut.step {m' m'' : Region M128} {n i : Nat} (h : KeptBut (OffTables S) Bout n m' m)
    (hi : i < n) (next : KeptBut (OffTables S) (Bout + 64 * i) 1 m'' m') :
    KeptBut (OffTables S) Bout n m'' m := by
  intro q hq hapart
  rw [next q hq (by omega), h q hq hapart]

theorem blkIndex_mixed {u : Region M128} {bs : List Blk} {last : Nat} {x : Blk}
    (hout : blksAt (storeBlk u (Bout + 64 * last) x) Bout (last + 1) = bs) :
    (x 0).w0.toNat = blkIndex bs := by
  rw [← hout, blkIndex, lastBlk_blksAt (Nat.succ_pos last), Nat.succ_sub_one,
    loadBlk_storeBlk_self]

/-- A block mix that reads its inputs where they are kept. -/
theorem mix_refines {last : Nat} {bs : List Blk} (hlen : bs.length = last + 1)
    (out : Bout + 64 * (last + 1) ≤ S ∨ S + 98304 ≤ Bout)
    {round : Nat → Region M128 × Yp2State → Region M128 × Yp2State}
    (feed : Nat → Region M128 → Blk)
    (hround : ∀ i s, round i s =
      let s := Yespower.pwxform (s.1, { s.2 with x := xorBlk s.2.x (feed i s.1) })
      if i ≠ last then writeX (Bout + 64 * i) s else s)
    (hfeed : ∀ i ≤ last, ∀ m', KeptBut (OffTables S) Bout (last + 1) m' m →
      feed i m' = bs.getD i Blk.zero)
    (h : CtxShows S m ctx t) {X : Blk} (hX : X = lastBlk bs) :
    let s := forUp 0 (last + 1) 1 round (m, ctx.load X)
    let m' := storeBlk s.1 (Bout + 64 * last) (salsa20Two s.2.x)
    blksAt m' Bout (last + 1) = (mixBlocks bs t).1 ∧
      CtxShows S m' (ctx.save s.2) (mixBlocks bs t).2 ∧
      KeptBut (OffTables S) Bout (last + 1) m' m ∧
      (salsa20Two s.2.x 0).w0.toNat = blkIndex (mixBlocks bs t).1 := by
  subst hX
  obtain ⟨shows, written, kept⟩ := mix_rounds hlen out (fun _ m => m) feed
    (fun _ m' => KeptBut (OffTables S) Bout (last + 1) m' m) hround hfeed
    (fun _ _ _ _ _ _ => rfl)
    (fun i hi _ _ hkept next => hkept.step (Nat.lt_succ_of_le hi) next) (h.load _)
    (fun _ _ _ => rfl)
  obtain ⟨hout, hctx⟩ := mix_finish hlen out ctx shows written
  refine ⟨hout, hctx, fun q hq hapart => ?_, blkIndex_mixed hout⟩
  rw [load_storeBlk_apart (by omega), kept q hq hapart]

theorem blockmixPwxform_refines (hr : 1 ≤ r) (clear : OutOfTables S r Bin)
    (out : OutOfTables S r Bout)
    (apart : Bin + 64 * (2 * r) ≤ Bout ∨ Bout + 64 * (2 * r) ≤ Bin) (h : CtxShows S m ctx t) :
    let u := blockmixPwxform m Bin Bout r ctx
    let v := mixBlocks (blksAt m Bin (2 * r)) t
    blksAt u.1 Bout (2 * r) = v.1 ∧ CtxShows S u.1 u.2 v.2 ∧
      KeptBut (OffTables S) Bout (2 * r) u.1 m := by
  obtain ⟨last, hlast⟩ : ∃ last, 2 * r = last + 1 := ⟨2 * r - 1, by omega⟩
  unfold OutOfTables at clear out
  rw [hlast] at clear out apart ⊢
  have hround : ∀ i s, blockmixRound Bin Bout last i s =
      let s := Yespower.pwxform (s.1, { s.2 with x := xorBlk s.2.x (loadBlk s.1 (Bin + 64 * i)) })
      if i ≠ last then writeX (Bout + 64 * i) s else s := fun _ _ => rfl
  have main := mix_refines (length_blksAt m Bin (last + 1)) out
    (fun i m => loadBlk m (Bin + 64 * i)) hround
    (fun i hi m' kept => by
      rw [getD_blksAt (Nat.lt_succ_of_le hi)]
      exact kept.input clear apart (Nat.lt_succ_of_le hi)) h
    (lastBlk_blksAt (Nat.succ_pos last)).symm
  rw [blockmixPwxform_eq, show r * 2 - 1 = last by omega]
  exact ⟨main.1, main.2.1, main.2.2.1⟩

theorem blockmixXorPwxform_refines (hr : 1 ≤ r) (clear1 : OutOfTables S r Bin1)
    (clear2 : OutOfTables S r Bin2) (out : OutOfTables S r Bout)
    (apart1 : Bin1 + 64 * (2 * r) ≤ Bout ∨ Bout + 64 * (2 * r) ≤ Bin1)
    (apart2 : Bin2 + 64 * (2 * r) ≤ Bout ∨ Bout + 64 * (2 * r) ≤ Bin2) (h : CtxShows S m ctx t) :
    let u := blockmixXorPwxform m Bin1 Bin2 Bout r ctx
    let v := mixBlocks (xorBlks (blksAt m Bin1 (2 * r)) (blksAt m Bin2 (2 * r))) t
    blksAt u.1 Bout (2 * r) = v.1 ∧ CtxShows S u.1 u.2.1 v.2 ∧
      KeptBut (OffTables S) Bout (2 * r) u.1 m ∧ u.2.2.toNat = blkIndex v.1 := by
  obtain ⟨last, hlast⟩ : ∃ last, 2 * r = last + 1 := ⟨2 * r - 1, by omega⟩
  unfold OutOfTables at clear1 clear2 out
  rw [hlast] at clear1 clear2 out apart1 apart2 ⊢
  have hround : ∀ i s, blockmixXorRound Bin1 Bin2 Bout last i s =
      let s := Yespower.pwxform (s.1, { s.2 with
        x := xorBlk s.2.x (xorBlk (loadBlk s.1 (Bin1 + 64 * i)) (loadBlk s.1 (Bin2 + 64 * i))) })
      if i ≠ last then writeX (Bout + 64 * i) s else s := by
    intro i s
    rw [← xorBlk_assoc]
    rfl
  have hlen : (xorBlks (blksAt m Bin1 (last + 1)) (blksAt m Bin2 (last + 1))).length =
      last + 1 := by
    rw [xorBlks_blksAt, List.length_map, List.length_range]
  have hlastBlk : xorBlk (loadBlk m (Bin1 + 64 * last)) (loadBlk m (Bin2 + 64 * last)) =
      lastBlk (xorBlks (blksAt m Bin1 (last + 1)) (blksAt m Bin2 (last + 1))) := by
    rw [lastBlk, hlen, xorBlks_blksAt, Nat.add_sub_cancel, getD_map_range _ (Nat.lt_succ_self last)]
  have main := mix_refines hlen out
    (fun i m => xorBlk (loadBlk m (Bin1 + 64 * i)) (loadBlk m (Bin2 + 64 * i))) hround
    (fun i hi m' kept => by
      have hi := Nat.lt_succ_of_le hi
      rw [xorBlks_blksAt, getD_map_range _ hi, kept.input clear1 apart1 hi,
        kept.input clear2 apart2 hi]) h hlastBlk
  rw [blockmixXorPwxform_eq _ _ _ _ hr, show r * 2 - 1 = last by omega]
  exact main

/-- After `i` rounds of the block mix that saves: the inputs there still are, the blocks that are
saved over the second one, and what lies elsewhere. -/
structure Saving (S Bin1 Bin2 last : Nat) (m : Region M128) (bs : List Blk) (i : Nat)
    (m' : Region M128) : Prop where
  first : ∀ k ≤ last, i ≤ k → loadBlk m' (Bin1 + 64 * k) = loadBlk m (Bin1 + 64 * k)
  second : ∀ k ≤ last, i ≤ k → loadBlk m' (Bin2 + 64 * k) = loadBlk m (Bin2 + 64 * k)
  saved : ∀ k < i, loadBlk m' (Bin2 + 64 * k) = bs.getD k Blk.zero
  kept : ∀ q, OffTables S q → q + 16 ≤ Bin1 ∨ Bin1 + 64 * (last + 1) ≤ q →
    q + 16 ≤ Bin2 ∨ Bin2 + 64 * (last + 1) ≤ q → load m' q = load m q

theorem Saving.next {last i : Nat} {bs : List Blk} {m' m'' : Region M128}
    (clear1 : Bin1 + 64 * (last + 1) ≤ S ∨ S + 98304 ≤ Bin1)
    (clear2 : Bin2 + 64 * (last + 1) ≤ S ∨ S + 98304 ≤ Bin2)
    (apart : Bin1 + 64 * (last + 1) ≤ Bin2 ∨ Bin2 + 64 * (last + 1) ≤ Bin1) (hi : i ≤ last)
    (h : Saving S Bin1 Bin2 last m bs i m')
    (kept : KeptBut (OffTables S) (Bin1 + 64 * i) 1 m''
      (storeBlk m' (Bin2 + 64 * i) (bs.getD i Blk.zero))) :
    Saving S Bin1 Bin2 last m bs (i + 1) m'' := by
  have first : ∀ k ≤ last, k ≠ i → loadBlk m'' (Bin1 + 64 * k) = loadBlk m' (Bin1 + 64 * k) := by
    intro k hk hne
    rw [kept.loadBlk (fun j hj => by unfold OffTables; omega) (by omega),
      loadBlk_storeBlk_apart (by omega)]
  have second : ∀ k ≤ last, loadBlk m'' (Bin2 + 64 * k) =
      loadBlk (storeBlk m' (Bin2 + 64 * i) (bs.getD i Blk.zero)) (Bin2 + 64 * k) := by
    intro k hk
    exact kept.loadBlk (fun j hj => by unfold OffTables; omega) (by omega)
  refine ⟨fun k hk hik => ?_, fun k hk hik => ?_, fun k hk => ?_, fun q hq h1 h2 => ?_⟩
  · rw [first k hk (by omega), h.first k hk (by omega)]
  · rw [second k hk, loadBlk_storeBlk_apart (by omega), h.second k hk (by omega)]
  · rw [second k (by omega)]
    rcases Nat.lt_or_eq_of_le (Nat.le_of_lt_succ hk) with hlt | rfl
    · rw [loadBlk_storeBlk_apart (by omega), h.saved k hlt]
    · rw [loadBlk_storeBlk_self]
  · rw [kept q hq (by omega), load_storeBlk_apart (by omega), h.kept q hq h1 h2]

theorem blockmixXorSave_refines (hr : 1 ≤ r) (clear1 : OutOfTables S r Bin1)
    (clear2 : OutOfTables S r Bin2)
    (apart : Bin1 + 64 * (2 * r) ≤ Bin2 ∨ Bin2 + 64 * (2 * r) ≤ Bin1) (h : CtxShows S m ctx t) :
    let u := blockmixXorSave m Bin1 Bin2 r ctx
    let bs := xorBlks (blksAt m Bin1 (2 * r)) (blksAt m Bin2 (2 * r))
    let v := mixBlocks bs t
    blksAt u.1 Bin1 (2 * r) = v.1 ∧ blksAt u.1 Bin2 (2 * r) = bs ∧ CtxShows S u.1 u.2.1 v.2 ∧
      (∀ q, OffTables S q → q + 16 ≤ Bin1 ∨ Bin1 + 64 * (2 * r) ≤ q →
        q + 16 ≤ Bin2 ∨ Bin2 + 64 * (2 * r) ≤ q → load u.1 q = load m q) ∧
      u.2.2.toNat = blkIndex v.1 := by
  obtain ⟨last, hlast⟩ : ∃ last, 2 * r = last + 1 := ⟨2 * r - 1, by omega⟩
  unfold OutOfTables at clear1 clear2
  rw [hlast] at clear1 clear2 apart ⊢
  intro u bs v
  have hlen : bs.length = last + 1 := by
    rw [show bs = _ from xorBlks_blksAt _, List.length_map, List.length_range]
  have hbs : ∀ k ≤ last, bs.getD k Blk.zero =
      xorBlk (loadBlk m (Bin1 + 64 * k)) (loadBlk m (Bin2 + 64 * k)) := by
    intro k hk
    rw [show bs = _ from xorBlks_blksAt _, getD_map_range _ (Nat.lt_succ_of_le hk)]
  have hX : xorBlk (loadBlk m (Bin1 + 64 * last)) (loadBlk m (Bin2 + 64 * last)) = lastBlk bs := by
    rw [lastBlk, hlen, Nat.add_sub_cancel, hbs last (Nat.le_refl last)]
  let feed : Nat → Region M128 → Blk := fun i m' =>
    xorBlk (loadBlk m' (Bin2 + 64 * i)) (loadBlk m' (Bin1 + 64 * i))
  have hfeed : ∀ i ≤ last, ∀ m', Saving S Bin1 Bin2 last m bs i m' →
      feed i m' = bs.getD i Blk.zero := by
    intro i hi m' hsaving
    rw [hbs i hi, xorBlk_comm, ← hsaving.first i hi (Nat.le_refl i),
      ← hsaving.second i hi (Nat.le_refl i)]
  have hround : ∀ i s, blockmixXorSaveRound Bin1 Bin2 last i s =
      let s := Yespower.pwxform (storeBlk s.1 (Bin2 + 64 * i) (feed i s.1),
        { s.2 with x := xorBlk s.2.x (feed i s.1) })
      if i ≠ last then writeX (Bin1 + 64 * i) s else s := fun _ _ => rfl
  have start : MixShows S (m, ctx.load (xorBlk (loadBlk m (Bin1 + 64 * last))
      (loadBlk m (Bin2 + 64 * last)))) (lastBlk bs, t) := by
    rw [hX]
    exact h.load _
  obtain ⟨shows, written, saving⟩ := mix_rounds hlen clear1
    (fun i m' => storeBlk m' (Bin2 + 64 * i) (feed i m')) feed
    (Saving S Bin1 Bin2 last m bs) hround hfeed
    (fun i hi m' hsaving q hq => load_storeBlk_apart (by omega) _ _)
    (fun i hi m' m'' hsaving kept => by
      rw [hfeed i hi m' hsaving] at kept
      exact hsaving.next clear1 clear2 apart hi kept) start
    ⟨fun _ _ _ => rfl, fun _ _ _ => rfl, fun k hk => absurd hk (Nat.not_lt_zero k),
      fun _ _ _ _ => rfl⟩
  obtain ⟨hout, hctx⟩ := mix_finish hlen clear1 ctx shows written
  have hu : u = _ := blockmixXorSave_eq m Bin1 Bin2 hr ctx
  rw [show r * 2 - 1 = last by omega] at hu
  rw [hu]
  dsimp only
  refine ⟨hout, ?_, hctx, fun q hq h1 h2 => ?_, blkIndex_mixed hout⟩
  · rw [blksAt_eq_iff hlen]
    intro i hi
    rw [loadBlk_storeBlk_apart (by omega), saving.saved i hi]
  · rw [load_storeBlk_apart (by omega), saving.kept q hq h1 h2]

end Mixes

end SojCivicLight.Yespower
