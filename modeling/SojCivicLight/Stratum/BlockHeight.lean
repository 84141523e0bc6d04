import SojCivicLight.Stratum.Notify

/-! The height in the coinbase: which bytes `getblocheight` reads to find it, and which
heights it finds. -/

namespace SojCivicLight.Stratum

open SojCivicLight.Util

/-! The reads of a call. The bound of both loops is tested after the byte is read. -/

/-- One of the two loops: where it stops, and the offsets it reads. -/
def skipReads (byteAt : Nat → UInt8) (isTag : Bool) (m p : Nat) : Nat × List Nat :=
  if (byteAt p == 0xff) = isTag ∧ p < m then
    ((skipReads byteAt isTag m (p + 1)).1, p :: (skipReads byteAt isTag m (p + 1)).2)
  else (p, [p])
termination_by m - p

/-- The two bytes before the script length, the second one read if the first is `0xff`. -/
def tagReads (byteAt : Nat → UInt8) (p : Nat) : List Nat :=
  if byteAt (p - 1) == 0xff then [p - 1, p - 2] else [p - 1]

def pushReads (byteAt : Nat → UInt8) (p : Nat) : List Nat :=
  if byteAt (p - 1) == 0xff && byteAt (p - 2) == 0xff then
    [p + 1, p + 2, p + 3] ++
      if byteAt (p + 1) == 4 then [p + 4, p + 5] else if byteAt (p + 1) == 3 then [p + 4] else []
  else []

/-- Every offset a call reads, in order. -/
def getblocheightReads (byteAt : Nat → UInt8) (coinbaseSize : Nat) : List Nat :=
  let m := coinbaseSize - 2
  let first := skipReads byteAt false m 32
  let second := skipReads byteAt true m first.1
  first.2 ++ second.2 ++ tagReads byteAt second.1 ++ pushReads byteAt second.1

theorem skipReads_fst (byteAt : Nat → UInt8) (isTag : Bool) (m p : Nat) :
    (skipReads byteAt isTag m p).1 = skipBytes byteAt isTag (m - p) p := by
  induction p using skipReads.induct byteAt isTag m with
  | case1 p hskip ih =>
      obtain ⟨hbyte, hlt⟩ := hskip
      obtain ⟨rounds, hrounds⟩ : ∃ rounds, m - p = rounds + 1 := ⟨m - p - 1, by omega⟩
      have hrest : m - (p + 1) = rounds := by omega
      rw [skipReads, if_pos ⟨hbyte, hlt⟩, hrounds, skipBytes, if_pos (by simpa using hbyte), ih,
        hrest]
  | case2 p hstop =>
      rw [skipReads, if_neg hstop]
      cases hrounds : m - p with
      | zero => rfl
      | succ rounds =>
          have hbyte : ¬ (byteAt p == 0xff) = isTag := fun h => hstop ⟨h, by omega⟩
          rw [skipBytes, if_neg (by simpa using hbyte)]

theorem skipReads_snd (byteAt : Nat → UInt8) (isTag : Bool) (m p : Nat) :
    (skipReads byteAt isTag m p).2 =
        List.range' p ((skipReads byteAt isTag m p).1 + 1 - p) ∧
      p ≤ (skipReads byteAt isTag m p).1 ∧ (skipReads byteAt isTag m p).1 ≤ max m p := by
  induction p using skipReads.induct byteAt isTag m with
  | case1 p hskip ih =>
      obtain ⟨hreads, hle, hmax⟩ := ih
      rw [skipReads, if_pos hskip]
      refine ⟨?_, by omega, by omega⟩
      have hcount : (skipReads byteAt isTag m (p + 1)).1 + 1 - p =
          ((skipReads byteAt isTag m (p + 1)).1 + 1 - (p + 1)) + 1 := by omega
      rw [hcount, List.range'_succ]
      exact congrArg (p :: ·) hreads
  | case2 p hstop =>
      rw [skipReads, if_neg hstop]
      simp

theorem reads_inside_iff (byteAt : Nat → UInt8) (isTag : Bool) (m p size : Nat) :
    (∀ i ∈ (skipReads byteAt isTag m p).2, i < size) ↔ (skipReads byteAt isTag m p).1 < size := by
  obtain ⟨hreads, hle, -⟩ := skipReads_snd byteAt isTag m p
  simp only [hreads, List.mem_range'_1]
  constructor
  · intro h
    exact h _ (by omega)
  · intro h i hi
    omega

/-! The same in terms of the bytes of the coinbase. -/

theorem skipBytes_eq (heap : Heap) (coinbase : List UInt8) (isTag : Bool) {rounds p : Nat}
    (hfits : p + rounds ≤ coinbase.length) :
    skipBytes (coinbaseByte heap coinbase) isTag rounds p =
      p + (((coinbase.drop p).take rounds).takeWhile fun b => (b == 0xff) == isTag).length := by
  induction rounds generalizing p with
  | zero => simp [skipBytes]
  | succ rounds ih =>
      have hp : p < coinbase.length := by omega
      have hbyte : coinbaseByte heap coinbase p = coinbase[p] := dif_pos hp
      rw [skipBytes, hbyte, List.drop_eq_getElem_cons hp, List.take_succ_cons, List.takeWhile_cons]
      by_cases h : ((coinbase[p] == 0xff) == isTag) = true
      · rw [if_pos h, if_pos h, ih (by omega), List.length_cons]
        omega
      · rw [if_neg h, if_neg h, List.length_nil, Nat.add_zero]

/-- The end of the first run of `0xff` from byte 32 on, cut two bytes before the end. -/
def tagEnd (coinbase : List UInt8) : Nat :=
  let field := (coinbase.take (coinbase.length - 2)).drop 32
  32 + (field.takeWhile (· != 0xff)).length +
    ((field.dropWhile (· != 0xff)).takeWhile (· == 0xff)).length

theorem second_stop_eq_tagEnd (heap : Heap) (coinbase : List UInt8) :
    (skipReads (coinbaseByte heap coinbase) true (coinbase.length - 2)
        (skipReads (coinbaseByte heap coinbase) false (coinbase.length - 2) 32).1).1 =
      tagEnd coinbase := by
  have hbefore : (fun b : UInt8 => (b == 0xff) == false) = (· != 0xff) := by
    funext b
    rw [bne]
    cases b == 0xff with
    | false => rfl
    | true => rfl
  have htag : (fun b : UInt8 => (b == 0xff) == true) = (· == 0xff) := by
    funext b
    cases b == 0xff with
    | false => rfl
    | true => rfl
  rw [skipReads_fst, skipReads_fst, tagEnd]
  by_cases hlong : 34 ≤ coinbase.length
  · have hfield : 32 + (coinbase.length - 2 - 32) = coinbase.length - 2 := by omega
    rw [skipBytes_eq heap coinbase false (by omega), hbefore, List.take_drop, hfield]
    generalize hlist : (coinbase.take (coinbase.length - 2)).drop 32 = field
    have hlen : field.length = coinbase.length - 2 - 32 := by
      rw [← hlist, List.length_drop, List.length_take]
      omega
    have hshort := (@List.takeWhile_prefix _ field (· != 0xff)).length_le
    have hrest : 32 + (field.takeWhile (· != 0xff)).length +
        (coinbase.length - 2 - (32 + (field.takeWhile (· != 0xff)).length)) =
          coinbase.length - 2 := by omega
    have hdrop : field.dropWhile (· != 0xff) =
        field.drop (field.takeWhile (· != 0xff)).length := by
      have hsplit : field.takeWhile (· != 0xff) ++ field.dropWhile (· != 0xff) = field :=
        List.takeWhile_append_dropWhile
      calc field.dropWhile (· != 0xff) = (field.takeWhile (· != 0xff) ++
            field.dropWhile (· != 0xff)).drop (field.takeWhile (· != 0xff)).length :=
          List.drop_left.symm
        _ = field.drop (field.takeWhile (· != 0xff)).length := by rw [hsplit]
    rw [skipBytes_eq heap coinbase true (by omega), htag, List.take_drop, hrest, hdrop, ← hlist,
      List.drop_drop]
  · have hempty : (coinbase.take (coinbase.length - 2)).drop 32 = [] :=
      List.drop_eq_nil_of_le (by rw [List.length_take]; omega)
    have hrounds : coinbase.length - 2 - 32 = 0 := by omega
    rw [hempty, hrounds, skipBytes, hrounds, skipBytes]
    rfl

theorem length_skipReads_le (byteAt : Nat → UInt8) (isTag : Bool) (m p : Nat) :
    (skipReads byteAt isTag m p).2.length ≤ m - p + 1 := by
  obtain ⟨hreads, hle, hmax⟩ := skipReads_snd byteAt isTag m p
  rw [hreads, List.length_range']
  omega

/-- The push after the tag, if there is one, ends before the coinbase does. -/
def PushInside (coinbase : List UInt8) : Prop :=
  33 ≤ coinbase.length ∧
    (coinbase.getD (tagEnd coinbase - 1) 0 = 0xff → coinbase.getD (tagEnd coinbase - 2) 0 = 0xff →
      tagEnd coinbase + 3 < coinbase.length ∧
      (coinbase.getD (tagEnd coinbase + 1) 0 = 4 → tagEnd coinbase + 5 < coinbase.length) ∧
      (coinbase.getD (tagEnd coinbase + 1) 0 = 3 → tagEnd coinbase + 4 < coinbase.length))

instance (coinbase : List UInt8) : Decidable (PushInside coinbase) :=
  inferInstanceAs (Decidable (_ ∧ _))

theorem pushReads_inside_iff (byteAt : Nat → UInt8) (p size : Nat) :
    (∀ i ∈ pushReads byteAt p, i < size) ↔
      (byteAt (p - 1) = 0xff → byteAt (p - 2) = 0xff → p + 3 < size ∧
        (byteAt (p + 1) = 4 → p + 5 < size) ∧ (byteAt (p + 1) = 3 → p + 4 < size)) := by
  rw [pushReads]
  by_cases htag : byteAt (p - 1) = 0xff ∧ byteAt (p - 2) = 0xff
  · rw [if_pos (by simpa using htag)]
    simp only [htag.1, htag.2, true_implies]
    by_cases h4 : byteAt (p + 1) = 4
    · simp [h4]
      omega
    · by_cases h3 : byteAt (p + 1) = 3
      · simp [h3]
        omega
      · simp [h4, h3]
        omega
  · rw [if_neg (by simpa using htag)]
    simp only [List.not_mem_nil, false_implies, implies_true, true_iff]
    exact fun h1 h2 => absurd ⟨h1, h2⟩ htag

theorem tagReads_inside (byteAt : Nat → UInt8) {p size : Nat} (hp : p < size) :
    ∀ i ∈ tagReads byteAt p, i < size := by
  rw [tagReads]
  split
  all_goals simp
  all_goals omega

theorem coinbaseByte_eq (heap : Heap) {coinbase : List UInt8} {i : Nat}
    (hi : i < coinbase.length) : coinbaseByte heap coinbase i = coinbase.getD i 0 := by
  rw [coinbaseByte, dif_pos hi, List.getD_eq_getElem _ _ hi]

theorem reads_inside_iff_pushInside (heap : Heap) (coinbase : List UInt8) :
    (∀ i ∈ getblocheightReads (coinbaseByte heap coinbase) coinbase.length,
        i < coinbase.length) ↔ PushInside coinbase := by
  have hend := second_stop_eq_tagEnd heap coinbase
  obtain ⟨-, hfirst, hfirstMax⟩ :=
    skipReads_snd (coinbaseByte heap coinbase) false (coinbase.length - 2) 32
  obtain ⟨-, hsecond, hsecondMax⟩ := skipReads_snd (coinbaseByte heap coinbase) true
    (coinbase.length - 2) (skipReads (coinbaseByte heap coinbase) false (coinbase.length - 2) 32).1
  have hbyte := fun {i : Nat} => @coinbaseByte_eq heap coinbase i
  rw [hend] at hsecond hsecondMax
  simp only [getblocheightReads, List.forall_mem_append, reads_inside_iff, hend,
    pushReads_inside_iff, PushInside]
  constructor
  · rintro ⟨⟨⟨hstart, hstop⟩, -⟩, hpush⟩
    refine ⟨by omega, fun h1 h2 => ?_⟩
    rw [← hbyte (by omega)] at h1 h2
    obtain ⟨h3, hfour, hthree⟩ := hpush h1 h2
    rw [← hbyte (by omega)]
    exact ⟨h3, hfour, hthree⟩
  · rintro ⟨hlong, hpush⟩
    refine ⟨⟨⟨by omega, by omega⟩, tagReads_inside _ (by omega)⟩, fun h1 h2 => ?_⟩
    rw [hbyte (by omega)] at h1 h2
    obtain ⟨h3, hfour, hthree⟩ := hpush h1 h2
    rw [hbyte (by omega)]
    exact ⟨h3, hfour, hthree⟩

/-! The height depends on the bytes read and on no others. -/

theorem skipReads_congr {byteAt byteAt' : Nat → UInt8} {isTag : Bool} {m p : Nat}
    (h : ∀ i ∈ (skipReads byteAt isTag m p).2, byteAt i = byteAt' i) :
    skipReads byteAt' isTag m p = skipReads byteAt isTag m p := by
  induction p using skipReads.induct byteAt isTag m with
  | case1 p hskip ih =>
      rw [skipReads, if_pos hskip] at h
      have hp := h p List.mem_cons_self
      have hrest := ih fun i hi => h i (List.mem_cons_of_mem p hi)
      conv_rhs => rw [skipReads, if_pos hskip]
      rw [skipReads, ← hp, if_pos hskip, hrest]
  | case2 p hstop =>
      rw [skipReads, if_neg hstop] at h
      have hp := h p List.mem_cons_self
      conv_rhs => rw [skipReads, if_neg hstop]
      rw [skipReads, ← hp, if_neg hstop]

theorem getblocheight_congr {byteAt byteAt' : Nat → UInt8} {size : Nat}
    (h : ∀ i ∈ getblocheightReads byteAt size, byteAt i = byteAt' i) :
    getblocheight byteAt' size = getblocheight byteAt size := by
  simp only [getblocheightReads, List.forall_mem_append] at h
  obtain ⟨⟨⟨hstart, hstop⟩, htag⟩, hpush⟩ := h
  have hfirst := skipReads_congr hstart
  have hsecond := skipReads_congr hstop
  rw [getblocheight, getblocheight]
  simp only [← skipReads_fst]
  rw [hfirst, hsecond]
  generalize (skipReads byteAt true (size - 2) (skipReads byteAt false (size - 2) 32).1).1 = p
    at htag hpush
  have hlast : byteAt (p - 1) = byteAt' (p - 1) := htag _ (by rw [tagReads]; split <;> simp)
  by_cases hone : byteAt (p - 1) = 0xff
  · have hprev : byteAt (p - 2) = byteAt' (p - 2) := htag _ (by simp [tagReads, hone])
    by_cases htwo : byteAt (p - 2) = 0xff
    · simp only [pushReads, hone, htwo, beq_self_eq_true, Bool.and_self, if_true,
        List.forall_mem_append, List.forall_mem_cons] at hpush
      obtain ⟨⟨h1, h2, h3, -⟩, hmore⟩ := hpush
      simp only [← hlast, ← hprev, hone, htwo, ← h1, ← h2, ← h3]
      by_cases hfour : byteAt (p + 1) = 4
      · simp only [hfour, beq_self_eq_true, if_true, List.forall_mem_cons] at hmore
        simp [hfour, ← hmore.1, ← hmore.2.1]
      · by_cases hthree : byteAt (p + 1) = 3
        · simp only [hthree] at hmore
          have h4 := hmore (p + 4) (by simp)
          simp [hthree, ← h4]
        · simp [hfour, hthree]
    · have htwo' : ¬ byteAt' (p - 2) = 0xff := hprev ▸ htwo
      simp [htwo, htwo']
  · have hone' : ¬ byteAt' (p - 1) = 0xff := hlast ▸ hone
    simp [hone, hone']

theorem getblocheight_of_pushInside (heap heap' : Heap) {coinbase : List UInt8}
    (h : PushInside coinbase) :
    getblocheight (coinbaseByte heap coinbase) coinbase.length =
      getblocheight (coinbaseByte heap' coinbase) coinbase.length := by
  apply getblocheight_congr
  intro i hi
  have hin := (reads_inside_iff_pushInside heap' coinbase).mpr h i hi
  rw [coinbaseByte_eq heap' hin, coinbaseByte_eq heap hin]

/-- The reads for the coinbase of a notify stay inside it exactly where it is long enough to
start in and for the push it is found to hold; both loops leave either way.  The height then does
not depend on what lies behind the coinbase. -/
theorem notify_height_reads_iff (heap : Heap) (sctx : StratumCtx) (fields : NotifyFields) :
    ((∀ i ∈ getblocheightReads (coinbaseByte heap (layCoinbase heap sctx fields))
          (layCoinbase heap sctx fields).length, i < (layCoinbase heap sctx fields).length) ↔
        PushInside (layCoinbase heap sctx fields)) ∧
      (∀ m p, (skipReads (coinbaseByte heap (layCoinbase heap sctx fields)) false m p).2.length ≤
          m - p + 1 ∧
        (skipReads (coinbaseByte heap (layCoinbase heap sctx fields)) true m p).2.length ≤
          m - p + 1) ∧
      (PushInside (layCoinbase heap sctx fields) → ∀ heap',
        getblocheight (coinbaseByte heap (layCoinbase heap sctx fields))
            (layCoinbase heap sctx fields).length =
          getblocheight (coinbaseByte heap' (layCoinbase heap sctx fields))
            (layCoinbase heap sctx fields).length) :=
  ⟨reads_inside_iff_pushInside heap _,
    fun m p => ⟨length_skipReads_le _ false m p, length_skipReads_le _ true m p⟩,
    fun hinside heap' => getblocheight_of_pushInside heap heap' hinside⟩

/-- A notify whose coinbase has ten bytes with the extranonces of `tinySubscription`. -/
def tinyNotify : Json :=
  .array [.string (cstr "a"), .string (List.replicate 64 48), .string (cstr "00"),
    .string (cstr "00"), .array [], .string (cstr "00000001"), .string (cstr "1d00ffff"),
    .string (cstr "5e000000"), .bool true]

def tinySubscription : StratumCtx :=
  { StratumCtx.init with xnonce1 := [1, 2, 3, 4], xnonce2Size := 4 }

theorem tiny_notify_reads_outside :
    (stratumNotify .zero tinySubscription (some tinyNotify)).2 = true ∧
      ¬ ∀ i ∈ getblocheightReads (coinbaseByte .zero
          (stratumNotify .zero tinySubscription (some tinyNotify)).1.job.coinbase)
          (stratumNotify .zero tinySubscription (some tinyNotify)).1.job.coinbase.length,
        i < (stratumNotify .zero tinySubscription (some tinyNotify)).1.job.coinbase.length := by
  refine ⟨by decide +kernel, ?_⟩
  rw [reads_inside_iff_pushInside]
  decide +kernel

/-! Heights as a generation input carries them. -/

/-- A script number: little-endian, as short as its clear top bit allows. From 17 on it is
what the minimal push holds. -/
def scriptNum (h : Nat) : List UInt8 :=
  if h < 128 then [UInt8.ofNat h] else UInt8.ofNat h :: scriptNum (h / 256)

def heightPush (h : Nat) : List UInt8 :=
  UInt8.ofNat (scriptNum h).length :: scriptNum h

/-- The bytes of a generation input up to its script length. -/
def generationInput (version : Bytes 4) (segwit : Bool) (scriptLength : UInt8) : List UInt8 :=
  version.val ++ (if segwit then [0, 1] else []) ++ [1] ++ List.replicate 32 0 ++
    List.replicate 4 0xff ++ [scriptLength]

theorem generationInput_eq (version : Bytes 4) (segwit : Bool) (scriptLength : UInt8) :
    ∃ start : List UInt8, ∃ zeros : Nat, start.length = 32 ∧
      generationInput version segwit scriptLength =
        start ++ (List.replicate zeros 0 ++ (List.replicate 4 0xff ++ [scriptLength])) := by
  have hversion := version.property
  cases segwit with
  | false =>
      refine ⟨version.val ++ [1] ++ List.replicate 27 0, 5, by simp [hversion], ?_⟩
      simp [generationInput, List.replicate_succ]
  | true =>
      refine ⟨version.val ++ [0, 1] ++ [1] ++ List.replicate 25 0, 7, by simp [hversion], ?_⟩
      simp [generationInput, List.replicate_succ]

theorem takeWhile_replicate_append {P : UInt8 → Bool} {b : UInt8} (hb : P b = true) (n : Nat)
    {c : UInt8} (hc : P c = false) (rest : List UInt8) :
    (List.replicate n b ++ c :: rest).takeWhile P = List.replicate n b ∧
      (List.replicate n b ++ c :: rest).dropWhile P = c :: rest := by
  have hall : ∀ a ∈ List.replicate n b, P a = true := by
    intro a ha
    rw [List.eq_of_mem_replicate ha]
    exact hb
  rw [List.takeWhile_append_of_pos hall, List.dropWhile_append_of_pos hall, List.takeWhile_cons,
    List.dropWhile_cons, hc]
  simp

theorem tagEnd_generationInput (version : Bytes 4) (segwit : Bool) {scriptLength : UInt8}
    (hshort : scriptLength ≠ 0xff) {script : List UInt8} (hscript : 2 ≤ script.length) :
    tagEnd (generationInput version segwit scriptLength ++ script) + 1 =
      (generationInput version segwit scriptLength).length := by
  obtain ⟨start, zeros, hstart, heq⟩ := generationInput_eq version segwit scriptLength
  have hcut : ((generationInput version segwit scriptLength ++ script).take
      ((generationInput version segwit scriptLength ++ script).length - 2)).drop 32 =
      List.replicate zeros 0 ++ 0xff :: (List.replicate 3 0xff ++
        (scriptLength :: script.take (script.length - 2))) := by
    rw [List.length_append, Nat.add_sub_assoc hscript, List.take_length_add_append, heq,
      ← hstart, List.append_assoc, List.drop_left]
    simp [List.replicate_succ]
  obtain ⟨hzeros, htag⟩ := takeWhile_replicate_append (P := (· != 0xff)) (b := 0) rfl zeros
    (c := 0xff) rfl (List.replicate 3 0xff ++ (scriptLength :: script.take (script.length - 2)))
  obtain ⟨hrun, -⟩ := takeWhile_replicate_append (P := (· == 0xff)) (b := 0xff) rfl 4
    (c := scriptLength) (by simpa using hshort) (script.take (script.length - 2))
  have hfour : (0xff : UInt8) :: (List.replicate 3 0xff ++
      (scriptLength :: script.take (script.length - 2))) =
      List.replicate 4 0xff ++ (scriptLength :: script.take (script.length - 2)) := rfl
  rw [tagEnd]
  simp only [hcut, hzeros, htag]
  rw [hfour, hrun, heq]
  simp [hstart]
  omega

theorem scriptNum_eq {h : Nat} (hlt : h < 2 ^ 31) :
    (h < 128 ∧ scriptNum h = [UInt8.ofNat h]) ∨
    (128 ≤ h ∧ h < 2 ^ 15 ∧ scriptNum h = [UInt8.ofNat h, UInt8.ofNat (h / 256)]) ∨
    (2 ^ 15 ≤ h ∧ h < 2 ^ 23 ∧ scriptNum h = [UInt8.ofNat h, UInt8.ofNat (h / 256),
      UInt8.ofNat (h / 256 / 256)]) ∨
    (2 ^ 23 ≤ h ∧ scriptNum h = [UInt8.ofNat h, UInt8.ofNat (h / 256),
      UInt8.ofNat (h / 256 / 256), UInt8.ofNat (h / 256 / 256 / 256)]) := by
  by_cases h1 : h < 128
  · exact Or.inl ⟨h1, by rw [scriptNum, if_pos h1]⟩
  · by_cases h2 : h < 2 ^ 15
    · refine Or.inr (Or.inl ⟨by omega, h2, ?_⟩)
      rw [scriptNum, if_neg h1, scriptNum, if_pos (by omega)]
    · by_cases h3 : h < 2 ^ 23
      · refine Or.inr (Or.inr (Or.inl ⟨by omega, h3, ?_⟩))
        rw [scriptNum, if_neg h1, scriptNum, if_neg (by omega), scriptNum, if_pos (by omega)]
      · refine Or.inr (Or.inr (Or.inr ⟨by omega, ?_⟩))
        rw [scriptNum, if_neg h1, scriptNum, if_neg (by omega), scriptNum, if_neg (by omega),
          scriptNum, if_pos (by omega)]

theorem coinbaseByte_append (heap : Heap) (pre : List UInt8) {post : List UInt8} {i : Nat}
    {b : UInt8} (hb : post[i]? = some b) :
    coinbaseByte heap (pre ++ post) (pre.length + i) = b := by
  obtain ⟨hi, rfl⟩ := List.getElem?_eq_some_iff.mp hb
  rw [coinbaseByte, dif_pos (by rw [List.length_append]; omega)]
  simp

/-- The two bytes before the script length belong to the index. -/
theorem index_byte (heap : Heap) (version : Bytes 4) (segwit : Bool) (scriptLength : UInt8)
    (script : List UInt8) {i : Nat} (hi : i = 2 ∨ i = 3) :
    coinbaseByte heap (generationInput version segwit scriptLength ++ script)
      ((generationInput version segwit scriptLength).length - i) = 0xff := by
  obtain ⟨start, zeros, -, heq⟩ := generationInput_eq version segwit scriptLength
  have hsplit : generationInput version segwit scriptLength ++ script =
      (start ++ List.replicate zeros 0 ++ [0xff, 0xff]) ++
        ([0xff, 0xff, scriptLength] ++ script) := by
    simp [heq, List.replicate_succ]
  have hlen : (generationInput version segwit scriptLength).length - i =
      (start ++ List.replicate zeros 0 ++ [0xff, 0xff]).length + (3 - i) := by
    rw [heq]
    simp
    omega
  rw [hsplit, hlen]
  apply coinbaseByte_append
  rcases hi with rfl | rfl
  · rfl
  · rfl

theorem getblocheight_generationInput (heap : Heap) (version : Bytes 4) (segwit : Bool)
    {scriptLength : UInt8} (hshort : scriptLength ≠ 0xff) {script : List UInt8}
    (hscript : 2 ≤ script.length) (byteAt : Nat → UInt8)
    (hbyte : byteAt = fun i => coinbaseByte heap (generationInput version segwit scriptLength ++
      script) ((generationInput version segwit scriptLength).length + i)) :
    getblocheight (coinbaseByte heap (generationInput version segwit scriptLength ++ script))
        (generationInput version segwit scriptLength ++ script).length =
      if byteAt 0 == 4 then UInt32.ofNat ((byteAt 1).toNat + 256 * (byteAt 2).toNat +
        0x10000 * ((byteAt 3).toNat + 256 * (byteAt 4).toNat))
      else if byteAt 0 == 3 then UInt32.ofNat ((byteAt 1).toNat + 256 * (byteAt 2).toNat +
        0x10000 * (byteAt 3).toNat)
      else UInt32.ofNat ((byteAt 1).toNat + 256 * (byteAt 2).toNat) := by
  have hend := second_stop_eq_tagEnd heap
    (generationInput version segwit scriptLength ++ script)
  have htag := tagEnd_generationInput version segwit hshort hscript
  have hone := index_byte heap version segwit scriptLength script (Or.inl rfl)
  have htwo := index_byte heap version segwit scriptLength script (Or.inr rfl)
  rw [← htag, Nat.add_sub_add_right] at hone htwo
  rw [getblocheight]
  simp only [← skipReads_fst, hend, hone, htwo, hbyte, ← htag, beq_self_eq_true, Bool.and_self,
    if_true, Nat.add_assoc, Nat.reduceAdd, Nat.add_zero]

/-- `getblocheight` finds the height of a generation input from 128 on; below, it takes the
byte after the push for its second one. -/
theorem getblocheight_eq_iff (heap : Heap) (version : Bytes 4) (segwit : Bool)
    {scriptLength : UInt8} (hshort : scriptLength < 0xff) {h : Nat}
    (hhigh : h < 2 ^ 31) (rest : List UInt8) :
    (getblocheight
        (coinbaseByte heap (generationInput version segwit scriptLength ++ (heightPush h ++ rest)))
        (generationInput version segwit scriptLength ++ (heightPush h ++ rest)).length).toNat = h ↔
      128 ≤ h ∨
        coinbaseByte heap (generationInput version segwit scriptLength ++ (heightPush h ++ rest))
          ((generationInput version segwit scriptLength).length + 2) = 0 := by
  have hne : scriptLength ≠ 0xff := UInt8.ne_of_lt hshort
  generalize hbytes : (fun i => coinbaseByte heap (generationInput version segwit scriptLength ++
    (heightPush h ++ rest)) ((generationInput version segwit scriptLength).length + i)) = byteAt
  have hpush : ∀ {num : List UInt8}, scriptNum h = num → ∀ i b,
      (UInt8.ofNat num.length :: num)[i]? = some b → byteAt i = b := by
    rintro num rfl i b hb
    obtain ⟨hi, rfl⟩ := List.getElem?_eq_some_iff.mp hb
    rw [← hbytes]
    apply coinbaseByte_append
    rw [heightPush, List.getElem?_append_left hi, List.getElem?_eq_getElem hi]
  have hafter : coinbaseByte heap (generationInput version segwit scriptLength ++
      (heightPush h ++ rest)) ((generationInput version segwit scriptLength).length + 2) =
        byteAt 2 := by rw [← hbytes]
  have hlong : 2 ≤ (heightPush h ++ rest).length := by
    rw [heightPush, scriptNum]
    split
    all_goals simp
  rw [getblocheight_generationInput heap version segwit hne hlong byteAt hbytes.symm, hafter]
  rcases scriptNum_eq hhigh with ⟨h1, hnum⟩ | ⟨h1, h2, hnum⟩ | ⟨h1, h2, hnum⟩ | ⟨h1, hnum⟩
  · -- one byte: the next one is read too
    have hbyte := hpush hnum
    have hlt := (byteAt 2).toNat_lt
    rw [hbyte 0 _ rfl, hbyte 1 _ rfl, ← UInt8.toNat_inj]
    simp
    omega
  · have hbyte := hpush hnum
    rw [hbyte 0 _ rfl, hbyte 1 _ rfl, hbyte 2 _ rfl]
    simp
    omega
  · have hbyte := hpush hnum
    rw [hbyte 0 _ rfl, hbyte 1 _ rfl, hbyte 2 _ rfl, hbyte 3 _ rfl]
    simp
    omega
  · have hbyte := hpush hnum
    rw [hbyte 0 _ rfl, hbyte 1 _ rfl, hbyte 2 _ rfl, hbyte 3 _ rfl, hbyte 4 _ rfl]
    simp
    omega

def versionTwo : Bytes 4 := ⟨[2, 0, 0, 0], rfl⟩

/-- Height 840000 with the segwit marker. -/
theorem getblocheight_segwit :
    (getblocheight
        (coinbaseByte .zero (generationInput versionTwo true 9 ++ (heightPush 840000 ++ [7, 7])))
        (generationInput versionTwo true 9 ++ (heightPush 840000 ++ [7, 7])).length).toNat =
      840000 :=
  (getblocheight_eq_iff .zero versionTwo true (by decide) (by decide) [7, 7]).mpr
    (Or.inl (by decide))

/-- Height 100, pushed by one byte, is read as 100 + 256 * 7. -/
theorem getblocheight_one_byte :
    ¬ (getblocheight
        (coinbaseByte .zero (generationInput versionTwo false 9 ++ (heightPush 100 ++ [7, 7])))
        (generationInput versionTwo false 9 ++ (heightPush 100 ++ [7, 7])).length).toNat = 100 := by
  rw [heightPush, scriptNum, if_pos (by decide)]
  decide +kernel

end SojCivicLight.Stratum
