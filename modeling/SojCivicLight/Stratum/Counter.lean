import SojCivicLight.Library.Lanes
import SojCivicLight.Library.Run
import SojCivicLight.Stratum.GenWork

/-! The extranonce2 slot as a counter over the works of a job: zeroed by the notify that
brings a new job id, incremented by each work, and moved by a repeated notify. -/

namespace SojCivicLight.Stratum

open SojCivicLight.Library SojCivicLight.Util

/-! The increment of `stratum_gen_work`. -/

theorem increment_unpack (n k : Nat) : increment (unpack n k) = unpack n (k + 1) := by
  induction n generalizing k with
  | zero => rfl
  | succ n ih =>
      have hsum : UInt8.ofNat k + 1 = UInt8.ofNat (k + 1) := UInt8.ofNat_add k 1 |>.symm
      have hzero : UInt8.ofNat (k + 1) = 0 ↔ (k + 1) % 256 = 0 := by
        rw [← UInt8.toNat_inj]
        rfl
      rw [unpack, increment, hsum, unpack]
      by_cases hcarry : (k + 1) % 256 = 0
      · have hnext : (k + 1) / 256 = k / 256 + 1 := by omega
        rw [if_pos (hzero.mpr hcarry), hzero.mpr hcarry, ih, hnext]
      · have hsame : (k + 1) / 256 = k / 256 := by omega
        rw [if_neg fun h => hcarry (hzero.mp h), hsame]

/-! The slot after a notify. -/

def NotifyFields.slotOffset (fields : NotifyFields) (sctx : StratumCtx) : Nat :=
  fields.coinb1.length / 2 + sctx.xnonce1.length

/-- The buffer of the coinbase when `realloc` has made it the size of the new one. -/
def NotifyFields.buffer (fields : NotifyFields) (heap : Heap) (sctx : StratumCtx) : List UInt8 :=
  realloc heap.grown sctx.job.coinbase
    (fields.slotOffset sctx + sctx.xnonce2Size + fields.coinb2.length / 2)

def NotifyFields.newSlot (fields : NotifyFields) (heap : Heap) (sctx : StratumCtx) :
    List UInt8 :=
  if sctx.job.jobId = some fields.jobId then
    ((fields.buffer heap sctx).drop (fields.slotOffset sctx)).take sctx.xnonce2Size
  else List.replicate sctx.xnonce2Size 0

theorem length_newSlot (fields : NotifyFields) (heap : Heap) (sctx : StratumCtx) :
    (fields.newSlot heap sctx).length = sctx.xnonce2Size := by
  rw [NotifyFields.newSlot]
  split
  · rw [List.length_take, List.length_drop, NotifyFields.buffer, length_realloc]
    omega
  · exact List.length_replicate

/-- The slot lies inside the coinbase and holds these bytes. -/
structure SlotHolds (sctx : StratumCtx) (bytes : List UInt8) : Prop where
  room : sctx.job.xnonce2 + sctx.xnonce2Size ≤ sctx.job.coinbase.length
  holds : (sctx.job.coinbase.drop sctx.job.xnonce2).take sctx.xnonce2Size = bytes

theorem SlotHolds.slotBytes {sctx : StratumCtx} {bytes : List UInt8} (h : SlotHolds sctx bytes)
    (heap : Heap) : sctx.slotBytes heap = bytes :=
  (slotBytes_of_le heap h.room).trans h.holds

theorem acceptJob_slotHolds (heap : Heap) (sctx : StratumCtx) (fields : NotifyFields)
    (merkle : List (Bytes 32)) :
    SlotHolds (acceptJob heap sctx fields merkle) (fields.newSlot heap sctx) := by
  have hslot := length_newSlot fields heap sctx
  have hbuffer : (fields.buffer heap sctx).length =
      fields.slotOffset sctx + sctx.xnonce2Size + fields.coinb2.length / 2 :=
    length_realloc _ _ _
  have hhead : (hex2bin ((fields.buffer heap sctx).take (fields.coinb1.length / 2))
      fields.coinb1).1.length = fields.coinb1.length / 2 := by
    rw [length_hex2bin, List.length_take, hbuffer, NotifyFields.slotOffset]
    omega
  have hlaid : layCoinbase heap sctx fields =
      ((hex2bin ((fields.buffer heap sctx).take (fields.coinb1.length / 2)) fields.coinb1).1 ++
        sctx.xnonce1) ++ (fields.newSlot heap sctx ++
        (hex2bin ((fields.buffer heap sctx).drop (fields.slotOffset sctx + sctx.xnonce2Size))
          fields.coinb2).1) := by
    rw [← List.append_assoc]
    rfl
  have hoffset : ((hex2bin ((fields.buffer heap sctx).take (fields.coinb1.length / 2))
      fields.coinb1).1 ++ sctx.xnonce1).length = fields.slotOffset sctx := by
    rw [List.length_append, hhead, NotifyFields.slotOffset]
  constructor
  case room =>
    change fields.slotOffset sctx + sctx.xnonce2Size ≤ (layCoinbase heap sctx fields).length
    rw [hlaid, List.length_append, hoffset, List.length_append, hslot]
    omega
  case holds =>
    change ((layCoinbase heap sctx fields).drop (fields.slotOffset sctx)).take sctx.xnonce2Size =
      fields.newSlot heap sctx
    rw [hlaid, ← hoffset, List.drop_left, ← hslot, List.take_left]

theorem preIncrement_slotHolds (heap : Heap) {sctx : StratumCtx} {bytes : List UInt8}
    (h : SlotHolds sctx bytes) : SlotHolds (preIncrement heap sctx) (increment bytes) := by
  have hroom := h.room
  have hlen : (increment bytes).length = sctx.xnonce2Size := by
    rw [length_increment, ← h.slotBytes heap, length_slotBytes]
  have htake : (sctx.job.coinbase.take sctx.job.xnonce2).length = sctx.job.xnonce2 := by
    rw [List.length_take]
    omega
  have hstored : (preIncrement heap sctx).job.coinbase =
      sctx.job.coinbase.take sctx.job.xnonce2 ++ (increment bytes ++
        sctx.job.coinbase.drop (sctx.job.xnonce2 + sctx.xnonce2Size)) := by
    change storeBytes sctx.job.coinbase sctx.job.xnonce2 (increment (sctx.slotBytes heap)) = _
    rw [h.slotBytes heap, storeBytes_eq (by rw [hlen]; exact hroom), hlen, List.append_assoc]
  constructor
  case room =>
    change sctx.job.xnonce2 + sctx.xnonce2Size ≤ (preIncrement heap sctx).job.coinbase.length
    rw [hstored, List.length_append, htake, List.length_append, hlen]
    omega
  case holds =>
    change ((preIncrement heap sctx).job.coinbase.drop sctx.job.xnonce2).take
      sctx.xnonce2Size = increment bytes
    rw [hstored, List.drop_left' htake, List.take_left' hlen]

/-! Runs of `stratum_gen_work` calls and accepted notifies. -/

inductive CounterEvent
  | genWork (heap : Heap) (reauthEpoch : Nat)
  | notify (heap : Heap) (params : Option Json)

/-- The context, and the extranonce2 of each work published since the job id last changed;
none before the first change. -/
structure Counter where
  sctx : StratumCtx
  published : Option (List (List UInt8))

def counterStep (gate : Gate) (s : Counter) : CounterEvent → Option Counter
  | .genWork heap reauthEpoch =>
      (stratumGenWork gate heap reauthEpoch s.sctx).map fun built =>
        { sctx := built.1, published := s.published.map (· ++ [built.2.1.xnonce2]) }
  | .notify heap params =>
      let answer := stratumNotify heap s.sctx params
      if answer.2 then
        some { sctx := answer.1,
               published :=
                if answer.1.job.jobId = s.sctx.job.jobId then s.published else some [] }
      else none

/-- A notify that repeats the job id finds in the buffer, where it puts the slot, what the
slot held. -/
def KeepsSlot (s : Counter) : CounterEvent → Prop
  | .genWork _ _ => True
  | .notify heap params =>
      match readNotify params with
      | none => True
      | some fields => s.sctx.job.jobId = some fields.jobId →
          ((fields.buffer heap s.sctx).drop (fields.slotOffset s.sctx)).take s.sctx.xnonce2Size =
            s.sctx.slotBytes heap

instance (s : Counter) (e : CounterEvent) : Decidable (KeepsSlot s e) :=
  match e with
  | .genWork _ _ => inferInstanceAs (Decidable True)
  | .notify heap params =>
      match hread : readNotify params with
      | none => .isTrue (by simp [KeepsSlot, hread])
      | some fields =>
          decidable_of_iff (s.sctx.job.jobId = some fields.jobId →
            ((fields.buffer heap s.sctx).drop (fields.slotOffset s.sctx)).take
              s.sctx.xnonce2Size = s.sctx.slotBytes heap) (by simp [KeepsSlot, hread])

/-- The works published so far count up from 0, and the next one goes on. -/
def Counter.Counting (s : Counter) : Prop :=
  ∀ works, s.published = some works →
    works = (List.range works.length).map (unpack s.sctx.xnonce2Size) ∧
      SlotHolds s.sctx (unpack s.sctx.xnonce2Size works.length)

theorem counterStep_eq_some {gate : Gate} {s s' : Counter} {e : CounterEvent}
    (h : counterStep gate s e = some s') :
    (∃ heap reauthEpoch, e = .genWork heap reauthEpoch ∧
      s' = { sctx := preIncrement heap s.sctx,
             published := s.published.map (· ++ [s.sctx.slotBytes heap]) }) ∨
    ∃ heap params fields merkle, e = .notify heap params ∧ readNotify params = some fields ∧
      s' = { sctx := acceptJob heap s.sctx fields merkle,
             published :=
              if s.sctx.job.jobId = some fields.jobId then s.published else some [] } := by
  cases e with
  | genWork heap reauthEpoch =>
      obtain ⟨built, hbuilt, rfl⟩ := Option.map_eq_some_iff.mp h
      obtain ⟨jobId, -, rfl⟩ := stratumGenWork_eq_some hbuilt
      exact Or.inl ⟨heap, reauthEpoch, rfl, rfl⟩
  | notify heap params =>
      rw [counterStep] at h
      obtain ⟨-, heq⟩ | ⟨fields, merkle, hread, -, ⟨-, heq⟩ | ⟨-, heq⟩⟩ :=
        stratumNotify_eq heap s.sctx params
      · simp [heq] at h
      · rw [heq] at h
        obtain rfl := Option.some.inj h
        refine Or.inr ⟨heap, params, fields, merkle, rfl, hread, ?_⟩
        congr 1
        have hjob : (acceptJob heap s.sctx fields merkle).job.jobId = some fields.jobId := rfl
        simp only [hjob, eq_comm]
      · simp [heq] at h

theorem counting_genWork (heap : Heap) {s : Counter} (h : s.Counting) :
    Counter.Counting { sctx := preIncrement heap s.sctx,
                       published := s.published.map (· ++ [s.sctx.slotBytes heap]) } := by
  intro works hworks
  obtain ⟨before, hbefore, rfl⟩ := Option.map_eq_some_iff.mp hworks
  obtain ⟨hcount, hslot⟩ := h before hbefore
  have hnext := preIncrement_slotHolds heap hslot
  rw [increment_unpack] at hnext
  rw [List.length_append, List.length_singleton]
  refine ⟨?_, hnext⟩
  rw [List.range_succ, List.map_append, hslot.slotBytes heap, List.map_singleton]
  exact congrArg (· ++ [unpack s.sctx.xnonce2Size before.length]) hcount

theorem counting_notify {heap : Heap} {params : Option Json} {fields : NotifyFields}
    (merkle : List (Bytes 32)) {s : Counter} (h : s.Counting)
    (hread : readNotify params = some fields) (hkeeps : KeepsSlot s (.notify heap params)) :
    Counter.Counting
      { sctx := acceptJob heap s.sctx fields merkle,
        published := if s.sctx.job.jobId = some fields.jobId then s.published else some [] } := by
  have hnew := acceptJob_slotHolds heap s.sctx fields merkle
  intro works hworks
  simp only at hworks
  by_cases hsame : s.sctx.job.jobId = some fields.jobId
  · rw [if_pos hsame] at hworks
    obtain ⟨hcount, hslot⟩ := h works hworks
    simp only [KeepsSlot, hread] at hkeeps
    rw [NotifyFields.newSlot, if_pos hsame, hkeeps hsame, hslot.slotBytes heap] at hnew
    exact ⟨hcount, hnew⟩
  · rw [if_neg hsame] at hworks
    obtain rfl := Option.some.inj hworks
    rw [NotifyFields.newSlot, if_neg hsame, ← unpack_zero] at hnew
    exact ⟨rfl, hnew⟩

theorem counterStep_counting {gate : Gate} (s : Counter) (e : CounterEvent) (s' : Counter)
    (h : s.Counting) (hkeeps : KeepsSlot s e) (taken : counterStep gate s e = some s') :
    s'.Counting := by
  obtain ⟨heap, reauthEpoch, rfl, rfl⟩ | ⟨heap, params, fields, merkle, rfl, hread, rfl⟩ :=
    counterStep_eq_some taken
  · exact counting_genWork heap h
  · exact counting_notify merkle h hread hkeeps

/-- A repeated notify whose `coinb1` puts the slot where it was keeps it. -/
theorem keepsSlot_of_offset {heap : Heap} {params : Option Json} {s : Counter}
    (hroom : s.sctx.job.xnonce2 + s.sctx.xnonce2Size ≤ s.sctx.job.coinbase.length)
    (hoffset : ∀ fields, readNotify params = some fields →
      fields.slotOffset s.sctx = s.sctx.job.xnonce2) : KeepsSlot s (.notify heap params) := by
  rw [KeepsSlot]
  cases hread : readNotify params with
  | none => trivial
  | some fields =>
      intro _
      have hsame := hoffset fields hread
      rw [slotBytes_of_le heap hroom, NotifyFields.buffer, realloc, hsame,
        List.drop_append_of_le_length (by rw [List.length_take]; omega), List.drop_take,
        List.take_append_of_le_length (by rw [List.length_take, List.length_drop]; omega),
        List.take_take, Nat.min_eq_left (by omega)]

/-- The works since the job id last changed carry 0, 1, 2, … modulo `256 ^ size`, lowest byte
first, so no two of the first `256 ^ size` carry the same. -/
def CountsUp (size : Nat) (s : Counter) : Prop :=
  ∀ works, s.published = some works →
    (∀ k < works.length, works[k]? = some (unpack size k)) ∧
      ∀ j < works.length, ∀ i < j, j < 256 ^ size → works[i]? ≠ works[j]?

theorem Counter.Counting.countsUp {s : Counter} (h : s.Counting) :
    CountsUp s.sctx.xnonce2Size s := by
  intro works hworks
  obtain ⟨hcount, -⟩ := h works hworks
  have hvalue : ∀ k < works.length, works[k]? = some (unpack s.sctx.xnonce2Size k) := by
    intro k hk
    rw [hcount, List.getElem?_map, List.getElem?_range hk]
    rfl
  refine ⟨hvalue, fun j hj i hij hfirst heq => ?_⟩
  rw [hvalue i (hij.trans hj), hvalue j hj] at heq
  have hpack := congrArg pack (Option.some.inj heq)
  rw [pack_unpack, pack_unpack, Nat.mod_eq_of_lt hfirst,
    Nat.mod_eq_of_lt (hij.trans hfirst)] at hpack
  exact absurd hpack (Nat.ne_of_lt hij)

theorem counterStep_xnonce2Size {gate : Gate} (s : Counter) (e : CounterEvent) (s' : Counter)
    (taken : counterStep gate s e = some s') : s'.sctx.xnonce2Size = s.sctx.xnonce2Size := by
  obtain ⟨heap, reauthEpoch, rfl, rfl⟩ | ⟨heap, params, fields, merkle, rfl, hread, rfl⟩ :=
    counterStep_eq_some taken
  · rfl
  · rfl

/-- In a run whose repeated notifies keep the slot, the works of every job count up. -/
theorem works_count_up {gate : Gate} {init : StratumCtx} {trace : List (Counter × CounterEvent)}
    {s : Counter} (run : Run (counterStep gate) ⟨init, none⟩ trace s)
    (keeps : Steps KeepsSlot trace) : CountsUp init.xnonce2Size s := by
  have hsize : s.sctx.xnonce2Size = init.xnonce2Size :=
    run.invariant (fun t => t.sctx.xnonce2Size = init.xnonce2Size) rfl
      fun t e t' h taken => (counterStep_xnonce2Size t e t' taken).trans h
  have hcounting : s.Counting :=
    run.invariant_of_steps Counter.Counting KeepsSlot (fun _ h => by cases h)
      counterStep_counting keeps
  rw [← hsize]
  exact hcounting.countsUp

def fourByteSubscription : StratumCtx :=
  { StratumCtx.init with xnonce1 := [1, 2, 3, 4], xnonce2Size := 4 }

def jobNotify (coinb1 coinb2 : String) : CounterEvent :=
  .notify .zero (some (.array [.string (cstr "a"), .string (List.replicate 64 48),
    .string (cstr coinb1), .string (cstr coinb2), .array [], .string (cstr "00000001"),
    .string (cstr "1d00ffff"), .string (cstr "5e000000")]))

/-- Three works of a job, its notify repeated after the first with another `coinb2`. -/
theorem works_count_up_three : ∃ trace s,
    Run (counterStep .zero) ⟨fourByteSubscription, none⟩ trace s ∧
      s.published = some [[0, 0, 0, 0], [1, 0, 0, 0], [2, 0, 0, 0]] ∧ CountsUp 4 s := by
  have hrun : (exec (guarded (counterStep .zero) KeepsSlot) ⟨fourByteSubscription, none⟩
      [jobNotify "00" "0000", .genWork .zero 0, jobNotify "11" "00", .genWork .zero 0,
        .genWork .zero 0]).map Counter.published =
      some (some [[0, 0, 0, 0], [1, 0, 0, 0], [2, 0, 0, 0]]) := by decide +kernel
  obtain ⟨s, hexec, hs⟩ := Option.map_eq_some_iff.mp hrun
  obtain ⟨trace, run, -⟩ := Run.start.exec hexec
  exact ⟨trace, s, run.of_guarded.1, hs, works_count_up run.of_guarded.1 run.of_guarded.2⟩

/-- A repeated notify with a longer `coinb1` moves the slot onto a byte of the old `coinb2`,
and the second work carries the extranonce2 of the first. -/
theorem repeated_notify_restarts_count : ¬ ∀ (gate : Gate) (init : StratumCtx)
    (trace : List (Counter × CounterEvent)) (s : Counter),
    Run (counterStep gate) ⟨init, none⟩ trace s → CountsUp init.xnonce2Size s := by
  intro h
  have hrun : (exec (counterStep .zero) ⟨fourByteSubscription, none⟩
      [jobNotify "00" "0000", .genWork .zero 0, jobNotify "0000" "00", .genWork .zero 0]).map
      Counter.published = some (some [[0, 0, 0, 0], [0, 0, 0, 0]]) := by decide +kernel
  obtain ⟨s, hexec, hs⟩ := Option.map_eq_some_iff.mp hrun
  obtain ⟨trace, run, -⟩ := Run.start.exec hexec
  have hdistinct := (h _ _ _ _ run _ hs).2 1 (by decide) 0 (by decide) (by decide)
  exact hdistinct rfl

end SojCivicLight.Stratum
