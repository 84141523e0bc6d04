import SojCivicLight.Library.Run
import SojCivicLight.Stratum.GenWork
import SojCivicLight.Stratum.Transport

/-! The extranonce slot over whole sessions: the coinbase is laid out by a notify, and the
works built from it read the extranonce sizes of the moment. -/

namespace SojCivicLight.Stratum

open SojCivicLight.Library SojCivicLight.Util

/-- The sizes and the extranonce1 that the coinbase in use was laid out with. -/
structure Layout where
  coinb1Size : Nat
  xnonce1 : List UInt8
  xnonce2Size : Nat

namespace Layout

def offset (layout : Layout) : Nat := layout.coinb1Size + layout.xnonce1.length

def slot (layout : Layout) (coinbase : List UInt8) : List UInt8 :=
  (coinbase.drop layout.offset).take layout.xnonce2Size

def xnonce1In (layout : Layout) (coinbase : List UInt8) : List UInt8 :=
  (coinbase.drop layout.coinb1Size).take layout.xnonce1.length

structure Fits (layout : Layout) (job : StratumJob) : Prop where
  xnonce2 : job.xnonce2 = layout.offset
  room : layout.offset + layout.xnonce2Size ≤ job.coinbase.length
  xnonce1 : layout.xnonce1In job.coinbase = layout.xnonce1

end Layout

/-- The layout that a notify accepted in `sctx` gives. -/
def layoutOf (sctx : StratumCtx) (params : Option Json) : Layout where
  coinb1Size := (readNotify params).elim 0 fun fields => fields.coinb1.length / 2
  xnonce1 := sctx.xnonce1
  xnonce2Size := sctx.xnonce2Size

theorem acceptJob_fits (heap : Heap) (sctx : StratumCtx) {params : Option Json}
    {fields : NotifyFields} (hread : readNotify params = some fields)
    (merkle : List (Bytes 32)) :
    (layoutOf sctx params).Fits (acceptJob heap sctx fields merkle).job := by
  obtain ⟨head, slot, tail, hhead, hslot, -, heq⟩ := layCoinbase_eq heap sctx fields
  have hcoinb1 : (layoutOf sctx params).coinb1Size =
      (hex2bin head fields.coinb1).1.length := by
    rw [length_hex2bin, hhead, layoutOf, hread]
    rfl
  have hxnonce1 : (layoutOf sctx params).xnonce1 = sctx.xnonce1 := rfl
  have hcoinbase : (acceptJob heap sctx fields merkle).job.coinbase =
      (hex2bin head fields.coinb1).1 ++ sctx.xnonce1 ++ slot ++
        (hex2bin tail fields.coinb2).1 := heq
  constructor
  · rw [Layout.offset, hcoinb1, length_hex2bin, hhead, hxnonce1]
    rfl
  · rw [Layout.offset, hcoinb1, hcoinbase, hxnonce1]
    simp only [List.length_append, layoutOf]
    omega
  · rw [Layout.xnonce1In, hcoinb1, hcoinbase, hxnonce1, List.append_assoc, List.append_assoc,
      List.drop_left, List.take_left]

inductive SlotEvent where
  | line (line : Line)
  | subscribe (val : Option Json)
  | disconnect
  | genWork (heap : Heap) (reauthEpoch : Nat)

/-- The context, and the layout given by the last accepted notify. -/
structure SlotState where
  ctx : StratumCtx
  layout : Layout

def SlotState.init : SlotState where
  ctx := .init
  layout := ⟨0, [], 0⟩

def slotStep (opts : Options) (gate : Gate) (s : SlotState) : SlotEvent → Option SlotState
  | .line line =>
      let handled := stratumHandleMethod opts s.ctx line
      some
        { ctx := handled.1
          layout :=
            if CallsNotify line.val ∧ handled.2 = true then
              layoutOf s.ctx (jsonObjectGet line.val (cstr "params"))
            else s.layout }
  | .subscribe val => some { s with ctx := (subscribeReply s.ctx val).1 }
  | .disconnect => some { s with ctx := stratumDisconnect s.ctx }
  | .genWork heap reauthEpoch =>
      (stratumGenWork gate heap reauthEpoch s.ctx).map fun built => { s with ctx := built.1 }

/-- While there is a job, its coinbase has the recorded layout. -/
def SlotState.LaidOut (s : SlotState) : Prop :=
  s.ctx.job.jobId ≠ none → s.layout.Fits s.ctx.job

theorem Layout.Fits.storeBytes {layout : Layout} {job : StratumJob} (h : layout.Fits job)
    (bytes : List UInt8) :
    layout.Fits { job with coinbase := storeBytes job.coinbase job.xnonce2 bytes } := by
  have hroom := h.room
  have hoff : job.xnonce2 ≤ job.coinbase.length := by
    rw [h.xnonce2]
    omega
  refine ⟨h.xnonce2, ?_, ?_⟩
  · rw [length_storeBytes hoff]
    exact hroom
  · have hbefore : ∀ coinbase : List UInt8,
        layout.xnonce1In coinbase = (coinbase.take job.xnonce2).drop layout.coinb1Size := by
      intro coinbase
      rw [h.xnonce2, Layout.offset, Layout.xnonce1In, List.drop_take, Nat.add_sub_cancel_left]
    rw [hbefore, take_storeBytes hoff, ← hbefore, h.xnonce1]

theorem subscribeReply_job (sctx : StratumCtx) (val : Option Json) :
    (subscribeReply sctx val).1.job = sctx.job := by
  rw [subscribeReply]
  split
  · rfl
  · exact stratumParseExtranonce_job _ _ _

theorem notify_laidOut {opts : Options} {s : SlotState} {line : Line} (h : s.LaidOut)
    (hnotify : CallsNotify line.val)
    (hjob : (stratumHandleMethod opts s.ctx line).1.job.jobId ≠ none) :
    (if (stratumHandleMethod opts s.ctx line).2 = true then
        layoutOf s.ctx (jsonObjectGet line.val (cstr "params")) else s.layout).Fits
      (stratumHandleMethod opts s.ctx line).1.job := by
  rw [stratumHandleMethod_notify opts s.ctx hnotify] at hjob ⊢
  generalize jsonObjectGet line.val (cstr "params") = params at hjob ⊢
  obtain ⟨hread, heq⟩ | ⟨fields, merkle, hread, -, ⟨hgood, heq⟩ | ⟨hbad, heq⟩⟩ :=
    stratumNotify_eq line.heap s.ctx params
  · rw [heq] at hjob ⊢
    exact h hjob
  · rw [heq]
    exact acceptJob_fits line.heap s.ctx hread merkle
  · rw [heq] at hjob ⊢
    obtain ⟨hxnonce2, hroom, hxnonce1⟩ := h hjob
    exact ⟨hxnonce2, hroom, hxnonce1⟩

theorem MethodEffect.laidOut {s : SlotState} (h : s.LaidOut) {after : StratumCtx}
    (effect : MethodEffect s.ctx after) : after.job.jobId ≠ none → s.layout.Fits after.job := by
  cases effect with
  | unchanged => exact h
  | nextDiff => exact h
  | extranonce => exact h
  | disconnect => exact fun hjob => absurd rfl hjob

theorem slotStep_laidOut (opts : Options) (gate : Gate) (s : SlotState) (e : SlotEvent)
    (s' : SlotState) (h : s.LaidOut) (taken : slotStep opts gate s e = some s') :
    s'.LaidOut := by
  cases e with
  | line line =>
      obtain rfl := Option.some.inj taken
      intro hjob
      by_cases hnotify : CallsNotify line.val
      · simpa only [hnotify, true_and] using notify_laidOut h hnotify hjob
      · have := (stratumHandleMethod_effect opts s.ctx hnotify).laidOut h hjob
        simpa only [hnotify, false_and, if_false] using this
  | subscribe val =>
      obtain rfl := Option.some.inj taken
      intro hjob
      dsimp only at hjob ⊢
      rw [subscribeReply_job] at hjob ⊢
      exact h hjob
  | disconnect =>
      obtain rfl := Option.some.inj taken
      exact fun hjob => absurd rfl hjob
  | genWork heap reauthEpoch =>
      obtain ⟨built, hbuilt, rfl⟩ := Option.map_eq_some_iff.mp taken
      obtain ⟨jobId, hjob, rfl⟩ := stratumGenWork_eq_some hbuilt
      exact fun _ => (h (by simp [hjob])).storeBytes _

/-! The works published. -/

/-- The work holds the bytes of the slot of the coinbase that its header commits to, that
coinbase holds the current extranonce1, and only the slot is incremented. -/
structure SlotExact (gate : Gate) (layout : Layout) (before after : StratumCtx) (work : Work) :
    Prop where
  data : work.data = stdBuildExtraheader gate before.job
  xnonce2 : work.xnonce2 = layout.slot before.job.coinbase
  xnonce2Len : work.xnonce2.length = layout.xnonce2Size
  xnonce1 : layout.xnonce1In before.job.coinbase = before.xnonce1
  frame : ∀ i, i < layout.offset ∨ layout.offset + layout.xnonce2Size ≤ i →
    after.job.coinbase[i]? = before.job.coinbase[i]?

theorem storeBytes_getElem? {coinbase bytes : List UInt8} {off i : Nat}
    (hroom : off + bytes.length ≤ coinbase.length) (hi : i < off ∨ off + bytes.length ≤ i) :
    (storeBytes coinbase off bytes)[i]? = coinbase[i]? := by
  have htake : (coinbase.take off).length = off := by
    rw [List.length_take]
    omega
  rw [storeBytes_eq hroom, List.append_assoc]
  rcases hi with hi | hi
  · rw [List.getElem?_append_left (by omega), List.getElem?_take_of_lt hi]
  · rw [List.getElem?_append_right (by omega), List.getElem?_append_right (by omega),
      List.getElem?_drop, htake]
    congr 1
    omega

theorem slotExact_iff {gate : Gate} {heap : Heap} {reauthEpoch : Nat} {layout : Layout}
    {sctx : StratumCtx} {jobId : CStr} (fits : layout.Fits sctx.job) :
    SlotExact gate layout sctx (preIncrement heap sctx)
        (buildWork gate heap reauthEpoch sctx jobId) ↔
      sctx.xnonce1 = layout.xnonce1 ∧ sctx.xnonce2Size = layout.xnonce2Size := by
  constructor
  · rintro ⟨-, -, hlen, hxnonce1, -⟩
    exact ⟨hxnonce1.symm.trans fits.xnonce1, (length_slotBytes heap sctx).symm.trans hlen⟩
  · rintro ⟨hxnonce1, hsize⟩
    have hroom := fits.room
    rw [← hsize, ← fits.xnonce2] at hroom
    refine ⟨by rw [buildWork], ?_, ?_, ?_, ?_⟩
    · rw [Layout.slot, ← hsize, ← fits.xnonce2]
      exact slotBytes_of_le heap hroom
    · exact (length_slotBytes heap sctx).trans hsize
    · exact fits.xnonce1.trans hxnonce1.symm
    · intro i hi
      have hlen : (increment (sctx.slotBytes heap)).length = sctx.xnonce2Size := by
        rw [length_increment, length_slotBytes]
      rw [← hsize, ← fits.xnonce2, ← hlen] at hi
      exact storeBytes_getElem? (by omega) hi

def PublishesExact (gate : Gate) (s : SlotState) : SlotEvent → Prop
  | .genWork heap reauthEpoch => ∀ built, stratumGenWork gate heap reauthEpoch s.ctx = some built →
      SlotExact gate s.layout s.ctx built.1 built.2.1
  | _ => True

/-- A work is built only while the extranonce values are those of the last accepted
notify. -/
def ExtranonceKept (s : SlotState) : SlotEvent → Prop
  | .genWork _ _ => s.ctx.xnonce1 = s.layout.xnonce1 ∧ s.ctx.xnonce2Size = s.layout.xnonce2Size
  | _ => True

theorem publishesExact_iff_kept (opts : Options) (gate : Gate) (s : SlotState) (e : SlotEvent)
    (s' : SlotState) (h : s.LaidOut) (taken : slotStep opts gate s e = some s') :
    PublishesExact gate s e ↔ ExtranonceKept s e := by
  cases e with
  | genWork heap reauthEpoch =>
      obtain ⟨built, hbuilt, -⟩ := Option.map_eq_some_iff.mp taken
      obtain ⟨jobId, hjob, rfl⟩ := stratumGenWork_eq_some hbuilt
      have hexact := @slotExact_iff gate heap reauthEpoch _ _ jobId (h (by simp [hjob]))
      rw [ExtranonceKept, ← hexact, PublishesExact]
      exact ⟨fun h => h _ hbuilt, fun h built hbuilt' =>
        Option.some.inj (hbuilt.symm.trans hbuilt') ▸ h⟩
  | _ => exact Iff.rfl

/-- A run publishes exact works only, exactly when it builds none after the extranonce has
changed under the job. -/
theorem published_slots_exact_iff {opts : Options} {gate : Gate}
    {trace : List (SlotState × SlotEvent)} {s : SlotState}
    (run : Run (slotStep opts gate) .init trace s) :
    Steps (PublishesExact gate) trace ↔ Steps ExtranonceKept trace :=
  run.steps_congr SlotState.LaidOut (fun h => absurd rfl h) (slotStep_laidOut opts gate)
    (publishesExact_iff_kept opts gate)

def methodLine (method : String) (params : Json) : Line where
  val := some (.object [(cstr "method", .string (cstr method)), (cstr "params", params)])
  sent := true
  heap := .zero

def firstJobEvents : List SlotEvent :=
  [.subscribe (some (.object [(cstr "result",
      .array [.array [], .string (cstr "aa"), .integer 4])])),
    .line (methodLine "mining.notify" (.array [.string (cstr "a"),
      .string (List.replicate 64 48), .string (cstr "00"), .string (cstr "00"), .array [],
      .string (cstr "00000001"), .string (cstr "1d00ffff"), .string (cstr "5e000000")]))]

theorem built_of_jobId {s : SlotState} (hjob : s.ctx.job.jobId.isSome) : ∃ jobId,
    stratumGenWork .zero .zero 0 s.ctx =
      some (preIncrement .zero s.ctx, buildWork .zero .zero 0 s.ctx jobId, s.ctx.newJob) ∧
    slotStep .plain .zero s (.genWork .zero 0) =
      some { s with ctx := preIncrement .zero s.ctx } := by
  obtain ⟨jobId, hjobId⟩ := Option.isSome_iff_exists.mp hjob
  have hbuilt : stratumGenWork .zero .zero 0 s.ctx =
      some (preIncrement .zero s.ctx, buildWork .zero .zero 0 s.ctx jobId, s.ctx.newJob) := by
    rw [stratumGenWork, hjobId, Option.map_some]
  exact ⟨jobId, hbuilt, by rw [slotStep, hbuilt, Option.map_some]⟩

theorem published_slots_exact_first_job : ∃ trace s,
    Run (slotStep .plain .zero) .init trace s ∧
      trace.map Prod.snd = .genWork .zero 0 :: firstJobEvents.reverse ∧
      Steps (PublishesExact .zero) trace := by
  have hfirst : (exec (slotStep .plain .zero) .init firstJobEvents).map
      (fun s => (s.ctx.xnonce1, s.layout.xnonce1, s.ctx.xnonce2Size, s.layout.xnonce2Size,
        s.ctx.job.jobId.isSome)) = some ([0xaa], [0xaa], 4, 4, true) := by decide +kernel
  obtain ⟨s, hexec, hs⟩ := Option.map_eq_some_iff.mp hfirst
  simp only [Prod.mk.injEq] at hs
  obtain ⟨hxnonce1, hlaid1, hsize, hlaid2, hjob⟩ := hs
  obtain ⟨trace, run, hevents⟩ := Run.start.exec hexec
  obtain ⟨jobId, -, taken⟩ := built_of_jobId hjob
  refine ⟨_, _, run.next taken, by simpa using hevents,
    (published_slots_exact_iff (run.next taken)).mpr ?_⟩
  rw [steps_cons]
  refine ⟨⟨hxnonce1.trans hlaid1.symm, hsize.trans hlaid2.symm⟩, fun step hstep => ?_⟩
  -- the other steps build no work
  have hmem : step.2 ∈ firstJobEvents := by
    have := List.mem_map_of_mem (f := Prod.snd) hstep
    simpa [hevents] using this
  obtain ⟨t, e⟩ := step
  cases e with
  | genWork heap reauthEpoch => simp [firstJobEvents] at hmem
  | _ => trivial

/-- The job stays when the pool sets an 8-byte extranonce2 and then sends a notify that is
rejected, which has a work built from it. -/
def resizedEvents : List SlotEvent :=
  [.line (methodLine "mining.set_extranonce" (.array [.string (cstr "bb"), .integer 8])),
    .line (methodLine "mining.notify" (.array []))]

theorem resized_slot_not_exact : ¬ ∀ (opts : Options) (gate : Gate)
    (trace : List (SlotState × SlotEvent)) (s : SlotState),
    Run (slotStep opts gate) .init trace s → Steps (PublishesExact gate) trace := by
  intro h
  have hsizes : (exec (slotStep .plain .zero) .init (firstJobEvents ++ resizedEvents)).map
      (fun s => (s.ctx.xnonce2Size, s.layout.xnonce2Size, s.ctx.job.jobId.isSome)) =
      some (8, 4, true) := by decide +kernel
  obtain ⟨s, hexec, hs⟩ := Option.map_eq_some_iff.mp hsizes
  simp only [Prod.mk.injEq] at hs
  obtain ⟨hsize, hlayout, hjob⟩ := hs
  obtain ⟨trace, run, -⟩ := Run.start.exec hexec
  obtain ⟨jobId, hbuilt, taken⟩ := built_of_jobId hjob
  have hexact := (h .plain .zero _ _ (run.next taken) _ List.mem_cons_self) _ hbuilt
  have hlen := hexact.xnonce2Len
  rw [buildWork, length_slotBytes, hsize, hlayout] at hlen
  exact absurd hlen (by decide)

end SojCivicLight.Stratum
