import SojCivicLight.Stratum.Reauth

/-! The calls of `stratum_gen_work`, by the stratum thread and by mining threads that have
used up their nonces: which of them find a job of the current session. -/

namespace SojCivicLight.Stratum

open SojCivicLight.Library

def handledLine (s : Session) : NetEvent → Option Line
  | .line line =>
      match s.pc with
      | .wait | .reconnect .authorize | .reauth _ .authorize _ => some line
      | .reconnect .extranonce | .reauth _ .extranonce _ =>
          if jsonIntegerValue (jsonObjectGet line.val (cstr "id")) = 3 then none else some line
      | _ => none
  | _ => none

def Pc.stage : Pc → Option Stage
  | .reconnect stage | .reauth _ stage _ => some stage
  | _ => none

theorem handledLine_authorize {s : Session} (hpc : s.pc.stage = some .authorize) (line : Line) :
    handledLine s (.line line) = some line := by
  cases hs : s.pc <;> rw [hs] at hpc <;> cases hpc <;> rw [handledLine, hs]

theorem handledLine_extranonce {s : Session} (hpc : s.pc.stage = some .extranonce)
    (line : Line) : handledLine s (.line line) =
      if jsonIntegerValue (jsonObjectGet line.val (cstr "id")) = 3 then none else some line := by
  cases hs : s.pc <;> rw [hs] at hpc <;> cases hpc <;> rw [handledLine, hs]

/-- The layout of the last notify accepted on the open connection. -/
def noteLayout (opts : Options) (s : Session) (e : NetEvent) (s' : Session)
    (laid : Option Layout) : Option Layout :=
  if s'.ctx.curl = none then none
  else
    match handledLine s e with
    | some line =>
        if CallsNotify line.val ∧ (stratumHandleMethod opts s.ctx line).2 = true then
          some (layoutOf s.ctx (jsonObjectGet line.val (cstr "params")))
        else laid
    | none => laid

structure StratumCtx.Live (sctx : StratumCtx) (laid : Option Layout) : Prop where
  closed : sctx.curl = none → laid = none
  job : laid = none ↔ sctx.job.jobId = none
  fits : ∀ layout, laid = some layout → layout.Fits sctx.job

theorem stratumHandleMethod_job (opts : Options) (sctx : StratumCtx) (line : Line) :
    ((CallsNotify line.val ∧ (stratumHandleMethod opts sctx line).2 = true) ∧
      (stratumHandleMethod opts sctx line).1.job.jobId ≠ none ∧
      (layoutOf sctx (jsonObjectGet line.val (cstr "params"))).Fits
        (stratumHandleMethod opts sctx line).1.job) ∨
    (¬ (CallsNotify line.val ∧ (stratumHandleMethod opts sctx line).2 = true) ∧
      ((stratumHandleMethod opts sctx line).1 = stratumDisconnect sctx ∨
        (stratumHandleMethod opts sctx line).1.job.jobId = sctx.job.jobId ∧
        ∀ layout : Layout, layout.Fits sctx.job →
          layout.Fits (stratumHandleMethod opts sctx line).1.job)) := by
  by_cases hnotify : CallsNotify line.val
  · rw [stratumHandleMethod_notify opts sctx hnotify]
    generalize jsonObjectGet line.val (cstr "params") = params
    obtain ⟨-, heq⟩ | ⟨fields, merkle, hread, -, ⟨-, heq⟩ | ⟨-, heq⟩⟩ :=
      stratumNotify_eq line.heap sctx params
    · rw [heq]
      exact Or.inr ⟨nofun, Or.inr ⟨rfl, fun _ => id⟩⟩
    · rw [heq]
      exact Or.inl ⟨⟨hnotify, rfl⟩, nofun, acceptJob_fits line.heap sctx hread merkle⟩
    · rw [heq]
      exact Or.inr ⟨nofun, Or.inr ⟨rfl, fun _ ⟨hxnonce2, hroom, hxnonce1⟩ =>
        ⟨hxnonce2, hroom, hxnonce1⟩⟩⟩
  · refine Or.inr ⟨fun h => hnotify h.1, ?_⟩
    have effect := stratumHandleMethod_effect opts sctx hnotify
    generalize (stratumHandleMethod opts sctx line).1 = after at effect
    cases effect with
    | unchanged | nextDiff | extranonce => exact Or.inr ⟨rfl, fun _ => id⟩
    | disconnect => exact Or.inl rfl

section

variable {opts : Options} {s s' : Session} {e : NetEvent} {laid : Option Layout}

theorem noteLayout_closed (hcurl : s'.ctx.curl = none) : noteLayout opts s e s' laid = none :=
  if_pos hcurl

theorem StratumCtx.Live.disconnected {sctx : StratumCtx}
    (h : s'.ctx = stratumDisconnect sctx) : s'.ctx.Live (noteLayout opts s e s' laid) := by
  have hcurl : s'.ctx.curl = none := by
    rw [h]
    rfl
  rw [noteLayout_closed hcurl]
  exact ⟨fun _ => rfl, iff_of_true rfl (by rw [h]; rfl), nofun⟩

theorem StratumCtx.Live.kept (h : s.ctx.Live laid) (hline : handledLine s e = none)
    (hcurl : s'.ctx.curl = none → s.ctx.curl = none)
    (hjobId : s'.ctx.job.jobId = s.ctx.job.jobId)
    (hfits : ∀ layout : Layout, layout.Fits s.ctx.job → layout.Fits s'.ctx.job) :
    s'.ctx.Live (noteLayout opts s e s' laid) := by
  have hnote : noteLayout opts s e s' laid = laid := by
    rw [noteLayout, hline]
    split
    · rename_i hnone
      exact (h.closed (hcurl hnone)).symm
    · rfl
  rw [hnote]
  exact ⟨fun hnone => h.closed (hcurl hnone), h.job.trans (by rw [hjobId]),
    fun layout hlaid => hfits layout (h.fits layout hlaid)⟩

theorem StratumCtx.Live.same (h : s.ctx.Live laid) (hline : handledLine s e = none)
    (hctx : s'.ctx = s.ctx) : s'.ctx.Live (noteLayout opts s e s' laid) :=
  h.kept hline (by rw [hctx]; exact id) (by rw [hctx]) (by rw [hctx]; exact fun _ => id)

theorem StratumCtx.Live.line (h : s.ctx.Live laid) {line : Line}
    (hline : handledLine s e = some line) (hopen : s.ctx.curl ≠ none)
    (hctx : s'.ctx = (stratumHandleMethod opts s.ctx line).1) :
    s'.ctx.Live (noteLayout opts s e s' laid) := by
  rcases stratumHandleMethod_cases opts s.ctx line with hsame | heq
  · have hcurl : s'.ctx.curl ≠ none := by rwa [hctx, hsame.curl]
    have hnote : noteLayout opts s e s' laid =
        if CallsNotify line.val ∧ (stratumHandleMethod opts s.ctx line).2 = true then
          some (layoutOf s.ctx (jsonObjectGet line.val (cstr "params")))
        else laid := by
      rw [noteLayout, if_neg hcurl, hline]
    obtain ⟨haccepted, hjobId, hfits⟩ | ⟨haccepted, hclosed | ⟨hjobId, hfits⟩⟩ :=
      stratumHandleMethod_job opts s.ctx line
    · rw [hnote, if_pos haccepted]
      rw [← hctx] at hjobId hfits
      refine ⟨fun hnone => absurd hnone hcurl, iff_of_false nofun hjobId, ?_⟩
      rintro layout ⟨⟩
      exact hfits
    · exact .disconnected (hctx.trans hclosed)
    · rw [hnote, if_neg haccepted]
      rw [← hctx] at hjobId hfits
      exact ⟨fun hnone => absurd hnone hcurl, h.job.trans (by rw [hjobId]),
        fun layout hlaid => hfits layout (h.fits layout hlaid)⟩
  · exact .disconnected (hctx.trans (congrArg Prod.fst heq))

theorem StratumCtx.Live.genWork (h : s.ctx.Live laid) (hline : handledLine s e = none)
    {heap : Heap} (hctx : s'.ctx = preIncrement heap s.ctx) :
    s'.ctx.Live (noteLayout opts s e s' laid) := by
  refine h.kept hline ?_ ?_ ?_
  · rw [hctx]
    exact id
  · rw [hctx]
    rfl
  · intro layout hfits
    rw [hctx]
    exact hfits.storeBytes _

/-! The job along the loop. -/

def Progress.target (stage : Stage) : Progress → Option Stage
  | .next stage' => some stage'
  | .done => none
  | .failed => some stage

/-- Nothing is open before a connection is made, no job is laid out before the subscription,
and the extranonce is sized after it. -/
structure StratumCtx.LiveAt (sctx : StratumCtx) (stage : Option Stage) (laid : Option Layout) :
    Prop where
  live : sctx.Live laid
  connecting : stage = some .connect → sctx.curl = none
  subscribing : stage = some .subscribe → laid = none
  sized : stage ≠ some .connect → stage ≠ some .subscribe → sctx.curl ≠ none → sctx.Sized

structure Session.Live (s : Session) (laid : Option Layout) : Prop where
  ctx : s.pc ≠ .crashed → s.ctx.LiveAt s.pc.stage laid
  waiting : s.pc = .wait → s.ctx.curl ≠ none

theorem StratumCtx.LiveAt.disconnected {sctx : StratumCtx} {stage : Option Stage}
    (h : s'.ctx = stratumDisconnect sctx) :
    s'.ctx.LiveAt stage (noteLayout opts s e s' laid) where
  live := .disconnected h
  connecting := fun _ => by rw [h]; rfl
  subscribing := fun _ => noteLayout_closed (by rw [h]; rfl)
  sized := fun _ _ hcurl => absurd (by rw [h]; rfl) hcurl

theorem noteLayout_none (hline : handledLine s e = none) :
    noteLayout opts s e s' none = none := by
  rw [noteLayout, hline]
  split <;> rfl

theorem StratumCtx.LiveAt.line {stage : Option Stage} (h : s.ctx.LiveAt stage laid) {line : Line}
    (hline : handledLine s e = some line) (hopen : s.ctx.curl ≠ none)
    (hstage : stage ≠ some .connect ∧ stage ≠ some .subscribe)
    (hctx : s'.ctx = (stratumHandleMethod opts s.ctx line).1) {target : Option Stage}
    (htarget : target ≠ some .connect ∧ target ≠ some .subscribe) :
    s'.ctx.LiveAt target (noteLayout opts s e s' laid) where
  live := h.live.line hline hopen hctx
  connecting := fun heq => absurd heq htarget.1
  subscribing := fun heq => absurd heq htarget.2
  sized := fun _ _ hcurl => by
    rcases stratumHandleMethod_cases opts s.ctx line with hsame | heq
    · rw [hctx]
      exact hsame.sized (h.sized hstage.1 hstage.2 hopen)
    · rw [hctx, heq] at hcurl
      exact absurd rfl hcurl

theorem StratumCtx.LiveAt.recvFailed {stage : Option Stage} (h : s.ctx.LiveAt stage laid)
    {closed : Bool} (hline : handledLine s e = none)
    (hstage : stage ≠ some .connect ∧ stage ≠ some .subscribe)
    (hctx : s'.ctx = recvFailed s.ctx closed) {target : Option Stage}
    (htarget : target ≠ some .connect ∧ target ≠ some .subscribe) :
    s'.ctx.LiveAt target (noteLayout opts s e s' laid) := by
  rcases recvFailed_cases s.ctx closed with heq | heq
  · have hsame := hctx.trans heq
    refine ⟨h.live.same hline hsame, fun h' => absurd h' htarget.1,
      fun h' => absurd h' htarget.2, fun _ _ hcurl => ?_⟩
    rw [hsame] at hcurl ⊢
    exact h.sized hstage.1 hstage.2 hcurl
  · exact .disconnected (hctx.trans heq)

theorem StageStep.live {stage : Stage} {progress : Progress} (h : s.ctx.LiveAt (some stage) laid)
    (hpc : s.pc.stage = some stage) (taken : StageStep opts s stage e s' progress) :
    s'.ctx.LiveAt (progress.target stage) (noteLayout opts s e s' laid) := by
  cases taken with
  | connected =>
      have hclosed := h.connecting rfl
      refine ⟨h.live.kept rfl (fun _ => hclosed) rfl fun _ => id, nofun, fun _ => ?_,
        fun _ hstage => absurd rfl hstage⟩
      rw [h.live.closed hclosed]
      exact noteLayout_none rfl
  | notConnected =>
      have hclosed := h.connecting rfl
      exact ⟨h.live.kept rfl (fun _ => hclosed) rfl fun _ => id, fun _ => rfl, nofun,
        fun _ _ hcurl => absurd rfl hcurl⟩
  | @subscribed reply retry hret =>
      rcases stratumSubscribe_cases s.ctx reply retry with ⟨⟨hsame, hjob⟩, hopen⟩ | ⟨-, hfalse⟩
      · refine ⟨h.live.kept rfl ?_ (congrArg _ hjob) fun layout hfits => ?_, nofun, nofun,
          fun _ _ _ => (hopen hret).2⟩
        · exact fun hnone => hsame.curl.symm.trans hnone
        · exact hjob ▸ hfits
      · rw [hret] at hfalse
        contradiction
  | @notSubscribed reply retry hret =>
      rcases stratumSubscribe_cases s.ctx reply retry with ⟨⟨hsame, hjob⟩, -⟩ | ⟨⟨lost, heq⟩, -⟩
      · refine ⟨h.live.kept rfl ?_ (congrArg _ hjob) fun layout hfits => ?_, nofun, fun _ => ?_,
          fun _ hstage => absurd rfl hstage⟩
        · exact fun hnone => hsame.curl.symm.trans hnone
        · exact hjob ▸ hfits
        · rw [h.subscribing rfl]
          exact noteLayout_none rfl
      · exact .disconnected heq
  | @method line hcurl =>
      exact h.line (handledLine_authorize hpc line) (Option.isSome_iff_ne_none.mp hcurl)
        (by decide) rfl
        (by decide)
  | @authorized line hcurl =>
      refine h.line (handledLine_authorize hpc line) (Option.isSome_iff_ne_none.mp hcurl)
        (by decide) rfl ?_
      cases s.optExtranonce <;> decide
  | @refused line hcurl =>
      exact h.line (handledLine_authorize hpc line) (Option.isSome_iff_ne_none.mp hcurl)
        (by decide) rfl
        (by decide)
  | notAuthorized => exact h.recvFailed rfl (by decide) rfl (by decide)
  | @extranonceReply line hcurl hid =>
      have hline : handledLine s (.line line) = none := by
        rw [handledLine_extranonce hpc, if_pos hid]
      exact ⟨h.live.same hline rfl, nofun, nofun, fun _ _ => h.sized (by decide) (by decide)⟩
  | @extranonceMethod line hcurl hid =>
      have hline : handledLine s (.line line) = some line := by
        rw [handledLine_extranonce hpc, if_neg hid]
      exact h.line hline (Option.isSome_iff_ne_none.mp hcurl) (by decide) rfl (by decide)
  | extranonceTimeout =>
      exact ⟨h.live.same rfl rfl, nofun, nofun, fun _ _ => h.sized (by decide) (by decide)⟩
  | extranonceFailed => exact h.recvFailed rfl (by decide) rfl (by decide)

theorem Session.Live.at (h : s.Live laid) {pc : Pc} (hpc : s.pc = pc) (hrunning : pc ≠ .crashed) :
    s.ctx.LiveAt pc.stage laid := by
  subst hpc
  exact h.ctx hrunning

theorem StratumCtx.LiveAt.settled (h : s.ctx.LiveAt none laid) (hline : handledLine s e = none)
    (hctx : s'.ctx = s.ctx) (hstage : s'.pc.stage = none)
    (hwait : s'.pc ≠ .wait) : s'.Live (noteLayout opts s e s' laid) := by
  refine ⟨fun _ => ?_, fun hpc => absurd hpc hwait⟩
  rw [hstage]
  refine ⟨h.live.same hline hctx, nofun, nofun, fun _ _ => ?_⟩
  rw [hctx]
  exact h.sized nofun nofun

theorem SessionStep.live {cfg : Config} {effects : List Effect} (h : s.Live laid)
    (taken : SessionStep cfg s e (s', effects)) :
    s'.Live (noteLayout cfg.opts s e s' laid) := by
  cases taken with
  | @genWork e heap pc _ call hbuilt =>
      obtain ⟨jobId, -, rfl⟩ := stratumGenWork_eq_some hbuilt
      have hgenWork : ∀ {pc : Pc} {stage : Option Stage}, s.ctx.LiveAt stage laid →
          handledLine s e = none → pc.stage = stage → (pc = .wait → s.ctx.curl ≠ none) →
          ((s.setCtx (preIncrement heap s.ctx)).goto pc).Live
            (noteLayout cfg.opts s e ((s.setCtx (preIncrement heap s.ctx)).goto pc) laid) := by
        rintro pc stage hat hline rfl hwait
        refine ⟨fun _ => ⟨hat.live.genWork hline rfl, hat.connecting, fun hstage => ?_, hat.sized⟩,
          hwait⟩
        rw [hat.subscribing hstage]
        exact noteLayout_none hline
      cases call with
      | priming hpc => exact hgenWork (h.at hpc nofun) rfl rfl nofun
      | newJob hpc => exact hgenWork (h.at hpc nofun) rfl rfl nofun
      | exhausted hpc => exact hgenWork (h.ctx hpc) rfl rfl h.waiting
  | noJobId | notString => exact ⟨fun hrunning => absurd rfl hrunning, nofun⟩
  | reset => exact ⟨fun _ => .disconnected rfl, nofun⟩
  | connected hpc hcurl =>
      have hopen := Option.isSome_iff_ne_none.mp hcurl
      have hat := h.at hpc nofun
      exact ⟨fun _ => ⟨hat.live.same rfl rfl, nofun, nofun, hat.sized⟩, fun _ => hopen⟩
  | disconnected hpc hcurl =>
      have hat := h.at hpc nofun
      exact ⟨fun _ => ⟨hat.live.same rfl rfl, fun _ => hcurl, nofun,
        fun hstage => absurd rfl hstage⟩, nofun⟩
  | reconnectNext hpc answer | reauthNext hpc answer | retry hpc _ answer =>
      exact ⟨fun _ => (stageStep_cases answer).live (h.at hpc nofun) (by rw [hpc]; rfl), nofun⟩
  | reconnectDone hpc answer | reauthDone hpc answer =>
      exact ⟨fun _ => (stageStep_cases answer).live (h.at hpc nofun) (by rw [hpc]; rfl), nofun⟩
  | reconnectFailed hpc answer hout =>
      refine ⟨fun _ => .disconnected rfl, ?_⟩
      rcases hout with rfl | rfl <;> exact nofun
  | @line line hpc =>
      have hat := h.at hpc nofun
      have hline : handledLine s (.line line) = some line := by rw [handledLine, hpc]
      split <;>
        exact ⟨fun _ => hat.line hline (h.waiting hpc) (by decide) rfl ⟨nofun, nofun⟩, nofun⟩
  | banned hpc | interrupted hpc =>
      exact ⟨fun _ => (h.at hpc nofun).recvFailed rfl (by decide) rfl ⟨nofun, nofun⟩, nofun⟩
  | started => exact ⟨fun _ => .disconnected rfl, nofun⟩
  | noConnection hpc hretry answer =>
      have hat := (stageStep_cases answer).live (h.at hpc nofun) (by rw [hpc]; rfl)
      exact ⟨fun _ => ⟨hat.live, nofun, nofun,
        fun _ _ hcurl => absurd (hat.connecting rfl) hcurl⟩, nofun⟩
  | noSession => exact ⟨fun _ => .disconnected rfl, nofun⟩
  | @returned caller ret called hpc hcalled =>
      subst hcalled
      refine (h.at hpc nofun).settled rfl ?_ ?_ ?_
      · cases caller <;> cases ret <;> rfl
      · cases caller <;> rfl
      · cases caller <;> nofun
  | begin hpc | primed hpc | notPrimed hpc | timeout hpc | answered hpc | failing hpc
  | paused hpc | invalid hpc | skipped hpc | resumed hpc | again hpc | keepalive hpc | alive hpc
  | newJob hpc | noNewJob hpc => exact (h.at hpc nofun).settled rfl rfl rfl nofun

/-! The calls. -/

/-- The job has an id, its coinbase has the layout of a notify accepted on the open
connection, and the extranonce2 has a size. -/
structure GenWorkSafe (sctx : StratumCtx) (laid : Option Layout) : Prop where
  jobId : sctx.job.jobId ≠ none
  layout : ∃ layout, laid = some layout ∧ layout.Fits sctx.job
  sized : sctx.Sized

def CallsSafely (s : Session × Option Layout) : NetEvent → Prop
  | .genWork _ | .exhausted _ => GenWorkSafe s.1.ctx s.2
  | _ => True

/-- Every call comes after a notify accepted on the open connection. -/
def CallsAccepted (s : Session × Option Layout) : NetEvent → Prop
  | .genWork _ | .exhausted _ => s.2 ≠ none
  | _ => True

instance (s : Session × Option Layout) (e : NetEvent) : Decidable (CallsAccepted s e) :=
  match e with
  | .genWork _ | .exhausted _ => inferInstanceAs (Decidable (s.2 ≠ none))
  | .tau | .connect _ | .subscribe _ _ | .line _ | .recvFailure _ _ | .timeout | .keepalive _ =>
      instDecidableTrue

theorem StratumCtx.LiveAt.safe {sctx : StratumCtx} {stage : Option Stage}
    (h : sctx.LiveAt stage laid) : GenWorkSafe sctx laid ↔ laid ≠ none := by
  constructor
  · rintro ⟨-, ⟨layout, hlaid, -⟩, -⟩
    simp [hlaid]
  · intro hlaid
    obtain ⟨layout, hlayout⟩ := Option.ne_none_iff_exists'.mp hlaid
    have hcurl : sctx.curl ≠ none := fun hnone => hlaid (h.live.closed hnone)
    exact ⟨fun hjob => hlaid (h.live.job.mpr hjob), ⟨layout, hlayout, h.live.fits layout hlayout⟩,
      h.sized (fun hstage => hcurl (h.connecting hstage))
        (fun hstage => hlaid (h.subscribing hstage))
        hcurl⟩

theorem sessionStep_running {cfg : Config} {after : Session × List Effect}
    (h : sessionStep cfg s e = some after) : s.pc ≠ .crashed := by
  intro hpc
  rw [sessionStep.eq_def, hpc] at h
  contradiction

theorem observed_live {cfg : Config} {t t' : Session × Option Layout} (h : t.1.Live t.2)
    (taken : observed (sessionNext cfg) (noteLayout cfg.opts) t e = some t') : t'.1.Live t'.2 := by
  obtain ⟨s', hnext, rfl⟩ := Option.map_eq_some_iff.mp taken
  obtain ⟨effects, step⟩ := sessionNext_cases hnext
  exact step.live h

theorem live_init (optExtranonce : Bool) : (Session.init optExtranonce).Live none where
  ctx := fun _ => ⟨⟨fun _ => rfl, iff_of_true rfl rfl, nofun⟩, fun _ => rfl, fun _ => rfl,
    fun _ _ hcurl => absurd rfl hcurl⟩
  waiting := nofun

/-! The messages that leave nothing to build a work from. -/

/-- The job is kept, as new or not as it was, or dropped. -/
inductive JobKept (sctx after : StratumCtx) : Prop
  | same (hnew : after.newJob = sctx.newJob) (hjobId : after.job.jobId = sctx.job.jobId) :
      JobKept sctx after
  | dropped (hnew : after.newJob = false) (hjobId : after.job.jobId = none) : JobKept sctx after

theorem jobKept_method (opts : Options) (sctx : StratumCtx) {line : Line}
    (hnotify : ¬ CallsNotify line.val) : JobKept sctx (stratumHandleMethod opts sctx line).1 := by
  have effect := stratumHandleMethod_effect opts sctx hnotify
  generalize (stratumHandleMethod opts sctx line).1 = after at effect
  cases effect with
  | unchanged | nextDiff | extranonce => exact .same rfl rfl
  | disconnect => exact .dropped rfl rfl

theorem jobKept_recvFailed (sctx : StratumCtx) (closed : Bool) :
    JobKept sctx (recvFailed sctx closed) := by
  rcases recvFailed_cases sctx closed with heq | heq
  · rw [heq]
    exact .same rfl rfl
  · rw [heq]
    exact .dropped rfl rfl

theorem subscribeReply_newJob (sctx : StratumCtx) (val : Option Json) :
    (subscribeReply sctx val).1.newJob = sctx.newJob := by
  rw [subscribeReply]
  split
  · rfl
  · rw [stratumParseExtranonce]
    split
    · rfl
    · dsimp only
      split <;> rfl

theorem jobKept_subscribe (sctx : StratumCtx) (reply retry : Received (Option Json)) :
    JobKept sctx (stratumSubscribe sctx reply retry).1 := by
  have replied : ∀ (sctx : StratumCtx) (val : Option Json),
      (subscribeReply sctx val).1.job.jobId = sctx.job.jobId :=
    fun sctx val => congrArg StratumJob.jobId (subscribeReply_cases sctx val).1.2
  rw [stratumSubscribe.eq_def]
  split
  · exact .same rfl rfl
  · cases reply with
    | none closed => exact jobKept_recvFailed sctx closed
    | line val =>
        dsimp only
        split
        · exact .same (subscribeReply_newJob sctx val) (replied sctx val)
        · cases retry with
          | none closed =>
              dsimp only
              rcases recvFailed_cases (subscribeReply sctx val).1 closed with heq | heq
              · rw [heq]
                exact .same (subscribeReply_newJob sctx val) (replied sctx val)
              · rw [heq]
                exact .dropped rfl rfl
          | line val' =>
              exact .same ((subscribeReply_newJob _ val').trans (subscribeReply_newJob sctx val))
                ((replied _ val').trans (replied sctx val))

/-- A job that is said to be new has an id. -/
def StratumCtx.NewJobNamed (sctx : StratumCtx) : Prop :=
  sctx.newJob = true → sctx.job.jobId ≠ none

theorem JobKept.newJobNamed {sctx after : StratumCtx} (kept : JobKept sctx after)
    (h : sctx.NewJobNamed) : after.NewJobNamed := by
  intro hnew
  cases kept with
  | same hsame hjobId =>
      rw [hjobId]
      exact h (hsame.symm.trans hnew)
  | dropped hfalse => exact absurd (hfalse.symm.trans hnew) Bool.false_ne_true

/-- A notify that is rejected leaves `new_job` set, and the job as it was. -/
theorem newJobNamed_line {opts : Options} {sctx : StratumCtx} {line : Line}
    (h : sctx.NewJobNamed) (hrejected : CallsNotify line.val →
      (stratumHandleMethod opts sctx line).2 = false → sctx.job.jobId ≠ none) :
    (stratumHandleMethod opts sctx line).1.NewJobNamed := by
  by_cases hnotify : CallsNotify line.val
  · intro hnew
    obtain ⟨-, hjobId, -⟩ | ⟨haccepted, hclosed | ⟨hjobId, -⟩⟩ :=
      stratumHandleMethod_job opts sctx line
    · exact hjobId
    · rw [hclosed] at hnew
      exact absurd hnew Bool.false_ne_true
    · rw [hjobId]
      exact hrejected hnotify (Bool.eq_false_iff.mpr fun hret => haccepted ⟨hnotify, hret⟩)
  · exact (jobKept_method opts sctx hnotify).newJobNamed h

/-- No notify is rejected, and no mining thread uses up its nonces, before one has been accepted
on the open connection. -/
def NotifiedFirst (opts : Options) (t : Session × Option Layout) (e : NetEvent) : Prop :=
  match e with
  | .exhausted _ => t.2 ≠ none
  | e => ∀ line ∈ handledLine t.1 e, CallsNotify line.val →
      (stratumHandleMethod opts t.1.ctx line).2 = false → t.2 ≠ none

/-- What the stratum thread relies on when it makes a work of a new job. -/
structure Session.Primed (s : Session) : Prop where
  newJob : s.ctx.NewJobNamed
  calling : ∀ priming, s.pc = .genWork priming → s.ctx.job.jobId ≠ none

theorem StageStep.newJobNamed {opts : Options} {s s' : Session} {stage : Stage} {e : NetEvent}
    {progress : Progress} (h : s.ctx.NewJobNamed) (hpc : s.pc.stage = some stage)
    (hrejected : ∀ line ∈ handledLine s e, CallsNotify line.val →
      (stratumHandleMethod opts s.ctx line).2 = false → s.ctx.job.jobId ≠ none)
    (taken : StageStep opts s stage e s' progress) : s'.ctx.NewJobNamed := by
  cases taken with
  | connected | notConnected | extranonceReply | extranonceTimeout => exact h
  | subscribed | notSubscribed => exact (jobKept_subscribe _ _ _).newJobNamed h
  | method | authorized | refused =>
      exact newJobNamed_line h (hrejected _ (handledLine_authorize hpc _))
  | extranonceMethod _ hid =>
      exact newJobNamed_line h (hrejected _ (by rw [handledLine_extranonce hpc, if_neg hid]; rfl))
  | notAuthorized | extranonceFailed => exact (jobKept_recvFailed _ _).newJobNamed h

theorem SessionStep.keepsPrimed {cfg : Config} {s s' : Session} {e : NetEvent}
    {effects : List Effect}
    (h : s.Primed) (hrejected : ∀ line ∈ handledLine s e, CallsNotify line.val →
      (stratumHandleMethod cfg.opts s.ctx line).2 = false → s.ctx.job.jobId ≠ none)
    (taken : SessionStep cfg s e (s', effects)) : s'.Primed := by
  cases taken with
  | genWork call hbuilt =>
      obtain ⟨jobId, hjobId, rfl⟩ := stratumGenWork_eq_some hbuilt
      refine ⟨nofun, fun _ _ hnone => ?_⟩
      exact absurd (hjobId.symm.trans hnone) nofun
  | reset | started | noSession => exact ⟨nofun, nofun⟩
  | reconnectFailed hpc answer hout =>
      refine ⟨nofun, fun priming hcall => ?_⟩
      rcases hout with rfl | rfl <;> cases hcall
  | reconnectNext hpc answer | reconnectDone hpc answer | reauthNext hpc answer
  | reauthDone hpc answer | retry hpc _ answer | noConnection hpc _ answer =>
      have hnamed := (stageStep_cases answer).newJobNamed h.newJob (by rw [hpc]; rfl) hrejected
      exact ⟨hnamed, nofun⟩
  | @line line hpc =>
      refine ⟨newJobNamed_line h.newJob (hrejected line (by rw [handledLine, hpc]; rfl)), ?_⟩
      intro priming hcall
      dsimp only [Session.goto] at hcall
      split at hcall <;> cases hcall
  | banned | interrupted => exact ⟨(jobKept_recvFailed _ _).newJobNamed h.newJob, nofun⟩
  | primed hpc hnew | newJob hpc hnew => exact ⟨h.newJob, fun _ _ => h.newJob hnew⟩
  | @returned caller ret called hpc hcalled =>
      subst hcalled
      refine ⟨?_, ?_⟩
      · cases caller <;> cases ret <;> exact h.newJob
      · cases caller <;> nofun
  | noJobId | begin | connected | disconnected | notPrimed | timeout | answered | notString
  | failing | paused | invalid | skipped | resumed | again | keepalive | alive | noNewJob =>
      exact ⟨h.newJob, nofun⟩

theorem genWork_pc {cfg : Config} {s : Session} {heap : Heap} {after : Session × List Effect}
    (h : sessionStep cfg s (.genWork heap) = some after) : ∃ priming, s.pc = .genWork priming := by
  cases hpc : s.pc with
  | genWork priming => exact ⟨priming, rfl⟩
  | reconnect stage | reauth caller stage retryCount =>
      rw [sessionStep.eq_def, hpc] at h
      cases stage <;> cases h
  | _ =>
      rw [sessionStep.eq_def, hpc] at h
      cases h

/-- The calls are accepted in every run in which a notify is accepted on each connection before
one is rejected, and before a mining thread uses up its nonces. -/
theorem callsAccepted_of_notifiedFirst {cfg : Config} {optExtranonce : Bool}
    {trace : List ((Session × Option Layout) × NetEvent)} {t : Session × Option Layout}
    (run : Run (observed (sessionNext cfg) (noteLayout cfg.opts)) (.init optExtranonce, none)
      trace t) (first : Steps (NotifiedFirst cfg.opts) trace) : Steps CallsAccepted trace := by
  have named : ∀ {t : Session × Option Layout}, t.1.Live t.2 → t.1.pc ≠ .crashed →
      (t.2 ≠ none ↔ t.1.ctx.job.jobId ≠ none) :=
    fun h hrunning => not_congr (h.ctx hrunning).live.job
  refine run.steps_of_steps (fun t => t.1.Live t.2 ∧ t.1.Primed) ?_ ?_ ?_ first
  · exact ⟨live_init optExtranonce, nofun, nofun⟩
  · intro t e t' h hfirst taken
    obtain ⟨s', hnext, heq⟩ := observed_eq_some.mp taken
    obtain ⟨after, hstep, rfl⟩ := Option.map_eq_some_iff.mp hnext
    refine ⟨observed_live h.1 taken, ?_⟩
    obtain rfl := heq
    refine SessionStep.keepsPrimed h.2 ?_ (sessionStep_cases hstep)
    intro line hline hnotify hret
    refine (named h.1 (sessionStep_running hstep)).mp ?_
    cases e with
    | exhausted => cases hline
    | _ => exact hfirst line hline hnotify hret
  · intro t e t' h hfirst taken
    obtain ⟨s', hnext, -⟩ := observed_eq_some.mp taken
    obtain ⟨after, hstep, -⟩ := Option.map_eq_some_iff.mp hnext
    cases e with
    | exhausted => exact hfirst
    | genWork heap =>
        obtain ⟨priming, hpc⟩ := genWork_pc hstep
        exact (named h.1 (sessionStep_running hstep)).mpr (h.2.calling priming hpc)
    | _ => trivial

/-- In a run every call of `stratum_gen_work` is safe exactly when every one comes after a
notify accepted in its session; a notify that is accepted first on each connection is enough. -/
theorem calls_safe_iff_accepted {cfg : Config} {optExtranonce : Bool}
    {trace : List ((Session × Option Layout) × NetEvent)} {t : Session × Option Layout}
    (run : Run (observed (sessionNext cfg) (noteLayout cfg.opts)) (.init optExtranonce, none)
      trace t) :
    (Steps CallsSafely trace ↔ Steps CallsAccepted trace) ∧
      (Steps (NotifiedFirst cfg.opts) trace → Steps CallsAccepted trace) := by
  refine ⟨?_, callsAccepted_of_notifiedFirst run⟩
  refine run.steps_congr (fun t => t.1.Live t.2) (live_init optExtranonce)
    (fun _ _ _ => observed_live) ?_
  · intro t e t' h taken
    obtain ⟨s', hnext, -⟩ := Option.map_eq_some_iff.mp taken
    obtain ⟨after, hstep, -⟩ := Option.map_eq_some_iff.mp hnext
    have hlive := h.ctx (sessionStep_running hstep)
    cases e with
    | genWork | exhausted => exact hlive.safe
    | _ => exact Iff.rfl

end

def notifyLine (jobId : String) : Line :=
  methodLine "mining.notify" (.array [.string (cstr jobId), .string (List.replicate 64 48),
    .string (cstr "00"), .string (cstr "00"), .array [], .string (cstr "00000001"),
    .string (cstr "1d00ffff"), .string (cstr "5e000000")])

def publishEvents (line : Line) : List NetEvent :=
  [.line line, .keepalive false, .tau, .genWork .zero]

/-- The first job is published, and a mining thread uses up its nonces. -/
theorem calls_safe_first_job : ∃ trace t,
    Run (observed (sessionNext .plain) (noteLayout .plain)) (.init true, none) trace t ∧
      (trace.map Prod.snd).take 2 = [.exhausted .zero, .genWork .zero] ∧
      Steps CallsSafely trace := by
  have hexec : (exec (guarded (observed (sessionNext .plain) (noteLayout .plain)) CallsAccepted)
      (.init true, none) ([.tau, .tau] ++ handshakeEvents ++
        [.line (resultLine 3 (.bool true)), .tau, .tau] ++ publishEvents (notifyLine "a") ++
        [.exhausted .zero])).isSome = true := by
    decide +kernel
  obtain ⟨t, ht⟩ := Option.isSome_iff_exists.mp hexec
  obtain ⟨trace, run, hevents⟩ := Run.start.exec ht
  obtain ⟨run', accepted⟩ := run.of_guarded
  refine ⟨trace, t, run', ?_, (calls_safe_iff_accepted run').1.mpr accepted⟩
  rw [hevents]
  rfl

def Pc.priming : Pc → Option Bool
  | .genWork priming => some priming
  | _ => none

theorem Pc.of_priming {pc : Pc} {priming : Bool} (h : pc.priming = some priming) :
    pc = .genWork priming := by
  cases pc <;> cases h
  rfl

/-- The first notify of a session is rejected, and there is no job to build a work from. -/
theorem rejected_notify_unsafe : ¬ ∀ (cfg : Config) (optExtranonce : Bool)
    (trace : List ((Session × Option Layout) × NetEvent)) (t : Session × Option Layout),
    Run (observed (sessionNext cfg) (noteLayout cfg.opts)) (.init optExtranonce, none) trace t →
      Steps CallsSafely trace := by
  intro h
  have hexec : (exec (observed (sessionNext .plain) (noteLayout .plain)) (.init false, none)
      (sessionEvents ++ [.line emptyNotify, .tau, .keepalive false, .tau])).map
      (fun t => (t.1.pc.priming, t.1.ctx.job.jobId)) = some (some false, none) := by
    decide +kernel
  obtain ⟨t, ht, hstate⟩ := Option.map_eq_some_iff.mp hexec
  obtain ⟨hpriming, hjob⟩ := Prod.mk.inj hstate
  have hpc := Pc.of_priming hpriming
  obtain ⟨trace, run, -⟩ := Run.start.exec ht
  have taken : observed (sessionNext .plain) (noteLayout .plain) t (.genWork .zero) =
      some (t.1.goto .crashed, noteLayout .plain t.1 (.genWork .zero) (t.1.goto .crashed) t.2) := by
    simp only [observed, sessionNext, sessionStep.eq_def, hpc, Session.callGenWork,
      stratumGenWork, hjob, Option.map_none, Option.map_some]
  have safe := h .plain false _ _ (run.next taken) _ List.mem_cons_self
  exact safe.jobId hjob

end SojCivicLight.Stratum
