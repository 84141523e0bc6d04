import SojCivicLight.Mining.System
import SojCivicLight.Stratum.PreReauthJob

/-! The pause that a third error about an incorrect cycle announces: nothing reads
`mining_suspended_for_new_job`, and the threads go on with the job as soon as
`stratum_down` is cleared. -/

namespace SojCivicLight.Mining

open SojCivicLight.Library SojCivicLight.Util SojCivicLight.Stratum

/-! `g_work` has the job id of the session, but for a job that is still to be published. -/

/-- The job id of `g_work` after an effect. -/
def effectJobId (jobId : Option CStr) : Effect → Option CStr
  | .stratumDown _ | .restartThreads => jobId
  | .dropJob => none
  | .publish _ _ sctx => sctx.job.jobId

/-- A step keeps the job or drops it, or leaves a new one to be published. -/
inductive JobStep (sctx after : StratumCtx) : Prop
  | kept (kept : JobKept sctx after) : JobStep sctx after
  | new (hnew : after.newJob = true) : JobStep sctx after

theorem jobStep_line (opts : Options) (sctx : StratumCtx) (line : Line) :
    JobStep sctx (stratumHandleMethod opts sctx line).1 := by
  by_cases hnotify : CallsNotify line.val
  · rw [stratumHandleMethod_notify opts sctx hnotify]
    exact .new rfl
  · exact .kept (jobKept_method opts sctx hnotify)

theorem StageStep.job {opts : Options} {s s' : Session} {stage : Stage} {e : NetEvent}
    {progress : Progress} (taken : StageStep opts s stage e s' progress) :
    JobStep s.ctx s'.ctx := by
  cases taken with
  | connected | notConnected | extranonceReply | extranonceTimeout => exact .kept (.same rfl rfl)
  | subscribed | notSubscribed => exact .kept (jobKept_subscribe _ _ _)
  | method | authorized | refused | extranonceMethod => exact jobStep_line _ _ _
  | notAuthorized | extranonceFailed => exact .kept (jobKept_recvFailed _ _)

/-- Where the stratum thread stands when no job can be waiting to be published. -/
def pastNewJobs (s : Session) : Prop :=
  match s.pc with
  | .top => s.stratumNeedReset = false
  | .loopHead | .wait => True
  | _ => False

/-- The job of the session is the one of `g_work` unless it is still to be published. -/
structure Synced (s : Session) (gJobId : Option CStr) : Prop where
  noNewJob : pastNewJobs s → s.ctx.newJob = false
  published : (s.ctx.newJob = false ∨ ∃ val, s.pc = .response val) →
    s.ctx.job.jobId = none ∨ s.ctx.job.jobId = gJobId

section

variable {cfg : Config} {s s' : Session} {e : NetEvent} {effects : List Effect}
  {gJobId : Option CStr}

theorem Synced.step (h : Synced s gJobId) (step : JobStep s.ctx s'.ctx)
    (hpc : ∀ val, s'.pc ≠ .response val) (hpast : ¬ pastNewJobs s') : Synced s' gJobId := by
  refine ⟨fun h' => absurd h' hpast, ?_⟩
  rintro (hnew | ⟨val, hresponse⟩)
  · cases step with
    | kept kept =>
        cases kept with
        | same hsame hjobId =>
            rw [hjobId]
            exact h.published (Or.inl (hsame.symm.trans hnew))
        | dropped _ hjobId => exact Or.inl hjobId
    | new hnew' => exact absurd (hnew.symm.trans hnew') (by decide)
  · exact absurd hresponse (hpc val)

theorem Synced.dropped (hnew : s'.ctx.newJob = false) (hjobId : s'.ctx.job.jobId = none) :
    Synced s' gJobId :=
  ⟨fun _ => hnew, fun _ => Or.inl hjobId⟩

theorem Synced.goto (h : Synced s gJobId) (hctx : s'.ctx = s.ctx)
    (hresponse : ∀ val, s'.pc ≠ .response val) (hpast : pastNewJobs s' → s.ctx.newJob = false) :
    Synced s' gJobId := by
  refine ⟨fun h' => by rw [hctx]; exact hpast h', ?_⟩
  rintro (hnew | ⟨val, hpc⟩)
  · rw [hctx] at hnew ⊢
    exact h.published (Or.inl hnew)
  · exact absurd hpc (hresponse val)

theorem Synced.line (h : Synced s gJobId)
    (hsync : s.ctx.job.jobId = none ∨ s.ctx.job.jobId = gJobId) {opts : Options} (line : Line) :
    Synced ((s.setCtx (stratumHandleMethod opts s.ctx line).1).goto
      (if (stratumHandleMethod opts s.ctx line).2 then .after else .response line.val)) gJobId := by
  have job := jobStep_line opts s.ctx line
  cases hret : (stratumHandleMethod opts s.ctx line).2 with
  | true => exact h.step job nofun id
  | false =>
      refine ⟨False.elim, fun _ => ?_⟩
      obtain ⟨⟨-, haccepted⟩, -⟩ | ⟨-, hclosed | ⟨hjobId, -⟩⟩ :=
        stratumHandleMethod_job opts s.ctx line
      · exact absurd (hret.symm.trans haccepted) (by decide)
      · exact Or.inl (congrArg (·.job.jobId) hclosed)
      · exact hsync.imp hjobId.trans hjobId.trans

theorem SessionStep.synced (h : Synced s gJobId) (taken : SessionStep cfg s e (s', effects)) :
    Synced s' (effects.foldl effectJobId gJobId) := by
  cases taken with
  | genWork call hbuilt =>
      obtain ⟨jobId, -, rfl⟩ := stratumGenWork_eq_some hbuilt
      exact ⟨fun _ => rfl, fun _ => Or.inr rfl⟩
  | reset | started => exact .dropped rfl rfl
  | noSession => exact .dropped rfl rfl
  | reconnectFailed hpc answer hout heffects => exact .dropped rfl rfl
  | reconnectNext hpc answer | reconnectDone hpc answer | reauthNext hpc answer
  | reauthDone hpc answer | retry hpc _ answer | noConnection hpc _ answer =>
      have step := StageStep.job (stageStep_cases answer)
      exact h.step step nofun id
  | @line line hpc =>
      have hnew : s.ctx.newJob = false := h.noNewJob (by rw [pastNewJobs, hpc]; trivial)
      exact h.line (h.published (Or.inl hnew)) line
  | banned | interrupted => exact h.step (.kept (jobKept_recvFailed _ _)) nofun id
  | begin hpc hreset =>
      have hnew : s.ctx.newJob = false := h.noNewJob (by rw [pastNewJobs, hpc]; exact hreset)
      exact h.goto rfl nofun fun _ => hnew
  | connected hpc =>
      have hnew : s.ctx.newJob = false := h.noNewJob (by rw [pastNewJobs, hpc]; trivial)
      exact h.goto rfl nofun fun _ => hnew
  | notPrimed hpc hnew => exact h.goto rfl nofun fun _ => hnew
  | again hpc hreset =>
      refine h.goto rfl nofun fun hpast => ?_
      have hreset' : s.stratumNeedReset = false := hpast
      exact absurd (hreset.symm.trans hreset') (by decide)
  | noNewJob hpc hnew => exact h.goto rfl nofun fun hpast => hnew hpast
  | @returned caller ret called hpc hcalled =>
      subst hcalled
      have hkept : (s.callerStep caller ret).2.foldl effectJobId gJobId = gJobId := by
        cases caller <;> cases ret <;> rfl
      rw [hkept]
      refine h.goto ?_ ?_ ?_
      · cases caller <;> cases ret <;> rfl
      · cases caller <;> nofun
      · cases caller <;> exact False.elim
  | noJobId | disconnected | primed | timeout | answered | notString | failing | paused
  | invalid | skipped | resumed | keepalive | alive | newJob =>
      exact h.goto rfl nofun False.elim

end

/-! The pause. -/

/-- The step is the answer to a third error about an incorrect cycle. -/
def thirdCycleError (s : Session) (e : NetEvent) : Bool :=
  match s.pc, e with
  | .response val, .tau =>
      answerable (jsonObjectGet val (cstr "id")) && responseError val == .incorrectCycle &&
        2 < s.consecutiveIncorrectCycleErrors + 1
  | _, _ => false

/-- Past the wait on `stratum_down`, and not yet at work on another job. -/
def Thread.PastWait (jobId : CStr) (thread : Thread) : Prop :=
  match thread.phase with
  | .passed => True
  | .taken => thread.work.jobId = some jobId
  | _ => False

instance (jobId : CStr) (thread : Thread) : Decidable (thread.PastWait jobId) :=
  match hphase : thread.phase with
  | .passed => isTrue (by rw [Thread.PastWait, hphase]; trivial)
  | .taken => decidable_of_iff (thread.work.jobId = some jobId) (by rw [Thread.PastWait, hphase])
  | .start | .top | .looking _ _ _ | .hashing _ _ _ =>
      isFalse (by rw [Thread.PastWait, hphase]; exact id)

section

variable {threads : Nat}

/-- The job ids that are paused: an accepted notify leaves only its own, and a third error
adds the one in force. -/
def notePaused (opts : Options) (s : System threads) (e : SystemEvent threads)
    (_ : System threads) (paused : List CStr) : List CStr :=
  match e with
  | .net e =>
      let paused :=
        match handledLine s.session e with
        | some line =>
            if CallsNotify line.val ∧ (stratumHandleMethod opts s.session.ctx line).2 = true then
              paused.filter (carriedId line = some ·)
            else paused
        | none => paused
      if thirdCycleError s.session e then s.miner.gWork.jobId.toList ++ paused else paused
  | .effect | .thread _ _ => paused

def ScansUnpaused (t : System threads × List CStr) : SystemEvent threads → Prop
  | .thread u (.scan _) => ∀ jobId ∈ t.2, (t.1.miner.thread u).work.jobId ≠ some jobId
  | _ => True

/-- No thread is past the wait when the job is paused, nor when it is published again, and
`stratum_down` is set whenever a thread comes to the wait while `g_work` has a paused job. -/
def KeepsWaiting (t : System threads × List CStr) : SystemEvent threads → Prop
  | .net e => thirdCycleError t.1.session e = true → ∀ jobId ∈ t.1.miner.gWork.jobId, ∀ u,
      ¬ (t.1.miner.thread u).PastWait jobId
  | .effect => ∀ jobId ∈ t.2, ∀ effect ∈ t.1.pending.head?,
      effectJobId none effect = some jobId → ∀ u, ¬ (t.1.miner.thread u).PastWait jobId
  | .thread _ .pass => ∀ jobId ∈ t.2, t.1.miner.gWork.jobId = some jobId →
      t.1.miner.stratumDown = true
  | _ => True

instance (t : System threads × List CStr) (e : SystemEvent threads) :
    Decidable (KeepsWaiting t e) :=
  match e with
  | .net e =>
      inferInstanceAs (Decidable (thirdCycleError t.1.session e = true → ∀ jobId ∈ _, ∀ _, _))
  | .effect => inferInstanceAs (Decidable (∀ jobId ∈ _, ∀ effect ∈ _, _ → ∀ _, _))
  | .thread _ .pass => inferInstanceAs (Decidable (∀ jobId ∈ _, _ → _))
  | .thread _ .begin | .thread _ .take | .thread _ .skip | .thread _ (.scan _) |
    .thread _ .look | .thread _ .hash => instDecidableTrue

/-- Nothing but the paused job is in force, or to be published, while its id is paused. -/
structure Paused (t : System threads × List CStr) : Prop where
  synced : Synced t.1.session (t.1.pending.foldl effectJobId t.1.miner.gWork.jobId)
  gWork : ∀ jobId ∈ t.2, ∀ other ∈ t.1.miner.gWork.jobId, other = jobId
  session : ∀ jobId ∈ t.2, ∀ other ∈ t.1.session.ctx.job.jobId, other = jobId
  published : ∀ jobId ∈ t.2, ∀ heap reauthEpoch sctx, .publish heap reauthEpoch sctx ∈ t.1.pending →
    ∀ other ∈ sctx.job.jobId, other = jobId
  waiting : ∀ jobId ∈ t.2, t.1.miner.gWork.jobId = some jobId → ∀ u,
    (t.1.miner.thread u).phase ≠ .passed
  taken : ∀ jobId ∈ t.2, ∀ u, (t.1.miner.thread u).phase = .taken →
    (t.1.miner.thread u).work.jobId ≠ some jobId

variable {env : ScanEnv} {cfg : Config}

theorem minerStep_effect {gate : Gate} {m m' : Miner threads} {effect : Effect}
    (taken : minerStep env gate m (minerEvent threads effect) = some m') :
    m'.gWork.jobId = effectJobId m.gWork.jobId effect ∧ m'.thread = m.thread := by
  cases effect with
  | stratumDown | restartThreads | dropJob =>
      obtain rfl := Option.some.inj taken
      exact ⟨rfl, rfl⟩
  | publish heap reauthEpoch sctx =>
      obtain ⟨built, hbuilt, rfl⟩ := Option.map_eq_some_iff.mp taken
      obtain ⟨jobId, hjobId, rfl⟩ := stratumGenWork_eq_some hbuilt
      obtain ⟨hgWork, hthread⟩ := m.publish_gWork
        (buildWork gate heap reauthEpoch sctx jobId) sctx.newJob
      exact ⟨by rw [hgWork, effectJobId, hjobId, buildWork], hthread⟩

theorem Thread.not_pastWait {jobId : CStr} {thread : Thread} (h : ¬ thread.PastWait jobId) :
    thread.phase ≠ .passed ∧ (thread.phase = .taken → thread.work.jobId ≠ some jobId) := by
  rw [Thread.PastWait] at h
  refine ⟨fun hphase => ?_, fun hphase hjobId => ?_⟩ <;> rw [hphase] at h
  · exact h trivial
  · exact h hjobId

/-- A thread takes no paused job: none is past the wait while `g_work` has one. -/
theorem ThreadStep.takesUnpaused {m : Miner threads} {jobId : CStr} {u : Fin threads}
    {thread' : Thread} {e : ThreadEvent} (hgWork : ∀ other ∈ m.gWork.jobId, other = jobId)
    (hwaiting : m.gWork.jobId = some jobId → (m.thread u).phase ≠ .passed)
    (taken : ThreadStep env threads u m.stratumDown (m.restart u) m.gWork m.window (m.thread u) e
      thread') (hphase : thread'.phase = .taken) : thread'.work.jobId ≠ some jobId := by
  intro hjobId
  cases taken with
  | copy hpassed => exact hwaiting hjobId hpassed
  | keep hpassed hkeep =>
      obtain ⟨⟨own, gJobId, hown, hgJobId, -⟩, -⟩ := copiesWork_eq_false hkeep
      obtain rfl : gJobId = jobId := hgWork gJobId hgJobId
      exact hwaiting hgJobId hpassed
  | _ => simp at hphase

theorem ThreadStep.waits {m : Miner threads} {u : Fin threads} {thread' : Thread}
    {e : ThreadEvent} (hdown : e = .pass → m.stratumDown = true)
    (taken : ThreadStep env threads u m.stratumDown (m.restart u) m.gWork m.window (m.thread u) e
      thread') : thread'.phase ≠ .passed := by
  cases taken with
  | pass _ hclear => exact absurd ((hdown rfl).symm.trans hclear) (by decide)
  | _ => simp

theorem notePaused_mem {opts : Options} {s : System threads} (s' : System threads) {e : NetEvent}
    {paused : List CStr} {jobId : CStr} (h : jobId ∈ notePaused opts s (.net e) s' paused) :
    (jobId ∈ paused ∧ ∀ line ∈ handledLine s.session e, CallsNotify line.val →
      (stratumHandleMethod opts s.session.ctx line).2 = true → carriedId line = some jobId) ∨
    (thirdCycleError s.session e = true ∧ s.miner.gWork.jobId = some jobId) := by
  have kept : ∀ kept, kept = (match handledLine s.session e with
        | some line =>
            if CallsNotify line.val ∧ (stratumHandleMethod opts s.session.ctx line).2 = true then
              paused.filter (carriedId line = some ·)
            else paused
        | none => paused) → jobId ∈ kept →
      jobId ∈ paused ∧ ∀ line ∈ handledLine s.session e, CallsNotify line.val →
        (stratumHandleMethod opts s.session.ctx line).2 = true → carriedId line = some jobId := by
    rintro kept rfl hmem
    cases hline : handledLine s.session e with
    | none =>
        rw [hline] at hmem
        exact ⟨hmem, nofun⟩
    | some line =>
        rw [hline] at hmem
        dsimp only at hmem
        split at hmem
        · obtain ⟨hmem, hcarried⟩ := List.mem_filter.mp hmem
          refine ⟨hmem, ?_⟩
          rintro line ⟨⟩ - -
          exact of_decide_eq_true hcarried
        · rename_i hrejected
          refine ⟨hmem, ?_⟩
          rintro line ⟨⟩ hnotify hret
          exact absurd ⟨hnotify, hret⟩ hrejected
  rw [notePaused] at h
  split at h
  · rename_i herror
    rcases List.mem_append.mp h with hforce | hmem
    · exact Or.inr ⟨herror, Option.mem_toList.mp hforce⟩
    · exact Or.inl (kept _ rfl hmem)
  · exact Or.inl (kept _ rfl h)

theorem thirdCycleError_pc {s : Session} {e : NetEvent} (h : thirdCycleError s e = true) :
    e = .tau ∧ ∃ val, s.pc = .response val := by
  rw [thirdCycleError.eq_def] at h
  split at h
  · rename_i val hpc
    exact ⟨rfl, val, hpc⟩
  · contradiction

section

variable {s s' : System threads} {paused : List CStr}

/-- What holds of a paused id after a step of the stratum thread. -/
theorem Paused.noted (h : Paused (s, paused)) (s' : System threads) {e : NetEvent}
    (hpending : s.pending = []) (keeps : KeepsWaiting (s, paused) (.net e)) {opts : Options}
    {jobId : CStr} (hmem : jobId ∈ notePaused opts s (.net e) s' paused) :
    (∀ other ∈ s.miner.gWork.jobId, other = jobId) ∧
      (∀ other ∈ s.session.ctx.job.jobId, other = jobId) ∧
      (s.miner.gWork.jobId = some jobId → ∀ u, (s.miner.thread u).phase ≠ .passed) ∧
      ∀ u, (s.miner.thread u).phase = .taken → (s.miner.thread u).work.jobId ≠ some jobId := by
  rcases notePaused_mem s hmem with ⟨hmem, -⟩ | ⟨herror, hforce⟩
  · exact ⟨h.gWork jobId hmem, h.session jobId hmem, h.waiting jobId hmem, h.taken jobId hmem⟩
  · have hwaits := fun u => Thread.not_pastWait (keeps herror jobId hforce u)
    refine ⟨fun other hother => ?_, fun other hother => ?_, fun _ u => (hwaits u).1,
      fun u => (hwaits u).2⟩
    · rw [hforce] at hother
      exact (Option.some.inj hother).symm
    · have hsynced := h.synced
      simp only [hpending, List.foldl_nil, hforce] at hsynced
      rcases hsynced.published (Or.inr (thirdCycleError_pc herror).2) with hnone | hsame
      · exact absurd (hnone.symm.trans hother) nofun
      · exact (Option.some.inj (hsame.symm.trans hother)).symm

theorem Paused.net {e : NetEvent} {session' : Session} {effects : List Effect}
    (h : Paused (s, paused)) (hpending : s.pending = [])
    (keeps : KeepsWaiting (s, paused) (.net e))
    (step : SessionStep cfg s.session e (session', effects)) :
    Paused ({ s with session := session', pending := effects },
      notePaused cfg.opts s (.net e) s' paused) := by
  have hsynced : Synced s.session s.miner.gWork.jobId := by
    have hsynced := h.synced
    simpa only [hpending, List.foldl_nil] using hsynced
  refine ⟨SessionStep.synced hsynced step, fun jobId hmem => (h.noted s' hpending keeps hmem).1,
    ?_, ?_, fun jobId hmem => (h.noted s' hpending keeps hmem).2.2.1,
    fun jobId hmem => (h.noted s' hpending keeps hmem).2.2.2⟩
  · intro jobId hmem other hother
    obtain ⟨-, hsession, -⟩ := h.noted s' hpending keeps hmem
    cases step.jobId with
    | same hjobId => exact hsession other (hjobId.symm.trans hother)
    | dropped hjobId => exact absurd (hjobId.symm.trans hother) nofun
    | sent hline hnotify hret hjobId =>
        rcases notePaused_mem s' hmem with ⟨-, hlines⟩ | ⟨herror, -⟩
        · have hcarried := hlines _ hline hnotify hret
          exact Option.some.inj (hother.symm.trans (hjobId.trans hcarried))
        · obtain ⟨rfl, -⟩ := thirdCycleError_pc herror
          contradiction
  · intro jobId hmem heap reauthEpoch sctx hpublish
    obtain ⟨-, rfl, -⟩ := step.publishes hpublish
    exact (h.noted s' hpending keeps hmem).2.1

theorem Paused.effect {effect : Effect} {pending : List Effect} {miner : Miner threads}
    (h : Paused (s, paused)) (hpending : s.pending = effect :: pending)
    (keeps : KeepsWaiting (s, paused) .effect)
    (step : minerStep env cfg.gate s.miner (minerEvent threads effect) = some miner) :
    Paused ({ s with miner, pending }, paused) := by
  obtain ⟨hgJobId, hthread⟩ := minerStep_effect step
  have hsynced := h.synced
  simp only [hpending, List.foldl_cons] at hsynced
  refine ⟨?_, ?_, h.session, ?_, ?_, ?_⟩
  · rw [hgJobId]
    exact hsynced
  · intro jobId hmem other hother
    rw [hgJobId] at hother
    cases effect with
    | stratumDown | restartThreads => exact h.gWork jobId hmem other hother
    | dropJob => contradiction
    | publish heap reauthEpoch sctx =>
        exact h.published jobId hmem heap reauthEpoch sctx
          (by rw [hpending]; exact List.mem_cons_self) other hother
  · intro jobId hmem heap reauthEpoch sctx hpublish
    exact h.published jobId hmem heap reauthEpoch sctx
      (by rw [hpending]; exact List.mem_cons_of_mem _ hpublish)
  · intro jobId hmem hforce u
    rw [hgJobId] at hforce
    rw [hthread]
    cases effect with
    | stratumDown | restartThreads => exact h.waiting jobId hmem hforce u
    | dropJob => contradiction
    | publish heap reauthEpoch sctx =>
        exact (Thread.not_pastWait (keeps jobId hmem (.publish heap reauthEpoch sctx)
          (by rw [hpending]; rfl) hforce u)).1
  · intro jobId hmem u
    rw [hthread]
    exact h.taken jobId hmem u

theorem Paused.thread {u : Fin threads} {e : ThreadEvent} {miner : Miner threads}
    (h : Paused (s, paused)) (keeps : KeepsWaiting (s, paused) (.thread u e))
    (step : minerStep env cfg.gate s.miner (.thread u e) = some miner) :
    Paused ({ s with miner }, paused) := by
  obtain ⟨thread', hstep, rfl⟩ := minerStep_thread step
  refine ⟨h.synced, h.gWork, h.session, h.published, fun jobId hmem hforce => ?_,
    fun jobId hmem => ?_⟩
  · refine (Function.forall_update_iff _ fun _ (thread : Thread) => thread.phase ≠ .passed).mpr
      ⟨hstep.waits ?_, fun v _ => h.waiting jobId hmem hforce v⟩
    rintro rfl
    exact keeps jobId hmem hforce
  · refine (Function.forall_update_iff _ fun _ (thread : Thread) =>
      thread.phase = .taken → thread.work.jobId ≠ some jobId).mpr
      ⟨hstep.takesUnpaused (h.gWork jobId hmem) fun hforce => h.waiting jobId hmem hforce u,
        fun v _ => h.taken jobId hmem v⟩

theorem Paused.step {e : SystemEvent threads} (h : Paused (s, paused))
    (keeps : KeepsWaiting (s, paused) e) (taken : SystemStep env cfg s e s') :
    Paused (s', notePaused cfg.opts s e s' paused) := by
  cases taken with
  | net hpending step => exact h.net hpending keeps (sessionStep_cases step)
  | effect hpending step => exact h.effect hpending keeps step
  | thread step => exact h.thread keeps step

end

/-- In a run that keeps the threads waiting none of them enters its scan with a paused job
id. -/
theorem scans_unpaused_of_waits {trace : List ((System threads × List CStr) × SystemEvent threads)}
    {t : System threads × List CStr}
    (run : Run (observed (systemStep env cfg) (notePaused cfg.opts)) (.init threads, []) trace t)
    (keeps : Steps KeepsWaiting trace) : Steps ScansUnpaused trace := by
  refine run.steps_of_steps Paused ?_ ?_ ?_ keeps
  · exact ⟨⟨fun _ => rfl, fun _ => Or.inl rfl⟩, nofun, nofun, nofun, nofun, nofun⟩
  · intro t e t' h keeps taken
    obtain ⟨s', step, rfl⟩ := observed_eq_some.mp taken
    exact h.step keeps (systemStep_cases step)
  · intro t e t' h _ taken
    obtain ⟨s', step, rfl⟩ := observed_eq_some.mp taken
    cases systemStep_cases step with
    | net | effect => trivial
    | @thread u e _ miner =>
        obtain ⟨thread', hstep, -⟩ := minerStep_thread miner
        cases hstep with
        | scan hphase => exact fun jobId hmem => h.taken jobId hmem u hphase
        | _ => trivial

end

def cycleErrorLine : Line where
  val := some (.object [(cstr "id", .integer 5), (cstr "result", .null),
    (cstr "error", .object [(cstr "message", .string (cstr "incorrect cycle"))])])
  sent := true
  heap := .zero

def earlyErrorEvents : List (SystemEvent 1) :=
  [.net .tau, .net .tau] ++ settledStep (.line cycleErrorLine) 1 ++
    [.net .tau, .net (.keepalive false), .net .tau]

/-- Three errors, and the call that follows: it succeeds and clears `stratum_down`. -/
def pauseEvents : List (SystemEvent 1) :=
  firstJobEvents 0 ++ earlyErrorEvents ++ earlyErrorEvents ++ [.net .tau, .net .tau] ++
    settledStep (.line cycleErrorLine) 1 ++ settledStep .tau 1 ++ settledStep .tau 1 ++
    [.net (.connect true), .net (.subscribe subscription (.none false))] ++
    settledStep (.line (resultLine 2 (.bool true))) 1 ++ [.net .tau] ++ settledStep .tau 1

/-- The thread waits for the next job. -/
theorem scans_unpaused_new_job :
    ∃ (trace : List ((System 1 × List CStr) × SystemEvent 1)) (t : System 1 × List CStr),
      Run (observed (systemStep .plain .plain) (notePaused (Config.opts .plain)))
        (.init 1, []) trace t ∧
        (t.1.session.miningSuspendedForNewJob, (t.1.miner.thread 0).work.jobId) =
          (true, some (cstr "b")) ∧
        Steps ScansUnpaused trace := by
  have hexec : (exec (guarded (observed (systemStep .plain .plain)
      (notePaused (Config.opts .plain))) KeepsWaiting) (.init 1, [])
      (pauseEvents ++ [.net (.keepalive false), .net .tau, .net .tau, .net .tau] ++
        publishJobEvents (notifyLine "b") ++ aboutToHash 0)).map
      (fun t => (t.1.session.miningSuspendedForNewJob, (t.1.miner.thread 0).work.jobId)) =
      some (true, some (cstr "b")) := by decide +kernel
  obtain ⟨t, ht, hstate⟩ := Option.map_eq_some_iff.mp hexec
  obtain ⟨trace, run, -⟩ := Run.start.exec ht
  obtain ⟨run', keeps⟩ := run.of_guarded
  exact ⟨trace, t, run', hstate, scans_unpaused_of_waits run' keeps⟩

/-- The thread goes past the wait, takes the job of before and scans. -/
theorem paused_job_scanned : ¬ ∀ (threads : Nat) (env : ScanEnv) (cfg : Config)
    (trace : List ((System threads × List CStr) × SystemEvent threads))
    (t : System threads × List CStr),
    Run (observed (systemStep env cfg) (notePaused cfg.opts)) (.init threads, []) trace t →
      Steps ScansUnpaused trace := by
  intro h
  have hexec : ((exec (observed (systemStep .plain .plain) (notePaused (Config.opts .plain)))
      (.init 1, []) (pauseEvents ++ [.thread 0 .pass, .thread 0 .take])).bind fun t =>
        (observed (systemStep .plain .plain) (notePaused (Config.opts .plain)) t
          (.thread 0 (.scan 2))).map fun _ => (t.2, (t.1.miner.thread 0).work.jobId)) =
      some ([cstr "a"], some (cstr "a")) := by decide +kernel
  obtain ⟨t, ht, hscan⟩ := Option.bind_eq_some_iff.mp hexec
  obtain ⟨t', taken, hstate⟩ := Option.map_eq_some_iff.mp hscan
  obtain ⟨hpaused, hjobId⟩ := Prod.mk.inj hstate
  obtain ⟨trace, run, -⟩ := Run.start.exec ht
  have scans := h 1 .plain .plain _ _ (run.next taken) _ List.mem_cons_self
  exact scans (cstr "a") (by rw [hpaused]; exact List.mem_cons_self) hjobId

end SojCivicLight.Mining
