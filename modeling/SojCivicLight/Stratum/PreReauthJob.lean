import SojCivicLight.Stratum.LiveJob

/-! The job id that `stratum_reauthenticate` records, to be rejected when the pool sends it
again: nothing reads the record. -/

namespace SojCivicLight.Stratum

open SojCivicLight.Library

def carriedId (line : Line) : Option CStr :=
  if CallsNotify line.val then
    jsonStringValue (jsonArrayGet (jsonObjectGet line.val (cstr "params")) 0)
  else none

/-- The id recorded by the call under way, and the id recorded by the last call that has
succeeded. -/
structure Bar where
  recorded : Option CStr
  barred : Option CStr

/-- A notify with another id lifts the bar, unless the barred job is in force already. -/
def liftBar (line : Line) (jobId : Option CStr) (bar : Option CStr) : Option CStr :=
  bar.filter fun id => carriedId line = none ∨ carriedId line = some id ∨ jobId = some id

/-- A bar after the line of a step, if it has one. -/
def arriveBar (s : Session) (e : NetEvent) (s' : Session) (bar : Option CStr) : Option CStr :=
  match handledLine s e with
  | some line => liftBar line s'.ctx.job.jobId bar
  | none => bar

def noteBar (s : Session) (e : NetEvent) (s' : Session) (bar : Bar) : Bar :=
  let recorded := arriveBar s e s' bar.recorded
  let barred := arriveBar s e s' bar.barred
  match s.pc, s'.pc with
  | .reauthenticate _, .reauth _ _ _ =>
      ⟨if s'.preReauthJobId = [] then none else some s'.preReauthJobId, barred⟩
  | .resume _, .returned _ _ => ⟨none, recorded.or barred⟩
  | .reauth _ _ _, .returned _ _ => ⟨none, barred⟩
  | _, _ => ⟨recorded, barred⟩

/-- The work that a call of `stratum_gen_work` publishes is not for the barred job. -/
def PublishesUnbarred (cfg : Config) (t : Session × Bar) : NetEvent → Prop
  | .genWork heap | .exhausted heap => ∀ built,
      stratumGenWork cfg.gate heap t.1.reauthEpoch t.1.ctx = some built →
        ∀ jobId, t.2.barred = some jobId → built.2.1.jobId ≠ some jobId
  | _ => True

/-- A line that is accepted as a notify does not carry the barred id. -/
def AvoidsBarred (opts : Options) (t : Session × Bar) (e : NetEvent) : Prop :=
  ∀ line ∈ handledLine t.1 e, CallsNotify line.val →
    (stratumHandleMethod opts t.1.ctx line).2 = true → ∀ jobId ∈ t.2.barred,
      carriedId line ≠ some jobId

def Pc.resuming : Pc → Bool
  | .resume _ => true
  | _ => false

/-- When a call succeeds, the pool has not already sent the recorded job. -/
def AvoidsRecorded (t : Session × Bar) : Prop :=
  t.1.pc.resuming = true → ∀ jobId ∈ t.2.recorded, t.1.ctx.job.jobId ≠ some jobId

def SendsOtherJobs (opts : Options) (t : Session × Bar) (e : NetEvent) : Prop :=
  AvoidsBarred opts t e ∧ AvoidsRecorded t

instance (opts : Options) (t : Session × Bar) (e : NetEvent) :
    Decidable (SendsOtherJobs opts t e) :=
  inferInstanceAs (Decidable ((∀ line ∈ handledLine t.1 e, _ → _ → _) ∧ (_ → _)))

section

variable {cfg : Config} {s s' : Session} {e : NetEvent} {effects : List Effect}

theorem accepted_jobId {opts : Options} {sctx : StratumCtx} {line : Line}
    (hnotify : CallsNotify line.val) (hret : (stratumHandleMethod opts sctx line).2 = true) :
    (stratumHandleMethod opts sctx line).1.job.jobId = carriedId line := by
  rw [carriedId, if_pos hnotify]
  rw [stratumHandleMethod_notify opts sctx hnotify] at hret ⊢
  generalize jsonObjectGet line.val (cstr "params") = params at hret ⊢
  obtain ⟨-, heq⟩ | ⟨fields, merkle, hread, -, ⟨-, heq⟩ | ⟨-, heq⟩⟩ :=
    stratumNotify_eq line.heap sctx params
  · rw [heq] at hret
    contradiction
  · rw [heq, (readNotify_eq_some hread).2.1]
    rfl
  · rw [heq] at hret
    contradiction

/-- Where the job id after a step comes from. -/
inductive JobIdStep (opts : Options) (s : Session) (e : NetEvent) (jobId : Option CStr) : Prop
  | same (hjobId : jobId = s.ctx.job.jobId) : JobIdStep opts s e jobId
  | dropped (hjobId : jobId = none) : JobIdStep opts s e jobId
  | sent {line : Line} (hline : handledLine s e = some line) (hnotify : CallsNotify line.val)
      (hret : (stratumHandleMethod opts s.ctx line).2 = true) (hjobId : jobId = carriedId line) :
      JobIdStep opts s e jobId

theorem JobIdStep.line {opts : Options} {line : Line} (hline : handledLine s e = some line) :
    JobIdStep opts s e (stratumHandleMethod opts s.ctx line).1.job.jobId := by
  obtain ⟨⟨hnotify, hret⟩, -⟩ | ⟨-, heq | ⟨hjobId, -⟩⟩ := stratumHandleMethod_job opts s.ctx line
  · exact .sent hline hnotify hret (accepted_jobId hnotify hret)
  · rw [heq]
    exact .dropped rfl
  · exact .same hjobId

theorem JobIdStep.recvFailed {opts : Options} {closed : Bool} :
    JobIdStep opts s e (Stratum.recvFailed s.ctx closed).job.jobId := by
  rcases recvFailed_cases s.ctx closed with heq | heq
  · exact .same (by rw [heq])
  · exact .dropped (by rw [heq]; rfl)

theorem StageStep.jobId {opts : Options} {stage : Stage} {progress : Progress}
    (hpc : s.pc.stage = some stage) (taken : StageStep opts s stage e s' progress) :
    JobIdStep opts s e s'.ctx.job.jobId := by
  cases taken with
  | connected | notConnected | extranonceReply | extranonceTimeout => exact .same rfl
  | @subscribed reply retry | @notSubscribed reply retry =>
      rcases stratumSubscribe_cases s.ctx reply retry with ⟨⟨-, hjob⟩, -⟩ | ⟨⟨lost, heq⟩, -⟩
      · exact .same (congrArg StratumJob.jobId hjob)
      · exact .dropped (by rw [Session.setCtx, heq]; rfl)
  | @method line | @authorized line | @refused line => exact .line (handledLine_authorize hpc line)
  | notAuthorized | extranonceFailed => exact .recvFailed
  | @extranonceMethod line hcurl hid =>
      exact .line (by rw [handledLine_extranonce hpc, if_neg hid])

theorem SessionStep.jobId (taken : SessionStep cfg s e (s', effects)) :
    JobIdStep cfg.opts s e s'.ctx.job.jobId := by
  cases taken with
  | genWork call hbuilt =>
      obtain ⟨jobId, -, rfl⟩ := stratumGenWork_eq_some hbuilt
      exact .same rfl
  | reset | reconnectFailed | started | noSession => exact .dropped rfl
  | reconnectNext hpc answer | reconnectDone hpc answer | reauthNext hpc answer
  | reauthDone hpc answer | retry hpc _ answer | noConnection hpc _ answer =>
      have step := (stageStep_cases answer).jobId (by rw [hpc]; rfl)
      exact step
  | @line line hpc => exact .line (by rw [handledLine, hpc])
  | banned | interrupted => exact .recvFailed
  | @returned caller ret called hpc hcalled =>
      subst hcalled
      exact .same (by cases caller <;> cases ret <;> rfl)
  | _ => exact .same rfl

def Unbarred (t : Session × Bar) : Prop :=
  ∀ jobId ∈ t.2.barred, t.1.ctx.job.jobId ≠ some jobId

theorem arriveBar_eq_some {bar : Option CStr} {jobId : CStr}
    (h : arriveBar s e s' bar = some jobId) : bar = some jobId := by
  rw [arriveBar] at h
  split at h
  · exact (Option.filter_eq_some_iff.mp h).1
  · exact h

theorem noteBar_barred {bar : Bar} {jobId : CStr}
    (h : (noteBar s e s' bar).barred = some jobId) : bar.barred = some jobId ∨
      (s.pc.resuming = true ∧ s'.pc.resuming = false ∧ bar.recorded = some jobId) := by
  rw [noteBar] at h
  split at h
  · exact Or.inl (arriveBar_eq_some h)
  · rename_i hpc hpc'
    rcases Option.or_eq_some_iff.mp h with hrecorded | ⟨-, hbarred⟩
    · exact Or.inr ⟨by rw [hpc]; rfl, by rw [hpc']; rfl, arriveBar_eq_some hrecorded⟩
    · exact Or.inl (arriveBar_eq_some hbarred)
  · exact Or.inl (arriveBar_eq_some h)
  · exact Or.inl (arriveBar_eq_some h)

theorem SessionStep.resuming (h : s.pc.resuming = true) (hleft : s'.pc.resuming = false)
    (taken : SessionStep cfg s e (s', effects)) : s'.ctx.job.jobId = s.ctx.job.jobId := by
  cases taken with
  | genWork call hbuilt =>
      obtain ⟨jobId, -, rfl⟩ := stratumGenWork_eq_some hbuilt
      rfl
  | resumed | noJobId => rfl
  | _ => simp_all [Pc.resuming]

theorem observed_unbarred {t t' : Session × Bar} (h : Unbarred t)
    (sends : SendsOtherJobs cfg.opts t e)
    (taken : observed (sessionNext cfg) noteBar t e = some t') : Unbarred t' := by
  obtain ⟨s', hnext, rfl⟩ := observed_eq_some.mp taken
  obtain ⟨effects, step⟩ := sessionNext_cases hnext
  intro jobId hbarred hjob
  rcases noteBar_barred hbarred with hbefore | ⟨hfrom, hto, hrecorded⟩
  · cases step.jobId with
    | same hjobId => exact h jobId hbefore (hjobId.symm.trans hjob)
    | dropped hjobId => exact absurd (hjobId.symm.trans hjob) nofun
    | sent hline hnotify hret hjobId =>
        exact sends.1 _ hline hnotify hret jobId hbefore (hjobId.symm.trans hjob)
  · exact sends.2 hfrom jobId hrecorded ((step.resuming hfrom hto).symm.trans hjob)

/-- In a run where the pool sends other jobs after a call no work is published for the job
that the call recorded. -/
theorem publishes_unbarred_of_other_jobs {optExtranonce : Bool}
    {trace : List ((Session × Bar) × NetEvent)} {t : Session × Bar}
    (run : Run (observed (sessionNext cfg) noteBar) (.init optExtranonce, ⟨none, none⟩) trace t)
    (sends : Steps (SendsOtherJobs cfg.opts) trace) : Steps (PublishesUnbarred cfg) trace := by
  refine run.steps_of_steps Unbarred nofun
    (fun _ _ _ h sends taken => observed_unbarred h sends taken) ?_ sends
  intro t e t' unbarred _ _
  cases e with
  | genWork | exhausted =>
      intro built hbuilt jobId hbarred hjob
      obtain ⟨id, hid, rfl⟩ := stratumGenWork_eq_some hbuilt
      exact unbarred jobId hbarred (hid.trans hjob)
  | _ => trivial

end

/-- A published job, a call that succeeds, and a line on the new connection. -/
def reauthEvents (line : Line) : List NetEvent :=
  sessionEvents ++ publishEvents (notifyLine "a") ++
    ([.tau, .tau, .timeout, .tau] ++ handshakeEvents ++ [.tau, .tau, .keepalive false, .tau,
      .tau, .tau]) ++ publishEvents line

/-- The pool sends another job. -/
theorem publishes_unbarred_other_job : ∃ trace t,
    Run (observed (sessionNext .plain) noteBar) (.init false, ⟨none, none⟩) trace t ∧
      (t.1.ctx.job.jobId, t.1.preReauthJobId) = (some (cstr "b"), cstr "a") ∧
      Steps (PublishesUnbarred .plain) trace := by
  have hexec : (exec (guarded (observed (sessionNext .plain) noteBar)
      (SendsOtherJobs (Config.opts .plain))) (.init false, ⟨none, none⟩)
      (reauthEvents (notifyLine "b"))).map
      (fun t => (t.1.ctx.job.jobId, t.1.preReauthJobId)) = some (some (cstr "b"), cstr "a") := by
    decide +kernel
  obtain ⟨t, ht, hstate⟩ := Option.map_eq_some_iff.mp hexec
  obtain ⟨trace, run, -⟩ := Run.start.exec ht
  obtain ⟨run', sends⟩ := run.of_guarded
  exact ⟨trace, t, run', hstate, publishes_unbarred_of_other_jobs run' sends⟩

/-- The pool sends the recorded job again, and a work is published for it. -/
theorem recorded_job_published : ¬ ∀ (cfg : Config) (optExtranonce : Bool)
    (trace : List ((Session × Bar) × NetEvent)) (t : Session × Bar),
    Run (observed (sessionNext cfg) noteBar) (.init optExtranonce, ⟨none, none⟩) trace t →
      Steps (PublishesUnbarred cfg) trace := by
  intro h
  have hexec : (exec (observed (sessionNext .plain) noteBar) (.init false, ⟨none, none⟩)
      ((reauthEvents (notifyLine "a")).dropLast)).map
      (fun t => (t.1.pc.priming, t.1.ctx.job.jobId, t.2.barred)) =
      some (some false, some (cstr "a"), some (cstr "a")) := by
    decide +kernel
  obtain ⟨t, ht, hstate⟩ := Option.map_eq_some_iff.mp hexec
  simp only [Prod.mk.injEq] at hstate
  obtain ⟨hpriming, hjob, hbarred⟩ := hstate
  obtain ⟨trace, run, -⟩ := Run.start.exec ht
  have hbuilt : stratumGenWork (Config.gate .plain) .zero t.1.reauthEpoch t.1.ctx =
      some (preIncrement .zero t.1.ctx,
        buildWork (Config.gate .plain) .zero t.1.reauthEpoch t.1.ctx (cstr "a"),
        t.1.ctx.newJob) := by
    rw [stratumGenWork, hjob, Option.map_some]
  obtain ⟨t', taken⟩ :
      ∃ t', observed (sessionNext .plain) noteBar t (.genWork .zero) = some t' := by
    simp only [observed, sessionNext, sessionStep.eq_def, Pc.of_priming hpriming,
      Session.callGenWork, hbuilt, Option.map_some]
    exact ⟨_, rfl⟩
  exact h .plain false _ _ (run.next taken) _ List.mem_cons_self _ hbuilt (cstr "a") hbarred
    (by rw [buildWork])

end SojCivicLight.Stratum
