import SojCivicLight.Stratum.Session

/-! `stratum_reauthenticate` over whole runs: its guard against a second call, and the
suspension of submissions. -/

namespace SojCivicLight.Stratum

open SojCivicLight.Library

namespace Session

/-- A call has passed its checks and has not returned. -/
def Executing (s : Session) : Prop :=
  match s.pc with
  | .reauth _ _ _ | .resume _ => True
  | _ => False

def stagesBefore : Stage → List Stage
  | .connect => []
  | .subscribe => [.connect]
  | .authorize => [.subscribe, .connect]
  | .extranonce => [.authorize, .subscribe, .connect]

/-- What a call has achieved when it is at a stage, all on connection `n`. -/
def actsBefore (n : Nat) (stage : Stage) : List Act :=
  (stagesBefore stage).map (.completed · (some n)) ++ [.disconnect]

/-- The last call has disconnected, connected, subscribed and authorized. -/
def Established (s : Session) : Prop := ∃ n, s.acts = actsBefore n .extranonce

/-- Nothing is open before the connection of the stage, and nothing else after it. -/
structure Reached (s : Session) (stage : Stage) (n : Nat) : Prop where
  acts : s.acts = actsBefore n stage
  closed : stage = .connect → s.ctx.curl = none
  curl : s.ctx.curl = none ∨ s.ctx.curl = some n

end Session

theorem StageStep.reached {opts : Options} {s s' : Session} {stage : Stage} {e : NetEvent}
    {progress : Progress} {n : Nat} (h : s.Reached stage n)
    (taken : StageStep opts s stage e s' progress) :
    (∀ next, progress = .next next → ∃ n, s'.Reached next n) ∧
      (progress = .done → s'.Established) ∧
      (progress = .failed → s'.Reached stage n ∧ (stage = .connect → s'.ctx.curl = none)) := by
  cases taken with
  | connected =>
      refine ⟨?_, nofun, nofun⟩
      rintro next ⟨⟩
      exact ⟨s.connections, congrArg (List.cons _) h.acts, nofun, Or.inr rfl⟩
  | notConnected =>
      exact ⟨nofun, nofun, fun _ => ⟨⟨h.acts, fun _ => rfl, Or.inl rfl⟩, fun _ => rfl⟩⟩
  | @subscribed reply retry hret =>
      refine ⟨?_, nofun, nofun⟩
      rintro next ⟨⟩
      rcases stratumSubscribe_cases s.ctx reply retry with ⟨⟨hsame, -⟩, hopen⟩ | ⟨-, hfalse⟩
      · have hcurl : s.ctx.curl = some n :=
          h.curl.resolve_left (Option.isSome_iff_ne_none.mp (hopen hret).1)
        have hcurl' := hsame.curl.trans hcurl
        have hacts : Act.completed .subscribe (stratumSubscribe s.ctx reply retry).1.curl ::
            s.acts = Session.actsBefore n .authorize := by
          rw [hcurl', h.acts]
          rfl
        exact ⟨n, hacts, nofun, Or.inr hcurl'⟩
      · rw [hret] at hfalse
        contradiction
  | @notSubscribed reply retry hret =>
      refine ⟨nofun, nofun, fun _ => ⟨⟨h.acts, nofun, ?_⟩, nofun⟩⟩
      rcases stratumSubscribe_cases s.ctx reply retry with ⟨⟨hsame, -⟩, -⟩ | ⟨⟨lost, heq⟩, -⟩
      · exact h.curl.imp hsame.curl.trans hsame.curl.trans
      · exact Or.inl (by rw [Session.setCtx, heq]; rfl)
  | @method line hcurl hret =>
      refine ⟨?_, nofun, nofun⟩
      rintro next ⟨⟩
      refine ⟨n, h.acts, nofun, ?_⟩
      rcases stratumHandleMethod_curl opts s.ctx line with hsame | heq
      · exact h.curl.imp hsame.trans hsame.trans
      · exact Or.inl (by rw [Session.setCtx, heq]; rfl)
  | @authorized line hcurl hret =>
      have hsame : (stratumHandleMethod opts s.ctx line).1.curl = s.ctx.curl :=
        (stratumHandleMethod_curl opts s.ctx line).resolve_right fun heq => by
          rw [heq] at hret
          contradiction
      have hcurl' : (stratumHandleMethod opts s.ctx line).1.curl = some n :=
        hsame.trans (h.curl.resolve_left (Option.isSome_iff_ne_none.mp hcurl))
      have hacts : Act.completed .authorize (stratumHandleMethod opts s.ctx line).1.curl :: s.acts =
          Session.actsBefore n .extranonce := by
        rw [hcurl', h.acts]
        rfl
      refine ⟨?_, fun _ => ⟨n, hacts⟩, ?_⟩
      · intro next hnext
        cases hopt : s.optExtranonce with
        | false => simp [hopt] at hnext
        | true =>
            simp only [hopt, if_true, Progress.next.injEq] at hnext
            subst hnext
            exact ⟨n, hacts, nofun, Or.inr hcurl'⟩
      · intro hfailed
        split at hfailed <;> contradiction
  | @refused line hcurl hret =>
      refine ⟨nofun, nofun, fun _ => ⟨⟨h.acts, nofun, ?_⟩, nofun⟩⟩
      rcases stratumHandleMethod_curl opts s.ctx line with hsame | heq
      · exact h.curl.imp hsame.trans hsame.trans
      · exact Or.inl (by rw [Session.setCtx, heq]; rfl)
  | @notAuthorized closed elapsed =>
      refine ⟨nofun, nofun, fun _ => ⟨⟨h.acts, nofun, ?_⟩, nofun⟩⟩
      rcases recvFailed_cases s.ctx closed with heq | heq
      · rw [Session.setCtx, heq]
        exact h.curl
      · exact Or.inl (by rw [Session.setCtx, heq]; rfl)
  | extranonceReply | extranonceMethod | extranonceTimeout | extranonceFailed =>
      exact ⟨nofun, fun _ => ⟨n, h.acts⟩, nofun⟩

theorem StageStep.flags {opts : Options} {s s' : Session} {stage : Stage} {e : NetEvent}
    {progress : Progress} (taken : StageStep opts s stage e s' progress) :
    s'.reauthInProgress = s.reauthInProgress ∧
      s'.solutionSubmissionSuspended = s.solutionSubmissionSuspended := by
  cases taken <;> exact ⟨rfl, rfl⟩

/-- A call at one of its stages has set both flags and reached the stage. -/
def Session.Busy (cfg : Config) (s : Session) : Prop :=
  ∀ caller stage retryCount, s.pc = .reauth caller stage retryCount →
    cfg.validArgs = true ∧ s.reauthInProgress = true ∧ s.solutionSubmissionSuspended = true ∧
      ∃ n, s.Reached stage n

section

variable {cfg : Config} {s s' : Session} {e : NetEvent} {effects : List Effect}

theorem Session.Busy.stage {caller : Caller} {stage stage' : Stage} {retryCount : Nat}
    {progress : Progress} (h : s.Busy cfg) (hpc : s.pc = .reauth caller stage retryCount)
    (answer : s.stageStep cfg.opts stage e = some (s', progress))
    (hnext : progress = .next stage' ∨ progress = .failed ∧ stage' = stage) (pc : Pc) :
    cfg.validArgs = true ∧ (s'.goto pc).reauthInProgress = true ∧
      (s'.goto pc).solutionSubmissionSuspended = true ∧ ∃ n, (s'.goto pc).Reached stage' n := by
  obtain ⟨hvalid, hprogress, hsuspended, n, hreached⟩ := h _ _ _ hpc
  obtain ⟨hprogress', hsuspended'⟩ := (stageStep_cases answer).flags
  obtain ⟨hnexts, -, hfailed⟩ := (stageStep_cases answer).reached hreached
  refine ⟨hvalid, hprogress'.trans hprogress, hsuspended'.trans hsuspended, ?_⟩
  rcases hnext with hnext | ⟨hnext, rfl⟩
  · obtain ⟨n, hacts, hclosed, hcurl⟩ := hnexts _ hnext
    exact ⟨n, hacts, hclosed, hcurl⟩
  · obtain ⟨⟨hacts, hclosed, hcurl⟩, -⟩ := hfailed hnext
    exact ⟨n, hacts, hclosed, hcurl⟩

theorem SessionStep.busy (h : s.Busy cfg) (taken : SessionStep cfg s e (s', effects)) :
    s'.Busy cfg := by
  intro caller stage retryCount hpc'
  cases taken with
  | genWork call hbuilt =>
      cases call with
      | priming | newJob => cases hpc'
      | exhausted =>
          obtain ⟨hvalid, hprogress, hsuspended, n, hacts, hclosed, hcurl⟩ := h _ _ _ hpc'
          obtain ⟨jobId, -, rfl⟩ := stratumGenWork_eq_some hbuilt
          exact ⟨hvalid, hprogress, hsuspended, n, hacts, hclosed, hcurl⟩
  | started hpc hvalid =>
      cases hpc'
      exact ⟨hvalid, rfl, rfl, 0, rfl, fun _ => rfl, Or.inl rfl⟩
  | reauthNext hpc answer =>
      cases hpc'
      exact h.stage hpc answer (Or.inl rfl) _
  | retry hpc hretry answer =>
      cases hpc'
      exact h.stage hpc answer (Or.inr ⟨rfl, rfl⟩) _
  | reconnectFailed hpc answer hout =>
      rcases hout with rfl | rfl <;> cases hpc'
  | line =>
      simp only [Session.goto] at hpc'
      split at hpc' <;> cases hpc'
  | @returned caller' => cases caller' <;> cases hpc'
  | _ => cases hpc'

theorem sessionStep_reauth {caller : Caller} {stage : Stage} {retryCount : Nat}
    {progress : Progress} (hpc : s.pc = .reauth caller stage retryCount)
    (answer : s.stageStep cfg.opts stage e = some (s', progress)) :
    sessionStep cfg s e = some (s'.reauthProgress caller stage retryCount progress) := by
  rw [sessionStep.eq_def, hpc]
  cases e with
  | exhausted => cases stage <;> contradiction
  | _ => simp only [answer, Option.map_some]

/-- The call that gives up with this step: its third attempt at a stage fails. -/
def exhausts (cfg : Config) (s : Session) (e : NetEvent) : Option Caller :=
  match s.pc with
  | .reauth caller stage retryCount =>
      if 3 ≤ retryCount + 1 ∧ (s.stageStep cfg.opts stage e).map Prod.snd = some .failed then
        some caller
      else none
  | _ => none

theorem exhausts_eq {caller : Caller} {stage : Stage} {retryCount : Nat}
    (hpc : s.pc = .reauth caller stage retryCount) (hretry : 3 ≤ retryCount + 1)
    (answer : s.stageStep cfg.opts stage e = some (s', .failed)) :
    exhausts cfg s e = some caller := by
  rw [exhausts, hpc]
  exact if_pos ⟨hretry, by rw [answer]; rfl⟩

theorem exhausts_step {caller : Caller} (h : s.Busy cfg) (gives : exhausts cfg s e = some caller)
    (taken : sessionNext cfg s e = some s') :
    cfg.validArgs = true ∧ s'.pc = .returned caller false ∧ s'.reauthInProgress = true ∧
      s'.solutionSubmissionSuspended = true ∧ s'.ctx.curl = none := by
  rw [exhausts] at gives
  split at gives
  · rename_i caller' stage retryCount hpc
    split at gives
    · rename_i hfails
      obtain ⟨hretry, hanswer⟩ := hfails
      obtain ⟨⟨s₁, progress⟩, answer, hprogress⟩ := Option.map_eq_some_iff.mp hanswer
      obtain rfl : progress = .failed := hprogress
      obtain rfl := Option.some.inj gives
      obtain ⟨hvalid, hprogress, hsuspended, n, hreached⟩ := h _ _ _ hpc
      obtain ⟨hprogress', hsuspended'⟩ := (stageStep_cases answer).flags
      obtain ⟨-, hclosed⟩ := ((stageStep_cases answer).reached hreached).2.2 rfl
      rw [sessionNext, sessionStep_reauth hpc answer, Session.reauthProgress,
        if_neg (Nat.not_lt.mpr hretry)] at taken
      by_cases hstage : stage = .connect
      · rw [if_pos hstage] at taken
        obtain rfl := Option.some.inj taken
        exact ⟨hvalid, rfl, hprogress'.trans hprogress, hsuspended'.trans hsuspended,
          hclosed hstage⟩
      · rw [if_neg hstage] at taken
        obtain rfl := Option.some.inj taken
        exact ⟨hvalid, rfl, hprogress'.trans hprogress, hsuspended'.trans hsuspended, rfl⟩
    · contradiction
  · contradiction

/-! The guard. -/

/-- No call is under way outside `stratum_reauthenticate`, a call starts all over, and
returns true only with the session established. -/
structure Session.GuardSound (cfg : Config) (s : Session) : Prop where
  idle : s.pc ≠ .crashed → ¬ s.Executing → s.reauthInProgress = false
  starts : ∀ caller, s.pc = .reauthenticate caller → cfg.validArgs = true → ∀ s',
    sessionNext cfg s .tau = some s' →
      s'.pc = .reauth caller .connect 0 ∧ s'.acts = [.disconnect] ∧ s'.ctx.curl = none
  establishes : ∀ caller, s.pc = .returned caller true → s.Established

/-- The invariant behind it. -/
structure Session.Guarded (cfg : Config) (s : Session) : Prop where
  busy : s.Busy cfg
  idle : s.pc ≠ .crashed → (∀ caller stage retryCount, s.pc ≠ .reauth caller stage retryCount) →
    s.reauthInProgress = false
  established : ∀ caller, s.pc = .resume caller ∨ s.pc = .returned caller true → s.Established

theorem Session.Guarded.sound (h : s.Guarded cfg) : s.GuardSound cfg where
  idle := fun hrunning hidle => h.idle hrunning fun caller stage retryCount hpc => hidle (by
    rw [Session.Executing, hpc]
    trivial)
  starts := fun caller hpc hvalid s' taken => by
    have hprogress : s.reauthInProgress = false := h.idle (by simp [hpc]) (by simp [hpc])
    rw [sessionNext, sessionStep.eq_def, hpc] at taken
    simp only [Session.reauthenticate, hvalid, hprogress] at taken
    obtain rfl := Option.some.inj taken
    exact ⟨rfl, rfl, rfl⟩
  establishes := fun caller hpc => h.established caller (Or.inr hpc)

theorem SessionStep.idle (h : s.Guarded cfg) (keeps : exhausts cfg s e = none)
    (taken : SessionStep cfg s e (s', effects))
    (hrunning : s'.pc ≠ .crashed)
    (hpc' : ∀ caller stage retryCount, s'.pc ≠ .reauth caller stage retryCount) :
    s'.reauthInProgress = false := by
  cases taken with
  | genWork call hbuilt =>
      cases call with
      | priming hpc | newJob hpc => exact h.idle (by simp [hpc]) (by simp [hpc])
      | exhausted => exact h.idle hrunning hpc'
  | noJobId | notString => exact absurd rfl hrunning
  | reconnectNext hpc answer | reconnectDone hpc answer | reconnectFailed hpc answer =>
      exact (stageStep_cases answer).flags.1.trans (h.idle (by simp [hpc]) (by simp [hpc]))
  | started | reauthNext | retry => exact absurd rfl (hpc' _ _ _)
  | reauthDone => rfl
  | noConnection hpc hretry answer =>
      rw [exhausts_eq hpc hretry answer] at keeps
      contradiction
  | noSession hpc hretry hstage answer =>
      rw [exhausts_eq hpc hretry answer] at keeps
      contradiction
  | @returned caller ret called hpc hcalled =>
      have hsame : called.1.reauthInProgress = s.reauthInProgress := by
        rw [← hcalled]
        cases caller <;> cases ret <;> rfl
      exact hsame.trans (h.idle (by simp [hpc]) (by simp [hpc]))
  | _ => exact h.idle (by simp [*]) (by simp [*])

theorem SessionStep.established (h : s.Guarded cfg)
    (taken : SessionStep cfg s e (s', effects)) (caller : Caller)
    (hpc' : s'.pc = .resume caller ∨ s'.pc = .returned caller true) : s'.Established := by
  cases taken with
  | genWork call hbuilt =>
      cases call with
      | priming | newJob => simp [Session.goto] at hpc'
      | exhausted => exact h.established caller hpc'
  | reauthDone hpc answer =>
      obtain ⟨-, -, -, n, hreached⟩ := h.busy _ _ _ hpc
      exact ((stageStep_cases answer).reached hreached).2.1 rfl
  | skipped hpc hvalid hprogress =>
      rw [h.idle (by simp [hpc]) (by simp [hpc])] at hprogress
      contradiction
  | resumed hpc => exact h.established _ (Or.inl hpc)
  | reconnectFailed hpc answer hout =>
      rcases hout with rfl | rfl <;> simp at hpc'
  | line =>
      simp only [Session.goto] at hpc'
      split at hpc' <;> simp at hpc'
  | @returned caller' => cases caller' <;> simp [Session.goto, Session.afterCall] at hpc'
  | _ => simp [Session.goto] at hpc'

/-- The guard is sound all along exactly when no call ever gives up. -/
theorem reauth_guard_iff {optExtranonce : Bool} {trace : List (Session × NetEvent)}
    (run : Run (sessionNext cfg) (.init optExtranonce) trace s) :
    Visits (Session.GuardSound cfg) trace s ↔ Steps (exhausts cfg · · = none) trace := by
  refine run.visits_iff_steps (Session.Guarded cfg) (exhausts cfg · · = none) ?_
    (fun _ h => h.sound) ?_ ?_
  · exact ⟨nofun, fun _ _ => rfl, nofun⟩
  · intro s e s' h keeps taken
    obtain ⟨effects, step⟩ := sessionNext_cases taken
    exact ⟨step.busy h.busy, step.idle h keeps, step.established h⟩
  · intro s e s' h gives taken sound
    obtain ⟨caller, hgives⟩ := Option.ne_none_iff_exists'.mp gives
    obtain ⟨-, hpc, hprogress, -⟩ := exhausts_step h.busy hgives taken
    have hidle := sound.idle (by simp [hpc]) (by simp [Session.Executing, hpc])
    rw [hprogress] at hidle
    contradiction

/-! The suspension of submissions. -/

/-- The thread has an authorised connection outside `stratum_reauthenticate`. -/
structure Session.HoldsAuthorised (s : Session) : Prop where
  running : s.pc ≠ .crashed
  idle : ¬ s.Executing
  connected : s.ctx.curl.isSome
  authorised : s.authorised = s.ctx.curl

/-- The callers that resume submissions after a call that failed. -/
def Caller.Resumes (caller : Caller) : Prop := caller = .recvFailure ∨ caller = .timeout

instance (caller : Caller) : Decidable caller.Resumes := inferInstanceAs (Decidable (_ ∨ _))

/-- Only such callers see a call give up. -/
def GivesUpResuming (cfg : Config) (s : Session) (e : NetEvent) : Prop :=
  ∀ caller ∈ exhausts cfg s e, caller.Resumes

instance (cfg : Config) (s : Session) (e : NetEvent) : Decidable (GivesUpResuming cfg s e) :=
  inferInstanceAs (Decidable (∀ caller ∈ exhausts cfg s e, _))

/-- Submissions are suspended during a call, and until a caller has seen it fail. -/
structure Session.Suspendable (cfg : Config) (s : Session) : Prop where
  busy : s.Busy cfg
  suspended : s.solutionSubmissionSuspended = true → s.Executing ∨ s.pc = .crashed ∨
    ∃ caller : Caller, caller.Resumes ∧ s.pc = .returned caller false ∧ s.ctx.curl = none

/-- The guard keeps every later call from doing anything. -/
structure Session.Stuck (cfg : Config) (s : Session) : Prop where
  valid : cfg.validArgs = true
  progress : s.reauthInProgress = true
  suspended : s.solutionSubmissionSuspended = true
  idle : ¬ s.Executing
  stays : ∀ caller : Caller, caller.Resumes → s.pc ≠ .returned caller false

/-- Neither inside a call nor just after one. -/
def Pc.settled : Pc → Bool
  | .reauth _ _ _ | .resume _ | .returned _ _ | .crashed => false
  | _ => true

theorem Session.Suspendable.settled (h : s.Suspendable cfg) (hpc : s.pc.settled = true) :
    s.solutionSubmissionSuspended ≠ true := by
  intro hsuspended
  rcases h.suspended hsuspended with hexec | hcrash | ⟨caller, -, hret, -⟩
  · rw [Session.Executing] at hexec
    split at hexec
    · simp_all [Pc.settled]
    · simp_all [Pc.settled]
    · exact hexec
  · simp [hcrash, Pc.settled] at hpc
  · simp [hret, Pc.settled] at hpc

theorem SessionStep.suspendable (h : s.Suspendable cfg) (resumes : GivesUpResuming cfg s e)
    (taken : SessionStep cfg s e (s', effects))
    (hsuspended : s'.solutionSubmissionSuspended = true) :
    s'.Executing ∨ s'.pc = .crashed ∨
      ∃ caller : Caller, caller.Resumes ∧ s'.pc = .returned caller false ∧ s'.ctx.curl = none := by
  cases taken with
  | genWork call hbuilt =>
      cases call with
      | priming hpc | newJob hpc =>
          exact absurd hsuspended (h.settled (by simp [hpc, Pc.settled]))
      | exhausted =>
          obtain ⟨jobId, -, rfl⟩ := stratumGenWork_eq_some hbuilt
          exact h.suspended hsuspended
  | noJobId | notString => exact Or.inr (Or.inl rfl)
  | reconnectNext hpc answer | reconnectDone hpc answer | reconnectFailed hpc answer =>
      exact absurd ((stageStep_cases answer).flags.2.symm.trans hsuspended)
        (h.settled (by simp [hpc, Pc.settled]))
  | started | reauthNext | reauthDone | retry => exact Or.inl trivial
  | @noConnection caller _ _ _ hpc hretry answer =>
      obtain ⟨-, -, -, n, hreached⟩ := h.busy _ _ _ hpc
      exact Or.inr (Or.inr ⟨caller, resumes _ (exhausts_eq hpc hretry answer), rfl,
        (((stageStep_cases answer).reached hreached).2.2 rfl).2 rfl⟩)
  | @noSession caller _ _ _ _ hpc hretry _ answer =>
      exact Or.inr (Or.inr ⟨caller, resumes _ (exhausts_eq hpc hretry answer), rfl, rfl⟩)
  | resumed => contradiction
  | @returned caller ret called hpc hcalled =>
      subst hcalled
      have hs : s.solutionSubmissionSuspended = true ∧ (caller.Resumes → ret = true) := by
        cases caller <;> cases ret <;> first | contradiction | exact ⟨hsuspended, by decide⟩
      rcases h.suspended hs.1 with hexec | hcrash | ⟨caller', hresumes, hret, -⟩
      · simp [Session.Executing, hpc] at hexec
      · simp [hpc] at hcrash
      · rw [hpc] at hret
        cases hret
        cases hs.2 hresumes
  | _ => exact absurd hsuspended (h.settled (by simp [*, Pc.settled]))

theorem Session.Stuck.goto (h : s.Stuck cfg) (hprogress : s'.reauthInProgress = s.reauthInProgress)
    (hsuspended : s'.solutionSubmissionSuspended = s.solutionSubmissionSuspended)
    (hpc : s'.pc.settled = true ∨ s'.pc = .crashed ∨ ∃ caller, s'.pc = .returned caller true) :
    s'.Stuck cfg where
  valid := h.valid
  progress := hprogress.trans h.progress
  suspended := hsuspended.trans h.suspended
  idle := by
    rw [Session.Executing]
    rcases hpc with hpc | hpc | ⟨caller, hpc⟩
    · split
      · simp_all [Pc.settled]
      · simp_all [Pc.settled]
      · exact not_false
    · simp [hpc]
    · simp [hpc]
  stays := by
    intro caller _ hret
    rcases hpc with hpc | hpc | ⟨caller', hpc⟩
    · simp [hret, Pc.settled] at hpc
    · simp [hret] at hpc
    · simp [hret] at hpc

theorem SessionStep.stuck (h : s.Stuck cfg) (taken : SessionStep cfg s e (s', effects)) :
    s'.Stuck cfg := by
  have idle : ∀ {pc : Pc}, s.pc = pc →
      ¬ (∃ caller stage retryCount, pc = .reauth caller stage retryCount) ∧
      ¬ ∃ caller, pc = .resume caller := by
    rintro pc rfl
    refine ⟨?_, ?_⟩
    · rintro ⟨caller, stage, retryCount, hpc⟩
      exact h.idle (by simp [Session.Executing, hpc])
    · rintro ⟨caller, hpc⟩
      exact h.idle (by simp [Session.Executing, hpc])
  cases taken with
  | genWork call hbuilt =>
      cases call with
      | priming | newJob => exact h.goto rfl rfl (Or.inl rfl)
      | exhausted => exact ⟨h.valid, h.progress, h.suspended, h.idle, h.stays⟩
  | noJobId | notString => exact h.goto rfl rfl (Or.inr (Or.inl rfl))
  | reconnectNext hpc answer | reconnectDone hpc answer =>
      exact h.goto (stageStep_cases answer).flags.1 (stageStep_cases answer).flags.2 (Or.inl rfl)
  | reconnectFailed hpc answer hout =>
      refine h.goto (stageStep_cases answer).flags.1 (stageStep_cases answer).flags.2 (Or.inl ?_)
      rcases hout with rfl | rfl <;> rfl
  | invalid hpc hvalid => exact absurd (h.valid.symm.trans hvalid) (by decide)
  | skipped => exact h.goto rfl rfl (Or.inr (Or.inr ⟨_, rfl⟩))
  | started hpc hvalid hprogress => exact absurd (h.progress.symm.trans hprogress) (by decide)
  | reauthNext hpc | reauthDone hpc | retry hpc | noConnection hpc | noSession hpc =>
      exact absurd ⟨_, _, _, rfl⟩ (idle hpc).1
  | resumed hpc => exact absurd ⟨_, rfl⟩ (idle hpc).2
  | @returned caller ret called hpc hcalled =>
      have hret : caller.Resumes → ret = true := fun hresumes => by
        cases ret with
        | false => exact absurd hpc (h.stays caller hresumes)
        | true => rfl
      subst hcalled
      refine h.goto ?_ ?_ (Or.inl (by cases caller <;> rfl))
      · cases caller <;> cases ret <;> rfl
      · cases caller <;> cases ret <;> first | rfl | exact absurd (hret (by decide)) (by decide)
  | line =>
      refine h.goto rfl rfl (Or.inl ?_)
      simp only [Session.goto]
      split <;> rfl
  | _ => exact h.goto rfl rfl (Or.inl rfl)

/-- Where a connection is held, submissions are suspended exactly when some caller that does
not resume them has seen a call give up. -/
theorem suspended_iff_gave_up {optExtranonce : Bool} {trace : List (Session × NetEvent)}
    (run : Run (sessionNext cfg) (.init optExtranonce) trace s) (holds : s.HoldsAuthorised) :
    s.solutionSubmissionSuspended = false ↔ Steps (GivesUpResuming cfg) trace := by
  have cases := run.inv_or_bad (Session.Suspendable cfg) (Session.Stuck cfg) (GivesUpResuming cfg)
    ⟨nofun, nofun⟩ ?_ ?_ ?_
  · rcases cases with ⟨steps, inv⟩ | ⟨steps, stuck⟩
    · refine iff_of_true (Bool.eq_false_iff.mpr fun hsuspended => ?_) steps
      rcases inv.suspended hsuspended with hexec | hcrash | ⟨caller, -, -, hcurl⟩
      · exact holds.idle hexec
      · exact absurd hcrash holds.running
      · exact absurd (hcurl ▸ holds.connected) (by decide)
    · exact iff_of_false (by simp [stuck.suspended]) steps
  · intro s e s' h resumes taken
    obtain ⟨effects, step⟩ := sessionNext_cases taken
    exact ⟨step.busy h.busy, step.suspendable h resumes⟩
  · intro s e s' h gives taken
    obtain ⟨caller, hgives, hstays⟩ :
        ∃ caller, exhausts cfg s e = some caller ∧ ¬ caller.Resumes := by
      simpa [GivesUpResuming] using gives
    obtain ⟨hvalid, hpc, hprogress, hsuspended, -⟩ := exhausts_step h.busy hgives taken
    refine ⟨hvalid, hprogress, hsuspended, by simp [Session.Executing, hpc], ?_⟩
    intro caller' hresumes hpc'
    rw [hpc, Pc.returned.injEq] at hpc'
    exact hstays (hpc'.1 ▸ hresumes)
  · intro s e s' h taken
    obtain ⟨effects, step⟩ := sessionNext_cases taken
    exact step.stuck h

end

/-! Runs: a first connection, and calls that fail or succeed. -/

def Config.plain : Config where
  opts := .plain
  gate := .zero
  validArgs := true
  optRetries := none
  optStratumKeepalive := false

def subscription : Received (Option Json) :=
  .line (some (.object [(cstr "result",
    .array [.array [], .string (cstr "aa"), .integer 4])]))

def resultLine (id : Int) (result : Json) : Line where
  val := some (.object [(cstr "id", .integer id), (cstr "result", result)])
  sent := true
  heap := .zero

def garbledLine : Line where
  val := none
  sent := true
  heap := .zero

def handshakeEvents : List NetEvent :=
  [.connect true, .subscribe subscription (.none false), .line (resultLine 2 (.bool true))]

def sessionEvents : List NetEvent := [.tau, .tau] ++ handshakeEvents ++ [.tau, .tau]

def failedCall : List NetEvent :=
  .tau :: List.replicate 3 (.connect false) ++ [.tau, .keepalive false]

def Pc.result : Pc → Option (Caller × Bool)
  | .returned caller ret => some (caller, ret)
  | _ => none

theorem Pc.of_result {pc : Pc} {caller : Caller} {ret : Bool}
    (h : pc.result = some (caller, ret)) : pc = .returned caller ret := by
  cases pc <;> cases h
  rfl

def Pc.waits : Pc → Bool
  | .wait => true
  | _ => false

theorem Pc.of_waits {pc : Pc} (h : pc.waits = true) : pc = .wait := by
  cases pc <;> first | rfl | contradiction

/-- A call after a garbled line that succeeds. -/
theorem reauth_guard_one_call : ∃ (trace : List (Session × NetEvent)) (s : Session),
    Run (sessionNext .plain) (.init false) trace s ∧
      s.acts = Session.actsBefore 1 .extranonce ∧
      Visits (Session.GuardSound .plain) trace s := by
  have hexec : (exec (guarded (sessionNext .plain) (exhausts .plain · · = none)) (.init false)
      (sessionEvents ++ [.line garbledLine, .tau, .tau] ++ handshakeEvents)).map
      (fun s => s.acts) = some (Session.actsBefore 1 .extranonce) := by decide +kernel
  obtain ⟨s, hs, hacts⟩ := Option.map_eq_some_iff.mp hexec
  obtain ⟨trace, run, -⟩ := Run.start.exec hs
  exact ⟨trace, s, run.of_guarded.1, hacts,
    (reauth_guard_iff run.of_guarded.1).mpr run.of_guarded.2⟩

/-- After a call that gave up, the next one returns true and does nothing. -/
theorem skipped_call_returns_true : ¬ ∀ (cfg : Config) (optExtranonce : Bool)
    (trace : List (Session × NetEvent)) (s : Session),
    Run (sessionNext cfg) (.init optExtranonce) trace s → s.GuardSound cfg := by
  intro h
  have hexec : (exec (sessionNext .plain) (.init false)
      (sessionEvents ++ [.line garbledLine, .tau] ++ failedCall ++ sessionEvents ++
        [.timeout, .tau])).map
      (fun s => (s.pc.result, s.acts)) = some (some (.timeout, true), []) := by decide +kernel
  obtain ⟨s, hs, hstate⟩ := Option.map_eq_some_iff.mp hexec
  obtain ⟨hresult, hacts⟩ := Prod.mk.inj hstate
  obtain ⟨trace, run, -⟩ := Run.start.exec hs
  obtain ⟨n, hestablished⟩ :=
    (h .plain false trace s run).establishes .timeout (Pc.of_result hresult)
  rw [hacts] at hestablished
  contradiction

/-- A call after a timeout that gives up, and a new connection. -/
theorem suspended_iff_gave_up_timeout : ∃ (trace : List (Session × NetEvent)) (s : Session),
    Run (sessionNext .plain) (.init false) trace s ∧ s.ctx.curl = some 1 ∧
      s.solutionSubmissionSuspended = false := by
  have hexec : (exec (guarded (sessionNext .plain) (GivesUpResuming .plain)) (.init false)
      (sessionEvents ++ [.timeout] ++ failedCall ++ sessionEvents)).map
      (fun s => (s.pc.waits, s.ctx.curl, s.authorised)) = some (true, some 1, some 1) := by
    decide +kernel
  obtain ⟨s, hs, hstate⟩ := Option.map_eq_some_iff.mp hexec
  simp only [Prod.mk.injEq] at hstate
  obtain ⟨hwaits, hcurl, hauthorised⟩ := hstate
  have hpc := Pc.of_waits hwaits
  obtain ⟨trace, run, -⟩ := Run.start.exec hs
  have holds : s.HoldsAuthorised :=
    ⟨by simp [hpc], by simp [Session.Executing, hpc], by simp [hcurl], hauthorised.trans hcurl.symm⟩
  exact ⟨trace, s, run.of_guarded.1, hcurl,
    (suspended_iff_gave_up run.of_guarded.1 holds).mpr run.of_guarded.2⟩

/-- The call after the garbled line gives up, and submissions stay suspended. -/
theorem suspended_for_good : ¬ ∀ (cfg : Config) (optExtranonce : Bool)
    (trace : List (Session × NetEvent)) (s : Session),
    Run (sessionNext cfg) (.init optExtranonce) trace s → s.HoldsAuthorised →
      s.solutionSubmissionSuspended = false := by
  intro h
  have hexec : (exec (sessionNext .plain) (.init false)
      (sessionEvents ++ [.line garbledLine, .tau] ++ failedCall ++ sessionEvents)).map
      (fun s => (s.pc.waits, s.ctx.curl, s.authorised, s.solutionSubmissionSuspended)) =
      some (true, some 1, some 1, true) := by decide +kernel
  obtain ⟨s, hs, hstate⟩ := Option.map_eq_some_iff.mp hexec
  simp only [Prod.mk.injEq] at hstate
  obtain ⟨hwaits, hcurl, hauthorised, hsuspended⟩ := hstate
  have hpc := Pc.of_waits hwaits
  obtain ⟨trace, run, -⟩ := Run.start.exec hs
  have holds : s.HoldsAuthorised :=
    ⟨by simp [hpc], by simp [Session.Executing, hpc], by simp [hcurl], hauthorised.trans hcurl.symm⟩
  have hfalse := h .plain false trace s run holds
  rw [hsuspended] at hfalse
  contradiction

end SojCivicLight.Stratum
