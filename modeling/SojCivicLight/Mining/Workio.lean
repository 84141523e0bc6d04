import SojCivicLight.Mining.JobIds

/-! The way of a share from the thread that finds it over the queue of the workio thread to
the pool, and the session it was built in. -/

namespace SojCivicLight.Mining

open SojCivicLight.Library SojCivicLight.Util SojCivicLight.Stratum

/-- The session in which a work was built: its connection, and how many connections
`stratum_reauthenticate` had made by then. -/
structure Origin where
  connection : Nat
  reauths : Nat

structure Share where
  work : Work
  /-- none for a work that `stratum_gen_work` has not built in a session -/
  origin : Option Origin

structure WorkioCmd where
  share : Share
  epochToken : Nat

/-- Where the workio thread stands with a command: past `tq_pop`, and past the checks of its
token, of the suspension and of the epoch of its work. -/
inductive WorkioPc where
  | idle
  | popped (wc : WorkioCmd)
  | fresh (wc : WorkioCmd)
  | resumed (wc : WorkioCmd)
  | checked (wc : WorkioCmd)

def WorkioPc.cmd : WorkioPc → Option WorkioCmd
  | .idle => none
  | .popped wc | .fresh wc | .resumed wc | .checked wc => some wc

structure Workio (threads : Nat) where
  system : System threads
  gOrigin : Option Origin
  origin : Fin threads → Option Origin
  /-- what a thread has found and still has to submit -/
  found : Fin threads → List Share
  /-- what it is about to push -/
  tagged : Fin threads → Option WorkioCmd
  queue : List WorkioCmd
  pc : WorkioPc
  /-- how many connections `stratum_reauthenticate` has made -/
  reauths : Nat

inductive WorkioEvent (threads : Nat) where
  | system (e : SystemEvent threads)
  | tag (t : Fin threads)
  | push (t : Fin threads)
  | pop
  | checkToken
  | checkSuspended
  | checkEpoch
  | send

def madeByReauth (s : Session) (e : NetEvent) : Bool :=
  match s.pc, e with
  | .reauth _ .connect _, .connect true => true
  | _, _ => false

def foundBy (env : ScanEnv) (thread : Thread) : List Work :=
  match thread.phase with
  | .hashing _ scan _ =>
      ((submittedBy env thread).drop scan.submitted.length).map (·.work)
  | _ => []

section

variable {threads : Nat} (env : ScanEnv) (cfg : Config)

def Workio.init (threads : Nat) : Workio threads where
  system := .init threads
  gOrigin := none
  origin _ := none
  found _ := []
  tagged _ := none
  queue := []
  pc := .idle
  reauths := 0

/-- A thread goes on once it has submitted what it has found. -/
def Workio.mayStep (w : Workio threads) : SystemEvent threads → Bool
  | .thread t _ => (w.found t).isEmpty && (w.tagged t).isNone
  | _ => true

/-- Where the works come from after a step of the other threads. -/
def Workio.after (w : Workio threads) (e : SystemEvent threads) (system : System threads) :
    Workio threads :=
  match e with
  | .net e =>
      { w with
        system, reauths := if madeByReauth w.system.session e then w.reauths + 1 else w.reauths }
  | .effect =>
      match w.system.pending with
      | .publish _ _ sctx :: _ =>
          { w with system, gOrigin := sctx.curl.map fun connection => ⟨connection, w.reauths⟩ }
      | _ => { w with system }
  | .thread t e =>
      let thread := w.system.miner.thread t
      match e with
      | .take =>
          if copiesWork thread.work w.system.miner.gWork thread.endNonce then
            { w with system, origin := Function.update w.origin t w.gOrigin }
          else { w with system }
      | .hash =>
          { w with
            system
            found := Function.update w.found t
              ((foundBy env thread).map fun work => ⟨work, w.origin t⟩) }
      | _ => { w with system }

def workioStep (w : Workio threads) : WorkioEvent threads → Option (Workio threads)
  | .system e =>
      if w.mayStep e then (systemStep env cfg w.system e).map (w.after env e) else none
  | .tag t =>
      match w.found t, w.tagged t with
      | share :: shares, none =>
          some
            { w with
              found := Function.update w.found t shares
              tagged := Function.update w.tagged t (some ⟨share, w.system.session.reauthEpoch⟩) }
      | _, _ => none
  | .push t =>
      (w.tagged t).map fun wc =>
        { w with tagged := Function.update w.tagged t none, queue := w.queue ++ [wc] }
  | .pop =>
      match w.pc, w.queue with
      | .idle, wc :: queue => some { w with pc := .popped wc, queue }
      | _, _ => none
  | .checkToken =>
      match w.pc with
      | .popped wc =>
          some
            { w with
              pc := if wc.epochToken < w.system.session.reauthEpoch then .idle else .fresh wc }
      | _ => none
  | .checkSuspended =>
      match w.pc with
      | .fresh wc =>
          some
            { w with
              pc := if w.system.session.solutionSubmissionSuspended then .idle else .resumed wc }
      | _ => none
  | .checkEpoch =>
      match w.pc with
      | .resumed wc =>
          some
            { w with
              pc :=
                if wc.share.work.reauthEpoch < w.system.session.reauthEpoch then .idle
                else .checked wc }
      | _ => none
  | .send =>
      match w.pc with
      | .checked _ => some { w with pc := .idle }
      | _ => none

/-- What is sent goes out on the connection of the session in which it was built. -/
def SendsOwnSession (w : Workio threads) : WorkioEvent threads → Prop
  | .send => ∀ wc, w.pc = .checked wc → ∀ origin ∈ wc.share.origin,
      ∀ connection ∈ w.system.session.ctx.curl, connection = origin.connection
  | _ => True

/-- When a share passes the check of its epoch, `stratum_reauthenticate` has made no connection
since its work was built, and none is made between the check and the send. -/
def ChecksCurrent (w : Workio threads) : WorkioEvent threads → Prop
  | .checkEpoch =>
      match w.pc with
      | .resumed wc => wc.share.work.reauthEpoch < w.system.session.reauthEpoch ∨
          ∀ origin ∈ wc.share.origin, origin.reauths = w.reauths
      | _ => True
  | .system (.net (.connect true)) =>
      match w.pc with
      | .checked _ => False
      | _ => True
  | _ => True

end

/-! Connections and epochs. -/

theorem madeByReauth_eq_false {s : Session} {e : NetEvent} (h : e ≠ .connect true) :
    madeByReauth s e = false := by
  rw [madeByReauth.eq_def]
  split
  · exact absurd rfl h
  · rfl

/-- A stage makes a connection or no other than it had. -/
inductive StageConnection (s s' : Session) : Stage → NetEvent → Prop
  | made (hnumber : s'.connections = s.connections + 1)
      (hcurl : s'.ctx.curl = some s.connections) : StageConnection s s' .connect (.connect true)
  | kept {stage : Stage} {e : NetEvent} (he : e ≠ .connect true)
      (hnumber : s'.connections = s.connections)
      (hcurl : ∀ connection ∈ s'.ctx.curl, connection ∈ s.ctx.curl) : StageConnection s s' stage e

section

variable {s s' : Session} {e : NetEvent}

theorem curl_line {opts : Options} {sctx : StratumCtx} {line : Line} {connection : Nat}
    (h : connection ∈ (stratumHandleMethod opts sctx line).1.curl) : connection ∈ sctx.curl := by
  rcases stratumHandleMethod_curl opts sctx line with hsame | heq
  · rwa [hsame] at h
  · rw [heq] at h
    contradiction

theorem curl_recvFailed {sctx : StratumCtx} {closed : Bool} {connection : Nat}
    (h : connection ∈ (recvFailed sctx closed).curl) : connection ∈ sctx.curl := by
  rcases recvFailed_cases sctx closed with heq | heq
  · rwa [heq] at h
  · rw [heq] at h
    contradiction

theorem curl_subscribe {sctx : StratumCtx} {reply retry : Received (Option Json)}
    {connection : Nat} (h : connection ∈ (stratumSubscribe sctx reply retry).1.curl) :
    connection ∈ sctx.curl := by
  rcases stratumSubscribe_cases sctx reply retry with ⟨⟨hsame, -⟩, -⟩ | ⟨⟨lost, heq⟩, -⟩
  · rwa [hsame.curl] at h
  · rw [heq] at h
    contradiction

theorem StageStep.connection {opts : Options} {stage : Stage} {progress : Progress}
    (taken : StageStep opts s stage e s' progress) :
    StageConnection s s' stage e ∧ s'.reauthEpoch = s.reauthEpoch ∧ progress ≠ .next .connect := by
  cases taken with
  | connected => exact ⟨.made rfl rfl, rfl, nofun⟩
  | notConnected => exact ⟨.kept nofun rfl nofun, rfl, nofun⟩
  | subscribed | notSubscribed => exact ⟨.kept nofun rfl fun _ => curl_subscribe, rfl, nofun⟩
  | method | refused => exact ⟨.kept nofun rfl fun _ => curl_line, rfl, nofun⟩
  | authorized =>
      refine ⟨.kept nofun rfl fun _ => curl_line, rfl, ?_⟩
      split <;> nofun
  | notAuthorized | extranonceFailed => exact ⟨.kept nofun rfl fun _ => curl_recvFailed, rfl, nofun⟩
  | extranonceReply | extranonceTimeout => exact ⟨.kept nofun rfl fun _ => id, rfl, nofun⟩
  | extranonceMethod => exact ⟨.kept nofun rfl fun _ => curl_line, rfl, nofun⟩

/-- A step raises the epoch, makes a connection in the loop or in `stratum_reauthenticate`, or
leaves both as they were. -/
inductive EpochStep (s s' : Session) (e : NetEvent) : Prop
  | raised (hepoch : s'.reauthEpoch = s.reauthEpoch + 1) (hnumber : s'.connections = s.connections)
      (hmade : e ≠ .connect true) : EpochStep s s' e
  | reconnected (hmade : e = .connect true) (hpc : s.pc = .reconnect .connect)
      (hepoch : s'.reauthEpoch = s.reauthEpoch) : EpochStep s s' e
  | reauthenticated (hmade : madeByReauth s e = true) (hepoch : s'.reauthEpoch = s.reauthEpoch) :
      EpochStep s s' e
  | kept (hepoch : s'.reauthEpoch = s.reauthEpoch) (hnumber : s'.connections = s.connections)
      (hmade : e ≠ .connect true) (hpc : s'.pc ≠ .reconnect .connect) : EpochStep s s' e

theorem SessionStep.epoch {cfg : Config} {effects : List Effect}
    (hopt : s.optExtranonce = false) (taken : SessionStep cfg s e (s', effects)) :
    EpochStep s s' e := by
  cases taken with
  | genWork call | noJobId call =>
      cases call with
      | priming | newJob => exact .kept rfl rfl (by rintro ⟨⟩) (by rintro ⟨⟩)
      | exhausted _ hopt' => exact absurd (hopt.symm.trans hopt') (by decide)
  | disconnected => exact .raised rfl rfl (by rintro ⟨⟩)
  | reconnectNext hpc answer =>
      obtain ⟨connection, hepoch, hnext⟩ := StageStep.connection (stageStep_cases answer)
      cases connection with
      | made => exact .reconnected rfl hpc hepoch
      | kept he hnumber =>
          refine .kept hepoch hnumber he fun hpc' => hnext ?_
          rw [Session.goto, Pc.reconnect.injEq] at hpc'
          rw [hpc']
  | reconnectDone hpc answer =>
      obtain ⟨connection, hepoch, -⟩ := StageStep.connection (stageStep_cases answer)
      cases connection with
      | made => exact .reconnected rfl hpc hepoch
      | kept he hnumber => exact .kept hepoch hnumber he (by rintro ⟨⟩)
  | reconnectFailed hpc answer hout =>
      obtain ⟨connection, hepoch, -⟩ := StageStep.connection (stageStep_cases answer)
      cases connection with
      | made => exact .reconnected rfl hpc hepoch
      | kept he hnumber =>
          refine .kept hepoch hnumber he ?_
          rcases hout with rfl | rfl <;> rintro ⟨⟩
  | reauthNext hpc answer | reauthDone hpc answer | retry hpc _ answer | noConnection hpc _ answer
  | noSession hpc _ _ answer =>
      obtain ⟨connection, hepoch, -⟩ := StageStep.connection (stageStep_cases answer)
      cases connection with
      | made => exact .reauthenticated (by rw [madeByReauth.eq_def, hpc]) hepoch
      | kept he hnumber => exact .kept hepoch hnumber he (by rintro ⟨⟩)
  | @returned caller ret called hpc hcalled =>
      subst hcalled
      have hpc' : Session.afterCall caller ≠ .reconnect .connect := by cases caller <;> rintro ⟨⟩
      cases caller with
      | poolError =>
          cases ret with
          | true => exact .raised rfl rfl (by rintro ⟨⟩)
          | false => exact .kept rfl rfl (by rintro ⟨⟩) hpc'
      | _ => cases ret <;> exact .kept rfl rfl (by rintro ⟨⟩) hpc'
  | line =>
      refine .kept rfl rfl (by rintro ⟨⟩) ?_
      simp only [Session.goto]
      split <;> rintro ⟨⟩
  | _ => exact .kept rfl rfl (by rintro ⟨⟩) (by rintro ⟨⟩)

theorem SessionStep.curl {cfg : Config} {effects : List Effect}
    (hcurl : ∀ connection ∈ s.ctx.curl, connection + 1 = s.connections)
    (taken : SessionStep cfg s e (s', effects)) :
    ∀ connection ∈ s'.ctx.curl, connection + 1 = s'.connections := by
  cases taken with
  | genWork call hbuilt =>
      obtain ⟨jobId, -, rfl⟩ := stratumGenWork_eq_some hbuilt
      exact hcurl
  | reset | reconnectFailed | started | noSession => exact nofun
  | reconnectNext hpc answer | reconnectDone hpc answer | reauthNext hpc answer
  | reauthDone hpc answer | retry hpc _ answer | noConnection hpc _ answer =>
      have connection := (StageStep.connection (stageStep_cases answer)).1
      cases connection with
      | made hnumber hcurl' =>
          intro connection hmem
          have hmem := hcurl'.symm.trans hmem
          rw [Option.some.inj hmem.symm]
          exact hnumber.symm
      | kept he hnumber hcurl' =>
          intro connection hmem
          exact (hcurl connection (hcurl' connection hmem)).trans hnumber.symm
  | line => exact fun connection hmem => hcurl connection (curl_line hmem)
  | banned | interrupted => exact fun connection hmem => hcurl connection (curl_recvFailed hmem)
  | @returned caller ret called hpc hcalled =>
      subst hcalled
      cases caller <;> cases ret <;> exact hcurl
  | _ => exact hcurl

theorem StageStep.optExtranonce {opts : Options} {stage : Stage} {progress : Progress}
    (hopt : s.optExtranonce = false) (taken : StageStep opts s stage e s' progress) :
    s'.optExtranonce = false := by
  cases taken <;> first | exact hopt | rfl

theorem SessionStep.optExtranonce {cfg : Config} {effects : List Effect}
    (hopt : s.optExtranonce = false) (taken : SessionStep cfg s e (s', effects)) :
    s'.optExtranonce = false := by
  cases taken with
  | reconnectNext hpc answer | reconnectDone hpc answer | reconnectFailed hpc answer
  | reauthNext hpc answer | reauthDone hpc answer | retry hpc _ answer
  | noConnection hpc _ answer | noSession hpc _ _ answer =>
      have kept := StageStep.optExtranonce hopt (stageStep_cases answer)
      exact kept
  | @returned caller ret called hpc hcalled =>
      subst hcalled
      cases caller <;> cases ret <;> exact hopt
  | _ => exact hopt

/-- The epoch of a work is not ahead, and a work of the current epoch that no call of
`stratum_reauthenticate` has outdated is from the last connection made. -/
structure Stamped (s : Session) (reauths epoch : Nat) (origin : Option Origin) : Prop where
  epoch_le : epoch ≤ s.reauthEpoch
  reauths_le : ∀ built ∈ origin, built.reauths ≤ reauths
  current : epoch = s.reauthEpoch → ∀ built ∈ origin, built.reauths = reauths →
    built.connection + 1 = s.connections ∧ s.pc ≠ .reconnect .connect

theorem Stamped.step {reauths epoch : Nat} {origin : Option Origin}
    (h : Stamped s reauths epoch origin) (step : EpochStep s s' e) :
    Stamped s' (if madeByReauth s e then reauths + 1 else reauths) epoch origin := by
  cases step with
  | raised hepoch hnumber hmade =>
      rw [madeByReauth_eq_false hmade]
      refine ⟨by rw [hepoch]; exact Nat.le_succ_of_le h.epoch_le, h.reauths_le, fun heq => ?_⟩
      rw [hepoch] at heq
      exact absurd (heq ▸ h.epoch_le) (Nat.not_succ_le_self _)
  | reconnected hmade hpc hepoch =>
      have hmade : madeByReauth s e = false := by rw [madeByReauth.eq_def, hpc]
      rw [hmade]
      refine ⟨hepoch ▸ h.epoch_le, h.reauths_le, fun heq built hmem hreauths => ?_⟩
      exact absurd hpc (h.current (heq.trans hepoch) built hmem hreauths).2
  | reauthenticated hmade hepoch =>
      rw [hmade]
      refine ⟨hepoch ▸ h.epoch_le,
        fun built hmem => Nat.le_succ_of_le (h.reauths_le built hmem), ?_⟩
      intro heq built hmem hreauths
      exact absurd (hreauths ▸ h.reauths_le built hmem) (Nat.not_succ_le_self _)
  | kept hepoch hnumber hmade hpc =>
      rw [madeByReauth_eq_false hmade]
      refine ⟨hepoch ▸ h.epoch_le, h.reauths_le, fun heq built hmem hreauths => ⟨?_, hpc⟩⟩
      rw [hnumber]
      exact (h.current (heq.trans hepoch) built hmem hreauths).1

end

/-! The works on their way. -/

def Thread.Scans (env : ScanEnv) (thread : Thread) : Prop :=
  match thread.phase with
  | .looking _ scan _ | .hashing _ scan _ => Scanning env thread.work scan
  | _ => True

section

variable {threads : Nat} {env : ScanEnv} {thrId window : Nat} {down restart : Bool} {gWork : Work}
  {thread thread' : Thread} {e : ThreadEvent}

theorem ThreadStep.scans (h : thread.Scans env)
    (taken : ThreadStep env threads thrId down restart gWork window thread e thread') :
    thread'.Scans env := by
  rw [Thread.Scans] at h
  cases taken with
  | scan => exact ⟨fun _ => rfl, by simp [scanStart]⟩
  | enter hphase | leave hphase | enterTail hphase =>
      rw [hphase] at h
      exact h
  | round hphase =>
      rw [hphase] at h
      exact Scanning.loopRound h
  | _ => trivial

theorem foundBy_epoch (h : thread.Scans env) {work : Work} (hmem : work ∈ foundBy env thread) :
    work.reauthEpoch = thread.work.reauthEpoch := by
  rw [Thread.Scans] at h
  rw [foundBy] at hmem
  split at hmem
  · rename_i tail scan last hphase
    rw [hphase] at h
    obtain ⟨submission, hdropped, rfl⟩ := List.mem_map.mp hmem
    have hsubmitted := List.mem_of_mem_drop hdropped
    rw [submittedBy, hphase] at hsubmitted
    have scanning : Scanning env thread.work
        (if tail then tailRound env thread.work scan else loopRound env thread.work scan) := by
      split
      · exact Scanning.tailRound h
      · exact Scanning.loopRound h
    obtain ⟨n, -, hwork⟩ := scanning.submitted submission hsubmitted
    rw [hwork]
  · contradiction

end

section

variable {threads : Nat} {env : ScanEnv} {cfg : Config}

/-- The epochs and origins of all works on their way. -/
inductive Held (w : Workio threads) : Nat → Option Origin → Prop
  | gWork : Held w w.system.miner.gWork.reauthEpoch w.gOrigin
  | thread (t : Fin threads) : Held w (w.system.miner.thread t).work.reauthEpoch (w.origin t)
  | found {t : Fin threads} {share : Share} (hmem : share ∈ w.found t) :
      Held w share.work.reauthEpoch share.origin
  | tagged {t : Fin threads} {wc : WorkioCmd} (htagged : w.tagged t = some wc) :
      Held w wc.share.work.reauthEpoch wc.share.origin
  | queued {wc : WorkioCmd} (hmem : wc ∈ w.queue) :
      Held w wc.share.work.reauthEpoch wc.share.origin
  | cmd {wc : WorkioCmd} (hpc : w.pc.cmd = some wc) :
      Held w wc.share.work.reauthEpoch wc.share.origin

theorem Held.same {w w' : Workio threads} {epoch : Nat} {origin : Option Origin}
    (held : Held w' epoch origin)
    (hgWork : w'.system.miner.gWork.reauthEpoch = w.system.miner.gWork.reauthEpoch)
    (hgOrigin : w'.gOrigin = w.gOrigin)
    (hthread : ∀ t, (w'.system.miner.thread t).work.reauthEpoch =
      (w.system.miner.thread t).work.reauthEpoch)
    (horigin : w'.origin = w.origin) (hfound : w'.found = w.found)
    (htagged : w'.tagged = w.tagged) (hqueue : w'.queue = w.queue)
    (hpc : ∀ wc, w'.pc.cmd = some wc → w.pc.cmd = some wc) : Held w epoch origin := by
  cases held with
  | gWork =>
      rw [hgWork, hgOrigin]
      exact .gWork
  | thread t =>
      rw [hthread, horigin]
      exact .thread t
  | found hmem =>
      rw [hfound] at hmem
      exact .found hmem
  | tagged hwc =>
      rw [htagged] at hwc
      exact .tagged hwc
  | queued hmem =>
      rw [hqueue] at hmem
      exact .queued hmem
  | cmd hwc => exact .cmd (hpc _ hwc)

structure Sound (env : ScanEnv) (w : Workio threads) : Prop where
  opt : w.system.session.optExtranonce = false
  curl : ∀ connection ∈ w.system.session.ctx.curl, connection + 1 = w.system.session.connections
  pending : ∀ heap epoch sctx, .publish heap epoch sctx ∈ w.system.pending →
    Stamped w.system.session w.reauths epoch
      (sctx.curl.map fun connection => ⟨connection, w.reauths⟩)
  scans : ∀ t, (w.system.miner.thread t).Scans env
  held : ∀ epoch origin, Held w epoch origin →
    Stamped w.system.session w.reauths epoch origin
  checked : ∀ wc, w.pc = .checked wc → ∀ built ∈ wc.share.origin,
    built.connection + 1 = w.system.session.connections

theorem sound_init (env : ScanEnv) : Sound env (.init threads) := by
  refine ⟨rfl, nofun, nofun, fun _ => trivial, ?_, nofun⟩
  intro epoch origin held
  cases held with
  | gWork | thread => exact ⟨Nat.le_refl _, nofun, fun _ => nofun⟩
  | found hmem | queued hmem => exact absurd hmem List.not_mem_nil
  | tagged htagged => contradiction
  | cmd hpc => contradiction

theorem Sound.net {w : Workio threads} (h : Sound env w) {e : NetEvent}
    (current : ChecksCurrent w (.system (.net e))) {session' : Session} {effects : List Effect}
    (step : SessionStep cfg w.system.session e (session', effects)) :
    Sound env (w.after env (.net e) { w.system with session := session', pending := effects }) := by
  have hstep := SessionStep.epoch h.opt step
  refine ⟨SessionStep.optExtranonce h.opt step, SessionStep.curl h.curl step, ?_, h.scans, ?_, ?_⟩
  · intro heap epoch sctx hmem
    obtain ⟨rfl, rfl, heap', pc, call, rfl⟩ := step.publishes hmem
    have hcall : e ≠ .connect true ∧ pc ≠ .reconnect .connect := by
      cases call with
      | priming | newJob => exact ⟨nofun, nofun⟩
      | exhausted _ hopt => exact absurd (h.opt.symm.trans hopt) (by decide)
    have hreauths : (w.after env (.net e) { w.system with
        session := (w.system.session.setCtx (preIncrement heap' w.system.session.ctx)).goto pc
        pending := effects }).reauths = w.reauths := by
      simp only [Workio.after, madeByReauth_eq_false hcall.1, Bool.false_eq_true, if_false]
    rw [hreauths]
    refine ⟨Nat.le_refl _, ?_, fun _ built hbuilt _ => ⟨?_, hcall.2⟩⟩
    · intro built hbuilt
      obtain ⟨connection, -, rfl⟩ := Option.map_eq_some_iff.mp hbuilt
      exact Nat.le_refl _
    · obtain ⟨connection, hconnection, rfl⟩ := Option.map_eq_some_iff.mp hbuilt
      exact h.curl connection hconnection
  · intro epoch origin held
    have held' : Held w epoch origin :=
      held.same rfl rfl (fun _ => rfl) rfl rfl rfl rfl fun _ => id
    exact Stamped.step (h.held epoch origin held') hstep
  · intro wc hpc built hmem
    have hmade : e ≠ .connect true := by
      rintro rfl
      have hpc' : w.pc = .checked wc := hpc
      rw [ChecksCurrent, hpc'] at current
      exact current
    have hchecked := h.checked wc hpc built hmem
    cases hstep with
    | raised _ hnumber | kept _ hnumber => exact hchecked.trans hnumber.symm
    | reconnected he => exact absurd he hmade
    | reauthenticated he => exact absurd (he.symm.trans (madeByReauth_eq_false hmade)) (by decide)

theorem Sound.effect {w : Workio threads} (h : Sound env w) {effect : Effect}
    {pending : List Effect} {miner : Miner threads}
    (hpending : w.system.pending = effect :: pending)
    (step : minerStep env cfg.gate w.system.miner (minerEvent threads effect) = some miner) :
    Sound env (w.after env .effect { w.system with miner, pending }) := by
  have hrest : ∀ heap epoch sctx, .publish heap epoch sctx ∈ pending →
      Stamped w.system.session w.reauths epoch
        (sctx.curl.map fun connection => ⟨connection, w.reauths⟩) := by
    intro heap epoch sctx hmem
    exact h.pending heap epoch sctx (by rw [hpending]; exact List.mem_cons_of_mem _ hmem)
  cases effect with
  | stratumDown | restartThreads | dropJob =>
      obtain rfl := Option.some.inj step
      simp only [Workio.after, hpending]
      refine ⟨h.opt, h.curl, hrest, h.scans, fun epoch origin held => h.held epoch origin ?_,
        h.checked⟩
      exact held.same rfl rfl (fun _ => rfl) rfl rfl rfl rfl fun _ => id
  | publish heap epoch sctx =>
      obtain ⟨built, hbuilt, rfl⟩ := Option.map_eq_some_iff.mp step
      obtain ⟨jobId, hjobId, rfl⟩ := stratumGenWork_eq_some hbuilt
      obtain ⟨hgWork, hthread⟩ := w.system.miner.publish_gWork
        (buildWork cfg.gate heap epoch sctx jobId) sctx.newJob
      have hepoch : (w.system.miner.publish (buildWork cfg.gate heap epoch sctx jobId)
          sctx.newJob).gWork.reauthEpoch = epoch := by rw [hgWork, buildWork]
      simp only [Workio.after, hpending]
      refine ⟨h.opt, h.curl, hrest, fun t => ?_, fun epoch' origin held => ?_, h.checked⟩
      · rw [hthread]
        exact h.scans t
      · cases held with
        | gWork =>
            rw [hepoch]
            exact h.pending heap epoch sctx (by rw [hpending]; exact List.mem_cons_self)
        | thread t =>
            rw [hthread]
            exact h.held _ _ (.thread t)
        | found hmem => exact h.held _ _ (.found hmem)
        | tagged htagged => exact h.held _ _ (.tagged htagged)
        | queued hmem => exact h.held _ _ (.queued hmem)
        | cmd hpc => exact h.held _ _ (.cmd hpc)

theorem Sound.moved {w : Workio threads} (h : Sound env w) (t : Fin threads) {thread' : Thread}
    (restart : Fin threads → Bool) (hscans : thread'.Scans env) (origin' : Option Origin)
    (found' : List Share) (hthread : Held w thread'.work.reauthEpoch origin')
    (hfound : ∀ share ∈ found', Held w share.work.reauthEpoch share.origin) :
    Sound env { w with
      system := { w.system with miner := { w.system.miner with
        thread := Function.update w.system.miner.thread t thread', restart } }
      origin := Function.update w.origin t origin'
      found := Function.update w.found t found' } := by
  refine ⟨h.opt, h.curl, h.pending, ?_, fun epoch origin held => h.held _ _ ?_, h.checked⟩
  · exact (Function.forall_update_iff _ fun _ (thread : Thread) => thread.Scans env).mpr
      ⟨hscans, fun u _ => h.scans u⟩
  · cases held with
    | gWork => exact .gWork
    | thread u =>
        show Held w (Function.update w.system.miner.thread t thread' u).work.reauthEpoch
          (Function.update w.origin t origin' u)
        by_cases hu : u = t
        · subst hu
          rwa [Function.update_self, Function.update_self]
        · rw [Function.update_of_ne hu, Function.update_of_ne hu]
          exact .thread u
    | @found u share hmem =>
        replace hmem : share ∈ Function.update w.found t found' u := hmem
        by_cases hu : u = t
        · subst hu
          rw [Function.update_self] at hmem
          exact hfound share hmem
        · rw [Function.update_of_ne hu] at hmem
          exact .found hmem
    | tagged htagged => exact .tagged htagged
    | queued hmem => exact .queued hmem
    | cmd hpc => exact .cmd hpc

theorem Sound.quiet {w : Workio threads} (h : Sound env w) {t : Fin threads} {thread' : Thread}
    {restart : Fin threads → Bool} (hscans : thread'.Scans env)
    (hepoch : thread'.work.reauthEpoch = (w.system.miner.thread t).work.reauthEpoch) :
    Sound env { w with system := { w.system with miner := { w.system.miner with
      thread := Function.update w.system.miner.thread t thread', restart } } } := by
  have moved := h.moved t restart hscans (w.origin t) (w.found t)
    (by rw [hepoch]; exact .thread t) fun share hmem => .found hmem
  rwa [Function.update_eq_self, Function.update_eq_self] at moved

theorem Sound.hash {w : Workio threads} (h : Sound env w) {t : Fin threads} {thread' : Thread}
    {restart : Fin threads → Bool} (hscans : thread'.Scans env)
    (hepoch : thread'.work.reauthEpoch = (w.system.miner.thread t).work.reauthEpoch) :
    Sound env (w.after env (.thread t .hash) { w.system with miner := { w.system.miner with
      thread := Function.update w.system.miner.thread t thread', restart } }) := by
  have moved := h.moved t restart hscans (w.origin t)
    ((foundBy env (w.system.miner.thread t)).map fun work => ⟨work, w.origin t⟩)
    (by rw [hepoch]; exact .thread t) ?_
  · rwa [Function.update_eq_self] at moved
  · intro share hmem
    obtain ⟨work, hwork, rfl⟩ := List.mem_map.mp hmem
    rw [foundBy_epoch (h.scans t) hwork]
    exact .thread t

theorem Sound.thread {w : Workio threads} (h : Sound env w) {t : Fin threads} {e : ThreadEvent}
    {thread' : Thread} {restart : Fin threads → Bool}
    (step : ThreadStep env threads t w.system.miner.stratumDown (w.system.miner.restart t)
      w.system.miner.gWork w.system.miner.window (w.system.miner.thread t) e thread') :
    Sound env (w.after env (.thread t e) { w.system with miner := { w.system.miner with
      thread := Function.update w.system.miner.thread t thread', restart } }) := by
  have hscans := step.scans (h.scans t)
  cases step with
  | copy hphase hready hcopy =>
      simp only [Workio.after, hcopy, if_true]
      have moved := h.moved t restart hscans w.gOrigin (w.found t) .gWork
        fun share hmem => .found hmem
      rwa [Function.update_eq_self t w.found] at moved
  | keep hphase hkeep =>
      simp only [Workio.after, hkeep]
      exact h.quiet hscans rfl
  | round | tail => exact h.hash hscans rfl
  | begin | pass | skip | scan | enter | leave | enterTail | finish => exact h.quiet hscans rfl

/-- A step of the workio thread with the share it has, or with none. -/
theorem Sound.goto {w : Workio threads} (h : Sound env w) (pc : WorkioPc)
    (hcmd : ∀ wc, pc.cmd = some wc → w.pc.cmd = some wc)
    (hchecked : ∀ wc, pc = .checked wc → ∀ built ∈ wc.share.origin,
      built.connection + 1 = w.system.session.connections) : Sound env { w with pc } :=
  ⟨h.opt, h.curl, h.pending, h.scans, fun _ _ held => h.held _ _
    (held.same rfl rfl (fun _ => rfl) rfl rfl rfl rfl hcmd), hchecked⟩

theorem Sound.check {w : Workio threads} (h : Sound env w) {pc : WorkioPc}
    (hcmd : w.pc.cmd = pc.cmd) (drops : Prop) [Decidable drops]
    (hchecked : ¬ drops → ∀ wc, pc = .checked wc → ∀ built ∈ wc.share.origin,
      built.connection + 1 = w.system.session.connections) :
    Sound env { w with pc := if drops then .idle else pc } := by
  split
  · exact h.goto _ nofun nofun
  · rename_i hpasses
    exact h.goto _ (fun _ hwc => hcmd.trans hwc) (hchecked hpasses)

theorem Sound.tag {w : Workio threads} (h : Sound env w) {t : Fin threads} {share : Share}
    {shares : List Share} {epochToken : Nat} (hfound : w.found t = share :: shares) :
    Sound env { w with
      found := Function.update w.found t shares
      tagged := Function.update w.tagged t (some ⟨share, epochToken⟩) } := by
  refine ⟨h.opt, h.curl, h.pending, h.scans, fun _ _ held => h.held _ _ ?_, h.checked⟩
  cases held with
  | gWork => exact .gWork
  | thread u => exact .thread u
  | @found u _ hmem =>
      replace hmem : _ ∈ Function.update w.found t shares u := hmem
      by_cases hu : u = t
      · subst hu
        rw [Function.update_self] at hmem
        exact .found (by rw [hfound]; exact List.mem_cons_of_mem _ hmem)
      · rw [Function.update_of_ne hu] at hmem
        exact .found hmem
  | @tagged u wc hwc =>
      replace hwc : Function.update w.tagged t (some ⟨share, epochToken⟩) u = some wc := hwc
      by_cases hu : u = t
      · subst hu
        rw [Function.update_self] at hwc
        obtain rfl := Option.some.inj hwc
        exact .found (by rw [hfound]; exact List.mem_cons_self)
      · rw [Function.update_of_ne hu] at hwc
        exact .tagged hwc
  | queued hmem => exact .queued hmem
  | cmd hpc => exact .cmd hpc

theorem Sound.push {w : Workio threads} (h : Sound env w) {t : Fin threads} {wc : WorkioCmd}
    (htagged : w.tagged t = some wc) :
    Sound env { w with tagged := Function.update w.tagged t none, queue := w.queue ++ [wc] } := by
  refine ⟨h.opt, h.curl, h.pending, h.scans, fun _ _ held => h.held _ _ ?_, h.checked⟩
  cases held with
  | gWork => exact .gWork
  | thread u => exact .thread u
  | found hmem => exact .found hmem
  | @tagged u wc' hwc =>
      replace hwc : Function.update w.tagged t none u = some wc' := hwc
      by_cases hu : u = t
      · subst hu
        rw [Function.update_self] at hwc
        contradiction
      · rw [Function.update_of_ne hu] at hwc
        exact .tagged hwc
  | queued hmem =>
      rcases List.mem_append.mp hmem with hmem | hmem
      · exact .queued hmem
      · obtain rfl := List.mem_singleton.mp hmem
        exact .tagged htagged
  | cmd hpc => exact .cmd hpc

theorem Sound.pop {w : Workio threads} (h : Sound env w) {wc : WorkioCmd} {queue : List WorkioCmd}
    (hqueue : w.queue = wc :: queue) : Sound env { w with pc := .popped wc, queue } := by
  refine ⟨h.opt, h.curl, h.pending, h.scans, fun _ _ held => h.held _ _ ?_, nofun⟩
  cases held with
  | gWork => exact .gWork
  | thread u => exact .thread u
  | found hmem => exact .found hmem
  | tagged hwc => exact .tagged hwc
  | queued hmem => exact .queued (by rw [hqueue]; exact List.mem_cons_of_mem _ hmem)
  | cmd hpc =>
      obtain rfl := Option.some.inj hpc
      exact .queued (by rw [hqueue]; exact List.mem_cons_self)

theorem Sound.step {w w' : Workio threads} {e : WorkioEvent threads} (h : Sound env w)
    (current : ChecksCurrent w e) (taken : workioStep env cfg w e = some w') : Sound env w' := by
  cases e with
  | system e =>
      rw [workioStep] at taken
      split at taken
      · obtain ⟨system', hsystem, rfl⟩ := Option.map_eq_some_iff.mp taken
        cases systemStep_cases hsystem with
        | @net e after hpending step => exact h.net current (sessionStep_cases step)
        | effect hpending step => exact h.effect hpending step
        | thread step =>
            obtain ⟨thread', hstep, rfl⟩ := minerStep_thread step
            exact h.thread hstep
      · contradiction
  | tag t =>
      rw [workioStep] at taken
      split at taken
      · rename_i share shares hfound htagged
        exact Option.some.inj taken ▸ h.tag hfound
      · contradiction
  | push t =>
      obtain ⟨wc, htagged, rfl⟩ := Option.map_eq_some_iff.mp taken
      exact h.push htagged
  | pop =>
      rw [workioStep] at taken
      split at taken
      · rename_i wc queue hpc hqueue
        exact Option.some.inj taken ▸ h.pop hqueue
      · contradiction
  | checkToken =>
      rw [workioStep] at taken
      split at taken
      · rename_i wc hpc
        obtain rfl := Option.some.inj taken
        exact h.check (by rw [hpc]; rfl) _ fun _ => nofun
      · contradiction
  | checkSuspended =>
      rw [workioStep] at taken
      split at taken
      · rename_i wc hpc
        obtain rfl := Option.some.inj taken
        exact h.check (by rw [hpc]; rfl) _ fun _ => nofun
      · contradiction
  | checkEpoch =>
      rw [workioStep] at taken
      split at taken
      · rename_i wc hpc
        obtain rfl := Option.some.inj taken
        refine h.check (by rw [hpc]; rfl) _ ?_
        rintro hepoch wc ⟨⟩ built hmem
        have stamped := h.held _ _ (.cmd (by rw [hpc]; rfl))
        rw [ChecksCurrent, hpc] at current
        have hreauths := current.resolve_left hepoch built hmem
        exact (stamped.current (Nat.le_antisymm stamped.epoch_le (Nat.le_of_not_lt hepoch)) built
          hmem hreauths).1
      · contradiction
  | send =>
      rw [workioStep] at taken
      split at taken
      · obtain rfl := Option.some.inj taken
        exact h.goto _ nofun nofun
      · contradiction

/-- In a run whose checks find the current session no share goes out on another connection
than the one its work was built for. -/
theorem sends_own_session {trace : List (Workio threads × WorkioEvent threads)}
    {w : Workio threads} (run : Run (workioStep env cfg) (.init threads) trace w)
    (current : Steps ChecksCurrent trace) : Steps SendsOwnSession trace := by
  refine run.steps_of_steps (Sound env) (sound_init env)
    (fun _ _ _ h current taken => h.step current taken) ?_ current
  intro w e w' h _ _
  cases e with
  | send =>
      intro wc hpc built hmem connection hcurl
      have hbuilt := h.checked wc hpc built hmem
      have hopen := h.curl connection hcurl
      omega
  | _ => trivial

end

instance {threads : Nat} (w : Workio threads) (e : WorkioEvent threads) :
    Decidable (ChecksCurrent w e) :=
  match e with
  | .checkEpoch =>
      match hpc : w.pc with
      | .resumed wc =>
          decidable_of_iff (wc.share.work.reauthEpoch < w.system.session.reauthEpoch ∨
            ∀ origin ∈ wc.share.origin, origin.reauths = w.reauths) (by rw [ChecksCurrent, hpc])
      | .idle | .popped _ | .fresh _ | .checked _ => isTrue (by rw [ChecksCurrent, hpc]; trivial)
  | .system (.net (.connect true)) =>
      match hpc : w.pc with
      | .checked _ => isFalse (by rw [ChecksCurrent, hpc]; exact id)
      | .idle | .popped _ | .fresh _ | .resumed _ => isTrue (by rw [ChecksCurrent, hpc]; trivial)
  | .system (.net (.connect false)) | .system (.net .tau) | .system (.net (.subscribe _ _)) |
    .system (.net (.line _)) | .system (.net (.recvFailure _ _)) | .system (.net .timeout) |
    .system (.net (.keepalive _)) | .system (.net (.genWork _)) | .system (.net (.exhausted _)) |
    .system .effect | .system (.thread _ _) | .tag _ | .push _ | .pop | .checkToken |
    .checkSuspended | .send => instDecidableTrue

def WorkioPc.sending : WorkioPc → Option WorkioCmd
  | .checked wc => some wc
  | _ => none

def queuedEvents : List (WorkioEvent 1) :=
  (firstJobEvents 0 ++ aboutToHash 0 ++ [SystemEvent.thread 0 .hash]).map .system ++
    [.tag 0, .push 0]

def checkEvents : List (WorkioEvent 1) := [.pop, .checkToken, .checkSuspended, .checkEpoch]

def timeoutEvents : List (SystemEvent 1) :=
  [.net .tau, .net .tau, .net .timeout] ++ settledStep .tau 1 ++
    [.net (.connect true), .net (.subscribe subscription (.none false))] ++
    settledStep (.line (resultLine 2 (.bool true))) 1 ++ [.net .tau]

theorem sends_own_session_share :
    ∃ (trace : List (Workio 1 × WorkioEvent 1)) (w : Workio 1),
      Run (workioStep .plain easyConfig) (.init 1) trace w ∧
        (trace.map Prod.snd).head? = some .send ∧ Steps SendsOwnSession trace := by
  have hexec : (exec (guarded (workioStep .plain easyConfig) ChecksCurrent) (.init 1)
      (queuedEvents ++ checkEvents ++ [.send])).isSome = true := by decide +kernel
  obtain ⟨w, hw⟩ := Option.isSome_iff_exists.mp hexec
  obtain ⟨trace, run, hevents⟩ := Run.start.exec hw
  obtain ⟨run', current⟩ := run.of_guarded
  refine ⟨trace, w, run', ?_, sends_own_session run' current⟩
  rw [hevents]
  rfl

/-- The epoch is not raised after a timeout, and the share of the first session goes out in
the second. -/
theorem sent_in_later_session : ¬ ∀ (threads : Nat) (env : ScanEnv) (cfg : Config)
    (trace : List (Workio threads × WorkioEvent threads)) (w : Workio threads),
    Run (workioStep env cfg) (.init threads) trace w → Steps SendsOwnSession trace := by
  intro h
  have hexec : (exec (workioStep .plain easyConfig) (.init 1)
      (queuedEvents ++ timeoutEvents.map .system ++ checkEvents)).map
      (fun w => (w.pc.sending.map fun wc => wc.share.origin.map (·.connection),
        w.system.session.ctx.curl)) = some (some (some 0), some 1) := by decide +kernel
  obtain ⟨w, hw, hstate⟩ := Option.map_eq_some_iff.mp hexec
  obtain ⟨hsending, hcurl⟩ := Prod.mk.inj hstate
  obtain ⟨wc, hwc, horigin⟩ := Option.map_eq_some_iff.mp hsending
  obtain ⟨built, hbuilt, hconnection⟩ := Option.map_eq_some_iff.mp horigin
  have hpc : w.pc = .checked wc := by
    cases hw' : w.pc <;> rw [hw'] at hwc <;> cases hwc
    rfl
  obtain ⟨trace, run, -⟩ := Run.start.exec hw
  have taken : workioStep .plain easyConfig w .send = some { w with pc := .idle } := by
    rw [workioStep, hpc]
  have sends := h 1 .plain easyConfig _ _ (run.next taken) _ List.mem_cons_self
  have heq := sends wc hpc built hbuilt 1 hcurl
  rw [hconnection] at heq
  contradiction

end SojCivicLight.Mining
