import SojCivicLight.Stratum.Extranonce

/-! The stratum thread: its loop, `stratum_handle_response` and `stratum_reauthenticate`, with
a step for each wait and for each write that another thread can see between two others. -/

namespace SojCivicLight.Stratum

structure Config where
  opts : Options
  gate : Gate
  /-- the url, the user and the password are there -/
  validArgs : Bool
  optRetries : Option Nat
  optStratumKeepalive : Bool

inductive Stage where
  | connect
  | subscribe
  | authorize
  /-- the subscription to extranonce changes -/
  | extranonce
deriving DecidableEq

/-- The call sites of `stratum_reauthenticate`. -/
inductive Caller where
  | jsonError
  | poolError
  | recvFailure
  | timeout
  | keepalive
deriving DecidableEq

inductive Pc where
  | top
  | loopHead
  | reconnect (stage : Stage)
  | prime
  | wait
  | response (val : Option Json)
  | reauthenticate (caller : Caller)
  | reauth (caller : Caller) (stage : Stage) (retryCount : Nat)
  | resume (caller : Caller)
  | returned (caller : Caller) (ret : Bool)
  | after
  | newJobCheck
  | genWork (priming : Bool)
  | out
  | crashed

/-- What a handshake has achieved, and on which connection. -/
inductive Act where
  | disconnect
  | completed (stage : Stage) (connection : Option Nat)
deriving DecidableEq

structure Session where
  ctx : StratumCtx
  pc : Pc
  stratumNeedReset : Bool
  reauthInProgress : Bool
  solutionSubmissionSuspended : Bool
  miningSuspendedForNewJob : Bool
  preReauthJobId : CStr
  reauthEpoch : Nat
  optExtranonce : Bool
  failures : Nat
  recvFailures : Nat
  consecutiveIncorrectCycleErrors : Nat
  /-- how many connections have been made -/
  connections : Nat
  /-- the connection whose authorization was accepted last -/
  authorised : Option Nat
  /-- what has been done since the last call of `stratum_reauthenticate`, latest first -/
  acts : List Act

inductive NetEvent where
  | tau
  | connect (ok : Bool)
  | subscribe (reply retry : Received (Option Json))
  | line (line : Line)
  /-- `elapsed`: more than five minutes after the last one -/
  | recvFailure (closed elapsed : Bool)
  | timeout
  | keepalive (due : Bool)
  | genWork (heap : Heap)
  /-- a mining thread has used up its nonces -/
  | exhausted (heap : Heap)

/-- What the mining threads see of a step. -/
inductive Effect where
  | stratumDown (down : Bool)
  | restartThreads
  | dropJob
  | publish (heap : Heap) (reauthEpoch : Nat) (sctx : StratumCtx)

inductive ResponseError where
  | none
  | notString
  | duplicate
  | incorrectCycle
  | stale
deriving DecidableEq

def responseError (val : Option Json) : ResponseError :=
  match jsonObjectGet (jsonObjectGet val (cstr "error")) (cstr "message") with
  | none => .none
  | some message =>
      match jsonStringValue (some message) with
      | none => .notString
      | some errorMsg =>
          if strstr errorMsg (cstr "stale") || strstr errorMsg (cstr "incorrect cycle") ||
              strstr errorMsg (cstr "job not found") then
            if strstr errorMsg (cstr "duplicate") then .duplicate
            else if strstr errorMsg (cstr "incorrect cycle") then .incorrectCycle
            else .stale
          else .none

def shareAccepted (val : Option Json) : Bool :=
  4 ≤ jsonIntegerValue (jsonObjectGet val (cstr "id")) &&
    jsonIsTrue (jsonObjectGet val (cstr "result"))

/-- `strncpy` into an array of 64 with the last byte zeroed. -/
def recordedJobId (sctx : StratumCtx) : CStr := (sctx.job.jobId.getD []).take 63

inductive Progress where
  | next (stage : Stage)
  | done
  | failed
deriving DecidableEq

namespace Session

def init (optExtranonce : Bool) : Session where
  ctx := .init
  pc := .top
  stratumNeedReset := false
  reauthInProgress := false
  solutionSubmissionSuspended := false
  miningSuspendedForNewJob := false
  preReauthJobId := []
  reauthEpoch := 0
  optExtranonce
  failures := 0
  recvFailures := 0
  consecutiveIncorrectCycleErrors := 0
  connections := 0
  authorised := none
  acts := []

def goto (s : Session) (pc : Pc) : Session := { s with pc }

def setCtx (s : Session) (ctx : StratumCtx) : Session := { s with ctx }

def disconnect (s : Session) : Session := s.setCtx (stratumDisconnect s.ctx)

def completed (s : Session) (stage : Stage) : Session :=
  { s with acts := .completed stage s.ctx.curl :: s.acts }

/-- One answer of the network within a stage. -/
def stageStep (opts : Options) (s : Session) : Stage → NetEvent → Option (Session × Progress)
  | .connect, .connect true =>
      let s := { s with
        ctx := stratumConnect s.ctx s.connections true, connections := s.connections + 1 }
      some (s.completed .connect, .next .subscribe)
  | .connect, .connect false =>
      some (s.setCtx (stratumConnect s.ctx s.connections false), .failed)
  | .subscribe, .subscribe reply retry =>
      let subscribed := stratumSubscribe s.ctx reply retry
      let s := s.setCtx subscribed.1
      if subscribed.2 then some (s.completed .subscribe, .next .authorize) else some (s, .failed)
  | .authorize, .line line =>
      if s.ctx.curl.isNone then none
      else
        let handled := stratumHandleMethod opts s.ctx line
        let s := s.setCtx handled.1
        if handled.2 then some (s, .next .authorize)
        else if authorizeReply line.val then
          some ({ s.completed .authorize with authorised := s.ctx.curl },
            if s.optExtranonce then .next .extranonce else .done)
        else some (s, .failed)
  | .authorize, .recvFailure closed _ => some (s.setCtx (recvFailed s.ctx closed), .failed)
  | .extranonce, .line line =>
      if s.ctx.curl.isNone then none
      else if jsonIntegerValue (jsonObjectGet line.val (cstr "id")) = 3 then some (s, .done)
      else some (s.setCtx (stratumHandleMethod opts s.ctx line).1, .done)
  | .extranonce, .timeout => some ({ s with optExtranonce := false }, .done)
  | .extranonce, .recvFailure closed _ => some (s.setCtx (recvFailed s.ctx closed), .done)
  | _, _ => none

/-- `while (!stratum.curl)` after an answer. -/
def reconnectProgress (cfg : Config) (s : Session) : Progress → Session × List Effect
  | .next stage => (s.goto (.reconnect stage), [])
  | .done => (s.goto .prime, [])
  | .failed =>
      let s := s.disconnect
      match cfg.optRetries with
      | none => (s.goto .loopHead, [])
      | some optRetries =>
          let s := { s with failures := s.failures + 1 }
          if optRetries < s.failures then (s.goto .out, [])
          else (s.goto .loopHead, if 3 ≤ s.failures then [.restartThreads] else [])

/-- The retry loops of `stratum_reauthenticate` after an answer. -/
def reauthProgress (s : Session) (caller : Caller) (stage : Stage) (retryCount : Nat) :
    Progress → Session × List Effect
  | .next next =>
      (s.goto (.reauth caller next (if next = stage then retryCount else 0)), [])
  | .done => ({ s with reauthInProgress := false, pc := .resume caller }, [.stratumDown false])
  | .failed =>
      if retryCount + 1 < 3 then (s.goto (.reauth caller stage (retryCount + 1)), [])
      else if stage = .connect then (s.goto (.returned caller false), [])
      else (s.disconnect.goto (.returned caller false), [])

/-- The call, from its checks to the disconnection. -/
def reauthenticate (cfg : Config) (s : Session) (caller : Caller) : Session × List Effect :=
  if !cfg.validArgs then ({ s with acts := [], pc := .returned caller false }, [])
  else if s.reauthInProgress then ({ s with acts := [], pc := .returned caller true }, [])
  else
    ({ s with
        reauthInProgress := true
        solutionSubmissionSuspended := true
        preReauthJobId := recordedJobId s.ctx
        ctx := stratumDisconnect s.ctx
        acts := [.disconnect]
        pc := .reauth caller .connect 0 },
      [.stratumDown true])

/-- What each call site does with the result. -/
def callerStep (s : Session) : Caller → Bool → Session × List Effect
  | .jsonError, ret | .keepalive, ret =>
      ({ s with stratumNeedReset := s.stratumNeedReset || !ret }, [])
  | .poolError, false =>
      ({ s with stratumNeedReset := true, consecutiveIncorrectCycleErrors := 0 }, [])
  | .poolError, true =>
      ({ s with
          reauthEpoch := s.reauthEpoch + 1, consecutiveIncorrectCycleErrors := 0 },
        [.restartThreads])
  | .recvFailure, false | .timeout, false =>
      ({ s with solutionSubmissionSuspended := false, stratumNeedReset := true }, [])
  | .recvFailure, true => ({ s with recvFailures := 0 }, [])
  | .timeout, true => (s, [])

def afterCall : Caller → Pc
  | .keepalive => .newJobCheck
  | _ => .after

def returned (s : Session) (caller : Caller) (ret : Bool) : Session × List Effect :=
  let called := s.callerStep caller ret
  (called.1.goto (afterCall caller), called.2)

/-- The end of a response without a call. -/
def shareStep (s : Session) (val : Option Json) : Session :=
  if shareAccepted val then { s with consecutiveIncorrectCycleErrors := 0, pc := .after }
  else s.goto .after

def stratumHandleResponse (s : Session) (val : Option Json) : Session × List Effect :=
  let idVal := jsonObjectGet val (cstr "id")
  if val.isNone then (s.goto (.reauthenticate .jsonError), [])
  else if idVal.isNone || jsonIsNull idVal then (s.goto .after, [])
  else
    match responseError val with
    | .notString => (s.goto .crashed, [])
    | .duplicate => (s.goto .after, [])
    | .none => (s.shareStep val, [])
    | .stale =>
        ({ s with consecutiveIncorrectCycleErrors := 0, pc := .reauthenticate .poolError }, [])
    | .incorrectCycle =>
        let s := { s with
          consecutiveIncorrectCycleErrors := s.consecutiveIncorrectCycleErrors + 1 }
        if 2 < s.consecutiveIncorrectCycleErrors then
          ({ s with miningSuspendedForNewJob := true, pc := .reauthenticate .poolError },
            [.restartThreads])
        else (s.shareStep val, [])

def recvFailureStep (s : Session) (closed elapsed : Bool) : Session × List Effect :=
  let s := { s with
    ctx := recvFailed s.ctx closed
    recvFailures := (if elapsed then 0 else s.recvFailures) + 1 }
  if 3 ≤ s.recvFailures then
    ({ s with recvFailures := 0, stratumNeedReset := true, pc := .after }, [.restartThreads])
  else (s.goto (.reauthenticate .recvFailure), [])

/-- A call of `stratum_gen_work`, which crashes without a job id. -/
def callGenWork (cfg : Config) (s : Session) (heap : Heap) (pc : Pc) : Session × List Effect :=
  match stratumGenWork cfg.gate heap s.reauthEpoch s.ctx with
  | none => (s.goto .crashed, [])
  | some built => ((s.setCtx built.1).goto pc, [.publish heap s.reauthEpoch s.ctx])

end Session

open Session in
/-- A step of the stratum thread, or a call of `stratum_gen_work` by a mining thread. -/
def sessionStep (cfg : Config) (s : Session) (e : NetEvent) : Option (Session × List Effect) :=
  match s.pc, e with
  | .crashed, _ => none
  | pc, .exhausted heap => if s.optExtranonce then some (s.callGenWork cfg heap pc) else none
  | .top, .tau =>
      if s.stratumNeedReset then
        some ({ s.disconnect with stratumNeedReset := false, failures := 0, pc := .loopHead },
          [.stratumDown true, .dropJob, .restartThreads])
      else some ({ s with failures := 0, pc := .loopHead }, [])
  | .loopHead, .tau =>
      if s.ctx.curl.isSome then some (s.goto .wait, [])
      else some ({ s with reauthEpoch := s.reauthEpoch + 1, pc := .reconnect .connect },
        [.stratumDown true, .restartThreads])
  | .reconnect stage, e =>
      (s.stageStep cfg.opts stage e).map fun answered =>
        answered.1.reconnectProgress cfg answered.2
  | .prime, .tau =>
      if s.ctx.newJob then some (s.goto (.genWork true), [.stratumDown false])
      else some (s.goto .loopHead, [])
  | .wait, .line line =>
      let handled := stratumHandleMethod cfg.opts s.ctx line
      some ((s.setCtx handled.1).goto (if handled.2 then .after else .response line.val),
        [.stratumDown false])
  | .wait, .recvFailure closed elapsed => some (s.recvFailureStep closed elapsed)
  | .wait, .timeout => some (s.goto (.reauthenticate .timeout), [])
  | .response val, .tau => some (s.stratumHandleResponse val)
  | .reauthenticate caller, .tau => some (s.reauthenticate cfg caller)
  | .reauth caller stage retryCount, e =>
      (s.stageStep cfg.opts stage e).map fun answered =>
        answered.1.reauthProgress caller stage retryCount answered.2
  | .resume caller, .tau =>
      some ({ s with solutionSubmissionSuspended := false, pc := .returned caller true }, [])
  | .returned caller ret, .tau => some (s.returned caller ret)
  | .after, .keepalive due =>
      if s.stratumNeedReset then some (s.goto .top, [])
      else if cfg.optStratumKeepalive && due then some (s.goto (.reauthenticate .keepalive), [])
      else some (s.goto .newJobCheck, [])
  | .newJobCheck, .tau =>
      if s.ctx.newJob && !s.stratumNeedReset then some (s.goto (.genWork false), [])
      else some (s.goto .top, [])
  | .genWork priming, .genWork heap =>
      some (s.callGenWork cfg heap (if priming then .loopHead else .top))
  | _, _ => none

/-- The steps without what the mining threads see of them. -/
def sessionNext (cfg : Config) (s : Session) (e : NetEvent) : Option Session :=
  (sessionStep cfg s e).map Prod.fst

/-! What a step can be. -/

inductive StageStep (opts : Options) (s : Session) :
    Stage → NetEvent → Session → Progress → Prop
  | connected :
      StageStep opts s .connect (.connect true)
        (Session.completed { s with
          ctx := stratumConnect s.ctx s.connections true, connections := s.connections + 1 }
          .connect)
        (.next .subscribe)
  | notConnected :
      StageStep opts s .connect (.connect false)
        (s.setCtx (stratumConnect s.ctx s.connections false)) .failed
  | subscribed {reply retry : Received (Option Json)}
      (hret : (stratumSubscribe s.ctx reply retry).2 = true) :
      StageStep opts s .subscribe (.subscribe reply retry)
        ((s.setCtx (stratumSubscribe s.ctx reply retry).1).completed .subscribe)
        (.next .authorize)
  | notSubscribed {reply retry : Received (Option Json)}
      (hret : (stratumSubscribe s.ctx reply retry).2 = false) :
      StageStep opts s .subscribe (.subscribe reply retry)
        (s.setCtx (stratumSubscribe s.ctx reply retry).1) .failed
  | method {line : Line} (hcurl : s.ctx.curl.isSome)
      (hret : (stratumHandleMethod opts s.ctx line).2 = true) :
      StageStep opts s .authorize (.line line)
        (s.setCtx (stratumHandleMethod opts s.ctx line).1) (.next .authorize)
  | authorized {line : Line} (hcurl : s.ctx.curl.isSome)
      (hret : (stratumHandleMethod opts s.ctx line).2 = false) :
      StageStep opts s .authorize (.line line)
        { (s.setCtx (stratumHandleMethod opts s.ctx line).1).completed .authorize with
          authorised := (stratumHandleMethod opts s.ctx line).1.curl }
        (if s.optExtranonce then .next .extranonce else .done)
  | refused {line : Line} (hcurl : s.ctx.curl.isSome)
      (hret : (stratumHandleMethod opts s.ctx line).2 = false) :
      StageStep opts s .authorize (.line line)
        (s.setCtx (stratumHandleMethod opts s.ctx line).1) .failed
  | notAuthorized {closed elapsed : Bool} :
      StageStep opts s .authorize (.recvFailure closed elapsed)
        (s.setCtx (recvFailed s.ctx closed)) .failed
  | extranonceReply {line : Line} (hcurl : s.ctx.curl.isSome)
      (hid : jsonIntegerValue (jsonObjectGet line.val (cstr "id")) = 3) :
      StageStep opts s .extranonce (.line line) s .done
  | extranonceMethod {line : Line} (hcurl : s.ctx.curl.isSome)
      (hid : jsonIntegerValue (jsonObjectGet line.val (cstr "id")) ≠ 3) :
      StageStep opts s .extranonce (.line line)
        (s.setCtx (stratumHandleMethod opts s.ctx line).1) .done
  | extranonceTimeout :
      StageStep opts s .extranonce .timeout { s with optExtranonce := false } .done
  | extranonceFailed {closed elapsed : Bool} :
      StageStep opts s .extranonce (.recvFailure closed elapsed)
        (s.setCtx (recvFailed s.ctx closed)) .done

theorem stageStep_cases {opts : Options} {s s' : Session} {stage : Stage} {e : NetEvent}
    {progress : Progress} (h : s.stageStep opts stage e = some (s', progress)) :
    StageStep opts s stage e s' progress := by
  rw [Session.stageStep.eq_def] at h
  split at h
  · cases h
    exact .connected
  · cases h
    exact .notConnected
  · dsimp only at h
    split at h
    · rename_i hret
      cases h
      exact .subscribed hret
    · rename_i hret
      cases h
      exact .notSubscribed (Bool.eq_false_iff.mpr hret)
  · split at h
    · contradiction
    · rename_i hcurl
      rw [Bool.not_eq_true, Option.isNone_eq_false_iff] at hcurl
      dsimp only at h
      split at h
      · rename_i hret
        cases h
        exact .method hcurl hret
      · rename_i hret
        rw [Bool.not_eq_true] at hret
        split at h
        · cases h
          exact .authorized hcurl hret
        · cases h
          exact .refused hcurl hret
  · cases h
    exact .notAuthorized
  · split at h
    · contradiction
    · rename_i hcurl
      rw [Bool.not_eq_true, Option.isNone_eq_false_iff] at hcurl
      split at h
      · rename_i hid
        cases h
        exact .extranonceReply hcurl hid
      · rename_i hid
        cases h
        exact .extranonceMethod hcurl hid
  · cases h
    exact .extranonceTimeout
  · cases h
    exact .extranonceFailed
  · contradiction

/-- The calls of `stratum_gen_work`, with where the stratum thread is after them. -/
inductive CallsGenWork (s : Session) : NetEvent → Heap → Pc → Prop
  | priming {heap : Heap} (hpc : s.pc = .genWork true) :
      CallsGenWork s (.genWork heap) heap .loopHead
  | newJob {heap : Heap} (hpc : s.pc = .genWork false) :
      CallsGenWork s (.genWork heap) heap .top
  | exhausted {heap : Heap} (hpc : s.pc ≠ .crashed) (hopt : s.optExtranonce = true) :
      CallsGenWork s (.exhausted heap) heap s.pc

inductive SessionStep (cfg : Config) (s : Session) : NetEvent → Session × List Effect → Prop
  | genWork {e : NetEvent} {heap : Heap} {pc : Pc} {built : StratumCtx × Work × Bool}
      (call : CallsGenWork s e heap pc)
      (hbuilt : stratumGenWork cfg.gate heap s.reauthEpoch s.ctx = some built) :
      SessionStep cfg s e ((s.setCtx built.1).goto pc, [.publish heap s.reauthEpoch s.ctx])
  | noJobId {e : NetEvent} {heap : Heap} {pc : Pc} (call : CallsGenWork s e heap pc)
      (hjob : s.ctx.job.jobId = none) : SessionStep cfg s e (s.goto .crashed, [])
  | reset (hpc : s.pc = .top) (hreset : s.stratumNeedReset = true) :
      SessionStep cfg s .tau
        ({ s.disconnect with stratumNeedReset := false, failures := 0, pc := .loopHead },
          [.stratumDown true, .dropJob, .restartThreads])
  | begin (hpc : s.pc = .top) (hreset : s.stratumNeedReset = false) :
      SessionStep cfg s .tau ({ s with failures := 0, pc := .loopHead }, [])
  | connected (hpc : s.pc = .loopHead) (hcurl : s.ctx.curl.isSome) :
      SessionStep cfg s .tau (s.goto .wait, [])
  | disconnected (hpc : s.pc = .loopHead) (hcurl : s.ctx.curl = none) :
      SessionStep cfg s .tau
        ({ s with reauthEpoch := s.reauthEpoch + 1, pc := .reconnect .connect },
          [.stratumDown true, .restartThreads])
  | reconnectNext {stage next : Stage} {e : NetEvent} {s' : Session}
      (hpc : s.pc = .reconnect stage)
      (answer : s.stageStep cfg.opts stage e = some (s', .next next)) :
      SessionStep cfg s e (s'.goto (.reconnect next), [])
  | reconnectDone {stage : Stage} {e : NetEvent} {s' : Session}
      (hpc : s.pc = .reconnect stage)
      (answer : s.stageStep cfg.opts stage e = some (s', .done)) :
      SessionStep cfg s e (s'.goto .prime, [])
  | reconnectFailed {stage : Stage} {e : NetEvent} {s' : Session} {failures : Nat} {pc : Pc}
      {effects : List Effect} (hpc : s.pc = .reconnect stage)
      (answer : s.stageStep cfg.opts stage e = some (s', .failed))
      (hout : pc = .loopHead ∨ pc = .out) (heffects : effects = [] ∨ effects = [.restartThreads]) :
      SessionStep cfg s e ({ s'.disconnect with failures, pc }, effects)
  | primed (hpc : s.pc = .prime) (hnew : s.ctx.newJob = true) :
      SessionStep cfg s .tau (s.goto (.genWork true), [.stratumDown false])
  | notPrimed (hpc : s.pc = .prime) (hnew : s.ctx.newJob = false) :
      SessionStep cfg s .tau (s.goto .loopHead, [])
  | line {line : Line} (hpc : s.pc = .wait) :
      SessionStep cfg s (.line line)
        ((s.setCtx (stratumHandleMethod cfg.opts s.ctx line).1).goto
          (if (stratumHandleMethod cfg.opts s.ctx line).2 then .after else .response line.val),
          [.stratumDown false])
  | banned {closed elapsed : Bool} (hpc : s.pc = .wait) :
      SessionStep cfg s (.recvFailure closed elapsed)
        ({ s with
            ctx := recvFailed s.ctx closed
            recvFailures := 0
            stratumNeedReset := true
            pc := .after },
          [.restartThreads])
  | interrupted {closed elapsed : Bool} {recvFailures : Nat} (hpc : s.pc = .wait) :
      SessionStep cfg s (.recvFailure closed elapsed)
        ({ s with
            ctx := recvFailed s.ctx closed
            recvFailures
            pc := .reauthenticate .recvFailure },
          [])
  | timeout (hpc : s.pc = .wait) :
      SessionStep cfg s .timeout (s.goto (.reauthenticate .timeout), [])
  | answered {val : Option Json} {errors : Nat} (hpc : s.pc = .response val) :
      SessionStep cfg s .tau
        ({ s with consecutiveIncorrectCycleErrors := errors, pc := .after }, [])
  | notString {val : Option Json} (hpc : s.pc = .response val) :
      SessionStep cfg s .tau (s.goto .crashed, [])
  | failing {val : Option Json} {caller : Caller} {errors : Nat} (hpc : s.pc = .response val)
      (hcaller : caller = .jsonError ∨ caller = .poolError) :
      SessionStep cfg s .tau
        ({ s with consecutiveIncorrectCycleErrors := errors, pc := .reauthenticate caller }, [])
  | paused {val : Option Json} {errors : Nat} (hpc : s.pc = .response val) :
      SessionStep cfg s .tau
        ({ s with
            consecutiveIncorrectCycleErrors := errors
            miningSuspendedForNewJob := true
            pc := .reauthenticate .poolError },
          [.restartThreads])
  | invalid {caller : Caller} (hpc : s.pc = .reauthenticate caller)
      (hvalid : cfg.validArgs = false) :
      SessionStep cfg s .tau ({ s with acts := [], pc := .returned caller false }, [])
  | skipped {caller : Caller} (hpc : s.pc = .reauthenticate caller)
      (hvalid : cfg.validArgs = true) (hprogress : s.reauthInProgress = true) :
      SessionStep cfg s .tau ({ s with acts := [], pc := .returned caller true }, [])
  | started {caller : Caller} (hpc : s.pc = .reauthenticate caller)
      (hvalid : cfg.validArgs = true) (hprogress : s.reauthInProgress = false) :
      SessionStep cfg s .tau
        ({ s with
            reauthInProgress := true
            solutionSubmissionSuspended := true
            preReauthJobId := recordedJobId s.ctx
            ctx := stratumDisconnect s.ctx
            acts := [.disconnect]
            pc := .reauth caller .connect 0 },
          [.stratumDown true])
  | reauthNext {caller : Caller} {stage next : Stage} {retryCount retryCount' : Nat}
      {e : NetEvent} {s' : Session} (hpc : s.pc = .reauth caller stage retryCount)
      (answer : s.stageStep cfg.opts stage e = some (s', .next next)) :
      SessionStep cfg s e (s'.goto (.reauth caller next retryCount'), [])
  | reauthDone {caller : Caller} {stage : Stage} {retryCount : Nat} {e : NetEvent}
      {s' : Session} (hpc : s.pc = .reauth caller stage retryCount)
      (answer : s.stageStep cfg.opts stage e = some (s', .done)) :
      SessionStep cfg s e
        ({ s' with reauthInProgress := false, pc := .resume caller }, [.stratumDown false])
  | retry {caller : Caller} {stage : Stage} {retryCount : Nat} {e : NetEvent} {s' : Session}
      (hpc : s.pc = .reauth caller stage retryCount) (hretry : retryCount + 1 < 3)
      (answer : s.stageStep cfg.opts stage e = some (s', .failed)) :
      SessionStep cfg s e (s'.goto (.reauth caller stage (retryCount + 1)), [])
  | noConnection {caller : Caller} {retryCount : Nat} {e : NetEvent} {s' : Session}
      (hpc : s.pc = .reauth caller .connect retryCount) (hretry : 3 ≤ retryCount + 1)
      (answer : s.stageStep cfg.opts .connect e = some (s', .failed)) :
      SessionStep cfg s e (s'.goto (.returned caller false), [])
  | noSession {caller : Caller} {stage : Stage} {retryCount : Nat} {e : NetEvent}
      {s' : Session} (hpc : s.pc = .reauth caller stage retryCount)
      (hretry : 3 ≤ retryCount + 1) (hstage : stage ≠ .connect)
      (answer : s.stageStep cfg.opts stage e = some (s', .failed)) :
      SessionStep cfg s e (s'.disconnect.goto (.returned caller false), [])
  | resumed {caller : Caller} (hpc : s.pc = .resume caller) :
      SessionStep cfg s .tau
        ({ s with solutionSubmissionSuspended := false, pc := .returned caller true }, [])
  | returned {caller : Caller} {ret : Bool} {called : Session × List Effect}
      (hpc : s.pc = .returned caller ret) (hcalled : s.callerStep caller ret = called) :
      SessionStep cfg s .tau (called.1.goto (Session.afterCall caller), called.2)
  | again {due : Bool} (hpc : s.pc = .after) (hreset : s.stratumNeedReset = true) :
      SessionStep cfg s (.keepalive due) (s.goto .top, [])
  | keepalive (hpc : s.pc = .after) (hreset : s.stratumNeedReset = false) :
      SessionStep cfg s (.keepalive true) (s.goto (.reauthenticate .keepalive), [])
  | alive {due : Bool} (hpc : s.pc = .after) (hreset : s.stratumNeedReset = false) :
      SessionStep cfg s (.keepalive due) (s.goto .newJobCheck, [])
  | newJob (hpc : s.pc = .newJobCheck) (hnew : s.ctx.newJob = true) :
      SessionStep cfg s .tau (s.goto (.genWork false), [])
  | noNewJob (hpc : s.pc = .newJobCheck)
      (hnew : s.stratumNeedReset = false → s.ctx.newJob = false) :
      SessionStep cfg s .tau (s.goto .top, [])

section

variable {cfg : Config} {s : Session}

theorem callGenWork_step {e : NetEvent} {heap : Heap} {pc : Pc}
    (call : CallsGenWork s e heap pc) : SessionStep cfg s e (s.callGenWork cfg heap pc) := by
  rw [Session.callGenWork]
  split
  · rename_i hnone
    exact .noJobId call (Option.map_eq_none_iff.mp hnone)
  · rename_i hbuilt
    exact .genWork call hbuilt

theorem reconnectProgress_step {stage : Stage} {e : NetEvent} {s' : Session}
    {progress : Progress} (hpc : s.pc = .reconnect stage)
    (answer : s.stageStep cfg.opts stage e = some (s', progress)) :
    SessionStep cfg s e (s'.reconnectProgress cfg progress) := by
  cases progress with
  | next next => exact .reconnectNext hpc answer
  | done => exact .reconnectDone hpc answer
  | failed =>
      rw [Session.reconnectProgress]
      dsimp only
      split
      · exact .reconnectFailed hpc answer (Or.inl rfl) (Or.inl rfl)
      · split
        · exact .reconnectFailed hpc answer (Or.inr rfl) (Or.inl rfl)
        · refine .reconnectFailed hpc answer (Or.inl rfl) ?_
          split
          · exact Or.inr rfl
          · exact Or.inl rfl

theorem reauthProgress_step {caller : Caller} {stage : Stage} {retryCount : Nat}
    {e : NetEvent} {s' : Session} {progress : Progress}
    (hpc : s.pc = .reauth caller stage retryCount)
    (answer : s.stageStep cfg.opts stage e = some (s', progress)) :
    SessionStep cfg s e (s'.reauthProgress caller stage retryCount progress) := by
  cases progress with
  | next next => exact .reauthNext hpc answer
  | done => exact .reauthDone hpc answer
  | failed =>
      rw [Session.reauthProgress]
      split
      · rename_i hretry
        exact .retry hpc hretry answer
      · rename_i hretry
        split
        · rename_i hstage
          subst hstage
          exact .noConnection hpc (Nat.le_of_not_lt hretry) answer
        · rename_i hstage
          exact .noSession hpc (Nat.le_of_not_lt hretry) hstage answer

theorem reauthenticate_step {caller : Caller} (hpc : s.pc = .reauthenticate caller) :
    SessionStep cfg s .tau (s.reauthenticate cfg caller) := by
  rw [Session.reauthenticate]
  split
  · rename_i hvalid
    exact .invalid hpc (by simpa using hvalid)
  · rename_i hvalid
    have hvalid : cfg.validArgs = true := by simpa using hvalid
    split
    · rename_i hprogress
      exact .skipped hpc hvalid hprogress
    · rename_i hprogress
      exact .started hpc hvalid (Bool.eq_false_iff.mpr hprogress)

theorem shareStep_step {val : Option Json} {errors : Nat} (hpc : s.pc = .response val) :
    SessionStep cfg s .tau
      (Session.shareStep { s with consecutiveIncorrectCycleErrors := errors } val, []) := by
  rw [Session.shareStep]
  split <;> exact .answered hpc

theorem handleResponse_step {val : Option Json} (hpc : s.pc = .response val) :
    SessionStep cfg s .tau (s.stratumHandleResponse val) := by
  rw [Session.stratumHandleResponse]
  dsimp only
  split
  · exact .failing hpc (Or.inl rfl)
  · split
    · exact .answered hpc
    · split
      · exact .notString hpc
      · exact .answered hpc
      · exact shareStep_step hpc
      · exact .failing hpc (Or.inr rfl)
      · split
        · exact .paused hpc
        · exact shareStep_step hpc

theorem recvFailure_step {closed elapsed : Bool} (hpc : s.pc = .wait) :
    SessionStep cfg s (.recvFailure closed elapsed) (s.recvFailureStep closed elapsed) := by
  rw [Session.recvFailureStep]
  generalize (if elapsed then 0 else s.recvFailures) + 1 = recvFailures
  dsimp only
  split
  · exact .banned hpc
  · exact .interrupted hpc

theorem sessionStep_cases {e : NetEvent} {after : Session × List Effect}
    (h : sessionStep cfg s e = some after) : SessionStep cfg s e after := by
  rw [sessionStep.eq_def] at h
  split at h
  · contradiction
  · rename_i hpc
    split at h
    · rename_i hopt
      exact Option.some.inj h ▸ callGenWork_step (.exhausted hpc hopt)
    · contradiction
  · rename_i hpc
    split at h
    · rename_i hreset
      exact Option.some.inj h ▸ .reset hpc hreset
    · rename_i hreset
      exact Option.some.inj h ▸ .begin hpc (Bool.eq_false_iff.mpr hreset)
  · rename_i hpc
    split at h
    · rename_i hcurl
      exact Option.some.inj h ▸ .connected hpc hcurl
    · rename_i hcurl
      exact Option.some.inj h ▸ .disconnected hpc (by simpa using hcurl)
  · rename_i hpc _
    obtain ⟨⟨s', progress⟩, hstage, rfl⟩ := Option.map_eq_some_iff.mp h
    exact reconnectProgress_step hpc hstage
  · rename_i hpc
    split at h
    · rename_i hnew
      exact Option.some.inj h ▸ .primed hpc hnew
    · rename_i hnew
      exact Option.some.inj h ▸ .notPrimed hpc (Bool.eq_false_iff.mpr hnew)
  · rename_i hpc
    exact Option.some.inj h ▸ .line hpc
  · rename_i hpc
    exact Option.some.inj h ▸ recvFailure_step hpc
  · rename_i hpc
    exact Option.some.inj h ▸ .timeout hpc
  · rename_i hpc
    exact Option.some.inj h ▸ handleResponse_step hpc
  · rename_i hpc
    exact Option.some.inj h ▸ reauthenticate_step hpc
  · rename_i hpc _
    obtain ⟨⟨s', progress⟩, hstage, rfl⟩ := Option.map_eq_some_iff.mp h
    exact reauthProgress_step hpc hstage
  · rename_i hpc
    exact Option.some.inj h ▸ .resumed hpc
  · rename_i hpc
    exact Option.some.inj h ▸ .returned hpc rfl
  · rename_i hpc
    split at h
    · rename_i hreset
      exact Option.some.inj h ▸ .again hpc hreset
    · rename_i hreset
      rw [Bool.not_eq_true] at hreset
      split at h
      · rename_i hdue
        rw [Bool.and_eq_true] at hdue
        obtain ⟨-, rfl⟩ := hdue
        exact Option.some.inj h ▸ .keepalive hpc hreset
      · exact Option.some.inj h ▸ .alive hpc hreset
  · rename_i hpc
    split at h
    · rename_i hnew
      rw [Bool.and_eq_true] at hnew
      exact Option.some.inj h ▸ .newJob hpc hnew.1
    · rename_i hnone
      refine Option.some.inj h ▸ .noNewJob hpc fun hreset => Bool.eq_false_iff.mpr fun hnew => ?_
      exact hnone (by rw [hnew, hreset]; rfl)
  · rename_i priming _ hpc
    cases priming with
    | false => exact Option.some.inj h ▸ callGenWork_step (.newJob hpc)
    | true => exact Option.some.inj h ▸ callGenWork_step (.priming hpc)
  · contradiction

theorem SessionStep.publishes {e : NetEvent} {s' : Session} {effects : List Effect}
    (taken : SessionStep cfg s e (s', effects)) {heap : Heap} {reauthEpoch : Nat}
    {sctx : StratumCtx} (hmem : .publish heap reauthEpoch sctx ∈ effects) :
    reauthEpoch = s.reauthEpoch ∧ sctx = s.ctx ∧ ∃ heap pc, CallsGenWork s e heap pc ∧
      s' = (s.setCtx (preIncrement heap s.ctx)).goto pc := by
  cases taken with
  | @genWork _ heap' pc _ call hbuilt =>
      obtain ⟨-, hepoch, hctx⟩ := Effect.publish.inj (List.mem_singleton.mp hmem)
      obtain ⟨jobId, -, rfl⟩ := stratumGenWork_eq_some hbuilt
      exact ⟨hepoch, hctx, heap', pc, call, rfl⟩
  | reconnectFailed _ _ _ heffects =>
      rcases heffects with rfl | rfl
      · contradiction
      · simp at hmem
  | @returned caller ret called hpc hcalled =>
      subst hcalled
      cases caller <;> cases ret <;> simp [Session.callerStep] at hmem
  | _ => simp at hmem

theorem sessionNext_cases {e : NetEvent} {s' : Session} (h : sessionNext cfg s e = some s') :
    ∃ effects, SessionStep cfg s e (s', effects) := by
  obtain ⟨⟨s', effects⟩, hstep, rfl⟩ := Option.map_eq_some_iff.mp h
  exact ⟨effects, sessionStep_cases hstep⟩

end

end SojCivicLight.Stratum
