import SojCivicLight.Mining.Ranges
import SojCivicLight.Stratum.LiveJob

/-! The stratum thread and the mining threads together.  What a step of the stratum thread
does to the shared data comes to pass piece by piece, with the mining threads in between. -/

namespace SojCivicLight.Mining

open SojCivicLight.Library SojCivicLight.Util SojCivicLight.Stratum

structure System (threads : Nat) where
  session : Session
  /-- what the last step of the stratum thread has still to do -/
  pending : List Effect
  miner : Miner threads

inductive SystemEvent (threads : Nat) where
  | net (e : NetEvent)
  | effect
  | thread (t : Fin threads) (e : ThreadEvent)

def minerEvent (threads : Nat) : Effect → MinerEvent threads
  | .stratumDown down => .stratumDown down
  | .restartThreads => .restartThreads
  | .dropJob => .dropJob
  | .publish heap reauthEpoch sctx => .publish heap reauthEpoch sctx

section

variable {threads : Nat} (env : ScanEnv) (cfg : Config)

/-- Extranonce is not subscribed. -/
def System.init (threads : Nat) : System threads where
  session := .init false
  pending := []
  miner := .init threads

/-- `while (!stratum.job.job_id) sleep(1);` -/
def mayStep (session : Session) : ThreadEvent → Bool
  | .begin => session.ctx.job.jobId.isSome
  | _ => true

def systemStep (s : System threads) : SystemEvent threads → Option (System threads)
  | .net e =>
      match s.pending with
      | [] => (sessionStep cfg s.session e).map fun after =>
          { s with session := after.1, pending := after.2 }
      | _ :: _ => none
  | .effect =>
      match s.pending with
      | [] => none
      | effect :: pending =>
          (minerStep env cfg.gate s.miner (minerEvent threads effect)).map fun miner =>
            { s with miner, pending }
  | .thread t e =>
      if mayStep s.session e then
        (minerStep env cfg.gate s.miner (.thread t e)).map fun miner => { s with miner }
      else none

/-- What the mining threads take part in. -/
def minerPart (taken : System threads × SystemEvent threads) :
    Option (Miner threads × MinerEvent threads) :=
  match taken.2, taken.1.pending with
  | .thread t e, _ => some (taken.1.miner, .thread t e)
  | .effect, effect :: _ => some (taken.1.miner, minerEvent threads effect)
  | _, _ => none

variable {env cfg}

inductive SystemStep (env : ScanEnv) (cfg : Config) (s : System threads) :
    SystemEvent threads → System threads → Prop
  | net {e : NetEvent} {after : Session × List Effect} (hpending : s.pending = [])
      (step : sessionStep cfg s.session e = some after) :
      SystemStep env cfg s (.net e) { s with session := after.1, pending := after.2 }
  | effect {effect : Effect} {pending : List Effect} {miner : Miner threads}
      (hpending : s.pending = effect :: pending)
      (step : minerStep env cfg.gate s.miner (minerEvent threads effect) = some miner) :
      SystemStep env cfg s .effect { s with miner, pending }
  | thread {t : Fin threads} {e : ThreadEvent} {miner : Miner threads}
      (step : minerStep env cfg.gate s.miner (.thread t e) = some miner) :
      SystemStep env cfg s (.thread t e) { s with miner }

theorem systemStep_cases {s s' : System threads} {e : SystemEvent threads}
    (h : systemStep env cfg s e = some s') : SystemStep env cfg s e s' := by
  cases e with
  | net e =>
      rw [systemStep] at h
      split at h
      · rename_i hpending
        obtain ⟨after, step, rfl⟩ := Option.map_eq_some_iff.mp h
        exact .net hpending step
      · contradiction
  | effect =>
      rw [systemStep] at h
      split at h
      · contradiction
      · rename_i hpending
        obtain ⟨miner, step, rfl⟩ := Option.map_eq_some_iff.mp h
        exact .effect hpending step
  | thread t e =>
      rw [systemStep] at h
      split at h
      · obtain ⟨miner, step, rfl⟩ := Option.map_eq_some_iff.mp h
        exact .thread step
      · contradiction

theorem minerRun {trace : List (System threads × SystemEvent threads)} {s : System threads}
    (run : Run (systemStep env cfg) (.init threads) trace s) :
    Run (minerStep env cfg.gate) (.init threads) (trace.filterMap minerPart) s.miner := by
  induction run with
  | start => exact .start
  | next run taken ih =>
      cases systemStep_cases taken with
      | net hpending =>
          rw [List.filterMap_cons_none (by rw [minerPart])]
          exact ih
      | effect hpending step =>
          rw [List.filterMap_cons_some (by rw [minerPart, hpending])]
          exact ih.next step
      | thread step =>
          rw [List.filterMap_cons_some (by rw [minerPart])]
          exact ih.next step

end

/-! Stretches of runs. -/

section

variable {threads : Nat}

/-- A step of the stratum thread with so many effects, all of which come to pass. -/
def settledStep (e : NetEvent) (effects : Nat) : List (SystemEvent threads) :=
  .net e :: List.replicate effects .effect

/-- From the head of the loop to the wait for a line, on a new connection. -/
def connectEvents : List (SystemEvent threads) :=
  settledStep .tau 2 ++ handshakeEvents.map .net ++ [.net .tau, .net .tau]

/-- From the wait to the publication of the job of a line. -/
def publishJobEvents (line : Line) : List (SystemEvent threads) :=
  settledStep (.line line) 1 ++ [.net (.keepalive false), .net .tau] ++
    settledStep (.genWork .zero) 1

def firstJobEvents (t : Fin threads) : List (SystemEvent threads) :=
  .net .tau :: connectEvents ++ publishJobEvents (notifyLine "a") ++ [.thread t .begin]

/-- A call after a failure to receive that gives up, and the reset that follows. -/
def failedCallReset : List (SystemEvent threads) :=
  .net (.recvFailure false false) :: settledStep .tau 1 ++
    List.replicate 3 (.net (.connect false)) ++ [.net .tau, .net (.keepalive false)] ++
    settledStep .tau 3

def aboutToHash (t : Fin threads) : List (SystemEvent threads) :=
  [.pass, .take, .scan 2, .look].map (.thread t)

end

end SojCivicLight.Mining
