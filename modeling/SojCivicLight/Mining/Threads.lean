import SojCivicLight.Library.Run
import SojCivicLight.Mining.NewWork

/-! The mining threads: `main_entry_thread` of each of them, in small steps, and the places
where the other threads act on `g_work`, `stratum_down` and the restart flags. -/

namespace SojCivicLight.Mining

-- for the numeral of a single thread
scoped instance instNeZeroOne : NeZero 1 := ⟨Nat.succ_ne_zero 0⟩

open SojCivicLight.Library SojCivicLight.Util SojCivicLight.Stratum

/-- The words of the header that a nonce completes. -/
def headerWords (work : Work) : List UInt32 := work.data.take workCmpWords

def nonceOf (work : Work) : UInt32 := work.data.getD nonceIndex 0

/-- Where a thread stands: before the first job, at the top of its loop, past the wait on
`stratum_down`, past `get_new_work`, and at the looks and the hashes of its scan, of which
the last one is the tail. -/
inductive Phase where
  | start
  | top
  | passed
  | taken
  | looking (tail : Bool) (scan : Scan) (last : UInt32)
  | hashing (tail : Bool) (scan : Scan) (last : UInt32)

/-- A nonce that was hashed: when, with which header and which. -/
structure Evaluated where
  window : Nat
  words : List UInt32
  nonce : UInt32
deriving DecidableEq

structure Thread where
  work : Work
  endNonce : UInt32
  phase : Phase
  /-- what it has hashed, latest first -/
  evaluated : List Evaluated

inductive ThreadEvent where
  | begin
  | pass
  | take
  /-- the time limit is over -/
  | skip
  | scan (max64 : Int)
  | look
  | hash

section

variable (env : ScanEnv)

def scanGuard (n last : UInt32) : Bool := if env.oneway then n < last else n + 1 < last

def loopRound (work : Work) (scan : Scan) : Scan :=
  if env.oneway then scanRound env work scan else scanPairRound env work scan

/-- The nonce that pairs leave over. -/
def tailRound (work : Work) (scan : Scan) : Scan :=
  let header := scanHeader env work scan.n
  let hash := env.impl.civiclightPowhashFromMidstate header (headerMidstate env work)
  let next := { scan with hashed := scan.hashed ++ [header] }
  let next := if env.bench then next else { next with statsBatch := next.statsBatch + 1 }
  let next := offer env work scan.n hash next
  { next with n := scan.n + 1 }

def roundNonces (tail : Bool) (n : UInt32) : List UInt32 :=
  if tail || env.oneway then [n] else [n, n + 1]

def finishScan (work : Work) (scan : Scan) : Work :=
  { work with data := scan.pdata.set nonceIndex scan.n }

/-- A step of a thread that sees these values of `stratum_down`, its flag and `g_work`. -/
def threadStep (threads thrId : Nat) (down restart : Bool) (gWork : Work) (window : Nat)
    (thread : Thread) : ThreadEvent → Option Thread
  | .begin =>
      match thread.phase with
      | .start => some { thread with phase := .top }
      | _ => none
  | .pass =>
      match thread.phase with
      | .top => if down then none else some { thread with phase := .passed }
      | _ => none
  | .take =>
      match thread.phase with
      | .passed =>
          if nonceOf thread.work < thread.endNonce || restart then
            let new := stdGetNewWork threads thrId thread.work gWork thread.endNonce
            some { thread with work := new.1, endNonce := new.2, phase := .taken }
          else none
      | _ => none
  | .skip =>
      match thread.phase with
      | .taken => some { thread with phase := .top }
      | _ => none
  | .scan max64 =>
      match thread.phase with
      | .taken =>
          let max := maxNonce (nonceOf thread.work) thread.endNonce max64
          some { thread with phase := .looking false (scanStart thread.work) (max - 1) }
      | _ => none
  | .look =>
      match thread.phase with
      | .looking false scan last =>
          if scanGuard env scan.n last && !restart then
            some { thread with phase := .hashing false scan last }
          else some { thread with phase := .looking true scan last }
      | .looking true scan last =>
          if scan.n < last && !restart then
            some { thread with phase := .hashing true scan last }
          else some { thread with work := finishScan thread.work scan, phase := .top }
      | _ => none
  | .hash =>
      match thread.phase with
      | .hashing tail scan last =>
          let evaluated := (roundNonces env tail scan.n).map
            (Evaluated.mk window (headerWords thread.work))
          let scan' := if tail then tailRound env thread.work scan
            else loopRound env thread.work scan
          some
            { thread with
              work := if tail then finishScan thread.work scan' else thread.work
              phase := if tail then .top else .looking false scan' last
              evaluated := evaluated.reverse ++ thread.evaluated }
      | _ => none

end

theorem Scanning.loopRound {env : ScanEnv} {work : Work} {scan : Scan}
    (h : Scanning env work scan) : Scanning env work (loopRound env work scan) := by
  rw [Mining.loopRound]
  split
  · exact h.round
  · exact h.pairRound

/-- The mining threads and what they share with the others. -/
structure Miner (threads : Nat) where
  gWork : Work
  stratumDown : Bool
  restart : Fin threads → Bool
  thread : Fin threads → Thread
  /-- how often `g_work` has changed its header or its job -/
  window : Nat
  /-- the last work published for a new job -/
  newJobWork : Option Work

namespace Miner

variable {threads : Nat}

def init (threads : Nat) : Miner threads where
  gWork := .zero
  stratumDown := true
  restart _ := false
  thread t :=
    { work := .zero, endNonce := initialEndNonce threads t, phase := .start, evaluated := [] }
  window := 0
  newJobWork := none

def setGWork (m : Miner threads) (gWork : Work) : Miner threads :=
  { m with
    gWork
    window :=
      if headerWords gWork = headerWords m.gWork ∧ gWork.jobId = m.gWork.jobId then m.window
      else m.window + 1 }

def restartThreads (m : Miner threads) : Miner threads := { m with restart := fun _ => true }

/-- What `stratum_gen_work` does under `g_work_lock`. -/
def publish (m : Miner threads) (work : Work) (newJob : Bool) : Miner threads :=
  if newJob then { (m.setGWork work).restartThreads with newJobWork := some work }
  else m.setGWork work

def dropJob (m : Miner threads) : Miner threads := m.setGWork { m.gWork with jobId := none }

theorem publish_gWork (m : Miner threads) (work : Work) (newJob : Bool) :
    (m.publish work newJob).gWork = work ∧ (m.publish work newJob).thread = m.thread := by
  rw [Miner.publish]
  split <;> exact ⟨rfl, rfl⟩

end Miner

inductive MinerEvent (threads : Nat) where
  | stratumDown (down : Bool)
  | restartThreads
  | dropJob
  | publish (heap : Heap) (reauthEpoch : Nat) (sctx : StratumCtx)
  | thread (t : Fin threads) (e : ThreadEvent)

/-- Taking work clears the flag. -/
def ThreadEvent.restart : ThreadEvent → Bool → Bool
  | .take, _ => false
  | _, restart => restart

def minerStep {threads : Nat} (env : ScanEnv) (gate : Gate) (m : Miner threads) :
    MinerEvent threads → Option (Miner threads)
  | .stratumDown stratumDown => some { m with stratumDown }
  | .restartThreads => some m.restartThreads
  | .dropJob => some m.dropJob
  | .publish heap reauthEpoch sctx =>
      (stratumGenWork gate heap reauthEpoch sctx).map fun built => m.publish built.2.1 built.2.2
  | .thread t e =>
      (threadStep env threads t m.stratumDown (m.restart t) m.gWork m.window (m.thread t) e).map
        fun thread =>
          { m with
            thread := Function.update m.thread t thread
            restart := Function.update m.restart t (e.restart (m.restart t)) }

/-! What a step of a thread can be. -/

section

variable (env : ScanEnv) (threads thrId : Nat) (down restart : Bool) (gWork : Work)
  (window : Nat)

inductive ThreadStep (thread : Thread) : ThreadEvent → Thread → Prop
  | begin (hphase : thread.phase = .start) : ThreadStep thread .begin { thread with phase := .top }
  | pass (hphase : thread.phase = .top) (hdown : down = false) :
      ThreadStep thread .pass { thread with phase := .passed }
  | copy (hphase : thread.phase = .passed)
      (hready : nonceOf thread.work < thread.endNonce ∨ restart = true)
      (hcopy : copiesWork thread.work gWork thread.endNonce = true) :
      ThreadStep thread .take
        { thread with
          work := { gWork with data := gWork.data.set nonceIndex (firstNonce threads thrId) }
          endNonce := lastNonce threads thrId
          phase := .taken }
  | keep (hphase : thread.phase = .passed)
      (hkeep : copiesWork thread.work gWork thread.endNonce = false) :
      ThreadStep thread .take
        { thread with
          work := { thread.work with
            data := thread.work.data.set nonceIndex (nonceOf thread.work + 1) }
          phase := .taken }
  | skip (hphase : thread.phase = .taken) : ThreadStep thread .skip { thread with phase := .top }
  | scan (hphase : thread.phase = .taken) (max64 : Int) :
      ThreadStep thread (.scan max64)
        { thread with
          phase := .looking false (scanStart thread.work)
            (maxNonce (nonceOf thread.work) thread.endNonce max64 - 1) }
  | enter {scan : Scan} {last : UInt32} (hphase : thread.phase = .looking false scan last)
      (hguard : scanGuard env scan.n last = true) (hrestart : restart = false) :
      ThreadStep thread .look { thread with phase := .hashing false scan last }
  | leave {scan : Scan} {last : UInt32} (hphase : thread.phase = .looking false scan last)
      (hend : scanGuard env scan.n last = false ∨ restart = true) :
      ThreadStep thread .look { thread with phase := .looking true scan last }
  | enterTail {scan : Scan} {last : UInt32} (hphase : thread.phase = .looking true scan last)
      (hlt : scan.n < last) (hrestart : restart = false) :
      ThreadStep thread .look { thread with phase := .hashing true scan last }
  | finish {scan : Scan} {last : UInt32} (hphase : thread.phase = .looking true scan last) :
      ThreadStep thread .look
        { thread with work := finishScan thread.work scan, phase := .top }
  | round {scan : Scan} {last : UInt32} (hphase : thread.phase = .hashing false scan last) :
      ThreadStep thread .hash
        { thread with
          phase := .looking false (loopRound env thread.work scan) last
          evaluated := ((roundNonces env false scan.n).map
            (Evaluated.mk window (headerWords thread.work))).reverse ++ thread.evaluated }
  | tail {scan : Scan} {last : UInt32} (hphase : thread.phase = .hashing true scan last) :
      ThreadStep thread .hash
        { thread with
          work := finishScan thread.work (tailRound env thread.work scan)
          phase := .top
          evaluated := ⟨window, headerWords thread.work, scan.n⟩ :: thread.evaluated }

variable {env threads thrId down restart gWork window}

theorem threadStep_cases {thread thread' : Thread} {e : ThreadEvent}
    (h : threadStep env threads thrId down restart gWork window thread e = some thread') :
    ThreadStep env threads thrId down restart gWork window thread e thread' := by
  cases e with
  | begin =>
      rw [threadStep] at h
      split at h
      · rename_i hphase
        exact Option.some.inj h ▸ .begin hphase
      · contradiction
  | pass =>
      rw [threadStep] at h
      split at h
      · rename_i hphase
        cases down with
        | false => exact Option.some.inj h ▸ .pass hphase rfl
        | true => contradiction
      · contradiction
  | take =>
      rw [threadStep] at h
      split at h
      · rename_i hphase
        split at h
        · rename_i hready
          obtain rfl := Option.some.inj h
          cases hcopy : copiesWork thread.work gWork thread.endNonce with
          | true =>
              rw [stdGetNewWork_copy hcopy]
              exact .copy hphase (by simpa using hready) hcopy
          | false =>
              rw [stdGetNewWork_keep hcopy]
              exact .keep hphase hcopy
        · contradiction
      · contradiction
  | skip =>
      rw [threadStep] at h
      split at h
      · rename_i hphase
        exact Option.some.inj h ▸ .skip hphase
      · contradiction
  | scan max64 =>
      rw [threadStep] at h
      split at h
      · rename_i hphase
        exact Option.some.inj h ▸ .scan hphase max64
      · contradiction
  | look =>
      rw [threadStep] at h
      split at h
      · rename_i scan last hphase
        split at h
        · rename_i hopen
          rw [Bool.and_eq_true, Bool.not_eq_true'] at hopen
          exact Option.some.inj h ▸ .enter hphase hopen.1 hopen.2
        · rename_i hclosed
          refine Option.some.inj h ▸ .leave hphase ?_
          cases hguard : scanGuard env scan.n last with
          | false => exact Or.inl rfl
          | true => exact Or.inr (by simpa [hguard] using hclosed)
      · rename_i scan last hphase
        split at h
        · rename_i hopen
          rw [Bool.and_eq_true, Bool.not_eq_true', decide_eq_true_eq] at hopen
          exact Option.some.inj h ▸ .enterTail hphase hopen.1 hopen.2
        · exact Option.some.inj h ▸ .finish hphase
      · contradiction
  | hash =>
      rw [threadStep] at h
      split at h
      · rename_i tail scan last hphase
        obtain rfl := Option.some.inj h
        cases tail with
        | false => exact .round hphase
        | true => exact .tail hphase
      · contradiction

end

end SojCivicLight.Mining
