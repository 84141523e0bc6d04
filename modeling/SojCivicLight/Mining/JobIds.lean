import SojCivicLight.Mining.System

/-! The job id under which a share is submitted, and the job whose header was hashed. -/

namespace SojCivicLight.Mining

open SojCivicLight.Library SojCivicLight.Util SojCivicLight.Stratum

/-- What a thread about to hash has submitted in its scan once it has hashed. -/
def submittedBy (env : ScanEnv) (thread : Thread) : List Submission :=
  match thread.phase with
  | .hashing tail scan _ =>
      (if tail then tailRound env thread.work scan else loopRound env thread.work scan).submitted
  | _ => []

section

variable {threads : Nat} (env : ScanEnv) (gate : Gate)

structure Published (trace : List (Miner threads × MinerEvent threads)) (heap : Heap)
    (reauthEpoch : Nat) (sctx : StratumCtx) (jobId : CStr) : Prop where
  event : ∃ taken ∈ trace, taken.2 = .publish heap reauthEpoch sctx
  jobId : sctx.job.jobId = some jobId

/-- A share goes out under the id of a published job, and the header that was hashed is the one
built from that job. -/
def OwnJob (trace : List (Miner threads × MinerEvent threads)) (submission : Submission) : Prop :=
  ∃ heap reauthEpoch sctx jobId n, Published trace heap reauthEpoch sctx jobId ∧
    submission.work.jobId = some jobId ∧
    submission.header = scanHeader env (buildWork gate heap reauthEpoch sctx jobId) n

/-- The work is that of a published job, up to its nonce. -/
def OfJob (trace : List (Miner threads × MinerEvent threads)) (work : Work) : Prop :=
  ∃ heap reauthEpoch sctx jobId nonce, Published trace heap reauthEpoch sctx jobId ∧
    work.jobId = some jobId ∧
    work.data = (buildWork gate heap reauthEpoch sctx jobId).data.set nonceIndex nonce

variable {env gate}

theorem Published.cons {trace : List (Miner threads × MinerEvent threads)} {heap : Heap}
    {reauthEpoch : Nat} {sctx : StratumCtx} {jobId : CStr}
    (h : Published trace heap reauthEpoch sctx jobId) (taken : Miner threads × MinerEvent threads) :
    Published (taken :: trace) heap reauthEpoch sctx jobId := by
  obtain ⟨⟨earlier, hmem, hevent⟩, hjobId⟩ := h
  exact ⟨⟨earlier, List.mem_cons_of_mem _ hmem, hevent⟩, hjobId⟩

theorem OfJob.cons {trace : List (Miner threads × MinerEvent threads)} {work : Work}
    (h : OfJob gate trace work) (taken : Miner threads × MinerEvent threads) :
    OfJob gate (taken :: trace) work := by
  obtain ⟨heap, reauthEpoch, sctx, jobId, nonce, hpublished, hrest⟩ := h
  exact ⟨heap, reauthEpoch, sctx, jobId, nonce, hpublished.cons taken, hrest⟩

theorem OfJob.setNonce {trace : List (Miner threads × MinerEvent threads)} {work : Work}
    (h : OfJob gate trace work) (nonce : UInt32) :
    OfJob gate trace { work with data := work.data.set nonceIndex nonce } := by
  obtain ⟨heap, reauthEpoch, sctx, jobId, _, hpublished, hjobId, hdata⟩ := h
  exact ⟨heap, reauthEpoch, sctx, jobId, nonce, hpublished, hjobId, by rw [hdata, List.set_set]⟩

theorem scanHeader_setNonce (work built : Work) (nonce n : UInt32)
    (hdata : work.data = built.data.set nonceIndex nonce) :
    scanHeader env work n = scanHeader env built n := by
  have hedata : (scanEdata env work).set 19 n = (scanEdata env built).set 19 n := by
    simp only [scanEdata, hdata, nonceIndex, List.take_set, List.map_set]
    split
    · rw [List.set_comm _ _ (by decide), List.set_set]
      exact List.set_comm _ _ (by decide)
    · rw [List.set_set]
  rw [scanHeader, scanHeader, hedata]

theorem OfJob.submits {trace : List (Miner threads × MinerEvent threads)} {work : Work}
    (h : OfJob gate trace work) {submission : Submission} (submits : Submits env work submission) :
    OwnJob env gate trace submission := by
  obtain ⟨heap, reauthEpoch, sctx, jobId, nonce, hpublished, hjobId, hdata⟩ := h
  obtain ⟨n, hheader, hwork⟩ := submits
  exact ⟨heap, reauthEpoch, sctx, jobId, n, hpublished, by rw [hwork]; exact hjobId,
    hheader.trans (scanHeader_setNonce _ _ nonce n hdata)⟩

/-! The scans of a thread. -/

theorem Scanning.tailRound {work : Work} {scan : Scan} (h : Scanning env work scan) :
    Scanning env work (tailRound env work scan) := by
  rw [Mining.tailRound]
  refine Scanning.same (Scanning.offer ?_ scan.n _) rfl rfl
  split <;> exact h.same rfl rfl

/-- A thread's work is of a published job once it has a job id, and it has one while the thread
scans. -/
structure Thread.OwnsJob (env : ScanEnv) (gate : Gate)
    (trace : List (Miner threads × MinerEvent threads)) (thread : Thread) : Prop where
  held : thread.work.jobId ≠ none → OfJob gate trace thread.work
  scans : match thread.phase with
    | .taken => thread.work.jobId ≠ none
    | .looking _ scan _ | .hashing _ scan _ =>
        thread.work.jobId ≠ none ∧ Scanning env thread.work scan
    | _ => True

theorem Thread.OwnsJob.cons {trace : List (Miner threads × MinerEvent threads)} {thread : Thread}
    (h : thread.OwnsJob env gate trace) (taken : Miner threads × MinerEvent threads) :
    thread.OwnsJob env gate (taken :: trace) :=
  ⟨fun hjobId => (h.held hjobId).cons taken, h.scans⟩

theorem Scanning.finish {trace : List (Miner threads × MinerEvent threads)} {work : Work}
    {scan : Scan} (h : Scanning env work scan)
    (held : work.jobId ≠ none → OfJob gate trace work) :
    (finishScan work scan).jobId ≠ none → OfJob gate trace (finishScan work scan) := by
  intro hjobId
  rw [finishScan, h.pdata]
  exact (held hjobId).setNonce scan.n

theorem ThreadStep.ownsJob {trace : List (Miner threads × MinerEvent threads)} {thrId : Nat}
    {down restart : Bool} {gWork : Work} {window : Nat} {thread thread' : Thread}
    {e : ThreadEvent} (h : thread.OwnsJob env gate trace)
    (hgWork : gWork.jobId ≠ none → ∃ heap reauthEpoch sctx jobId,
      Published trace heap reauthEpoch sctx jobId ∧
        gWork = buildWork gate heap reauthEpoch sctx jobId)
    (takes : e = .take → gWork.jobId ≠ none)
    (taken : ThreadStep env threads thrId down restart gWork window thread e thread') :
    thread'.OwnsJob env gate trace := by
  have hscans := h.scans
  cases taken with
  | begin | pass | skip => exact ⟨h.held, trivial⟩
  | copy =>
      have hjob := takes rfl
      obtain ⟨heap, reauthEpoch, sctx, jobId, hpublished, heq⟩ := hgWork hjob
      have hjobId : gWork.jobId = some jobId := by rw [heq, buildWork]
      refine ⟨fun _ => ⟨heap, reauthEpoch, sctx, jobId, firstNonce threads thrId, hpublished,
        hjobId, ?_⟩, hjob⟩
      rw [heq]
  | keep hphase hkeep =>
      obtain ⟨⟨jobId, -, hjobId, -⟩, -⟩ := copiesWork_eq_false hkeep
      exact ⟨fun hjob => (h.held hjob).setNonce _, by simp [hjobId]⟩
  | scan hphase =>
      rw [hphase] at hscans
      exact ⟨h.held, hscans, fun _ => rfl, by simp [scanStart]⟩
  | enter hphase | leave hphase | enterTail hphase =>
      rw [hphase] at hscans
      exact ⟨h.held, hscans⟩
  | finish hphase =>
      rw [hphase] at hscans
      exact ⟨hscans.2.finish h.held, trivial⟩
  | round hphase =>
      rw [hphase] at hscans
      exact ⟨h.held, hscans.1, hscans.2.loopRound⟩
  | tail hphase =>
      rw [hphase] at hscans
      exact ⟨hscans.2.tailRound.finish h.held, trivial⟩

theorem Thread.OwnsJob.submitted {trace : List (Miner threads × MinerEvent threads)}
    {thread : Thread} (h : thread.OwnsJob env gate trace) {submission : Submission}
    (hmem : submission ∈ submittedBy env thread) : OwnJob env gate trace submission := by
  have hscans := h.scans
  rw [submittedBy] at hmem
  split at hmem
  · rename_i tail scan last hphase
    rw [hphase] at hscans
    have scanning : Scanning env thread.work
        (if tail then tailRound env thread.work scan else loopRound env thread.work scan) := by
      split
      · exact hscans.2.tailRound
      · exact hscans.2.loopRound
    exact (h.held hscans.1).submits (scanning.submitted submission hmem)
  · contradiction

/-! All threads. -/

/-- A thread takes no work from which the job id has been dropped. -/
def TakesJob (m : Miner threads) : MinerEvent threads → Prop
  | .thread _ .take => m.gWork.jobId ≠ none
  | _ => True

instance (m : Miner threads) (e : MinerEvent threads) : Decidable (TakesJob m e) :=
  match e with
  | .thread _ .take => inferInstanceAs (Decidable (_ ≠ _))
  | .thread _ .begin | .thread _ .pass | .thread _ .skip | .thread _ (.scan _) |
    .thread _ .look | .thread _ .hash => instDecidableTrue
  | .stratumDown _ | .restartThreads | .dropJob | .publish _ _ _ => instDecidableTrue

structure Miner.OwnsJobs (env : ScanEnv) (gate : Gate)
    (trace : List (Miner threads × MinerEvent threads)) (m : Miner threads) : Prop where
  gWork : m.gWork.jobId ≠ none → ∃ heap reauthEpoch sctx jobId,
    Published trace heap reauthEpoch sctx jobId ∧
      m.gWork = buildWork gate heap reauthEpoch sctx jobId
  threads : ∀ t, (m.thread t).OwnsJob env gate trace

theorem Miner.OwnsJobs.cons {trace : List (Miner threads × MinerEvent threads)}
    {m : Miner threads} (h : m.OwnsJobs env gate trace)
    (taken : Miner threads × MinerEvent threads) : m.OwnsJobs env gate (taken :: trace) := by
  refine ⟨fun hjobId => ?_, fun t => (h.threads t).cons taken⟩
  obtain ⟨heap, reauthEpoch, sctx, jobId, hpublished, heq⟩ := h.gWork hjobId
  exact ⟨heap, reauthEpoch, sctx, jobId, hpublished.cons taken, heq⟩

theorem minerStep_ownsJobs {trace : List (Miner threads × MinerEvent threads)}
    {m m' : Miner threads} {e : MinerEvent threads} (h : m.OwnsJobs env gate trace)
    (takes : TakesJob m e) (taken : minerStep env gate m e = some m') :
    m'.OwnsJobs env gate ((m, e) :: trace) := by
  have later := h.cons (m, e)
  cases e with
  | stratumDown down =>
      obtain rfl := Option.some.inj taken
      exact ⟨later.gWork, later.threads⟩
  | restartThreads =>
      obtain rfl := Option.some.inj taken
      exact ⟨later.gWork, later.threads⟩
  | dropJob =>
      obtain rfl := Option.some.inj taken
      exact ⟨fun hjobId => absurd rfl hjobId, later.threads⟩
  | publish heap reauthEpoch sctx =>
      obtain ⟨built, hbuilt, rfl⟩ := Option.map_eq_some_iff.mp taken
      obtain ⟨jobId, hjobId, rfl⟩ := stratumGenWork_eq_some hbuilt
      have published : Published ((m, .publish heap reauthEpoch sctx) :: trace) heap reauthEpoch
          sctx jobId := ⟨⟨_, List.mem_cons_self, rfl⟩, hjobId⟩
      rw [Miner.publish]
      split <;> exact ⟨fun _ => ⟨heap, reauthEpoch, sctx, jobId, published, rfl⟩, later.threads⟩
  | thread t e =>
      obtain ⟨thread', hstep, rfl⟩ := minerStep_thread taken
      refine ⟨later.gWork, (Function.forall_update_iff _ fun _ (thread : Thread) =>
        thread.OwnsJob env gate _).mpr ⟨?_, fun u _ => later.threads u⟩⟩
      exact hstep.ownsJob (later.threads t) later.gWork fun he => by
        subst he
        exact takes

theorem run_ownsJobs {trace : List (Miner threads × MinerEvent threads)} {m : Miner threads}
    (run : Run (minerStep env gate) (.init threads) trace m) (takes : Steps TakesJob trace) :
    m.OwnsJobs env gate trace := by
  induction run with
  | start =>
      exact ⟨fun hjobId => absurd rfl hjobId, fun _ => ⟨fun hjobId => absurd rfl hjobId, trivial⟩⟩
  | next run taken ih =>
      rw [steps_cons] at takes
      exact minerStep_ownsJobs (ih takes.2) takes.1 taken

/-! In the whole system. -/

def SystemTakesJob (s : System threads) : SystemEvent threads → Prop
  | .thread t e => TakesJob s.miner (.thread t e)
  | _ => True

instance (s : System threads) (e : SystemEvent threads) : Decidable (SystemTakesJob s e) :=
  match e with
  | .thread t e => inferInstanceAs (Decidable (TakesJob s.miner (.thread t e)))
  | .net _ | .effect => instDecidableTrue

theorem minerPart_takesJob {trace : List (System threads × SystemEvent threads)}
    (takes : Steps SystemTakesJob trace) : Steps TakesJob (trace.filterMap minerPart) := by
  intro taken hmem
  obtain ⟨⟨s, e⟩, hmem, hpart⟩ := List.mem_filterMap.mp hmem
  have htakes := takes _ hmem
  rw [minerPart] at hpart
  split at hpart
  · rename_i t e' heq
    obtain rfl : e = .thread t e' := heq
    cases hpart
    exact htakes
  · rename_i effect pending _ _
    cases hpart
    cases effect <;> trivial
  · contradiction

/-- In a run whose threads take no work without a job id, every share is submitted under the id
of the job whose header was hashed. -/
theorem submits_own_job {cfg : Config} {trace : List (System threads × SystemEvent threads)}
    {s : System threads} (run : Run (systemStep env cfg) (.init threads) trace s)
    (takes : Steps SystemTakesJob trace) :
    ∀ t, ∀ submission ∈ submittedBy env (s.miner.thread t),
      OwnJob env cfg.gate (trace.filterMap minerPart) submission :=
  fun t _ hmem =>
    ((run_ownsJobs (minerRun run) (minerPart_takesJob takes)).threads t).submitted hmem

end

/-- Every hash meets the target. -/
def easyConfig : Config :=
  { Config.plain with
    gate := { Gate.zero with diffToHash := fun _ => List.replicate 8 0xffffffff } }

theorem submits_own_job_published :
    ∃ (trace : List (System 1 × SystemEvent 1)) (s : System 1),
      Run (systemStep .plain easyConfig) (.init 1) trace s ∧
        (submittedBy .plain (s.miner.thread 0)).map (·.work.jobId) = [some (cstr "a")] ∧
        ∀ t, ∀ submission ∈ submittedBy .plain (s.miner.thread t),
          OwnJob .plain easyConfig.gate (trace.filterMap minerPart) submission := by
  have hexec : (exec (guarded (systemStep .plain easyConfig) SystemTakesJob) (.init 1)
      (firstJobEvents 0 ++ aboutToHash 0)).map
      (fun s => (submittedBy .plain (s.miner.thread 0)).map (·.work.jobId)) =
      some [some (cstr "a")] := by decide +kernel
  obtain ⟨s, hs, hsubmitted⟩ := Option.map_eq_some_iff.mp hexec
  obtain ⟨trace, run, -⟩ := Run.start.exec hs
  exact ⟨trace, s, run.of_guarded.1, hsubmitted,
    submits_own_job run.of_guarded.1 run.of_guarded.2⟩

/-- After a reset, a line that is no job lets the thread take `g_work` without its job id. -/
theorem submits_no_job : ¬ ∀ (threads : Nat) (env : ScanEnv) (cfg : Config)
    (trace : List (System threads × SystemEvent threads)) (s : System threads),
    Run (systemStep env cfg) (.init threads) trace s →
      ∀ t, ∀ submission ∈ submittedBy env (s.miner.thread t),
        OwnJob env cfg.gate (trace.filterMap minerPart) submission := by
  intro h
  have hexec : (exec (systemStep .plain easyConfig) (.init 1)
      (firstJobEvents 0 ++ [.net .tau, .net .tau] ++ failedCallReset ++ connectEvents ++
        settledStep (.line (resultLine 5 (.bool true))) 1 ++ aboutToHash 0)).map
      (fun s => (submittedBy .plain (s.miner.thread 0)).map (·.work.jobId)) =
      some [none] := by decide +kernel
  obtain ⟨s, hs, hsubmitted⟩ := Option.map_eq_some_iff.mp hexec
  obtain ⟨submission, hsubmission, hjobId⟩ := List.map_eq_singleton_iff.mp hsubmitted
  obtain ⟨trace, run, -⟩ := Run.start.exec hs
  obtain ⟨_, _, _, jobId, _, -, hown, -⟩ := h 1 .plain easyConfig trace s run 0 submission (by
    rw [hsubmission]
    exact List.mem_cons_self)
  rw [hjobId] at hown
  contradiction

end SojCivicLight.Mining
