import Mathlib.Data.List.Infix
import SojCivicLight.Mining.Ranges

/-! Which work the threads hold: `std_get_new_work` compares job ids as numbers and the words
of the header, and nothing else. -/

namespace SojCivicLight.Mining

open SojCivicLight.Library SojCivicLight.Util SojCivicLight.Stratum

structure AgreesWith (work last : Work) : Prop where
  jobId : work.jobId = last.jobId
  words : headerWords work = headerWords last
  target : work.target = last.target
  xnonce2 : work.xnonce2 = last.xnonce2
  reauthEpoch : work.reauthEpoch = last.reauthEpoch

theorem agreesWith_iff (work last : Work) : AgreesWith work last ↔
    work.jobId = last.jobId ∧ headerWords work = headerWords last ∧ work.target = last.target ∧
      work.xnonce2 = last.xnonce2 ∧ work.reauthEpoch = last.reauthEpoch :=
  ⟨fun ⟨h1, h2, h3, h4, h5⟩ => ⟨h1, h2, h3, h4, h5⟩,
    fun ⟨h1, h2, h3, h4, h5⟩ => ⟨h1, h2, h3, h4, h5⟩⟩

instance (work last : Work) : Decidable (AgreesWith work last) :=
  decidable_of_iff _ (agreesWith_iff work last).symm

theorem agreesWith_data {work last : Work} {data : List UInt32}
    (h : data.take workCmpWords = headerWords work) :
    AgreesWith { work with data } last ↔ AgreesWith work last := by
  have hwords : headerWords { work with data } = headerWords work := h
  constructor
  · rintro ⟨hjobId, hwords', htarget, hxnonce2, hepoch⟩
    exact ⟨hjobId, hwords.symm.trans hwords', htarget, hxnonce2, hepoch⟩
  · rintro ⟨hjobId, hwords', htarget, hxnonce2, hepoch⟩
    exact ⟨hjobId, hwords.trans hwords', htarget, hxnonce2, hepoch⟩

def Thread.ScanHeld (thread : Thread) : Prop :=
  match thread.phase with
  | .looking _ scan _ | .hashing _ scan _ => SameHeader scan.pdata thread.work.data
  | _ => True

section

variable {env : ScanEnv} {gate : Gate} {threads : Nat}

theorem ThreadStep.held {thrId : Nat} {down restart : Bool} {gWork : Work} {window : Nat}
    {thread thread' : Thread} {e : ThreadEvent} (h : thread.ScanHeld)
    (taken : ThreadStep env threads thrId down restart gWork window thread e thread') :
    thread'.ScanHeld := by
  rw [Thread.ScanHeld] at h
  cases taken with
  | begin | pass | copy | keep | skip | finish | tail => trivial
  | scan => exact ⟨rfl, rfl⟩
  | enter hphase =>
      rw [hphase] at h
      exact h
  | leave hphase =>
      rw [hphase] at h
      exact h
  | enterTail hphase =>
      rw [hphase] at h
      exact h
  | @round scan last hphase =>
      rw [hphase] at h
      exact (loopRound_n env thread.work scan).2.trans h

theorem ThreadStep.agrees {thrId : Nat} {down restart : Bool} {gWork last : Work}
    {window : Nat} {thread thread' : Thread} {e : ThreadEvent} (h : thread.ScanHeld)
    (he : e ≠ .take)
    (taken : ThreadStep env threads thrId down restart gWork window thread e thread') :
    AgreesWith thread'.work last ↔ AgreesWith thread.work last := by
  rw [Thread.ScanHeld] at h
  cases taken with
  | begin | pass | skip | scan | enter | leave | enterTail | round => exact Iff.rfl
  | copy => exact absurd rfl he
  | keep => exact absurd rfl he
  | @finish scan last hphase =>
      rw [hphase] at h
      apply agreesWith_data
      rw [List.take_set_of_le (by decide), h.words]
      rfl
  | @tail scan last hphase =>
      rw [hphase] at h
      apply agreesWith_data
      rw [List.take_set_of_le (by decide), (tailRound_n env thread.work scan).2.words, h.words]
      rfl

/-- Each thread has its flag set or holds the last work published for a new job. -/
def FlaggedOrCurrent (m : Miner threads) : Prop :=
  ∀ last, m.newJobWork = some last → ∀ t, m.restart t = true ∨ AgreesWith (m.thread t).work last

theorem flaggedOrCurrent_thread {m m' : Miner threads} {t : Fin threads} {e : ThreadEvent}
    (h : FlaggedOrCurrent m) (hheld : ∀ t, (m.thread t).ScanHeld) (he : e ≠ .take)
    (taken : minerStep env gate m (.thread t e) = some m') : FlaggedOrCurrent m' := by
  obtain ⟨thread', hstep, rfl⟩ := minerStep_thread taken
  intro last hlast u
  have hrestart : e.restart (m.restart t) = m.restart t := by
    cases e <;> first | rfl | exact absurd rfl he
  have hflags : Function.update m.restart t (e.restart (m.restart t)) = m.restart := by
    rw [hrestart, Function.update_eq_self]
  show Function.update m.restart t (e.restart (m.restart t)) u = true ∨
    AgreesWith (Function.update m.thread t thread' u).work last
  rw [hflags]
  refine (Function.forall_update_iff _ fun u (thread : Thread) =>
    m.restart u = true ∨ AgreesWith thread.work last).mpr ⟨?_, fun u _ => h last hlast u⟩ u
  exact (h last hlast t).imp_right (hstep.agrees (hheld t) he).mpr

theorem flaggedOrCurrent_other {m m' : Miner threads} {e : MinerEvent threads}
    (h : FlaggedOrCurrent m) (he : ∀ t e', e ≠ .thread t e')
    (taken : minerStep env gate m e = some m') : FlaggedOrCurrent m' ∧ m'.thread = m.thread := by
  cases e with
  | stratumDown down =>
      obtain rfl := Option.some.inj taken
      exact ⟨h, rfl⟩
  | restartThreads =>
      obtain rfl := Option.some.inj taken
      exact ⟨fun _ _ _ => Or.inl rfl, rfl⟩
  | dropJob =>
      obtain rfl := Option.some.inj taken
      exact ⟨h, rfl⟩
  | publish heap reauthEpoch sctx =>
      obtain ⟨built, -, rfl⟩ := Option.map_eq_some_iff.mp taken
      rw [Miner.publish]
      split
      · exact ⟨fun _ _ _ => Or.inl rfl, rfl⟩
      · exact ⟨h, rfl⟩
  | thread t e' => exact absurd rfl (he t e')

/-! What the other threads do to `g_work`. -/

inductive Publication where
  | dropJob
  | publish (work : Work) (newJob : Bool)

def MinerEvent.publication (gate : Gate) : MinerEvent threads → Option Publication
  | .dropJob => some .dropJob
  | .publish heap reauthEpoch sctx =>
      (stratumGenWork gate heap reauthEpoch sctx).map fun built => .publish built.2.1 built.2.2
  | .stratumDown _ | .restartThreads | .thread _ _ => none

/-- The publications of a run, latest first. -/
def publications (gate : Gate) (trace : List (Miner threads × MinerEvent threads)) :
    List Publication :=
  (trace.map Prod.snd).filterMap (·.publication gate)

def gWorkAfter : List Publication → Work
  | [] => .zero
  | .dropJob :: earlier => { gWorkAfter earlier with jobId := none }
  | .publish work _ :: _ => work

def newJobWorkAfter : List Publication → Option Work
  | [] => none
  | .publish work true :: _ => some work
  | .publish _ false :: earlier | .dropJob :: earlier => newJobWorkAfter earlier

/-- `std_get_new_work` does not tell the one work from the other. -/
def TakenForSame (work gWork : Work) : Prop :=
  forceNewWork work gWork = false ∧ headerWords work = headerWords gWork

instance (work gWork : Work) : Decidable (TakenForSame work gWork) := instDecidableAnd

/-- The publications tell the jobs apart and leave `g_work` to the last one published as new. -/
structure KeepsApart (published : List Publication) : Prop where
  /-- after a publication for a new job, no reset and no other work without a new job -/
  current : ∀ later ∈ published.tails, ∀ last ∈ newJobWorkAfter later,
    AgreesWith (gWorkAfter later) last
  /-- what has been in `g_work` before and is taken for the same is the same -/
  apart : ∀ later ∈ published.tails, (newJobWorkAfter later).isSome → ∀ earlier ∈ later.tails,
    TakenForSame (gWorkAfter earlier) (gWorkAfter later) →
      AgreesWith (gWorkAfter earlier) (gWorkAfter later)

@[simp] theorem publications_cons (gate : Gate) (m : Miner threads) (e : MinerEvent threads)
    (trace : List (Miner threads × MinerEvent threads)) :
    publications gate ((m, e) :: trace) =
      (e.publication gate).toList ++ publications gate trace := by
  rw [publications, List.map_cons, List.filterMap_cons]
  cases e.publication gate <;> rfl

theorem AgreesWith.refl (work : Work) : AgreesWith work work := ⟨rfl, rfl, rfl, rfl, rfl⟩

theorem AgreesWith.symm {work last : Work} (h : AgreesWith work last) : AgreesWith last work :=
  ⟨h.jobId.symm, h.words.symm, h.target.symm, h.xnonce2.symm, h.reauthEpoch.symm⟩

theorem AgreesWith.trans {work other last : Work} (h : AgreesWith work other)
    (h' : AgreesWith other last) : AgreesWith work last :=
  ⟨h.jobId.trans h'.jobId, h.words.trans h'.words, h.target.trans h'.target,
    h.xnonce2.trans h'.xnonce2, h.reauthEpoch.trans h'.reauthEpoch⟩

theorem AgreesWith.takenForSame {work other gWork : Work} (h : AgreesWith work other) :
    TakenForSame work gWork ↔ TakenForSame other gWork := by
  rw [TakenForSame, TakenForSame, forceNewWork, forceNewWork, h.jobId, h.words]

/-- A thread keeps its work exactly when it has nonces left and takes `g_work` for the same. -/
theorem copiesWork_eq_false_iff {work gWork : Work} {endNonce : UInt32} :
    copiesWork work gWork endNonce = false ↔
      TakenForSame work gWork ∧ nonceOf work < endNonce := by
  simp only [copiesWork, copiesFor, Bool.true_and, Bool.or_eq_false_iff, decide_eq_false_iff_not,
    not_not, UInt32.not_le, TakenForSame, headerWords, nonceOf]
  exact and_right_comm

/-- The shared data are what the publications have made them, and each thread holds some work
that has been in `g_work`. -/
structure Follows (published : List Publication) (m : Miner threads) : Prop where
  gWork : m.gWork = gWorkAfter published
  newJobWork : m.newJobWork = newJobWorkAfter published
  held : ∀ t, (m.thread t).ScanHeld
  work : ∀ t, ∃ earlier ∈ published.tails, AgreesWith (m.thread t).work (gWorkAfter earlier)

theorem Follows.thread {published : List Publication} {m m' : Miner threads} {t : Fin threads}
    {e : ThreadEvent} (h : Follows published m)
    (taken : minerStep env gate m (.thread t e) = some m') : Follows published m' := by
  obtain ⟨thread', hstep, rfl⟩ := minerStep_thread taken
  have hheld := h.held t
  refine ⟨h.gWork, h.newJobWork,
    (Function.forall_update_iff _ fun _ => Thread.ScanHeld).mpr
      ⟨hstep.held hheld, fun u _ => h.held u⟩,
    (Function.forall_update_iff _ fun _ (thread : Thread) =>
      ∃ earlier ∈ published.tails, AgreesWith thread.work (gWorkAfter earlier)).mpr
      ⟨?_, fun u _ => h.work u⟩⟩
  obtain ⟨earlier, hearlier, hagrees⟩ := h.work t
  by_cases he : e = .take
  · subst he
    cases hstep with
    | copy hphase hready hcopy =>
        refine ⟨published, (List.mem_tails _ _).mpr List.suffix_rfl, ?_⟩
        rw [← h.gWork]
        exact (agreesWith_data (List.take_set_of_le (by decide))).mpr (.refl m.gWork)
    | keep hphase hkeep =>
        exact ⟨earlier, hearlier,
          (agreesWith_data (List.take_set_of_le (by decide))).mpr hagrees⟩
  · exact ⟨earlier, hearlier, (hstep.agrees hheld he).mpr hagrees⟩

theorem Follows.step {published : List Publication} {m m' : Miner threads}
    {e : MinerEvent threads} (h : Follows published m) (taken : minerStep env gate m e = some m') :
    Follows ((e.publication gate).toList ++ published) m' := by
  have hwork : ∀ p t, ∃ earlier ∈ (p :: published).tails,
      AgreesWith (m.thread t).work (gWorkAfter earlier) := fun p t =>
    (h.work t).imp fun earlier => And.imp_left (List.mem_cons_of_mem _)
  cases e with
  | stratumDown down =>
      obtain rfl := Option.some.inj taken
      exact ⟨h.gWork, h.newJobWork, h.held, h.work⟩
  | restartThreads =>
      obtain rfl := Option.some.inj taken
      exact ⟨h.gWork, h.newJobWork, h.held, h.work⟩
  | dropJob =>
      obtain rfl := Option.some.inj taken
      refine ⟨?_, h.newJobWork, h.held, hwork _⟩
      show { m.gWork with jobId := none } = gWorkAfter (.dropJob :: published)
      rw [h.gWork, gWorkAfter]
  | publish heap reauthEpoch sctx =>
      obtain ⟨built, hbuilt, rfl⟩ := Option.map_eq_some_iff.mp taken
      have hpublication :
          (MinerEvent.publish heap reauthEpoch sctx : MinerEvent threads).publication gate =
            some (.publish built.2.1 built.2.2) := congrArg (Option.map _) hbuilt
      rw [hpublication]
      cases hnew : built.2.2 with
      | true => exact ⟨rfl, rfl, h.held, hwork _⟩
      | false => exact ⟨rfl, h.newJobWork, h.held, hwork _⟩
  | thread t e => exact h.thread taken

theorem follows_of_run {trace : List (Miner threads × MinerEvent threads)} {m : Miner threads}
    (run : Run (minerStep env gate) (.init threads) trace m) :
    Follows (publications gate trace) m := by
  induction run with
  | start => exact ⟨rfl, rfl, fun _ => trivial, fun _ => ⟨[], List.mem_singleton_self _, .refl _⟩⟩
  | next _ taken ih =>
      rw [publications_cons]
      exact ih.step taken

theorem KeepsApart.of_suffix {published later : List Publication} (h : KeepsApart published)
    (hlater : later <:+ published) : KeepsApart later := by
  have mem : ∀ earlier ∈ later.tails, earlier ∈ published.tails := fun earlier hearlier =>
    (List.mem_tails _ _).mpr (((List.mem_tails _ _).mp hearlier).trans hlater)
  exact ⟨fun earlier hearlier => h.current earlier (mem earlier hearlier),
    fun earlier hearlier => h.apart earlier (mem earlier hearlier)⟩

/-- A thread that takes work takes the last one published for a new job. -/
theorem flaggedOrCurrent_take {published : List Publication} {m m' : Miner threads}
    {t : Fin threads} (h : FlaggedOrCurrent m) (hfollows : Follows published m)
    (apart : KeepsApart published) (taken : minerStep env gate m (.thread t .take) = some m') :
    FlaggedOrCurrent m' := by
  obtain ⟨thread', hstep, rfl⟩ := minerStep_thread taken
  intro last hlast
  refine (Function.forall_update_iff _ fun u (thread : Thread) =>
    Function.update m.restart t false u = true ∨ AgreesWith thread.work last).mpr ⟨Or.inr ?_, ?_⟩
  · have hself : published ∈ published.tails := (List.mem_tails _ _).mpr List.suffix_rfl
    have hnew : newJobWorkAfter published = some last := hfollows.newJobWork.symm.trans hlast
    have hcurrent : AgreesWith m.gWork last := by
      rw [hfollows.gWork]
      exact apart.current published hself last hnew
    cases hstep with
    | copy hphase hready hcopy =>
        exact (agreesWith_data (List.take_set_of_le (by decide))).mpr hcurrent
    | keep hphase hkeep =>
        obtain ⟨earlier, hearlier, hagrees⟩ := hfollows.work t
        have hsame := (copiesWork_eq_false_iff.mp hkeep).1
        rw [hagrees.takenForSame, hfollows.gWork] at hsame
        have hgWork := apart.apart published hself (by rw [hnew]; rfl) earlier hearlier hsame
        rw [← hfollows.gWork] at hgWork
        exact (agreesWith_data (List.take_set_of_le (by decide))).mpr
          (hagrees.trans (hgWork.trans hcurrent))
  · intro u hu
    rw [Function.update_of_ne hu]
    exact h last hlast u

theorem visits_of_keepsApart {trace : List (Miner threads × MinerEvent threads)}
    {m : Miner threads} (run : Run (minerStep env gate) (.init threads) trace m)
    (apart : KeepsApart (publications gate trace)) : Visits FlaggedOrCurrent trace m := by
  induction run with
  | start => exact ⟨fun _ hlast => absurd hlast (by simp [Miner.init]), by simp⟩
  | @next trace m e m' run taken ih =>
      rw [publications_cons] at apart
      have apart := apart.of_suffix (List.suffix_append _ _)
      have before := ih apart
      refine visits_cons.mpr ⟨?_, before⟩
      cases e with
      | thread t e =>
          by_cases he : e = .take
          · subst he
            exact flaggedOrCurrent_take before.1 (follows_of_run run) apart taken
          · exact flaggedOrCurrent_thread before.1 (follows_of_run run).held he taken
      | stratumDown | restartThreads | dropJob | publish =>
          exact (flaggedOrCurrent_other before.1 (by rintro t e' ⟨⟩) taken).1

/-! The other way: a thread that stays on the top of its loop can take work at any time. -/

variable (env) in
theorem publication_step {e : MinerEvent threads} {p : Publication}
    (hp : e.publication gate = some p) (m : Miner threads) :
    ∃ m', minerStep env gate m e = some m' ∧ m'.thread = m.thread ∧
      m'.stratumDown = m.stratumDown := by
  cases e with
  | dropJob => exact ⟨_, rfl, rfl, rfl⟩
  | publish heap reauthEpoch sctx =>
      obtain ⟨built, hbuilt, -⟩ := Option.map_eq_some_iff.mp hp
      refine ⟨m.publish built.2.1 built.2.2, by rw [minerStep, hbuilt]; rfl, ?_, ?_⟩
      · exact (m.publish_gWork built.2.1 built.2.2).2
      · rw [Miner.publish]
        split <;> rfl
  | stratumDown | restartThreads | thread => contradiction

/-- The publications of a run can follow on another one with the earlier of them, with no
thread taking a step. -/
theorem replay {trace : List (Miner threads × MinerEvent threads)} {m : Miner threads}
    (run : Run (minerStep env gate) (.init threads) trace m) {rest later : List Publication}
    (hall : publications gate trace = rest ++ later)
    {trace' : List (Miner threads × MinerEvent threads)} {m' : Miner threads}
    (run' : Run (minerStep env gate) (.init threads) trace' m')
    (hlater : publications gate trace' = later) :
    ∃ trace'' m'', Run (minerStep env gate) (.init threads) trace'' m'' ∧
      publications gate trace'' = publications gate trace ∧ m''.thread = m'.thread ∧
      m''.stratumDown = m'.stratumDown ∧ (∀ P, Visits P trace'' m'' → P m') := by
  induction run generalizing rest with
  | start =>
      obtain ⟨rfl, rfl⟩ := List.append_eq_nil_iff.mp hall.symm
      exact ⟨trace', m', run', hlater, rfl, rfl, fun P visits => visits.1⟩
  | @next trace s e s' run taken ih =>
      rw [publications_cons] at hall ⊢
      cases hp : e.publication gate with
      | none =>
          rw [hp] at hall
          exact ih hall
      | some p =>
          rw [hp] at hall
          cases rest with
          | nil =>
              exact ⟨trace', m', run', hlater.trans hall.symm, rfl, rfl, fun P visits => visits.1⟩
          | cons p' rest =>
              obtain ⟨trace'', m'', run'', hpubs, hthread, hdown, hvisits⟩ :=
                ih (List.cons.inj hall).2
              obtain ⟨n, step, hthread', hdown'⟩ := publication_step env hp m''
              refine ⟨_, n, run''.next step, ?_, hthread'.trans hthread, hdown'.trans hdown,
                fun P visits => hvisits P (visits_cons.mp visits).2⟩
              rw [publications_cons, hp, hpubs]

/-- The run up to some of its publications, with `stratum_down` clear and no thread begun. -/
theorem replay_start {trace : List (Miner threads × MinerEvent threads)} {m : Miner threads}
    (run : Run (minerStep env gate) (.init threads) trace m) {later : List Publication}
    (hlater : later <:+ publications gate trace) :
    ∃ trace' m', Run (minerStep env gate) (.init threads) trace' m' ∧
      publications gate trace' = later ∧ m'.thread = (Miner.init threads).thread ∧
      m'.stratumDown = false := by
  induction run generalizing later with
  | start =>
      obtain rfl := List.suffix_nil.mp hlater
      have step : minerStep env gate (.init threads) (.stratumDown false) =
          some { Miner.init threads with stratumDown := false } := rfl
      exact ⟨_, _, .next .start step, rfl, rfl, rfl⟩
  | @next trace s e s' run taken ih =>
      rw [publications_cons] at hlater
      cases hp : e.publication gate with
      | none =>
          rw [hp] at hlater
          exact ih hlater
      | some p =>
          rw [hp] at hlater
          rcases List.suffix_cons_iff.mp hlater with rfl | hlater
          · obtain ⟨trace', m', run', hpubs, hthread, hdown⟩ := ih List.suffix_rfl
            obtain ⟨n, step, hthread', hdown'⟩ := publication_step env hp m'
            refine ⟨_, n, run'.next step, ?_, hthread'.trans hthread, hdown'.trans hdown⟩
            rw [publications_cons, hp, hpubs]
            rfl
          · exact ih hlater

variable (env gate) in
/-- After these publications a thread can stand so, with `stratum_down` clear. -/
def Reaches (published : List Publication) (t : Fin threads) (thread : Thread) : Prop :=
  ∃ trace m, Run (minerStep env gate) (.init threads) trace m ∧
    publications gate trace = published ∧ m.thread t = thread ∧ m.stratumDown = false

theorem Reaches.next {published : List Publication} {t : Fin threads} {thread thread' : Thread}
    {e : ThreadEvent} (h : Reaches env gate published t thread)
    (step : ∀ restart window, threadStep env threads t false restart (gWorkAfter published) window
      thread e = some thread') :
    ∃ trace m, Run (minerStep env gate) (.init threads) trace m ∧
      publications gate trace = published ∧ m.thread t = thread' ∧ m.stratumDown = false ∧
      (e = .take → m.restart t = false) := by
  obtain ⟨trace, m, run, hpubs, rfl, hdown⟩ := h
  have hgWork : m.gWork = gWorkAfter published := hpubs ▸ (follows_of_run run).gWork
  have hstep := step (m.restart t) m.window
  rw [← hgWork, ← hdown] at hstep
  have taken : minerStep env gate m (.thread t e) = some { m with
      thread := Function.update m.thread t thread'
      restart := Function.update m.restart t (e.restart (m.restart t)) } := by
    rw [minerStep, hstep]
    rfl
  refine ⟨_, _, run.next taken, ?_, Function.update_self .., hdown, ?_⟩
  · rw [publications_cons, hpubs]
    rfl
  · rintro rfl
    exact Function.update_self ..

theorem Reaches.step {published : List Publication} {t : Fin threads} {thread thread' : Thread}
    {e : ThreadEvent} (h : Reaches env gate published t thread)
    (step : ∀ restart window, threadStep env threads t false restart (gWorkAfter published) window
      thread e = some thread') : Reaches env gate published t thread' := by
  obtain ⟨trace, m, run, hpubs, hthread, hdown, -⟩ := h.next step
  exact ⟨trace, m, run, hpubs, hthread, hdown⟩

/-- A run whose other interleavings all keep the threads current. -/
structure KeepsAll (env : ScanEnv) (gate : Gate) (trace : List (Miner threads × MinerEvent threads))
    (m : Miner threads) : Prop where
  run : Run (minerStep env gate) (.init threads) trace m
  all : ∀ trace' m', Run (minerStep env gate) (.init threads) trace' m' →
    publications gate trace' = publications gate trace → Visits FlaggedOrCurrent trace' m'

section

variable {trace : List (Miner threads × MinerEvent threads)} {m : Miner threads}
  {earlier later : List Publication} {t : Fin threads}

theorem KeepsAll.reaches (h : KeepsAll env gate trace m)
    (hlater : later <:+ publications gate trace) :
    Reaches env gate later t ((Miner.init threads).thread t) := by
  obtain ⟨trace', m', run', hpubs, hthread, hdown⟩ := replay_start h.run hlater
  exact ⟨trace', m', run', hpubs, congrFun hthread t, hdown⟩

theorem KeepsAll.reaches_later (h : KeepsAll env gate trace m)
    (hlater : later <:+ publications gate trace) (hearlier : earlier <:+ later) {thread : Thread}
    (reaches : Reaches env gate earlier t thread) : Reaches env gate later t thread := by
  obtain ⟨trace', m', run', hpubs', hthread', hdown'⟩ := reaches
  obtain ⟨trace₀, m₀, run₀, hpubs₀, -⟩ := replay_start h.run hlater
  obtain ⟨rest, hrest⟩ := hearlier
  obtain ⟨trace'', m'', run'', hpubs, hthread, hdown, -⟩ :=
    replay run₀ (hpubs₀.trans hrest.symm) run' hpubs'
  exact ⟨trace'', m'', run'', hpubs.trans hpubs₀, (congrFun hthread t).trans hthread',
    hdown.trans hdown'⟩

/-- Whatever a thread takes is the last work published for a new job. -/
theorem KeepsAll.agrees (h : KeepsAll env gate trace m) (hlater : later <:+ publications gate trace)
    {last : Work} (hlast : newJobWorkAfter later = some last) {thread thread' : Thread}
    (reaches : Reaches env gate later t thread)
    (step : ∀ restart window, threadStep env threads t false restart (gWorkAfter later) window
      thread .take = some thread') : AgreesWith thread'.work last := by
  obtain ⟨trace', m', run', hpubs', rfl, -, hflag⟩ := reaches.next step
  obtain ⟨rest, hrest⟩ := hlater
  obtain ⟨trace'', m'', run'', hpubs, -, -, hvisits⟩ := replay h.run hrest.symm run' hpubs'
  have hkept : FlaggedOrCurrent m' := hvisits _ (h.all _ _ run'' hpubs)
  have hlast' : m'.newJobWork = some last := by
    rw [(follows_of_run run').newJobWork, hpubs', hlast]
  rcases hkept last hlast' t with hset | hagrees
  · exact absurd ((hflag rfl).symm.trans hset) Bool.false_ne_true
  · exact hagrees

end

/-! The first thread. -/

theorem initialEndNonce_pos (hthreads : 1 ≤ threads) (hmax : threads ≤ 9999) :
    0 < initialEndNonce threads 0 := by
  have hroom : threads + 1 ≤ rangeSize threads := by
    rw [rangeSize, Nat.le_div_iff_mul_le hthreads]
    calc (threads + 1) * threads ≤ 10000 * 9999 :=
          Nat.mul_le_mul (Nat.succ_le_succ hmax) hmax
      _ ≤ 2 ^ 32 - 1 := by decide
  have hend := toNat_initialEndNonce hthreads hmax hthreads
  rw [UInt32.lt_iff_toNat_lt, hend]
  show 0 < rangeSize threads * (0 + 1) - threads
  omega

def firstThread (hthreads : 1 ≤ threads) : Fin threads := ⟨0, hthreads⟩

def freshThread (threads : Nat) : Thread where
  work := .zero
  endNonce := initialEndNonce threads 0
  phase := .passed
  evaluated := []

def copyOf (threads : Nat) (gWork : Work) : Thread where
  work := { gWork with data := gWork.data.set nonceIndex (firstNonce threads 0) }
  endNonce := lastNonce threads 0
  phase := .taken
  evaluated := []

theorem copyOf_agrees (threads : Nat) (gWork last : Work) :
    AgreesWith (copyOf threads gWork).work last ↔ AgreesWith gWork last :=
  agreesWith_data (List.take_set_of_le (by decide))

theorem nonceOf_copyOf (threads : Nat) (gWork : Work) :
    nonceOf (copyOf threads gWork).work = 0 := by
  have hfirst : firstNonce threads 0 = 0 := UInt32.mul_zero
  rw [copyOf, nonceOf, hfirst]
  by_cases hlength : nonceIndex < gWork.data.length
  · rw [List.getD_eq_getElem _ _ (by rwa [List.length_set]), List.getElem_set_self]
  · rw [List.getD_eq_default _ _ (by rw [List.length_set]; omega)]

theorem freshThread_takes (hthreads : 1 ≤ threads) (hmax : threads ≤ 9999) (gWork : Work)
    (restart : Bool) (window : Nat) :
    threadStep env threads 0 false restart gWork window (freshThread threads) .take =
      some (copyOf threads gWork) := by
  have hready : nonceOf (freshThread threads).work < (freshThread threads).endNonce :=
    initialEndNonce_pos hthreads hmax
  have hcopy : copiesWork (freshThread threads).work gWork (freshThread threads).endNonce = true :=
    rfl
  simp only [threadStep, hready, stdGetNewWork_copy hcopy]
  rfl

variable (env) in
theorem copyOf_keeps (hthreads : 1 ≤ threads) (hmax : threads ≤ 9999) {work gWork : Work}
    (same : TakenForSame work gWork) :
    ∃ thread', (∀ restart window, threadStep env threads 0 false restart gWork window
      { copyOf threads work with phase := .passed } .take = some thread') ∧
      ∀ last, AgreesWith thread'.work last ↔ AgreesWith work last := by
  have hready : nonceOf (copyOf threads work).work < (copyOf threads work).endNonce := by
    rw [nonceOf_copyOf]
    exact UInt32.lt_of_le_of_lt UInt32.zero_le (firstNonce_lt_lastNonce hthreads hmax hthreads)
  have hsame : TakenForSame (copyOf threads work).work gWork :=
    ((copyOf_agrees threads work work).mpr (.refl work)).takenForSame.mpr same
  have hkeep : copiesWork (copyOf threads work).work gWork (copyOf threads work).endNonce = false :=
    copiesWork_eq_false_iff.mpr ⟨hsame, hready⟩
  refine ⟨{ copyOf threads work with
      work := { (copyOf threads work).work with
        data := (copyOf threads work).work.data.set nonceIndex
          (nonceOf (copyOf threads work).work + 1) } },
    fun restart window => ?_, fun last => ?_⟩
  · simp only [threadStep, hready, stdGetNewWork_keep hkeep]
    rfl
  · exact (agreesWith_data (List.take_set_of_le (by decide))).trans
      (copyOf_agrees threads work last)

theorem KeepsAll.keepsApart {trace : List (Miner threads × MinerEvent threads)} {m : Miner threads}
    (hthreads : 1 ≤ threads) (hmax : threads ≤ 9999) (h : KeepsAll env gate trace m) :
    KeepsApart (publications gate trace) := by
  have fresh : ∀ later, later <:+ publications gate trace →
      Reaches env gate later (firstThread hthreads) (freshThread threads) := by
    intro later hlater
    have start : Reaches env gate later (firstThread hthreads)
        ((Miner.init threads).thread (firstThread hthreads)) := h.reaches hlater
    have top : Reaches env gate later (firstThread hthreads)
        { freshThread threads with phase := .top } :=
      start.step fun _ _ => (rfl : threadStep _ _ _ _ _ _ _ _ .begin = _)
    exact top.step fun _ _ => (rfl : threadStep _ _ _ _ _ _ _ _ .pass = _)
  have current : ∀ later ∈ (publications gate trace).tails, ∀ last ∈ newJobWorkAfter later,
      AgreesWith (gWorkAfter later) last := by
    intro later hlater last hlast
    have hlater := (List.mem_tails _ _).mp hlater
    exact (copyOf_agrees threads _ last).mp
      (h.agrees hlater hlast (fresh later hlater) (freshThread_takes hthreads hmax _))
  refine ⟨current, fun later hlater hnew earlier hearlier same => ?_⟩
  obtain ⟨last, hlast⟩ := Option.isSome_iff_exists.mp hnew
  have hcurrent := current later hlater last hlast
  have hlater := (List.mem_tails _ _).mp hlater
  have hearlier := (List.mem_tails _ _).mp hearlier
  -- it takes the earlier work, its time is over, and it comes back for the later one
  have taken : Reaches env gate earlier (firstThread hthreads)
      (copyOf threads (gWorkAfter earlier)) :=
    (fresh earlier (hearlier.trans hlater)).step (freshThread_takes hthreads hmax _)
  have top : Reaches env gate earlier (firstThread hthreads)
      { copyOf threads (gWorkAfter earlier) with phase := .top } :=
    taken.step fun _ _ => (rfl : threadStep _ _ _ _ _ _ _ _ .skip = _)
  have passed : Reaches env gate later (firstThread hthreads)
      { copyOf threads (gWorkAfter earlier) with phase := .passed } :=
    (h.reaches_later hlater hearlier top).step fun _ _ =>
      (rfl : threadStep _ _ _ _ _ _ _ _ .pass = _)
  obtain ⟨thread', step, hagrees⟩ := copyOf_keeps env hthreads hmax same
  exact ((hagrees last).mp (h.agrees hlater hlast passed step)).trans hcurrent.symm

/-- Whatever the order of the steps, the threads have their flags set or hold the last work
published for a new job, exactly when the publications keep the jobs apart. -/
theorem flagged_or_current_iff (hthreads : 1 ≤ threads) (hmax : threads ≤ 9999)
    {trace : List (Miner threads × MinerEvent threads)} {m : Miner threads}
    (run : Run (minerStep env gate) (.init threads) trace m) :
    (∀ trace' m', Run (minerStep env gate) (.init threads) trace' m' →
      publications gate trace' = publications gate trace → Visits FlaggedOrCurrent trace' m') ↔
      KeepsApart (publications gate trace) := by
  constructor
  · intro all
    exact KeepsAll.keepsApart hthreads hmax ⟨run, all⟩
  · intro apart trace' m' run' hpubs
    exact visits_of_keepsApart run' (hpubs ▸ apart)

end

instance (published : List Publication) : Decidable (KeepsApart published) :=
  decidable_of_iff ((∀ later ∈ published.tails, ∀ last ∈ newJobWorkAfter later,
      AgreesWith (gWorkAfter later) last) ∧
      ∀ later ∈ published.tails, (newJobWorkAfter later).isSome → ∀ earlier ∈ later.tails,
        TakenForSame (gWorkAfter earlier) (gWorkAfter later) →
          AgreesWith (gWorkAfter earlier) (gWorkAfter later))
    ⟨fun h => ⟨h.1, h.2⟩, fun h => ⟨h.current, h.apart⟩⟩

def nextJob : StratumCtx :=
  { firstJob with
    job := { firstJob.job with jobId := some (cstr "b"), ntime := ⟨[0, 0, 0, 1], rfl⟩ } }

def twoJobEvents : List (MinerEvent 1) :=
  jobEvents ++ .thread 0 .begin :: oneNonce 0 ++ [.publish .zero 0 nextJob] ++ oneNonce 0

theorem flagged_or_current_two_jobs : ∃ (trace : List (Miner 1 × MinerEvent 1)) (m : Miner 1),
    Run (minerStep .plain .zero) (.init 1) trace m ∧
      (m.thread 0).work.jobId = some (cstr "b") ∧
      ∀ trace' m', Run (minerStep .plain .zero) (.init 1) trace' m' →
        publications .zero trace' = publications .zero trace →
          Visits FlaggedOrCurrent trace' m' := by
  have hexec : (exec (minerStep .plain .zero) (.init 1) twoJobEvents).map
      (fun m => (m.thread 0).work.jobId) = some (some (cstr "b")) := by decide +kernel
  obtain ⟨m, hm, hjobId⟩ := Option.map_eq_some_iff.mp hexec
  obtain ⟨trace, run, hevents⟩ := Run.start.exec hm
  have apart : KeepsApart (twoJobEvents.reverse.filterMap (·.publication .zero)) := by
    decide +kernel
  refine ⟨trace, m, run, hjobId, (flagged_or_current_iff (by decide) (by decide) run).mpr ?_⟩
  rw [publications, hevents, List.map_nil, List.append_nil]
  exact apart

def sameNumberJob : StratumCtx :=
  { firstJob with job := { firstJob.job with jobId := some (cstr "0xA") } }

/-- A thread takes job `a`, and takes nothing new when job `0xA` comes. -/
def sameNumberEvents : List (MinerEvent 1) :=
  jobEvents ++ .thread 0 .begin :: oneNonce 0 ++ [.publish .zero 0 sameNumberJob] ++ oneNonce 0

theorem same_number_not_current : ¬ ∀ (threads : Nat) (env : ScanEnv) (gate : Gate)
    (trace : List (Miner threads × MinerEvent threads)) (m : Miner threads),
    Run (minerStep env gate) (.init threads) trace m →
      (∀ taken ∈ trace, (∃ heap epoch sctx, taken.2 = .publish heap epoch sctx) ∨
        (∃ down, taken.2 = .stratumDown down) ∨ ∃ t e, taken.2 = .thread t e) →
      Visits FlaggedOrCurrent trace m := by
  intro h
  have hexec : (exec (minerStep .plain .zero) (.init 1) sameNumberEvents).map
      (fun m => (m.restart 0, (m.thread 0).work.jobId, m.newJobWork.map (·.jobId))) =
      some (false, some (cstr "a"), some (some (cstr "0xA"))) := by decide +kernel
  obtain ⟨m, hm, hstate⟩ := Option.map_eq_some_iff.mp hexec
  simp only [Prod.mk.injEq] at hstate
  obtain ⟨hflag, hheld, hpublished⟩ := hstate
  obtain ⟨last, hlast, hlastId⟩ := Option.map_eq_some_iff.mp hpublished
  obtain ⟨trace, run, hevents⟩ := Run.start.exec hm
  have hkinds : ∀ e ∈ sameNumberEvents, (∃ heap epoch sctx, e = .publish heap epoch sctx) ∨
      (∃ down, e = .stratumDown down) ∨ ∃ t e', e = .thread t e' := by
    intro e he
    cases e with
    | publish heap epoch sctx => exact Or.inl ⟨heap, epoch, sctx, rfl⟩
    | stratumDown down => exact Or.inr (Or.inl ⟨down, rfl⟩)
    | thread t e' => exact Or.inr (Or.inr ⟨t, e', rfl⟩)
    | restartThreads | dropJob => simp [sameNumberEvents, jobEvents, oneNonce] at he
  have hvisits := h 1 .plain .zero trace m run fun taken hmem => hkinds _ (by
    have hmap := List.mem_map_of_mem (f := Prod.snd) hmem
    rw [hevents] at hmap
    simpa using hmap)
  rcases hvisits.1 last hlast 0 with hset | hagrees
  · rw [hflag] at hset
    exact Bool.false_ne_true hset
  · have hids := hagrees.jobId
    rw [hheld, hlastId] at hids
    exact absurd hids (by decide +kernel)

end SojCivicLight.Mining
