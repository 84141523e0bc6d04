import Mathlib.Data.List.Nodup
import SojCivicLight.Mining.Threads

/-! The nonces that the threads hash: each thread stays in a range of its own, and goes
through it upwards. -/

namespace SojCivicLight.Mining

open SojCivicLight.Library SojCivicLight.Util SojCivicLight.Stratum

def Thread.nonce (thread : Thread) : UInt32 :=
  match thread.phase with
  | .looking _ scan _ | .hashing _ scan _ => scan.n
  | _ => nonceOf thread.work

structure InRange (threads thrId : Nat) (n : UInt32) : Prop where
  first : rangeSize threads * thrId ≤ n.toNat
  last : n.toNat ≤ rangeSize threads * (thrId + 1) - 32

/-- The two differ at most in the nonce. -/
structure SameHeader (data data' : List UInt32) : Prop where
  length : data.length = data'.length
  words : data.take workCmpWords = data'.take workCmpWords

/-- A scan of `work` inside the range of a thread. -/
structure ScanIn (threads thrId : Nat) (work : Work) (scan : Scan) (last : UInt32) : Prop where
  n : InRange threads thrId scan.n
  last : last.toNat < rangeSize threads * (thrId + 1) - 32
  pdata : SameHeader scan.pdata work.data

/-- The round about to be hashed lies before `last`. -/
def RoundIn (env : ScanEnv) (tail : Bool) (n last : UInt32) : Prop :=
  n.toNat + (roundNonces env tail n).length ≤ last.toNat

/-- Where the nonce of a thread is, by its phase; it has none before it has taken work. -/
def Thread.Placed (env : ScanEnv) (threads thrId : Nat) (thread : Thread) : Prop :=
  match thread.phase with
  | .start | .top | .passed =>
      thread.work = .zero ∨
        thread.endNonce = lastNonce threads thrId ∧ InRange threads thrId (nonceOf thread.work)
  | .taken =>
      thread.endNonce = lastNonce threads thrId ∧ InRange threads thrId (nonceOf thread.work)
  | .looking _ scan last =>
      thread.endNonce = lastNonce threads thrId ∧ ScanIn threads thrId thread.work scan last
  | .hashing tail scan last =>
      thread.endNonce = lastNonce threads thrId ∧ ScanIn threads thrId thread.work scan last ∧
        RoundIn env tail scan.n last

structure ThreadOk (env : ScanEnv) (threads thrId : Nat) (thread : Thread) : Prop where
  data : thread.work.data.length = 48
  placed : thread.Placed env threads thrId
  evaluated : ∀ e ∈ thread.evaluated, rangeSize threads * thrId ≤ e.nonce.toNat ∧
    e.nonce.toNat < rangeSize threads * (thrId + 1) - 32

section

variable {env : ScanEnv} {threads thrId : Nat}

theorem nonceOf_set {work : Work} {data : List UInt32} (hdata : data.length = 48) (n : UInt32) :
    nonceOf { work with data := data.set nonceIndex n } = n := by
  rw [nonceOf, List.getD_eq_getElem?_getD, List.getElem?_set_self (by rw [hdata]; decide)]
  rfl

@[simp] theorem headerWords_set (work : Work) (data : List UInt32) (n : UInt32) :
    headerWords { work with data := data.set nonceIndex n } = data.take workCmpWords :=
  List.take_set_of_le (by decide)

theorem SameHeader.set (data : List UInt32) (n : UInt32) :
    SameHeader (data.set nonceIndex n) data :=
  ⟨List.length_set, List.take_set_of_le (by decide)⟩

theorem SameHeader.trans {a b c : List UInt32} (h : SameHeader a b) (h' : SameHeader b c) :
    SameHeader a c :=
  ⟨h.length.trans h'.length, h.words.trans h'.words⟩

theorem offer_pdata (env : ScanEnv) (work : Work) (n : UInt32) (hash : List UInt8) (scan : Scan) :
    SameHeader (offer env work n hash scan).pdata scan.pdata := by
  rw [offer]
  split
  · exact .set _ _
  · exact ⟨rfl, rfl⟩

theorem countHashes_pdata (count : Nat) (scan : Scan) :
    (countHashes env count scan).pdata = scan.pdata := by
  simp only [countHashes]
  split_ifs <;> rfl

theorem loopRound_n (env : ScanEnv) (work : Work) (scan : Scan) :
    (loopRound env work scan).n =
        scan.n + UInt32.ofNat (roundNonces env false scan.n).length ∧
      SameHeader (loopRound env work scan).pdata scan.pdata := by
  rw [loopRound, roundNonces, Bool.false_or]
  split
  · refine ⟨rfl, ?_⟩
    have hoffer := offer_pdata env work scan.n
      (env.impl.civiclightPowhashFromMidstate (scanHeader env work scan.n)
        (headerMidstate env work))
      (countHashes env 1 { scan with hashed := scan.hashed ++ [scanHeader env work scan.n] })
    rw [countHashes_pdata] at hoffer
    exact hoffer
  · refine ⟨rfl, ?_⟩
    rw [scanPairRound]
    dsimp only
    apply (offer_pdata env work (scan.n + 1) _ _).trans
    have hoffer := offer_pdata env work scan.n
      (env.impl.civiclightPowhash2wayMidstate (scanHeader env work scan.n)
        (scanHeader env work (scan.n + 1)) (headerMidstate env work)).1
      (countHashes env 2 { scan with
        hashed := scan.hashed ++ [scanHeader env work scan.n, scanHeader env work (scan.n + 1)] })
    rw [countHashes_pdata] at hoffer
    exact hoffer

theorem tailRound_n (env : ScanEnv) (work : Work) (scan : Scan) :
    (tailRound env work scan).n = scan.n + 1 ∧
      SameHeader (tailRound env work scan).pdata scan.pdata := by
  refine ⟨rfl, ?_⟩
  rw [tailRound]
  apply (offer_pdata env work scan.n _ _).trans
  split <;> exact ⟨rfl, rfl⟩

theorem toNat_add_round {tail : Bool} {n last : UInt32} (h : RoundIn env tail n last) :
    (n + UInt32.ofNat (roundNonces env tail n).length).toNat =
      n.toNat + (roundNonces env tail n).length := by
  have hlast := last.toNat_lt
  rw [RoundIn] at h
  have hsmall : (UInt32.ofNat (roundNonces env tail n).length).toNat =
      (roundNonces env tail n).length :=
    UInt32.toNat_ofNat_of_lt' (by show _ < 2 ^ 32; omega)
  rw [UInt32.toNat_add, hsmall, Nat.mod_eq_of_lt (by omega)]

theorem mem_roundNonces {tail : Bool} {n last m : UInt32} (h : RoundIn env tail n last)
    (hm : m ∈ roundNonces env tail n) :
    n.toNat ≤ m.toNat ∧ m.toNat < n.toNat + (roundNonces env tail n).length := by
  have hlast := last.toNat_lt
  rw [RoundIn] at h
  rw [roundNonces] at hm h ⊢
  split at hm
  · rename_i hsingle
    rw [if_pos hsingle, List.mem_singleton.mp hm, List.length_singleton]
    omega
  · rename_i hpair
    rw [if_neg hpair] at h ⊢
    have htwo : ([n, n + 1] : List UInt32).length = 2 := rfl
    rw [htwo] at h ⊢
    rcases List.mem_cons.mp hm with rfl | hm
    · omega
    · rw [List.mem_singleton.mp hm, toNat_succ (by omega)]
      omega

theorem roundIn_of_scanGuard {n last : UInt32} (hn : n.toNat + 1 < 2 ^ 32)
    (hguard : scanGuard env n last = true) : RoundIn env false n last := by
  rw [scanGuard] at hguard
  rw [RoundIn, roundNonces, Bool.false_or]
  cases honeway : env.oneway with
  | true =>
      rw [honeway, if_pos rfl, decide_eq_true_eq, UInt32.lt_iff_toNat_lt] at hguard
      exact hguard
  | false =>
      rw [honeway, if_neg Bool.false_ne_true, decide_eq_true_eq, UInt32.lt_iff_toNat_lt,
        toNat_succ hn] at hguard
      exact hguard

theorem roundIn_tail {n last : UInt32} (h : n < last) : RoundIn env true n last := h

theorem ScanIn.round {work : Work} {scan : Scan} {last : UInt32}
    (h : ScanIn threads thrId work scan last) (hin : RoundIn env false scan.n last) :
    ScanIn threads thrId work (loopRound env work scan) last := by
  obtain ⟨hn, hpdata⟩ := loopRound_n env work scan
  have hnext := toNat_add_round hin
  have hbefore := h.n.first
  have hafter := h.last
  rw [← hn] at hnext
  rw [RoundIn] at hin
  exact ⟨⟨by omega, by omega⟩, hafter, hpdata.trans h.pdata⟩

theorem ScanIn.mem_round {tail : Bool} {work : Work} {scan : Scan} {last n : UInt32}
    (h : ScanIn threads thrId work scan last) (hin : RoundIn env tail scan.n last)
    (hn : n ∈ roundNonces env tail scan.n) :
    rangeSize threads * thrId ≤ n.toNat ∧ n.toNat < rangeSize threads * (thrId + 1) - 32 := by
  obtain ⟨habove, hbelow⟩ := mem_roundNonces hin hn
  have hbefore := h.n.first
  have hafter := h.last
  rw [RoundIn] at hin
  omega

theorem ThreadStep.ok (hthreads : 1 ≤ threads) (hmax : threads ≤ 9999)
    (hthrId : thrId < threads) {down restart : Bool} {gWork : Work} {window : Nat}
    (hgWork : gWork.data.length = 48) {thread thread' : Thread} {e : ThreadEvent}
    (h : ThreadOk env threads thrId thread)
    (taken : ThreadStep env threads thrId down restart gWork window thread e thread') :
    ThreadOk env threads thrId thread' := by
  have hfirst := toNat_firstNonce hthreads hmax hthrId
  have hlast := toNat_lastNonce hthreads hmax hthrId
  have hsize := le_rangeSize hthreads hmax
  have hbound : rangeSize threads * (thrId + 1) ≤ 2 ^ 32 - 1 := rangeSize_mul_le hthrId
  have hroom : rangeSize threads * thrId + rangeSize threads = rangeSize threads * (thrId + 1) :=
    (Nat.mul_succ _ _).symm
  obtain ⟨hdata, hplaced, hevaluated⟩ := h
  rw [Thread.Placed] at hplaced
  cases taken with
  | begin hphase | pass hphase =>
      rw [hphase] at hplaced
      exact ⟨hdata, hplaced, hevaluated⟩
  | copy hphase hready hcopy =>
      refine ⟨by rw [List.length_set, hgWork], ⟨rfl, ?_⟩, hevaluated⟩
      rw [nonceOf_set hgWork]
      exact ⟨by omega, by omega⟩
  | keep hphase hkeep =>
      rw [hphase] at hplaced
      obtain ⟨⟨jobId, -, hjob, -⟩, hnonce, -⟩ := copiesWork_eq_false hkeep
      rcases hplaced with hzero | ⟨hend, hin⟩
      · rw [hzero] at hjob
        contradiction
      · refine ⟨by rw [List.length_set, hdata], ⟨hend, ?_⟩, hevaluated⟩
        have hlt : (nonceOf thread.work).toNat < thread.endNonce.toNat := hnonce
        have hbefore := hin.first
        rw [hend, hlast] at hlt
        rw [nonceOf_set hdata]
        constructor <;> rw [toNat_succ (by omega)] <;> omega
  | skip hphase =>
      rw [hphase] at hplaced
      exact ⟨hdata, Or.inr hplaced, hevaluated⟩
  | scan hphase max64 =>
      rw [hphase] at hplaced
      obtain ⟨hend, hin⟩ := hplaced
      refine ⟨hdata, ⟨hend, hin, ?_, ⟨rfl, rfl⟩⟩, hevaluated⟩
      have hmaxNonce := toNat_maxNonce (nonceOf thread.work) thread.endNonce max64
      rw [hend, hlast] at hmaxNonce
      have hone : 1 ≤ maxNonce (nonceOf thread.work) thread.endNonce max64 := by
        rw [UInt32.le_iff_toNat_le, hend]
        show 1 ≤ _
        split at hmaxNonce <;> omega
      rw [UInt32.toNat_sub_of_le _ _ hone, hend]
      show _ - 1 < _
      omega
  | enter hphase hguard hrestart =>
      rw [hphase] at hplaced
      obtain ⟨hend, hscan⟩ := hplaced
      have hbelow := hscan.n.last
      exact ⟨hdata, ⟨hend, hscan, roundIn_of_scanGuard (by omega) hguard⟩, hevaluated⟩
  | leave hphase hend =>
      rw [hphase] at hplaced
      exact ⟨hdata, hplaced, hevaluated⟩
  | enterTail hphase hlt hrestart =>
      rw [hphase] at hplaced
      obtain ⟨hend, hscan⟩ := hplaced
      exact ⟨hdata, ⟨hend, hscan, roundIn_tail hlt⟩, hevaluated⟩
  | @finish scan last hphase =>
      rw [hphase] at hplaced
      obtain ⟨hend, hscan⟩ := hplaced
      have hlength := hscan.pdata.length.trans hdata
      refine ⟨by rw [finishScan, List.length_set, hlength], Or.inr ⟨hend, ?_⟩, hevaluated⟩
      rw [finishScan, nonceOf_set hlength]
      exact hscan.n
  | @round scan last hphase =>
      rw [hphase] at hplaced
      obtain ⟨hend, hscan, hin⟩ := hplaced
      refine ⟨hdata, ⟨hend, hscan.round hin⟩, fun e he => ?_⟩
      rcases List.mem_append.mp he with he | he
      · obtain ⟨n, hn, rfl⟩ := List.mem_map.mp (List.mem_reverse.mp he)
        exact hscan.mem_round hin hn
      · exact hevaluated e he
  | @tail scan last hphase =>
      rw [hphase] at hplaced
      obtain ⟨hend, hscan, hin⟩ := hplaced
      obtain ⟨hn, hpdata⟩ := tailRound_n env thread.work scan
      have hbefore := hscan.n.first
      have hafter := hscan.last
      have hlt : scan.n.toNat < last.toNat := hin
      have hlength := (hpdata.trans hscan.pdata).length.trans hdata
      refine ⟨by rw [finishScan, List.length_set, hlength], Or.inr ⟨hend, ?_⟩, ?_⟩
      · rw [finishScan, nonceOf_set hlength, hn]
        constructor <;> rw [toNat_succ (by omega)] <;> omega
      · exact List.forall_mem_cons.mpr ⟨⟨hbefore, by dsimp only; omega⟩, hevaluated⟩

/-! Once only. -/

/-- In each window a thread has hashed no nonce of a header twice, and those of the header it
holds lie below its nonce. -/
structure HashedOnce (window : Nat) (thread : Thread) : Prop where
  nodup : thread.evaluated.Nodup
  past : ∀ e ∈ thread.evaluated, e.window ≤ window
  below : ∀ e ∈ thread.evaluated, e.window = window → e.words = headerWords thread.work →
    e.nonce.toNat < thread.nonce.toNat

theorem HashedOnce.later {window later : Nat} {thread : Thread} (h : HashedOnce window thread)
    (hlater : window ≤ later) (hchanged : later ≠ window) : HashedOnce later thread := by
  refine ⟨h.nodup, fun e he => (h.past e he).trans hlater, fun e he hwindow => ?_⟩
  have := h.past e he
  omega

/-- The copies of `g_work` are of a header that the thread has not hashed in this window. -/
def FreshCopy (gWork : Work) (window : Nat) (thread : Thread) : ThreadEvent → Prop
  | .take => copiesWork thread.work gWork thread.endNonce = true →
      ∀ e ∈ thread.evaluated, e.window = window → e.words ≠ headerWords gWork
  | _ => True

theorem roundNonces_nodup {tail : Bool} {n last : UInt32} (h : RoundIn env tail n last) :
    (roundNonces env tail n).Nodup := by
  have hlast := last.toNat_lt
  rw [RoundIn, roundNonces] at h
  rw [roundNonces]
  split
  · exact List.nodup_singleton n
  · rename_i hpair
    rw [if_neg hpair] at h
    have htwo : ([n, n + 1] : List UInt32).length = 2 := rfl
    refine List.nodup_cons.mpr ⟨fun hmem => ?_, List.nodup_singleton _⟩
    have heq := congrArg UInt32.toNat (List.mem_singleton.mp hmem)
    rw [toNat_succ (by omega)] at heq
    omega

theorem HashedOnce.extend {window : Nat} {thread thread' : Thread} (h : HashedOnce window thread)
    {nonces : List UInt32}
    (hevaluated : thread'.evaluated = (nonces.map
      (Evaluated.mk window (headerWords thread.work))).reverse ++ thread.evaluated)
    (hnodup : nonces.Nodup)
    (hnonces : ∀ n ∈ nonces, thread.nonce.toNat ≤ n.toNat ∧ n.toNat < thread'.nonce.toNat)
    (hwords : headerWords thread'.work = headerWords thread.work)
    (hnonce : thread.nonce.toNat ≤ thread'.nonce.toNat) : HashedOnce window thread' := by
  constructor
  case nodup =>
    rw [hevaluated]
    refine List.nodup_append'.mpr ⟨List.nodup_reverse.mpr
      (hnodup.map fun _ _ heq => congrArg Evaluated.nonce heq), h.nodup, ?_⟩
    -- what was hashed before lies below
    intro e he hold
    obtain ⟨n, hn, rfl⟩ := List.mem_map.mp (List.mem_reverse.mp he)
    exact absurd (h.below _ hold rfl rfl) (Nat.not_lt.mpr (hnonces n hn).1)
  case past =>
    rw [hevaluated]
    intro e he
    rcases List.mem_append.mp he with he | he
    · obtain ⟨n, -, rfl⟩ := List.mem_map.mp (List.mem_reverse.mp he)
      exact Nat.le_refl _
    · exact h.past e he
  case below =>
    rw [hevaluated, hwords]
    intro e he hwindow hheader
    rcases List.mem_append.mp he with he | he
    · obtain ⟨n, hn, rfl⟩ := List.mem_map.mp (List.mem_reverse.mp he)
      exact (hnonces n hn).2
    · exact (h.below e he hwindow hheader).trans_le hnonce

theorem HashedOnce.kept {window : Nat} {thread thread' : Thread} (h : HashedOnce window thread)
    (hevaluated : thread'.evaluated = thread.evaluated)
    (hwords : headerWords thread'.work = headerWords thread.work)
    (hnonce : thread.nonce.toNat ≤ thread'.nonce.toNat) : HashedOnce window thread' :=
  h.extend (hevaluated.trans (List.nil_append _).symm) List.nodup_nil (by simp) hwords hnonce

theorem ThreadStep.once (hthrId : thrId < threads) {down restart : Bool} {gWork : Work}
    {window : Nat} {thread thread' : Thread} {e : ThreadEvent}
    (hok : ThreadOk env threads thrId thread) (h : HashedOnce window thread)
    (fresh : FreshCopy gWork window thread e)
    (taken : ThreadStep env threads thrId down restart gWork window thread e thread') :
    HashedOnce window thread' := by
  have hbound : rangeSize threads * (thrId + 1) ≤ 2 ^ 32 - 1 := rangeSize_mul_le hthrId
  obtain ⟨hdata, hplaced, -⟩ := hok
  rw [Thread.Placed] at hplaced
  cases taken with
  | begin hphase | pass hphase | skip hphase | scan hphase | enter hphase | leave hphase
  | enterTail hphase => exact h.kept rfl rfl (by rw [Thread.nonce, hphase]; exact Nat.le_refl _)
  | copy hphase hready hcopy =>
      refine ⟨h.nodup, h.past, fun e he hwindow hwords => ?_⟩
      rw [headerWords_set] at hwords
      exact absurd hwords (fresh hcopy e he hwindow)
  | keep hphase hkeep =>
      obtain ⟨-, hnonce, -⟩ := copiesWork_eq_false hkeep
      have hlt : (nonceOf thread.work).toNat < thread.endNonce.toNat := hnonce
      have hend := thread.endNonce.toNat_lt
      refine h.kept rfl (headerWords_set _ _ _) ?_
      rw [Thread.nonce, hphase]
      show _ ≤ (nonceOf _).toNat
      rw [nonceOf_set hdata, toNat_succ (by omega)]
      exact Nat.le_succ _
  | @finish scan last hphase =>
      rw [hphase] at hplaced
      obtain ⟨-, hscan⟩ := hplaced
      refine h.kept rfl ((headerWords_set _ _ _).trans hscan.pdata.words) ?_
      rw [Thread.nonce, hphase]
      show _ ≤ (nonceOf (finishScan _ _)).toNat
      rw [finishScan, nonceOf_set (hscan.pdata.length.trans hdata)]
  | @round scan last hphase =>
      rw [hphase] at hplaced
      obtain ⟨-, hscan, hin⟩ := hplaced
      obtain ⟨hn, -⟩ := loopRound_n env thread.work scan
      have hnext := toNat_add_round hin
      rw [← hn] at hnext
      have hnonce : thread.nonce = scan.n := by rw [Thread.nonce, hphase]
      refine h.extend rfl (roundNonces_nodup hin) (fun n hmem => ?_) rfl ?_
      · show _ ∧ _ < (loopRound env thread.work scan).n.toNat
        rw [hnonce, hnext]
        exact mem_roundNonces hin hmem
      · show _ ≤ (loopRound env thread.work scan).n.toNat
        rw [hnonce, hnext]
        exact Nat.le_add_right _ _
  | @tail scan last hphase =>
      rw [hphase] at hplaced
      obtain ⟨-, hscan, hin⟩ := hplaced
      obtain ⟨hn, hpdata⟩ := tailRound_n env thread.work scan
      have hlast := last.toNat_lt
      have hlt : scan.n.toNat < last.toNat := hin
      have hnonce : thread.nonce = scan.n := by rw [Thread.nonce, hphase]
      have hheader := hpdata.trans hscan.pdata
      have hnext : (nonceOf (finishScan thread.work (tailRound env thread.work scan))).toNat =
          scan.n.toNat + 1 := by
        rw [finishScan, nonceOf_set (hheader.length.trans hdata), hn, toNat_succ (by omega)]
      refine @HashedOnce.extend window thread _ h [scan.n] rfl (List.nodup_singleton _) ?_
        ((headerWords_set _ _ _).trans hheader.words) ?_
      · refine List.forall_mem_singleton.mpr ⟨(congrArg UInt32.toNat hnonce).le, ?_⟩
        exact (Nat.lt_succ_self _).trans_eq hnext.symm
      · rw [hnonce]
        exact (Nat.le_succ _).trans_eq hnext.symm

end

/-! All threads. -/

section

variable {env : ScanEnv} {gate : Gate} {threads : Nat}

theorem minerStep_thread {m m' : Miner threads} {t : Fin threads} {e : ThreadEvent}
    (taken : minerStep env gate m (.thread t e) = some m') :
    ∃ thread', ThreadStep env threads t m.stratumDown (m.restart t) m.gWork m.window (m.thread t) e
        thread' ∧
      m' = { m with
        thread := Function.update m.thread t thread'
        restart := Function.update m.restart t (e.restart (m.restart t)) } := by
  obtain ⟨thread', hthread, rfl⟩ := Option.map_eq_some_iff.mp taken
  exact ⟨thread', threadStep_cases hthread, rfl⟩

theorem minerStep_other {m m' : Miner threads} {e : MinerEvent threads}
    (he : ∀ t e', e ≠ .thread t e') (hm : m.gWork.data.length = 48)
    (taken : minerStep env gate m e = some m') :
    m'.thread = m.thread ∧ m'.gWork.data.length = 48 ∧ m.window ≤ m'.window := by
  have set : ∀ work : Work, work.data.length = 48 →
      (m.setGWork work).thread = m.thread ∧ (m.setGWork work).gWork.data.length = 48 ∧
        m.window ≤ (m.setGWork work).window := by
    intro work hwork
    refine ⟨rfl, hwork, ?_⟩
    rw [Miner.setGWork]
    dsimp only
    split <;> omega
  cases e with
  | stratumDown down =>
      obtain rfl := Option.some.inj taken
      exact ⟨rfl, hm, Nat.le_refl _⟩
  | restartThreads =>
      obtain rfl := Option.some.inj taken
      exact ⟨rfl, hm, Nat.le_refl _⟩
  | dropJob =>
      obtain rfl := Option.some.inj taken
      exact set _ hm
  | publish heap reauthEpoch sctx =>
      obtain ⟨built, hbuilt, rfl⟩ := Option.map_eq_some_iff.mp taken
      have := set built.2.1 (length_stratumGenWork hbuilt)
      rw [Miner.publish]
      split <;> exact this
  | thread t e' => exact absurd rfl (he t e')

structure MinerOk (env : ScanEnv) (m : Miner threads) : Prop where
  gWork : m.gWork.data.length = 48
  thread : ∀ t : Fin threads, ThreadOk env threads t (m.thread t)

theorem minerOk_init (env : ScanEnv) (threads : Nat) : MinerOk env (.init threads) :=
  ⟨rfl, fun _ => ⟨rfl, Or.inl rfl, by simp [Miner.init]⟩⟩

theorem minerStep_ok (hthreads : 1 ≤ threads) (hmax : threads ≤ 9999) (m : Miner threads)
    (e : MinerEvent threads) (m' : Miner threads) (h : MinerOk env m)
    (taken : minerStep env gate m e = some m') : MinerOk env m' := by
  cases e with
  | thread t e' =>
      obtain ⟨thread', hstep, rfl⟩ := minerStep_thread taken
      exact ⟨h.gWork, (Function.forall_update_iff _ fun u : Fin threads =>
        ThreadOk env threads u).mpr
          ⟨hstep.ok hthreads hmax t.isLt h.gWork (h.thread t), fun u _ => h.thread u⟩⟩
  | stratumDown | restartThreads | dropJob | publish =>
      obtain ⟨hthread, hgWork, -⟩ := minerStep_other (by nofun) h.gWork taken
      exact ⟨hgWork, fun t => hthread ▸ h.thread t⟩

/-- The threads hash in ranges that do not meet, and none of the bounds of the ranges and of the
scans wraps. -/
theorem threads_hash_apart (hthreads : 1 ≤ threads) (hmax : threads ≤ 9999)
    {trace : List (Miner threads × MinerEvent threads)} {m : Miner threads}
    (run : Run (minerStep env gate) (.init threads) trace m) :
    (∀ t : Fin threads, (firstNonce threads t).toNat = (2 ^ 32 - 1) / threads * t ∧
      (lastNonce threads t).toNat = (2 ^ 32 - 1) / threads * (t + 1) - 32 ∧
      (initialEndNonce threads t).toNat = (2 ^ 32 - 1) / threads * (t + 1) - threads) ∧
    (∀ workNonce endNonce max64, ((maxNonce workNonce endNonce max64).toNat : Int) =
      min (endNonce.toNat : Int) (workNonce.toNat + if max64 ≤ 0 then 1000 else max64)) ∧
    (∀ t : Fin threads, (m.thread t).work = .zero ∨
      firstNonce threads t ≤ (m.thread t).nonce ∧ (m.thread t).nonce ≤ lastNonce threads t) ∧
    (∀ t : Fin threads, ∀ e ∈ (m.thread t).evaluated,
      firstNonce threads t ≤ e.nonce ∧ e.nonce < lastNonce threads t) ∧
    (∀ t u : Fin threads, t < u → lastNonce threads t < firstNonce threads u) ∧
    ∀ t u : Fin threads, t ≠ u → ∀ e ∈ (m.thread t).evaluated, ∀ d ∈ (m.thread u).evaluated,
      e.nonce ≠ d.nonce := by
  have hok := run.invariant (MinerOk env) (minerOk_init env threads)
    (minerStep_ok hthreads hmax)
  have hsize := le_rangeSize hthreads hmax
  have hfirst := fun t : Fin threads => toNat_firstNonce hthreads hmax t.isLt
  have hlast := fun t : Fin threads => toNat_lastNonce hthreads hmax t.isLt
  have hroom : ∀ t : Fin threads, rangeSize threads * (t + 1) = rangeSize threads * t +
      rangeSize threads := fun t => Nat.mul_succ _ _
  have hnext : ∀ t u : Fin threads, t < u → rangeSize threads * (t + 1) ≤ rangeSize threads * u :=
    fun t u htu => Nat.mul_le_mul_left _ htu
  refine ⟨fun t => ⟨hfirst t, hlast t, toNat_initialEndNonce hthreads hmax t.isLt⟩,
    toNat_maxNonce, fun t => ?_, fun t e he => ?_, fun t u htu => ?_, ?_⟩
  · have hplaced := (hok.thread t).placed
    rw [UInt32.le_iff_toNat_le, UInt32.le_iff_toNat_le, hfirst, hlast]
    have both : ∀ {n}, InRange threads t n → rangeSize threads * t ≤ n.toNat ∧
        n.toNat ≤ rangeSize threads * (t + 1) - 32 := fun h => ⟨h.first, h.last⟩
    rw [Thread.Placed] at hplaced
    rw [Thread.nonce]
    cases hphase : (m.thread t).phase with
    | start | top | passed =>
        rw [hphase] at hplaced
        exact hplaced.imp_right fun h => both h.2
    | taken =>
        rw [hphase] at hplaced
        exact Or.inr (both hplaced.2)
    | looking tail scan last =>
        rw [hphase] at hplaced
        exact Or.inr (both hplaced.2.n)
    | hashing tail scan last =>
        rw [hphase] at hplaced
        exact Or.inr (both hplaced.2.1.n)
  · rw [UInt32.le_iff_toNat_le, UInt32.lt_iff_toNat_lt, hfirst, hlast]
    exact (hok.thread t).evaluated e he
  · rw [UInt32.lt_iff_toNat_lt, hfirst, hlast]
    have := hnext t u htu
    have := hroom t
    omega
  · have apart : ∀ t u : Fin threads, t < u → ∀ e ∈ (m.thread t).evaluated,
        ∀ d ∈ (m.thread u).evaluated, e.nonce ≠ d.nonce := by
      intro t u htu e he d hd heq
      have hbelow := ((hok.thread t).evaluated e he).2
      have habove := ((hok.thread u).evaluated d hd).1
      have := hnext t u htu
      rw [heq] at hbelow
      omega
    intro t u htu e he d hd
    rcases lt_or_gt_of_ne htu with hlt | hgt
    · exact apart t u hlt e he d hd
    · exact (apart u t hgt d hd e he).symm

def FreshCopies (m : Miner threads) : MinerEvent threads → Prop
  | .thread t e => FreshCopy m.gWork m.window (m.thread t) e
  | _ => True

instance (m : Miner threads) (e : MinerEvent threads) : Decidable (FreshCopies m e) :=
  match e with
  | .thread _ .take => inferInstanceAs (Decidable (_ → _))
  | .thread _ .begin | .thread _ .pass | .thread _ .skip | .thread _ (.scan _) |
    .thread _ .look | .thread _ .hash => instDecidableTrue
  | .stratumDown _ | .restartThreads | .dropJob | .publish _ _ _ => instDecidableTrue

/-- No thread has hashed a nonce of a header twice while `g_work` kept its header and job. -/
def NoRepeats (m : Miner threads) : Prop := ∀ t, (m.thread t).evaluated.Nodup

theorem minerStep_once (hthreads : 1 ≤ threads) (hmax : threads ≤ 9999) (m : Miner threads)
    (e : MinerEvent threads) (m' : Miner threads)
    (h : MinerOk env m ∧ ∀ t, HashedOnce m.window (m.thread t)) (fresh : FreshCopies m e)
    (taken : minerStep env gate m e = some m') :
    MinerOk env m' ∧ ∀ t, HashedOnce m'.window (m'.thread t) := by
  refine ⟨minerStep_ok hthreads hmax m e m' h.1 taken, ?_⟩
  cases e with
  | thread t e' =>
      obtain ⟨thread', hstep, rfl⟩ := minerStep_thread taken
      exact (Function.forall_update_iff _ fun _ => HashedOnce m.window).mpr
        ⟨hstep.once t.isLt (h.1.thread t) (h.2 t) fresh, fun u _ => h.2 u⟩
  | stratumDown | restartThreads | dropJob | publish =>
      obtain ⟨hthread, -, hwindow⟩ := minerStep_other (by nofun) h.1.gWork taken
      intro t
      rw [hthread]
      by_cases hsame : m'.window = m.window
      · rw [hsame]
        exact h.2 t
      · exact (h.2 t).later hwindow hsame

/-- In a run whose copies of `g_work` are all fresh no thread hashes a nonce of a header twice
while `g_work` keeps its header and job. -/
theorem no_repeats_of_fresh (hthreads : 1 ≤ threads) (hmax : threads ≤ 9999)
    {trace : List (Miner threads × MinerEvent threads)} {m : Miner threads}
    (run : Run (minerStep env gate) (.init threads) trace m) (fresh : Steps FreshCopies trace) :
    NoRepeats m := by
  have inv := run.invariant_of_steps
    (fun m => MinerOk env m ∧ ∀ t, HashedOnce m.window (m.thread t)) FreshCopies
    ⟨minerOk_init env threads, fun _ => ⟨List.nodup_nil, by simp [Miner.init],
      by simp [Miner.init]⟩⟩
    (minerStep_once hthreads hmax) fresh
  exact fun t => (inv.2 t).nodup

end

/-! A job, and rounds of a thread that hash one nonce each. -/

def firstJob : StratumCtx :=
  { StratumCtx.init with
    newJob := true, job := { StratumCtx.init.job with jobId := some (cstr "a") } }

section

variable {threads : Nat}

def jobEvents : List (MinerEvent threads) := [.publish .zero 0 firstJob, .stratumDown false]

def oneNonce (t : Fin threads) : List (MinerEvent threads) :=
  [.pass, .take, .scan 2, .look, .hash, .look, .look].map (.thread t)

/-- The stratum thread resets the connection, and a line comes in on the next one. -/
def resetEvents : List (MinerEvent threads) :=
  [.stratumDown true, .dropJob, .restartThreads, .stratumDown false]

end

theorem threads_hash_apart_two : ∃ (trace : List (Miner 2 × MinerEvent 2)) (m : Miner 2),
    Run (minerStep .plain .zero) (.init 2) trace m ∧
      (m.thread 0).evaluated.map (·.nonce) = [0] ∧
      (m.thread 1).evaluated.map (·.nonce) = [0x7fffffff] ∧
      ∀ e ∈ (m.thread 0).evaluated, ∀ d ∈ (m.thread 1).evaluated, e.nonce ≠ d.nonce := by
  have hexec : (exec (minerStep .plain .zero) (.init 2)
      (jobEvents ++ .thread 0 .begin :: oneNonce 0 ++ .thread 1 .begin :: oneNonce 1)).map
      (fun m => ((m.thread 0).evaluated.map (·.nonce), (m.thread 1).evaluated.map (·.nonce))) =
      some ([0], [0x7fffffff]) := by decide +kernel
  obtain ⟨m, hm, hnonces⟩ := Option.map_eq_some_iff.mp hexec
  obtain ⟨hzero, hone⟩ := Prod.mk.inj hnonces
  obtain ⟨trace, run, -⟩ := Run.start.exec hm
  obtain ⟨-, -, -, -, -, apart⟩ := threads_hash_apart (by decide) (by decide) run
  exact ⟨trace, m, run, hzero, hone, apart 0 1 (by decide)⟩

/-- A thread that goes on with its work. -/
theorem no_repeats_two_scans : ∃ (trace : List (Miner 1 × MinerEvent 1)) (m : Miner 1),
    Run (minerStep .plain .zero) (.init 1) trace m ∧
      (m.thread 0).evaluated.map (·.nonce) = [2, 0] ∧ NoRepeats m := by
  have hexec : (exec (guarded (minerStep .plain .zero) FreshCopies) (.init 1)
      (jobEvents ++ .thread 0 .begin :: oneNonce 0 ++ oneNonce 0)).map
      (fun m => (m.thread 0).evaluated.map (·.nonce)) = some [2, 0] := by decide +kernel
  obtain ⟨m, hm, hnonces⟩ := Option.map_eq_some_iff.mp hexec
  obtain ⟨trace, run, -⟩ := Run.start.exec hm
  exact ⟨trace, m, run.of_guarded.1, hnonces,
    no_repeats_of_fresh (by decide) (by decide) run.of_guarded.1 run.of_guarded.2⟩

/-- After a reset the job id is gone, and a thread takes the same header again and again. -/
theorem reset_repeats : ¬ ∀ (threads : Nat) (env : ScanEnv) (gate : Gate)
    (trace : List (Miner threads × MinerEvent threads)) (m : Miner threads),
    1 ≤ threads → threads ≤ 9999 → Run (minerStep env gate) (.init threads) trace m →
      NoRepeats m := by
  intro h
  have hexec : (exec (minerStep .plain .zero) (.init 1)
      (jobEvents ++ .thread 0 .begin :: oneNonce 0 ++ resetEvents ++ oneNonce 0 ++
        oneNonce 0)).map (fun m => decide (m.thread 0).evaluated.Nodup) = some false := by
    decide +kernel
  obtain ⟨m, hm, hrepeats⟩ := Option.map_eq_some_iff.mp hexec
  obtain ⟨trace, run, -⟩ := Run.start.exec hm
  exact of_decide_eq_false hrepeats (h 1 .plain .zero trace m (by decide) (by decide) run 0)

end SojCivicLight.Mining
