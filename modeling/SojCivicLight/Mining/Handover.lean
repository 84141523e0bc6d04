import SojCivicLight.Mining.Ranges

/-! The hand-over from one scan of a thread to the next while `g_work` stays: which nonces
the scans have hashed between them. -/

namespace SojCivicLight.Mining

open SojCivicLight.Library SojCivicLight.Util SojCivicLight.Stratum

/-! The nonces of one scan, in a benchmark or not. -/

section

variable (env : ScanEnv) (work : Work)

/-- The scan has hashed the first `k` nonces from that of `work` on. -/
structure Reached (last : UInt32) (k : Nat) (s : Scan) : Prop where
  n : s.n.toNat = (nonceOf work).toNat + k
  hashed : s.hashed = (List.range k).map fun i =>
    scanHeader env work (nonceOf work + UInt32.ofNat i)
  inside : k = 0 ∨ s.n.toNat ≤ last.toNat

/-- What the looks of a scan see keeps it from hashing anything. -/
def scansNothing (first last : UInt32) : Bool :=
  if scanGuard env first last then env.restart 0 && env.restart 1
  else last ≤ first || env.restart 0

variable {env work}

theorem scanMain_eq (last : UInt32) (fuel : Nat) (s : Scan) :
    scanMain env work last fuel s =
      scanLoop env (scanGuard env · last) (loopRound env work) fuel s := by
  rw [scanMain]
  cases honeway : env.oneway with
  | true =>
      have hguard : (scanGuard env · last) = fun n => decide (n < last) := by
        funext n
        rw [scanGuard, honeway, if_pos rfl]
      have hround : loopRound env work = scanRound env work := by
        funext s
        rw [loopRound, honeway, if_pos rfl]
      rw [hguard, hround, if_pos rfl]
  | false =>
      have hguard : (scanGuard env · last) = fun n => decide (n + 1 < last) := by
        funext n
        rw [scanGuard, honeway, if_neg Bool.false_ne_true]
      have hround : loopRound env work = scanPairRound env work := by
        funext s
        rw [loopRound, honeway, if_neg Bool.false_ne_true]
      rw [hguard, hround, if_neg Bool.false_ne_true]

theorem loopRound_hashed (s : Scan) : (loopRound env work s).hashed =
    s.hashed ++ (roundNonces env false s.n).map (scanHeader env work) := by
  rw [loopRound, roundNonces, Bool.false_or]
  split
  · simp only [scanRound, offer, countHashes]
    split_ifs <;> rfl
  · simp only [scanPairRound, offer, countHashes]
    split_ifs <;> rfl

theorem loopRound_looks (s : Scan) : (loopRound env work s).looks = s.looks := by
  rw [loopRound]
  split
  · exact scanRound_looks s
  · exact scanPairRound_looks s

theorem tailRound_hashed (s : Scan) :
    (tailRound env work s).hashed = s.hashed ++ [scanHeader env work s.n] := by
  simp only [tailRound, offer]
  split_ifs <;> rfl

theorem Reached.extend {last : UInt32} {k : Nat} {s s' : Scan} (h : Reached env work last k s)
    {tail : Bool} (hin : RoundIn env tail s.n last)
    (hn : s'.n = s.n + UInt32.ofNat (roundNonces env tail s.n).length)
    (hhashed : s'.hashed = s.hashed ++ (roundNonces env tail s.n).map (scanHeader env work)) :
    Reached env work last (k + (roundNonces env tail s.n).length) s' := by
  have hnext := toNat_add_round hin
  have hlast := last.toNat_lt
  have hsum : s.n = nonceOf work + UInt32.ofNat k := by
    rw [RoundIn] at hin
    have hk : (UInt32.ofNat k).toNat = k :=
      UInt32.toNat_ofNat_of_lt' (by have := h.n; show _ < 2 ^ 32; omega)
    rw [← UInt32.toNat_inj, UInt32.toNat_add, hk, ← h.n]
    exact (Nat.mod_eq_of_lt s.n.toNat_lt).symm
  have hlist : (roundNonces env tail s.n).map (scanHeader env work) =
      (List.range (roundNonces env tail s.n).length).map fun i =>
        scanHeader env work (nonceOf work + UInt32.ofNat (k + i)) := by
    rw [roundNonces]
    split
    · simp [hsum]
    · simp [hsum, List.range_succ, UInt32.ofNat_add, UInt32.add_assoc]
  refine ⟨by rw [hn, hnext, h.n, Nat.add_assoc], ?_, Or.inr ?_⟩
  · rw [hhashed, h.hashed, hlist, List.range_add, List.map_append, List.map_map]
    rfl
  · rw [hn, hnext]
    exact hin

theorem roundNonces_pos (tail : Bool) (n : UInt32) : 0 < (roundNonces env tail n).length := by
  rw [roundNonces]
  split
  · exact Nat.one_pos
  · exact Nat.two_pos

/-- The loop goes on from what was hashed, and stays where it is only if its guard is closed
or its first look sees the flag. -/
theorem scanLoop_reached {last : UInt32} (hlast : last.toNat + 1 < 2 ^ 32) {fuel k : Nat}
    {s : Scan} (h : Reached env work last k s) (hn : s.n.toNat + 1 < 2 ^ 32) :
    ∃ k', k ≤ k' ∧
      Reached env work last k'
        (scanLoop env (scanGuard env · last) (loopRound env work) fuel s) := by
  induction fuel generalizing s k with
  | zero => exact ⟨k, Nat.le_refl k, h⟩
  | succ fuel ih =>
      rw [scanLoop]
      split
      · rename_i hopen
        have looked : Reached env work last k { s with looks := s.looks + 1 } :=
          ⟨h.n, h.hashed, h.inside⟩
        dsimp only
        split
        · exact ⟨k, Nat.le_refl k, looked⟩
        · have hin := roundIn_of_scanGuard hn hopen
          have hnext := looked.extend hin (loopRound_n env work { s with looks := s.looks + 1 }).1
            (loopRound_hashed _)
          have hbound := hnext.inside.resolve_left (by
            have := @roundNonces_pos env false s.n
            dsimp only
            omega)
          obtain ⟨k', hle, hreached⟩ := ih hnext (by omega)
          exact ⟨k', by omega, hreached⟩
      · exact ⟨k, Nat.le_refl k, h⟩

theorem scanLoop_enters {last : UInt32} (hlast : last.toNat + 1 < 2 ^ 32) {fuel : Nat}
    {s : Scan} (h : Reached env work last 0 s) (hn : s.n.toNat + 1 < 2 ^ 32)
    (hopen : scanGuard env s.n last = true) (hrestart : env.restart s.looks = false) :
    ∃ k, 0 < k ∧ Reached env work last k
      (scanLoop env (scanGuard env · last) (loopRound env work) (fuel + 1) s) := by
  have looked : Reached env work last 0 { s with looks := s.looks + 1 } :=
    ⟨h.n, h.hashed, h.inside⟩
  have hnext := looked.extend (roundIn_of_scanGuard hn hopen)
    (loopRound_n env work { s with looks := s.looks + 1 }).1 (loopRound_hashed _)
  have hpos := @roundNonces_pos env false s.n
  rw [Nat.zero_add] at hnext
  have hbound := hnext.inside.resolve_left (Nat.pos_iff_ne_zero.mp hpos)
  obtain ⟨k, hle, hreached⟩ := @scanLoop_reached env work last hlast fuel _ _ hnext (by omega)
  refine ⟨k, Nat.lt_of_lt_of_le hpos hle, ?_⟩
  rw [scanLoop, if_pos hopen]
  dsimp only
  rw [hrestart, if_neg Bool.false_ne_true]
  exact hreached

theorem scanTail_eq (last : UInt32) (s : Scan) : scanTail env work last s =
    if s.n < last then
      if env.restart s.looks then { s with looks := s.looks + 1 }
      else tailRound env work { s with looks := s.looks + 1 }
    else s := by
  rw [scanTail]
  split
  · dsimp only
    split
    · rfl
    · rfl
  · rfl

theorem scanTail_reached {last : UInt32} {k : Nat} {s : Scan} (h : Reached env work last k s) :
    ∃ k', k ≤ k' ∧ Reached env work last k' (scanTail env work last s) ∧
      (k' = k ↔ last ≤ s.n ∨ env.restart s.looks = true) := by
  have looked : Reached env work last k { s with looks := s.looks + 1 } :=
    ⟨h.n, h.hashed, h.inside⟩
  rw [scanTail_eq]
  by_cases hopen : s.n < last
  · have hle : ¬ last ≤ s.n := UInt32.not_le.mpr hopen
    rw [if_pos hopen]
    by_cases hrestart : env.restart s.looks = true
    · rw [if_pos hrestart]
      exact ⟨k, Nat.le_refl k, looked, by simp [hrestart]⟩
    · rw [if_neg hrestart]
      exact ⟨k + 1, Nat.le_succ k,
        looked.extend (roundIn_tail hopen) (tailRound_n env work _).1 (tailRound_hashed _),
        by simp [hle, hrestart]⟩
  · rw [if_neg hopen]
    exact ⟨k, Nat.le_refl k, h, by simp [UInt32.not_lt.mp hopen]⟩

theorem flushStats_hashed (s : Scan) :
    (flushStats env s).hashed = s.hashed ∧ (flushStats env s).n = s.n := by
  rw [flushStats]
  split
  · exact ⟨rfl, rfl⟩
  · exact ⟨rfl, rfl⟩

/-- A scan hashes the nonces from the first one on, one after the other, none exactly when
its looks keep it from it. -/
theorem scan_reached {maxNonce : UInt32} {fuel : Nat} (hmax : 1 ≤ maxNonce)
    (hfirst : (nonceOf work).toNat + 1 < 2 ^ 32) (hfuel : maxNonce.toNat ≤ fuel) :
    ∃ k, Reached env work (maxNonce - 1) k (scanhashCiviclight env work maxNonce fuel).1 ∧
      (k = 0 ↔ scansNothing env (nonceOf work) (maxNonce - 1) = true) := by
  have hone : (maxNonce - 1).toNat = maxNonce.toNat - 1 := UInt32.toNat_sub_of_le _ _ hmax
  have hmax1 : 1 ≤ maxNonce.toNat := hmax
  have hbound := maxNonce.toNat_lt
  generalize hlast : maxNonce - 1 = last at *
  have hlast1 : last.toNat + 1 < 2 ^ 32 := by omega
  have start : Reached env work last 0 (scanStart work) := ⟨rfl, rfl, Or.inl rfl⟩
  have hflush : ∀ {k s}, Reached env work last k s → Reached env work last k (flushStats env s) :=
    fun {k s} h => ⟨(flushStats_hashed s).2 ▸ h.n, (flushStats_hashed s).1 ▸ h.hashed,
      (flushStats_hashed s).2 ▸ h.inside⟩
  have hscan : (scanhashCiviclight env work maxNonce fuel).1 =
      flushStats env (scanTail env work last
        (scanLoop env (scanGuard env · last) (loopRound env work) fuel (scanStart work))) := by
    rw [← scanMain_eq, ← hlast]
    rfl
  rw [hscan]
  obtain ⟨fuel, rfl⟩ : ∃ rounds, fuel = rounds + 1 := ⟨fuel - 1, by omega⟩
  rw [scansNothing]
  by_cases hopen : scanGuard env (nonceOf work) last = true
  · rw [if_pos hopen]
    by_cases hrestart : env.restart 0 = true
    · have hleft : scanLoop env (scanGuard env · last) (loopRound env work) (fuel + 1)
          (scanStart work) = { scanStart work with looks := 1 } := by
        rw [scanLoop]
        exact (if_pos hopen).trans (if_pos hrestart)
      have hbefore : ¬ last ≤ nonceOf work := by
        have hin := roundIn_of_scanGuard hfirst hopen
        have hpos := @roundNonces_pos env false (nonceOf work)
        rw [RoundIn] at hin
        rw [UInt32.le_iff_toNat_le]
        omega
      have looked : Reached env work last 0 { scanStart work with looks := 1 } :=
        ⟨start.n, start.hashed, start.inside⟩
      obtain ⟨k, -, htail, hzero⟩ := scanTail_reached looked
      rw [hleft]
      refine ⟨k, hflush htail, hzero.trans ?_⟩
      change last ≤ nonceOf work ∨ env.restart 1 = true ↔ _
      simp [hbefore, hrestart]
    · obtain ⟨k, hpos, hreached⟩ := @scanLoop_enters env work _ hlast1 fuel _ start hfirst hopen
        (Bool.eq_false_iff.mpr hrestart)
      obtain ⟨k', hle, htail, -⟩ := scanTail_reached hreached
      refine ⟨k', hflush htail, ?_⟩
      simp [hrestart]
      omega
  · have hleft : scanLoop env (scanGuard env · last) (loopRound env work) (fuel + 1)
        (scanStart work) = scanStart work := by
      rw [scanLoop]
      exact if_neg hopen
    obtain ⟨k, -, htail, hzero⟩ := scanTail_reached start
    rw [hleft, if_neg hopen]
    refine ⟨k, hflush htail, hzero.trans ?_⟩
    change last ≤ nonceOf work ∨ env.restart 0 = true ↔ _
    simp

end

/-- The nonce of a header that was hashed. -/
def headerNonce (header : List UInt8) : UInt32 := le32dec (header.drop 76)

theorem drop_flatMap_le32enc (words : List UInt32) (k : Nat) :
    (words.flatMap le32enc).drop (4 * k) = (words.drop k).flatMap le32enc :=
  drop_flatMap_pieces length_le32enc words k

theorem headerNonce_scanHeader (env : ScanEnv) {work : Work} (hdata : work.data.length = 48)
    (n : UInt32) : headerNonce (scanHeader env work n) = n := by
  have hlen : (scanEdata env work).length = 20 := by
    rw [scanEdata]
    split
    · simp [hdata]
    · simp [hdata]
  have hlast : ((scanEdata env work).set 19 n).drop 19 = [n] := by
    rw [List.drop_eq_getElem_cons (by rw [List.length_set]; omega), List.getElem_set_self,
      List.drop_eq_nil_of_le (by rw [List.length_set]; omega)]
  rw [headerNonce, scanHeader, drop_flatMap_le32enc _ 19, hlast, List.flatMap_singleton,
    le32dec_le32enc]

/-- What a scan hashes and where it leaves the nonce, which stays where it was exactly when
nothing is hashed. -/
theorem scan_nonces {env : ScanEnv} {work : Work} {maxNonce : UInt32} {fuel : Nat}
    (hdata : work.data.length = 48) (hmax : 1 ≤ maxNonce)
    (hfirst : (nonceOf work).toNat + 1 < 2 ^ 32) (hfuel : maxNonce.toNat ≤ fuel) :
    ∃ e : UInt32, nonceOf work ≤ e ∧
      (∀ n, n ∈ (scanhashCiviclight env work maxNonce fuel).1.hashed.map headerNonce ↔
        nonceOf work ≤ n ∧ n < e) ∧
      (scanhashCiviclight env work maxNonce fuel).2.2 =
        { work with data := work.data.set nonceIndex e } ∧
      (e = nonceOf work ↔ scansNothing env (nonceOf work) (maxNonce - 1) = true) := by
  obtain ⟨k, hreached, hzero⟩ := @scan_reached env work maxNonce fuel hmax hfirst hfuel
  have hpdata : ∀ nonce, (scanhashCiviclight env work maxNonce fuel).1.pdata.set nonceIndex nonce =
      work.data.set nonceIndex nonce := by
    have start : Scanning env work (scanStart work) := ⟨fun _ => rfl, by simp [scanStart]⟩
    exact ((start.main (maxNonce - 1) fuel).tail (maxNonce - 1)).flush.pdata
  have hresult : (scanhashCiviclight env work maxNonce fuel).2.2 =
      { work with
        data := (scanhashCiviclight env work maxNonce fuel).1.pdata.set nonceIndex
          (scanhashCiviclight env work maxNonce fuel).1.n } := rfl
  rw [hresult, hpdata]
  generalize (scanhashCiviclight env work maxNonce fuel).1 = scan at hreached
  have hn := hreached.n
  have hlt := scan.n.toNat_lt
  refine ⟨scan.n, ?_, ?_, rfl, ?_⟩
  · rw [UInt32.le_iff_toNat_le]
    omega
  · intro n
    have hsum : ∀ i < k, (nonceOf work + UInt32.ofNat i).toNat = (nonceOf work).toNat + i := by
      intro i hi
      have hsmall : (UInt32.ofNat i).toNat = i :=
        UInt32.toNat_ofNat_of_lt' (by show _ < 2 ^ 32; omega)
      rw [UInt32.toNat_add, hsmall, Nat.mod_eq_of_lt (by omega)]
    rw [hreached.hashed, List.map_map, List.mem_map, UInt32.le_iff_toNat_le,
      UInt32.lt_iff_toNat_lt]
    constructor
    · rintro ⟨i, hi, rfl⟩
      have hi' := List.mem_range.mp hi
      rw [Function.comp_apply, headerNonce_scanHeader env hdata, hsum i hi']
      omega
    · rintro ⟨hle, hbelow⟩
      refine ⟨n.toNat - (nonceOf work).toNat, List.mem_range.mpr (by omega), ?_⟩
      rw [Function.comp_apply, headerNonce_scanHeader env hdata, ← UInt32.toNat_inj,
        hsum _ (by omega)]
      omega
  · rw [← hzero, ← UInt32.toNat_inj, hn]
    omega

/-! Scans one after the other over the same `g_work`. -/

/-- What one iteration of the thread loop finds: the length of its scan, and the restart flag
at each look. -/
structure Iteration where
  max64 : Int
  restart : Nat → Bool

/-- A thread between two iterations, the nonce that the first of them started from, and the
nonces that its scans have hashed. -/
structure Handover where
  work : Work
  endNonce : UInt32
  start : Option UInt32
  hashed : List UInt32

section

variable (env : ScanEnv) (threads thrId : Nat) (gWork : Work)

def handoverStep (s : Handover) (iteration : Iteration) : Option Handover :=
  if s.start.isSome && s.endNonce ≤ nonceOf s.work then none
  else
    let taken := getNewWork (!env.bench) threads thrId s.work gWork s.endNonce
    let max := maxNonce (nonceOf taken.1) taken.2 iteration.max64
    let scan := scanhashCiviclight { env with restart := iteration.restart } taken.1 max max.toNat
    some
      { work := scan.2.2
        endNonce := taken.2
        start := some (s.start.getD (nonceOf taken.1))
        hashed := s.hashed ++ scan.1.hashed.map headerNonce }

/-- Every nonce from the start up to one that was hashed has been hashed. -/
def NoGap (s : Handover) : Prop :=
  ∀ start, s.start = some start → ∀ n ∈ s.hashed, ∀ m, start ≤ m → m ≤ n → m ∈ s.hashed

/-- The first iteration, one that starts over because `g_work` has no job id, or one that
hashes nothing. -/
def HarmlessIteration (s : Handover) (iteration : Iteration) : Prop :=
  s.start = none ∨ (env.bench = false ∧ gWork.jobId = none) ∨
    scansNothing { env with restart := iteration.restart } (nonceOf s.work + 1)
      (maxNonce (nonceOf s.work + 1) s.endNonce iteration.max64 - 1) = true

instance (s : Handover) (iteration : Iteration) :
    Decidable (HarmlessIteration env gWork s iteration) :=
  inferInstanceAs (Decidable (_ ∨ (_ ∧ _) ∨ _))

/-- The thread starts over in each iteration. -/
def StartsOver : Prop := env.bench = false ∧ gWork.jobId = none

/-- What an iteration does: it takes work under the nonce `first`, copied or kept, and its
scan hashes the nonces up to `e`. -/
structure Iterated (s : Handover) (iteration : Iteration) (s' : Handover) (first e : UInt32) :
    Prop where
  open_ : s.start.isSome → nonceOf s.work < s.endNonce
  taken : (copiesFor (!env.bench) s.work gWork s.endNonce = true ∧
      first = firstNonce threads thrId ∧ s'.endNonce = lastNonce threads thrId ∧
      s'.work = { gWork with data := gWork.data.set nonceIndex e }) ∨
    (copiesFor (!env.bench) s.work gWork s.endNonce = false ∧ first = nonceOf s.work + 1 ∧
      s'.endNonce = s.endNonce ∧ s'.work = { s.work with data := s.work.data.set nonceIndex e })
  start : s'.start = some (s.start.getD first)
  le : first ≤ e
  hashed : ∀ n, n ∈ s'.hashed ↔ n ∈ s.hashed ∨ first ≤ n ∧ n < e
  nothing : e = first ↔ scansNothing { env with restart := iteration.restart } first
    (maxNonce first s'.endNonce iteration.max64 - 1) = true

variable {env threads thrId gWork}

theorem copiesFor_eq_false {haveStratum : Bool} {work : Work} {endNonce : UInt32}
    (h : copiesFor haveStratum work gWork endNonce = false) :
    (haveStratum && forceNewWork work gWork) = false ∧ nonceOf work < endNonce ∧
      headerWords work = headerWords gWork := by
  simp only [copiesFor, Bool.or_eq_false_iff, decide_eq_false_iff_not, not_not] at h
  exact ⟨h.1.1, UInt32.not_le.mp h.1.2, h.2⟩

theorem one_le_maxNonce {first endNonce : UInt32} (hend : 1 ≤ endNonce.toNat) (max64 : Int) :
    1 ≤ maxNonce first endNonce max64 := by
  have hmax := toNat_maxNonce first endNonce max64
  rw [UInt32.le_iff_toNat_le]
  change 1 ≤ _
  split at hmax <;> omega

theorem scan_taken {work : Work} (hdata : work.data.length = 48) {first endNonce : UInt32}
    (hfirst : first.toNat + 1 < 2 ^ 32) (hend : 1 ≤ endNonce.toNat) (max64 : Int) :
    let taken : Work := { work with data := work.data.set nonceIndex first }
    let max := maxNonce (nonceOf taken) endNonce max64
    nonceOf taken = first ∧ ∃ e, first ≤ e ∧
      (∀ n, n ∈ (scanhashCiviclight env taken max max.toNat).1.hashed.map headerNonce ↔
        first ≤ n ∧ n < e) ∧
      (scanhashCiviclight env taken max max.toNat).2.2 =
        { work with data := work.data.set nonceIndex e } ∧
      (e = first ↔ scansNothing env first (maxNonce first endNonce max64 - 1) = true) := by
  intro taken max
  have hnonce : nonceOf taken = first := nonceOf_set hdata first
  have hlen : taken.data.length = 48 := List.length_set.trans hdata
  obtain ⟨e, hle, hhashed, hresult, hnothing⟩ := @scan_nonces env taken max max.toNat hlen
    (one_le_maxNonce hend max64) (by rw [hnonce]; exact hfirst) (Nat.le_refl _)
  refine ⟨hnonce, e, ?_, ?_, ?_, ?_⟩
  · rwa [hnonce] at hle
  · rwa [hnonce] at hhashed
  · rw [hresult, List.set_set]
  · have hmax : max = maxNonce first endNonce max64 := by rw [← hnonce]
    rwa [hnonce, hmax] at hnothing

theorem handoverStep_eq_some (hthreads : 1 ≤ threads) (hmax : threads ≤ 9999)
    (hthrId : thrId < threads) (hgWork : gWork.data.length = 48) {s s' : Handover}
    {iteration : Iteration} (hdata : s.work.data.length = 48)
    (hend : s.endNonce.toNat + 1 < 2 ^ 32)
    (taken : handoverStep env threads thrId gWork s iteration = some s') :
    ∃ first e, Iterated env threads thrId gWork s iteration s' first e := by
  have hlast := lastNonce_succ_lt hthreads hmax hthrId
  have hfirst := UInt32.lt_iff_toNat_lt.mp (firstNonce_lt_lastNonce hthreads hmax hthrId)
  rw [handoverStep] at taken
  split at taken
  · contradiction
  · rename_i hopen
    obtain rfl := Option.some.inj taken
    have hleft : s.start.isSome → nonceOf s.work < s.endNonce := by
      intro hstarted
      simpa [hstarted] using hopen
    rw [getNewWork]
    cases hcopies : copiesFor (!env.bench) s.work gWork s.endNonce with
    | true =>
        obtain ⟨hnonce, e, hle, hhashed, hresult, hnothing⟩ :=
          @scan_taken { env with restart := iteration.restart } gWork hgWork
            (firstNonce threads thrId) (lastNonce threads thrId) (by omega) (by omega)
            iteration.max64
        exact ⟨firstNonce threads thrId, e, hleft, Or.inl ⟨hcopies, rfl, rfl, hresult⟩,
          congrArg (fun n => some (s.start.getD n)) hnonce, hle,
          fun n => by rw [← hhashed n]; exact List.mem_append, hnothing⟩
    | false =>
        obtain ⟨-, hnonceLt, -⟩ := copiesFor_eq_false hcopies
        rw [UInt32.lt_iff_toNat_lt] at hnonceLt
        have hnext : (nonceOf s.work + 1).toNat = (nonceOf s.work).toNat + 1 :=
          toNat_succ (by omega)
        obtain ⟨hnonce, e, hle, hhashed, hresult, hnothing⟩ :=
          @scan_taken { env with restart := iteration.restart } s.work hdata
            (nonceOf s.work + 1) s.endNonce (by omega) (by omega) iteration.max64
        exact ⟨nonceOf s.work + 1, e, hleft, Or.inr ⟨hcopies, rfl, rfl, hresult⟩,
          congrArg (fun n => some (s.start.getD n)) hnonce, hle,
          fun n => by rw [← hhashed n]; exact List.mem_append, hnothing⟩

/-- What holds between iterations while nothing has been skipped. Unless the thread starts
over, all that was hashed lies below its nonce. -/
structure HandedOver (env : ScanEnv) (threads thrId : Nat) (gWork : Work) (s : Handover) :
    Prop where
  data : s.work.data.length = 48
  endNonce : s.endNonce.toNat + 1 < 2 ^ 32
  fresh : s.start = none → s.hashed = []
  noGap : NoGap s
  words : s.start.isSome → headerWords s.work = headerWords gWork
  forced : s.start.isSome →
    (!env.bench && forceNewWork s.work gWork) = (!env.bench && gWork.jobId.isNone)
  again : ∀ start, s.start = some start → StartsOver env gWork → start = firstNonce threads thrId
  below : ∀ start, s.start = some start → ¬ StartsOver env gWork →
    start ≤ nonceOf s.work ∧ ∀ n ∈ s.hashed, n < nonceOf s.work

theorem startsOver_iff : StartsOver env gWork ↔ (!env.bench && gWork.jobId.isNone) = true := by
  rw [StartsOver]
  cases env.bench with
  | true => simp
  | false => simp

/-- After the first iteration a thread copies only to start over. -/
theorem HandedOver.copies_iff {s : Handover} (h : HandedOver env threads thrId gWork s)
    (hstarted : s.start.isSome) (hleft : nonceOf s.work < s.endNonce) :
    copiesFor (!env.bench) s.work gWork s.endNonce = true ↔ StartsOver env gWork := by
  have hwords : s.work.data.take workCmpWords = gWork.data.take workCmpWords := h.words hstarted
  have hnonce : ¬ s.endNonce ≤ s.work.data.getD nonceIndex 0 := UInt32.not_le.mpr hleft
  rw [startsOver_iff, ← h.forced hstarted, copiesFor, hwords, decide_eq_false hnonce]
  simp

theorem strtoul_same (work : Work) (data : List UInt32) :
    forceNewWork { work with data } work = work.jobId.isNone := by
  rw [forceNewWork]
  cases work.jobId with
  | none => rfl
  | some jobId => simp

theorem forceNewWork_eq_false {work gWork : Work} (h : forceNewWork work gWork = false) :
    gWork.jobId.isNone = false := by
  rw [forceNewWork] at h
  split at h
  · rename_i jobId gJobId hjob hgJob
    rw [hgJob]
    rfl
  · contradiction

theorem headerWords_nonce (work : Work) (n : UInt32) :
    headerWords { work with data := work.data.set nonceIndex n } = headerWords work :=
  headerWords_set work work.data n

theorem HandedOver.first (hthreads : 1 ≤ threads) (hmax : threads ≤ 9999)
    (hthrId : thrId < threads) (hgWork : gWork.data.length = 48) {s s' : Handover}
    {iteration : Iteration} {first e : UInt32} (h : HandedOver env threads thrId gWork s)
    (hstart : s.start = none) (taken : Iterated env threads thrId gWork s iteration s' first e) :
    HandedOver env threads thrId gWork s' := by
  have hs' : s'.start = some first := by rw [taken.start, hstart]; rfl
  have hhashed : ∀ n, n ∈ s'.hashed ↔ first ≤ n ∧ n < e := by
    intro n
    rw [taken.hashed, h.fresh hstart]
    simp
  have hfirst : ∀ {start}, s'.start = some start → start = first := fun hstarted =>
    Option.some.inj (hstarted.symm.trans hs')
  have hle := taken.le
  have hnone : s'.start = none → s'.hashed = [] := by
    intro hnone
    rw [hs'] at hnone
    contradiction
  have hgap : NoGap s' := by
    intro start hstarted n hn m hstartm hmn
    rw [hfirst hstarted] at hstartm
    rw [hhashed] at hn ⊢
    exact ⟨hstartm, UInt32.lt_of_le_of_lt hmn hn.2⟩
  have hbelow : nonceOf s'.work = e → ∀ start, s'.start = some start → ¬ StartsOver env gWork →
      start ≤ nonceOf s'.work ∧ ∀ n ∈ s'.hashed, n < nonceOf s'.work := by
    intro hnonce start hstarted _
    rw [hfirst hstarted, hnonce]
    exact ⟨hle, fun n hn => ((hhashed n).mp hn).2⟩
  rcases taken.taken with ⟨hcopies, hcopied, hend, hwork⟩ | ⟨hkeeps, -, hend, hwork⟩
  · refine ⟨?_, ?_, hnone, hgap, ?_, ?_, ?_, hbelow ?_⟩
    · rw [hwork, List.length_set, hgWork]
    · rw [hend]
      exact lastNonce_succ_lt hthreads hmax hthrId
    · intro _
      rw [hwork, headerWords_nonce]
    · intro _
      rw [hwork, strtoul_same]
    · intro start hstarted _
      rw [hfirst hstarted, hcopied]
    · rw [hwork, nonceOf_set hgWork]
  · obtain ⟨hforced, -, hwords⟩ := copiesFor_eq_false hkeeps
    have hsome : (!env.bench && gWork.jobId.isNone) = false := by
      cases hbench : env.bench with
      | true => rfl
      | false =>
          rw [hbench] at hforced
          rw [Bool.not_false, Bool.true_and]
          exact forceNewWork_eq_false hforced
    refine ⟨?_, ?_, hnone, hgap, ?_, ?_, ?_, hbelow ?_⟩
    · rw [hwork, List.length_set, h.data]
    · rw [hend]
      exact h.endNonce
    · intro _
      rw [hwork, headerWords_nonce, hwords]
    · intro _
      rw [hwork, hsome]
      exact hforced
    · intro start _ hover
      rw [startsOver_iff, hsome] at hover
      contradiction
    · rw [hwork, nonceOf_set h.data]

theorem HandedOver.startOver (hthreads : 1 ≤ threads) (hmax : threads ≤ 9999)
    (hthrId : thrId < threads) (hgWork : gWork.data.length = 48) {s s' : Handover}
    {iteration : Iteration} {first e start : UInt32} (h : HandedOver env threads thrId gWork s)
    (hstart : s.start = some start) (hover : StartsOver env gWork)
    (taken : Iterated env threads thrId gWork s iteration s' first e) :
    HandedOver env threads thrId gWork s' := by
  have hstarted : s.start.isSome := by rw [hstart]; rfl
  have hs' : s'.start = some start := by rw [taken.start, hstart]; rfl
  have hcopies := (h.copies_iff hstarted (taken.open_ hstarted)).mpr hover
  rcases taken.taken with ⟨-, hcopied, hend, hwork⟩ | ⟨hkeeps, -⟩
  · have hagain := h.again start hstart hover
    refine ⟨?_, ?_, ?_, ?_, ?_, ?_, ?_, ?_⟩
    · rw [hwork, List.length_set, hgWork]
    · rw [hend]
      exact lastNonce_succ_lt hthreads hmax hthrId
    · intro hnone
      rw [hs'] at hnone
      contradiction
    · intro begin hbegin n hn m hbeginm hmn
      obtain rfl : begin = start := Option.some.inj (hbegin.symm.trans hs')
      rw [taken.hashed] at hn ⊢
      rcases hn with hn | hn
      · exact Or.inl (h.noGap begin hstart n hn m hbeginm hmn)
      · refine Or.inr ⟨?_, UInt32.lt_of_le_of_lt hmn hn.2⟩
        rwa [hcopied, ← hagain]
    · intro _
      rw [hwork, headerWords_nonce]
    · intro _
      rw [hwork, strtoul_same]
    · intro begin hbegin _
      rw [← hagain]
      exact Option.some.inj (hbegin.symm.trans hs')
    · intro _ _ hnot
      exact absurd hover hnot
  · rw [hcopies] at hkeeps
    contradiction

/-- A later iteration that keeps the work goes on behind the nonce that the last scan left. -/
theorem HandedOver.goOn {s s' : Handover} {iteration : Iteration} {first e start : UInt32}
    (h : HandedOver env threads thrId gWork s) (hstart : s.start = some start)
    (hover : ¬ StartsOver env gWork)
    (taken : Iterated env threads thrId gWork s iteration s' first e) :
    first = nonceOf s.work + 1 ∧ s'.endNonce = s.endNonce ∧
      (e = first → HandedOver env threads thrId gWork s') ∧ (e ≠ first → ¬ NoGap s') := by
  have hstarted : s.start.isSome := by rw [hstart]; rfl
  have hs' : s'.start = some start := by rw [taken.start, hstart]; rfl
  have hleft := taken.open_ hstarted
  have hnot := mt (h.copies_iff hstarted hleft).mp hover
  obtain ⟨hbegin, hbelow⟩ := h.below start hstart hover
  rcases taken.taken with ⟨hcopies, -⟩ | ⟨-, hfirst, hend, hwork⟩
  · exact absurd hcopies hnot
  · have hnext : (nonceOf s.work + 1).toNat = (nonceOf s.work).toNat + 1 := by
      have := h.endNonce
      rw [UInt32.lt_iff_toNat_lt] at hleft
      exact toNat_succ (by omega)
    have hlt : nonceOf s.work < first := by
      rw [hfirst, UInt32.lt_iff_toNat_lt, hnext]
      omega
    refine ⟨hfirst, hend, ?_, ?_⟩
    · rintro rfl
      have hsame : ∀ n, n ∈ s'.hashed ↔ n ∈ s.hashed := by
        intro n
        rw [taken.hashed]
        constructor
        · rintro (hn | ⟨hle, hbefore⟩)
          · exact hn
          · exact absurd hle (UInt32.not_le.mpr hbefore)
        · exact Or.inl
      have hnonce : nonceOf s'.work = e := by rw [hwork, nonceOf_set h.data]
      refine ⟨?_, ?_, ?_, ?_, ?_, ?_, ?_, ?_⟩
      · rw [hwork, List.length_set, h.data]
      · rw [hend]
        exact h.endNonce
      · intro hnone
        rw [hs'] at hnone
        contradiction
      · intro again hagain n hn m hm hmn
        obtain rfl : again = start := Option.some.inj (hagain.symm.trans hs')
        rw [hsame] at hn ⊢
        exact h.noGap again hstart n hn m hm hmn
      · intro _
        rw [hwork, headerWords_nonce, h.words hstarted]
      · intro _
        rw [hwork]
        exact h.forced hstarted
      · intro _ _ hnot
        exact absurd hnot hover
      · intro again hagain _
        obtain rfl : again = start := Option.some.inj (hagain.symm.trans hs')
        rw [hnonce]
        exact ⟨UInt32.le_of_lt (UInt32.lt_of_le_of_lt hbegin hlt),
          fun n hn => UInt32.lt_trans (hbelow n ((hsame n).mp hn)) hlt⟩
    · -- the nonce that the last scan left is hashed by neither
      intro hne hgap
      have hmem : first ∈ s'.hashed := (taken.hashed first).mpr (Or.inr ⟨UInt32.le_refl first,
        UInt32.lt_of_le_of_ne taken.le fun heq => hne heq.symm⟩)
      have hskipped := hgap start hs' first hmem (nonceOf s.work) hbegin (UInt32.le_of_lt hlt)
      rcases (taken.hashed _).mp hskipped with hold | ⟨hle, -⟩
      · exact UInt32.lt_irrefl _ (hbelow _ hold)
      · exact absurd hlt (UInt32.not_lt.mpr hle)

theorem HandedOver.init {work : Work} (hdata : work.data.length = 48) {endNonce : UInt32}
    (hend : endNonce.toNat + 1 < 2 ^ 32) :
    HandedOver env threads thrId gWork ⟨work, endNonce, none, []⟩ := by
  constructor
  case data => exact hdata
  case endNonce => exact hend
  case fresh => exact fun _ => rfl
  case words => exact fun h => absurd h Bool.false_ne_true
  case forced => exact fun h => absurd h Bool.false_ne_true
  all_goals exact fun _ h => absurd h (Option.some_ne_none _).symm

theorem HandedOver.harmless_iff {s s' : Handover} {iteration : Iteration} {first e : UInt32}
    (hthreads : 1 ≤ threads) (hmax : threads ≤ 9999) (hthrId : thrId < threads)
    (hgWork : gWork.data.length = 48) (h : HandedOver env threads thrId gWork s)
    (taken : Iterated env threads thrId gWork s iteration s' first e) :
    (HarmlessIteration env gWork s iteration → HandedOver env threads thrId gWork s') ∧
      (¬ HarmlessIteration env gWork s iteration → ¬ NoGap s') := by
  cases hstart : s.start with
  | none =>
      exact ⟨fun _ => h.first hthreads hmax hthrId hgWork hstart taken,
        fun hnot => absurd (Or.inl hstart) hnot⟩
  | some start =>
      by_cases hover : StartsOver env gWork
      · exact ⟨fun _ => h.startOver hthreads hmax hthrId hgWork hstart hover taken,
          fun hnot => absurd (Or.inr (Or.inl hover)) hnot⟩
      · obtain ⟨hfirst, hend, hkeeps, hskips⟩ := h.goOn hstart hover taken
        have hnothing := taken.nothing
        rw [hend, hfirst] at hnothing
        rw [hfirst] at hkeeps hskips
        have hharmless : HarmlessIteration env gWork s iteration ↔ e = nonceOf s.work + 1 := by
          rw [hnothing, HarmlessIteration, hstart]
          constructor
          · rintro (hnone | hyes | hidle)
            · contradiction
            · exact absurd hyes hover
            · exact hidle
          · exact fun hidle => Or.inr (Or.inr hidle)
        rw [hharmless]
        exact ⟨hkeeps, hskips⟩

/-- Between them the scans leave no gap exactly when each after the first starts over or
hashes nothing: the nonce that a scan leaves is counted up before the next one starts. -/
theorem scans_leave_no_gap_iff (hthreads : 1 ≤ threads) (hmax : threads ≤ 9999)
    (hthrId : thrId < threads) (hgWork : gWork.data.length = 48) {work : Work}
    (hdata : work.data.length = 48) {endNonce : UInt32}
    (hend : endNonce = initialEndNonce threads thrId ∨ endNonce = lastNonce threads thrId)
    {trace : List (Handover × Iteration)} {s : Handover}
    (run : Run (handoverStep env threads thrId gWork) ⟨work, endNonce, none, []⟩ trace s) :
    Visits NoGap trace s ↔ Steps (HarmlessIteration env gWork) trace := by
  have hroom : endNonce.toNat + 1 < 2 ^ 32 := by
    rcases hend with rfl | rfl
    · exact initialEndNonce_succ_lt hthreads hmax hthrId
    · exact lastNonce_succ_lt hthreads hmax hthrId
  apply run.visits_iff_steps (HandedOver env threads thrId gWork) _ (.init hdata hroom)
    fun _ h => h.noGap
  · intro s iteration s' h harmless taken
    obtain ⟨first, e, hiterated⟩ :=
      handoverStep_eq_some hthreads hmax hthrId hgWork h.data h.endNonce taken
    exact (h.harmless_iff hthreads hmax hthrId hgWork hiterated).1 harmless
  · intro s iteration s' h harmful taken
    obtain ⟨first, e, hiterated⟩ :=
      handoverStep_eq_some hthreads hmax hthrId hgWork h.data h.endNonce taken
    exact (h.harmless_iff hthreads hmax hthrId hgWork hiterated).2 harmful

end

def newThread : Handover := ⟨.zero, initialEndNonce 1 0, none, []⟩

def someJob : Work := { Work.zero with jobId := some (cstr "a") }

/-- A scan of two nonces, and one that a restart stops before its first. -/
theorem stopped_scan_leaves_no_gap : ∃ trace s,
    Run (handoverStep .plain 1 0 someJob) newThread trace s ∧ s.hashed = [0, 1] ∧
      Visits NoGap trace s := by
  have hscans : (exec (guarded (handoverStep .plain 1 0 someJob) (HarmlessIteration .plain someJob))
      newThread [⟨3, fun _ => false⟩, ⟨3, fun _ => true⟩]).map Handover.hashed =
      some [0, 1] := by decide +kernel
  obtain ⟨s, hexec, hs⟩ := Option.map_eq_some_iff.mp hscans
  obtain ⟨trace, run, -⟩ := Run.start.exec hexec
  refine ⟨trace, s, run.of_guarded.1, hs, ?_⟩
  exact (scans_leave_no_gap_iff (by decide) (by decide) (by decide) rfl rfl (Or.inl rfl)
    run.of_guarded.1).mpr run.of_guarded.2

/-- Two scans of two nonces each: the nonce 2 between them is not hashed. -/
theorem second_scan_skips_nonce : ¬ ∀ (env : ScanEnv) (threads thrId : Nat) (gWork : Work)
    (trace : List (Handover × Iteration)) (s : Handover),
    Run (handoverStep env threads thrId gWork) newThread trace s → NoGap s := by
  intro h
  have hscans : (exec (handoverStep .plain 1 0 someJob) newThread
      [⟨3, fun _ => false⟩, ⟨3, fun _ => false⟩]).map (fun s => (s.start, s.hashed)) =
      some (some 0, [0, 1, 3, 4]) := by decide +kernel
  obtain ⟨s, hexec, hs⟩ := Option.map_eq_some_iff.mp hscans
  simp only [Prod.mk.injEq] at hs
  obtain ⟨trace, run, -⟩ := Run.start.exec hexec
  have hskipped := h _ _ _ _ _ _ run 0 hs.1 3 (by rw [hs.2]; decide) 2 (by decide) (by decide)
  rw [hs.2] at hskipped
  exact absurd hskipped (by decide)

end SojCivicLight.Mining
