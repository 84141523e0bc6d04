import SojCivicLight.Mining.Handover

/-! What a scan does with a nonce whose yespower call fails: the call returns -1 and leaves
32 bytes of `0xff`, which are hashed on as if they were its result. -/

namespace SojCivicLight.Mining

open SojCivicLight.Library SojCivicLight.Util SojCivicLight.Stratum SojCivicLight.CivicLight

/-- How a nonce is hashed: on its own, or in a pair with the nonce after or before it. -/
inductive HashCall
  | single
  | lane0 (partner : UInt32)
  | lane1 (partner : UInt32)

structure NonceCall where
  nonce : UInt32
  call : HashCall

section

variable (env : ScanEnv) (work : Work)

def NonceCall.header (c : NonceCall) : List UInt8 := scanHeader env work c.nonce

def NonceCall.hash (c : NonceCall) : List UInt8 :=
  match c.call with
  | .single =>
      env.impl.civiclightPowhashFromMidstate (scanHeader env work c.nonce) (headerMidstate env work)
  | .lane0 partner =>
      (env.impl.civiclightPowhash2wayMidstate (scanHeader env work c.nonce)
        (scanHeader env work partner) (headerMidstate env work)).1
  | .lane1 partner =>
      (env.impl.civiclightPowhash2wayMidstate (scanHeader env work partner)
        (scanHeader env work c.nonce) (headerMidstate env work)).2

def roundCalls (n : UInt32) : List NonceCall :=
  if env.oneway then [⟨n, .single⟩] else [⟨n, .lane0 (n + 1)⟩, ⟨n + 1, .lane1 n⟩]

def loopCalls (last : UInt32) : Nat → Nat → UInt32 → List NonceCall
  | 0, _, _ => []
  | fuel + 1, looks, n =>
      if scanGuard env n last then
        if env.restart looks then []
        else roundCalls env n ++
          loopCalls last fuel (looks + 1) (n + UInt32.ofNat (roundNonces env false n).length)
      else []

def tailCalls (last : UInt32) (s : Scan) : List NonceCall :=
  if s.n < last then if env.restart s.looks then [] else [⟨s.n, .single⟩] else []

def scanCalls (maxNonce : UInt32) (fuel : Nat) : List NonceCall :=
  loopCalls env (maxNonce - 1) fuel 0 (nonceOf work) ++
    tailCalls env (maxNonce - 1) (scanMain env work (maxNonce - 1) fuel (scanStart work))

def NonceCall.offered (c : NonceCall) : List Submission :=
  if env.bench = false ∧ MeetsTarget (c.hash env work) work.target then
    [submissionOf env work (c.nonce, c.hash env work)]
  else []

variable {env work}

theorem roundCalls_header (n : UInt32) : (roundCalls env n).map (NonceCall.header env work) =
    (roundNonces env false n).map (scanHeader env work) := by
  rw [roundCalls, roundNonces, Bool.false_or]
  split
  · rfl
  · rfl

theorem offer_submitted {s : Scan} (h : Scanning env work s) (c : NonceCall) :
    (offer env work c.nonce (c.hash env work) s).submitted = s.submitted ++ c.offered env work := by
  cases hbench : env.bench with
  | true =>
      rw [offer, NonceCall.offered, hbench]
      simp
  | false =>
      obtain ⟨pdata, hoffer, -⟩ := offer_eq work hbench c.nonce (c.hash env work) s
      rw [hoffer, NonceCall.offered]
      by_cases hmeets : MeetsTarget (c.hash env work) work.target
      · simp only [hbench, hmeets, and_self, if_true, submissionOf, h.pdata]
      · simp only [hmeets, and_false, if_false]

theorem countHashes_submitted (count : Nat) (s : Scan) :
    (countHashes env count s).submitted = s.submitted := by
  simp only [countHashes]
  split_ifs <;> rfl

theorem loopRound_submitted {s : Scan} (h : Scanning env work s) :
    (loopRound env work s).submitted =
      s.submitted ++ (roundCalls env s.n).flatMap (NonceCall.offered env work) := by
  rw [loopRound, roundCalls]
  split
  · have hashed : Scanning env work { s with hashed := s.hashed ++ [scanHeader env work s.n] } :=
      h.same rfl rfl
    have counted := hashed.countHashes 1
    have hoffer := offer_submitted counted ⟨s.n, .single⟩
    rw [countHashes_submitted] at hoffer
    rw [List.flatMap_singleton]
    exact hoffer
  · have hashed : Scanning env work { s with
        hashed := s.hashed ++ [scanHeader env work s.n, scanHeader env work (s.n + 1)] } :=
      h.same rfl rfl
    have counted := hashed.countHashes 2
    have hoffer0 := offer_submitted counted ⟨s.n, .lane0 (s.n + 1)⟩
    have hoffer1 := offer_submitted (counted.offer s.n
      (NonceCall.hash env work ⟨s.n, .lane0 (s.n + 1)⟩)) ⟨s.n + 1, .lane1 s.n⟩
    rw [hoffer0, countHashes_submitted, List.append_assoc] at hoffer1
    rw [List.flatMap_cons, List.flatMap_singleton]
    exact hoffer1

theorem scanLoop_calls {last : UInt32} {fuel : Nat} {s : Scan} (h : Scanning env work s) :
    let after := scanLoop env (scanGuard env · last) (loopRound env work) fuel s
    let calls := loopCalls env last fuel s.looks s.n
    after.hashed = s.hashed ++ calls.map (NonceCall.header env work) ∧
      after.submitted = s.submitted ++ calls.flatMap (NonceCall.offered env work) := by
  induction fuel generalizing s with
  | zero => simp [scanLoop, loopCalls]
  | succ fuel ih =>
      have looked : Scanning env work { s with looks := s.looks + 1 } := h.same rfl rfl
      simp only [scanLoop, loopCalls]
      split
      · split
        · simp
        · obtain ⟨hn, -⟩ := loopRound_n env work { s with looks := s.looks + 1 }
          have hlooks := @loopRound_looks env work { s with looks := s.looks + 1 }
          obtain ⟨hhashed, hsubmitted⟩ := ih looked.loopRound
          rw [hn, hlooks] at hhashed hsubmitted
          rw [hhashed, hsubmitted, loopRound_hashed, loopRound_submitted looked]
          simp [roundCalls_header]
      · simp

theorem scanTail_calls {last : UInt32} {s : Scan} (h : Scanning env work s) :
    (scanTail env work last s).hashed =
        s.hashed ++ (tailCalls env last s).map (NonceCall.header env work) ∧
      (scanTail env work last s).submitted =
        s.submitted ++ (tailCalls env last s).flatMap (NonceCall.offered env work) := by
  rw [scanTail_eq, tailCalls]
  split
  · split
    · simp
    · refine ⟨tailRound_hashed _, ?_⟩
      let next : Scan :=
        { s with looks := s.looks + 1, hashed := s.hashed ++ [scanHeader env work s.n] }
      have batched : Scanning env work
          (if env.bench then next else { next with statsBatch := next.statsBatch + 1 }) := by
        split
        · exact h.same rfl rfl
        · exact h.same rfl rfl
      have hkept : (if env.bench then next
          else { next with statsBatch := next.statsBatch + 1 }).submitted = s.submitted := by
        split
        · rfl
        · rfl
      have hoffer := offer_submitted batched ⟨s.n, .single⟩
      rw [hkept] at hoffer
      rw [List.flatMap_singleton]
      exact hoffer
  · simp

theorem scan_calls (env : ScanEnv) (work : Work) (maxNonce : UInt32) (fuel : Nat) :
    let scan := (scanhashCiviclight env work maxNonce fuel).1
    let calls := scanCalls env work maxNonce fuel
    scan.hashed = calls.map (NonceCall.header env work) ∧
      scan.submitted = calls.flatMap (NonceCall.offered env work) := by
  intro scan calls
  have start : Scanning env work (scanStart work) := ⟨fun _ => rfl, by simp [scanStart]⟩
  obtain ⟨hhashed, hsubmitted⟩ := @scanLoop_calls env work (maxNonce - 1) fuel _ start
  rw [← scanMain_eq] at hhashed hsubmitted
  obtain ⟨hhashed', hsubmitted'⟩ := @scanTail_calls env work (maxNonce - 1) _
    (start.main (maxNonce - 1) fuel)
  have hflush : ∀ s, (flushStats env s).submitted = s.submitted := by
    intro s
    rw [flushStats]
    split
    · rfl
    · rfl
  have hcalls : calls = loopCalls env (maxNonce - 1) fuel (scanStart work).looks
      (scanStart work).n ++ tailCalls env (maxNonce - 1)
        (scanMain env work (maxNonce - 1) fuel (scanStart work)) := rfl
  constructor
  · apply (flushStats_hashed _).1.trans
    rw [hhashed', hhashed, hcalls, List.map_append]
    rfl
  · apply (hflush _).trans
    rw [hsubmitted', hsubmitted, hcalls, List.flatMap_append]
    rfl

theorem scanCalls_unique (hdata : work.data.length = 48) {maxNonce : UInt32} {fuel : Nat}
    (hmax : 1 ≤ maxNonce) (hfirst : (nonceOf work).toNat + 1 < 2 ^ 32)
    (hfuel : maxNonce.toNat ≤ fuel) {c c' : NonceCall}
    (hc : c ∈ scanCalls env work maxNonce fuel) (hc' : c' ∈ scanCalls env work maxNonce fuel)
    (hsame : c.header env work = c'.header env work) : c = c' := by
  obtain ⟨k, hreached, -⟩ := @scan_reached env work maxNonce fuel hmax hfirst hfuel
  have hheaders := (scan_calls env work maxNonce fuel).1
  rw [hreached.hashed] at hheaders
  have hn := hreached.n
  have hlt := (scanhashCiviclight env work maxNonce fuel).1.n.toNat_lt
  have hnodup : ((List.range k).map fun i =>
      scanHeader env work (nonceOf work + UInt32.ofNat i)).Nodup := by
    apply List.Nodup.map_on _ List.nodup_range
    intro i hi j hj heq
    have hi' := List.mem_range.mp hi
    have hj' := List.mem_range.mp hj
    have hnonce := congrArg headerNonce heq
    rw [headerNonce_scanHeader env hdata, headerNonce_scanHeader env hdata, UInt32.add_right_inj,
      ← UInt32.toNat_inj, UInt32.toNat_ofNat_of_lt' (by show _ < 2 ^ 32; omega),
      UInt32.toNat_ofNat_of_lt' (by show _ < 2 ^ 32; omega)] at hnonce
    exact hnonce
  rw [hheaders] at hnodup
  exact List.inj_on_of_nodup_map hnodup hc hc' hsame

end

/-! A call that fails. -/

section

variable (env : ScanEnv) (work : Work)

/-- The header is hashed with yespower, and this call of it fails. -/
def NonceCall.Fails (c : NonceCall) : Prop :=
  PowImpl.civiclightV2ActivationTime ≤ PowImpl.extractNtime (c.header env work) ∧
    match c.call with
    | .single =>
        env.impl.yespower (env.impl.coreHash (c.header env work)) = (-1, PowImpl.yespowerFailure)
    | .lane0 partner =>
        env.impl.yespower2 (env.impl.coreHash (c.header env work))
          (env.impl.coreHash (scanHeader env work partner)) =
            (-1, PowImpl.yespowerFailure, PowImpl.yespowerFailure)
    | .lane1 partner =>
        env.impl.yespower2 (env.impl.coreHash (scanHeader env work partner))
          (env.impl.coreHash (c.header env work)) =
            (-1, PowImpl.yespowerFailure, PowImpl.yespowerFailure)

variable {env work}

theorem take_scanHeader_words (n m : UInt32) :
    (scanHeader env work n).take 76 = (scanHeader env work m).take 76 := by
  rw [scanHeader, scanHeader, take_flatMap_le32enc _ 19, take_flatMap_le32enc _ 19,
    List.take_set_of_le (by decide), List.take_set_of_le (by decide)]

theorem extractNtime_scanHeader (n m : UInt32) :
    PowImpl.extractNtime (scanHeader env work n) =
      PowImpl.extractNtime (scanHeader env work m) := by
  have htime : ∀ header : List UInt8, PowImpl.extractNtime header =
      PowImpl.extractNtime (header.take 76) := by
    intro header
    simp [PowImpl.extractNtime]
  rw [htime, take_scanHeader_words n m, ← htime]

theorem NonceCall.Fails.hash (hdata : work.data.length = 48)
    (transform : ∀ s0 s1 b0 b1, env.impl.transform2xBe s0 s1 b0 b1 =
      (env.impl.transformBe s0 b0, env.impl.transformBe s1 b1))
    {c : NonceCall} (h : c.Fails env work) :
    c.hash env work = env.impl.failedHash (c.header env work) := by
  have hlen := fun n => @length_scanHeader env work hdata n
  have hmid : ∀ n, Streams env.impl.transformBe ((scanHeader env work n).take 64)
      (headerMidstate env work) := by
    intro n
    rw [take_scanHeader n]
    exact streams_sha256Update (streams_sha256CtxInit env.impl.transformBe env.impl.stack) _
  have same : ∀ n m, (scanHeader env work n).take 64 = (scanHeader env work m).take 64 := by
    intro n m
    rw [take_scanHeader, take_scanHeader]
  obtain ⟨nonce, call⟩ := c
  obtain ⟨active, failed⟩ := h
  rw [NonceCall.header] at active
  cases call with
  | single =>
      exact PowImpl.civiclightPowhashFromMidstate_failed (hlen nonce) (hmid nonce) active failed
  | lane0 partner =>
      have active' := active
      rw [extractNtime_scanHeader nonce partner] at active'
      exact congrArg Prod.fst (PowImpl.civiclightPowhash2wayMidstate_failed transform (hlen nonce)
        (hlen partner) (same nonce partner) (hmid nonce) active active' failed)
  | lane1 partner =>
      have active' := active
      rw [extractNtime_scanHeader nonce partner] at active'
      exact congrArg Prod.snd (PowImpl.civiclightPowhash2wayMidstate_failed transform
        (hlen partner) (hlen nonce) (same partner nonce) (hmid partner) active' active failed)

/-- A scan keeps the nonces whose call fails to itself exactly when it is a benchmark, or the
hash of what a failed call leaves misses the target for each of them. -/
theorem failed_nonces_kept_iff (hdata : work.data.length = 48)
    (transform : ∀ s0 s1 b0 b1, env.impl.transform2xBe s0 s1 b0 b1 =
      (env.impl.transformBe s0 b0, env.impl.transformBe s1 b1))
    {maxNonce : UInt32} {fuel : Nat} (hmax : 1 ≤ maxNonce)
    (hfirst : (nonceOf work).toNat + 1 < 2 ^ 32) (hfuel : maxNonce.toNat ≤ fuel) :
    (∀ c ∈ scanCalls env work maxNonce fuel, c.Fails env work →
        ∀ submission ∈ (scanhashCiviclight env work maxNonce fuel).1.submitted,
          submission.header ≠ c.header env work) ↔
      env.bench = true ∨ ∀ c ∈ scanCalls env work maxNonce fuel, c.Fails env work →
        ¬ MeetsTarget (env.impl.failedHash (c.header env work)) work.target := by
  have hsubmitted := (scan_calls env work maxNonce fuel).2
  rw [hsubmitted]
  have hoffered : ∀ {c : NonceCall} {submission}, submission ∈ c.offered env work ↔
      (env.bench = false ∧ MeetsTarget (c.hash env work) work.target) ∧
        submission = submissionOf env work (c.nonce, c.hash env work) := by
    intro c submission
    rw [NonceCall.offered]
    split
    · rename_i hmeets
      simp [hmeets]
    · rename_i hmisses
      simp [hmisses]
  constructor
  · intro hkept
    cases hbench : env.bench with
    | true => exact Or.inl rfl
    | false =>
        refine Or.inr fun c hc hfails hmeets => ?_
        rw [← hfails.hash hdata transform] at hmeets
        exact hkept c hc hfails _
          (List.mem_flatMap.mpr ⟨c, hc, hoffered.mpr ⟨⟨hbench, hmeets⟩, rfl⟩⟩) rfl
  · intro hmisses c hc hfails submission hmem hsame
    obtain ⟨c', hc', hmem'⟩ := List.mem_flatMap.mp hmem
    obtain ⟨⟨hbench, hmeets⟩, rfl⟩ := hoffered.mp hmem'
    obtain rfl := scanCalls_unique hdata hmax hfirst hfuel hc hc' hsame.symm
    rw [hfails.hash hdata transform] at hmeets
    rcases hmisses with hbench' | hmisses
    · exact absurd (hbench.symm.trans hbench') Bool.false_ne_true
    · exact hmisses c hc hfails hmeets

end

/-- A build over pairs whose yespower finds no memory. -/
def failingEnv : ScanEnv where
  impl :=
    { transformBe := fun state block i => state i + (block ⟨i.val, word_lt_block i⟩).toUInt32
      transform2xBe := fun s0 s1 b0 b1 =>
        (fun i => s0 i + (b0 ⟨i.val, word_lt_block i⟩).toUInt32,
          fun i => s1 i + (b1 ⟨i.val, word_lt_block i⟩).toUInt32)
      yespower := fun _ => (-1, PowImpl.yespowerFailure)
      yespower2 := fun _ _ => (-1, PowImpl.yespowerFailure, PowImpl.yespowerFailure)
      stack := { buf := fun _ => 0, state := fun _ => 0, count := 0 } }
  oneway := false
  bench := false
  restart _ := false

def workFor (target : List UInt32) : Work :=
  { Work.zero with
    data := Work.zero.data.set ntimeIndex (bswap32 PowImpl.civiclightV2ActivationTime), target }

/-- A pair and the nonce left over, under a target of zero. -/
theorem failed_nonces_kept_three :
    let work := workFor (List.replicate 8 0)
    ∀ c ∈ scanCalls failingEnv work 4 4, c.Fails failingEnv work →
      ∀ submission ∈ (scanhashCiviclight failingEnv work 4 4).1.submitted,
        submission.header ≠ c.header failingEnv work := by
  intro work
  have hmisses : ∀ c ∈ scanCalls failingEnv work 4 4,
      ¬ MeetsTarget (failingEnv.impl.failedHash (c.header failingEnv work)) work.target := by
    decide +kernel
  have hfirst : (nonceOf work).toNat + 1 < 2 ^ 32 := by decide +kernel
  exact (failed_nonces_kept_iff rfl (fun _ _ _ _ => rfl) (by decide) hfirst (by decide)).mpr
    (Or.inr fun c hc _ => hmisses c hc)

/-- Under the easiest target both nonces of a failed pair are submitted. -/
theorem failed_pair_submitted :
    let work := workFor (List.replicate 8 0xffffffff)
    scanCalls failingEnv work 3 3 = [⟨0, .lane0 1⟩, ⟨1, .lane1 0⟩] ∧
      NonceCall.Fails failingEnv work ⟨0, .lane0 1⟩ ∧
      ∃ submission ∈ (scanhashCiviclight failingEnv work 3 3).1.submitted,
        submission.header = NonceCall.header failingEnv work ⟨0, .lane0 1⟩ := by
  intro work
  refine ⟨rfl, ⟨by decide +kernel, rfl⟩, ?_⟩
  have hsubmitted := (scan_calls failingEnv work 3 3).2
  have hmeets : MeetsTarget (NonceCall.hash failingEnv work ⟨0, .lane0 1⟩) work.target := by
    decide +kernel
  refine ⟨submissionOf failingEnv work (0, NonceCall.hash failingEnv work ⟨0, .lane0 1⟩), ?_, rfl⟩
  rw [hsubmitted, List.mem_flatMap]
  refine ⟨⟨0, .lane0 1⟩, List.mem_cons_self, ?_⟩
  rw [NonceCall.offered, if_pos ⟨rfl, hmeets⟩]
  exact List.mem_singleton_self _

end SojCivicLight.Mining
