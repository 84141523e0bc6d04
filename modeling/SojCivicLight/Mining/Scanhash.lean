import SojCivicLight.CivicLight.PowHash
import SojCivicLight.Library.Lanes
import SojCivicLight.Stratum.GenWork

/-! `scanhash_civiclight`: hashing the nonces of a work, two at a time, and submitting
those whose hash meets the target. -/

namespace SojCivicLight.Mining

open SojCivicLight.Library SojCivicLight.Util SojCivicLight.Stratum SojCivicLight.CivicLight

/-- The comparison of the 128-bit build: the high halves decide unless they are equal. -/
def validHash (hash : List UInt8) (target : List UInt32) : Bool :=
  let t := target.flatMap le32enc
  let h1 := pack (hash.drop 16)
  let t1 := pack (t.drop 16)
  if h1 ≠ t1 then h1 < t1 else pack (hash.take 16) ≤ pack (t.take 16)

/-- What a scan depends on besides its work: the build, the hash, and what each look at the
restart flag sees. -/
structure ScanEnv where
  impl : PowImpl
  oneway : Bool
  bench : Bool
  restart : Nat → Bool

theorem word_lt_block (i : Fin 8) : i.val < 64 := by omega

def ScanEnv.plain : ScanEnv where
  impl :=
    { transformBe := fun state block i => state i + (block ⟨i.val, word_lt_block i⟩).toUInt32
      transform2xBe := fun s0 s1 _ _ => (s0, s1)
      yespower := fun a => (0, a.reverse)
      yespower2 := fun a b => (0, a.reverse, b.reverse)
      stack := { buf := fun _ => 0, state := fun _ => 0, count := 0 } }
  oneway := true
  bench := false
  restart _ := false

structure Submission where
  /-- the 80 bytes that were hashed -/
  header : List UInt8
  hash : List UInt8
  work : Work

structure Scan where
  n : UInt32
  pdata : List UInt32
  looks : Nat
  hashed : List (List UInt8)
  submitted : List Submission
  statsBatch : Nat
  statsAdded : List Nat

section

variable (env : ScanEnv) (work : Work)

def scanEdata : List UInt32 :=
  let edata := (work.data.take 20).map bswap32
  if env.bench then edata.set 17 PowImpl.civiclightV2ActivationTime else edata

def scanHeader (n : UInt32) : List UInt8 := ((scanEdata env work).set 19 n).flatMap le32enc

def headerMidstate : Sha256Context :=
  sha256Update env.impl.transformBe (sha256CtxInit env.impl.stack)
    (((scanEdata env work).flatMap le32enc).take 64)

def offer (n : UInt32) (hash : List UInt8) (s : Scan) : Scan :=
  if validHash hash work.target && !env.bench then
    let pdata := s.pdata.set nonceIndex (bswap32 n)
    { s with
      pdata
      submitted := s.submitted ++ [⟨scanHeader env work n, hash, { work with data := pdata }⟩] }
  else s

/-- The statistics are handed over in batches. -/
def countHashes (count : Nat) (s : Scan) : Scan :=
  if env.bench then s
  else if 256 ≤ s.statsBatch + count then
    { s with statsBatch := 0, statsAdded := s.statsAdded ++ [s.statsBatch + count] }
  else { s with statsBatch := s.statsBatch + count }

/-- The body of the loop of a one-way build. -/
def scanRound (s : Scan) : Scan :=
  let header := scanHeader env work s.n
  let hash := env.impl.civiclightPowhashFromMidstate header (headerMidstate env work)
  let next := offer env work s.n hash (countHashes env 1 { s with hashed := s.hashed ++ [header] })
  { next with n := s.n + 1 }

def scanPairRound (s : Scan) : Scan :=
  let header0 := scanHeader env work s.n
  let header1 := scanHeader env work (s.n + 1)
  let hashes := env.impl.civiclightPowhash2wayMidstate header0 header1 (headerMidstate env work)
  let next := countHashes env 2 { s with hashed := s.hashed ++ [header0, header1] }
  let next := offer env work s.n hashes.1 next
  let next := offer env work (s.n + 1) hashes.2 next
  { next with n := s.n + 2 }

/-- `while (guard && !work_restart[thr_id].restart) round;`, cut off after `fuel` rounds. -/
def scanLoop (guard : UInt32 → Bool) (round : Scan → Scan) : Nat → Scan → Scan
  | 0, s => s
  | fuel + 1, s =>
      if guard s.n then
        let looked := { s with looks := s.looks + 1 }
        if env.restart s.looks then looked else scanLoop guard round fuel (round looked)
      else s

def scanTail (lastNonce : UInt32) (s : Scan) : Scan :=
  if s.n < lastNonce then
    let looked := { s with looks := s.looks + 1 }
    if env.restart s.looks then looked
    else
      let header := scanHeader env work s.n
      let hash := env.impl.civiclightPowhashFromMidstate header (headerMidstate env work)
      let next := { looked with hashed := s.hashed ++ [header] }
      let next := if env.bench then next else { next with statsBatch := next.statsBatch + 1 }
      let next := offer env work s.n hash next
      { next with n := s.n + 1 }
  else s

def scanStart : Scan where
  n := work.data.getD nonceIndex 0
  pdata := work.data
  looks := 0
  hashed := []
  submitted := []
  statsBatch := 0
  statsAdded := []

def scanMain (lastNonce : UInt32) (fuel : Nat) (s : Scan) : Scan :=
  if env.oneway then scanLoop env (· < lastNonce) (scanRound env work) fuel s
  else scanLoop env (· + 1 < lastNonce) (scanPairRound env work) fuel s

def flushStats (s : Scan) : Scan :=
  if !env.bench && s.statsBatch ≠ 0 then
    { s with statsBatch := 0, statsAdded := s.statsAdded ++ [s.statsBatch] }
  else s

/-- The scan, its `hashes_done`, and the work it leaves. -/
def scanhashCiviclight (maxNonce : UInt32) (fuel : Nat) : Scan × UInt32 × Work :=
  let lastNonce := maxNonce - 1
  let s := scanMain env work lastNonce fuel (scanStart work)
  let s := flushStats env (scanTail env work lastNonce s)
  (s, s.n - work.data.getD nonceIndex 0, { work with data := s.pdata.set nonceIndex s.n })

/-! What is submitted. -/

/-- A submission of `work` under the nonce that was hashed. -/
def Submits (submission : Submission) : Prop :=
  ∃ n, submission.header = scanHeader env work n ∧
    submission.work = { work with data := work.data.set nonceIndex (bswap32 n) }

/-- Only the nonce of the work's data changes, and every submission carries its own. -/
structure Scanning (s : Scan) : Prop where
  pdata : ∀ nonce, s.pdata.set nonceIndex nonce = work.data.set nonceIndex nonce
  submitted : ∀ submission ∈ s.submitted, Submits env work submission

variable {env work}

theorem Scanning.same {s s' : Scan} (h : Scanning env work s) (hpdata : s'.pdata = s.pdata)
    (hsubmitted : s'.submitted = s.submitted) : Scanning env work s' :=
  ⟨hpdata ▸ h.pdata, hsubmitted ▸ h.submitted⟩

theorem Scanning.countHashes {s : Scan} (h : Scanning env work s) (count : Nat) :
    Scanning env work (countHashes env count s) := by
  rw [Mining.countHashes]
  split
  · exact h
  · split <;> exact h.same rfl rfl

theorem Scanning.offer {s : Scan} (h : Scanning env work s) (n : UInt32) (hash : List UInt8) :
    Scanning env work (offer env work n hash s) := by
  rw [Mining.offer]
  split
  · constructor
    · intro nonce
      rw [List.set_set, h.pdata]
    · intro submission hmem
      rcases List.mem_append.mp hmem with hmem | hmem
      · exact h.submitted submission hmem
      · obtain rfl := List.mem_singleton.mp hmem
        exact ⟨n, rfl, by rw [h.pdata]⟩
  · exact h

theorem Scanning.round {s : Scan} (h : Scanning env work s) :
    Scanning env work (scanRound env work s) := by
  rw [scanRound]
  have hashed : Scanning env work { s with hashed := s.hashed ++ [scanHeader env work s.n] } :=
    h.same rfl rfl
  exact Scanning.same ((hashed.countHashes 1).offer s.n _) rfl rfl

theorem Scanning.pairRound {s : Scan} (h : Scanning env work s) :
    Scanning env work (scanPairRound env work s) := by
  rw [scanPairRound]
  have hashed : Scanning env work { s with
      hashed := s.hashed ++ [scanHeader env work s.n, scanHeader env work (s.n + 1)] } :=
    h.same rfl rfl
  exact Scanning.same (((hashed.countHashes 2).offer s.n _).offer (s.n + 1) _) rfl rfl

theorem Scanning.loop {guard : UInt32 → Bool} {round : Scan → Scan} {s : Scan}
    (h : Scanning env work s) (hround : ∀ s, Scanning env work s → Scanning env work (round s))
    (fuel : Nat) : Scanning env work (scanLoop env guard round fuel s) := by
  induction fuel generalizing s with
  | zero => exact h
  | succ fuel ih =>
      rw [scanLoop]
      split
      · have looked : Scanning env work { s with looks := s.looks + 1 } := h.same rfl rfl
        dsimp only
        split
        · exact looked
        · exact ih (hround _ looked)
      · exact h

theorem Scanning.tail {s : Scan} (h : Scanning env work s) (lastNonce : UInt32) :
    Scanning env work (scanTail env work lastNonce s) := by
  rw [scanTail]
  split
  · dsimp only
    split
    · exact h.same rfl rfl
    · refine Scanning.same (Scanning.offer ?_ s.n _) rfl rfl
      split <;> exact h.same rfl rfl
  · exact h

theorem Scanning.main {s : Scan} (h : Scanning env work s) (lastNonce : UInt32) (fuel : Nat) :
    Scanning env work (scanMain env work lastNonce fuel s) := by
  rw [scanMain]
  split
  · exact h.loop (fun _ hs => hs.round) fuel
  · exact h.loop (fun _ hs => hs.pairRound) fuel

theorem Scanning.flush {s : Scan} (h : Scanning env work s) :
    Scanning env work (flushStats env s) := by
  rw [flushStats]
  split
  · exact h.same rfl rfl
  · exact h

end

end SojCivicLight.Mining
