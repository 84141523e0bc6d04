import SojCivicLight.Mining.Scanhash

/-! What one scan hashes, submits and counts, whatever its looks at the restart flag see. -/

namespace SojCivicLight.Mining

open SojCivicLight.Library SojCivicLight.Util SojCivicLight.Stratum SojCivicLight.CivicLight

/-- The comparison of the builds without a 128-bit type. -/
def validHash64 (hash : List UInt8) (target : List UInt32) : Bool :=
  let t := target.flatMap le32enc
  let h3 := pack (hash.drop 24)
  let t3 := pack (t.drop 24)
  if h3 ≠ t3 then h3 < t3
  else
    let h2 := pack ((hash.take 24).drop 16)
    let t2 := pack ((t.take 24).drop 16)
    if h2 ≠ t2 then h2 < t2
    else
      let h1 := pack ((hash.take 16).drop 8)
      let t1 := pack ((t.take 16).drop 8)
      if h1 ≠ t1 then h1 < t1 else pack (hash.take 8) ≤ pack (t.take 8)

/-- The hash as a number is at most the target. -/
def MeetsTarget (hash : List UInt8) (target : List UInt32) : Prop :=
  pack hash ≤ pack (target.flatMap le32enc)

instance (hash : List UInt8) (target : List UInt32) : Decidable (MeetsTarget hash target) :=
  inferInstanceAs (Decidable (_ ≤ _))

theorem validHash_iff (hash : List UInt8) (target : List UInt32) :
    validHash hash target = true ↔ MeetsTarget hash target := by
  refine Iff.trans ?_ (pack_le_pack_iff 16 _ _).symm
  rw [validHash]
  split <;> simp <;> omega

theorem validHash64_iff (hash : List UInt8) (target : List UInt32) :
    validHash64 hash target = true ↔ MeetsTarget hash target := by
  have low := pack_le_pack_iff 8 (hash.take 16) ((target.flatMap le32enc).take 16)
  have middle := pack_le_pack_iff 16 (hash.take 24) ((target.flatMap le32enc).take 24)
  rw [List.take_take, List.take_take] at low middle
  refine Iff.trans ?_ (pack_le_pack_iff 24 _ _).symm
  rw [middle]
  refine Iff.trans ?_ (or_congr_right (and_congr_right fun _ =>
    or_congr_right (and_congr_right fun _ => low))).symm
  rw [validHash64]
  dsimp only
  split
  · simp
    omega
  split
  · simp
    omega
  split <;> simp <;> omega

/-- Either build accepts a hash exactly when it is at most the target, both read as little-endian
numbers. -/
theorem valid_hash_builds (hash : List UInt8) (target : List UInt32) :
    (validHash hash target = true ↔ pack hash ≤ pack (target.flatMap le32enc)) ∧
    (validHash64 hash target = true ↔ pack hash ≤ pack (target.flatMap le32enc)) :=
  ⟨validHash_iff hash target, validHash64_iff hash target⟩

section

variable (env : ScanEnv) (work : Work)

/-- The scan can compute `hash` for the nonce `n`: on its own, or in a pair. -/
inductive ComputedHash (n : UInt32) : List UInt8 → Prop
  | single : ComputedHash n
      (env.impl.civiclightPowhashFromMidstate (scanHeader env work n) (headerMidstate env work))
  | first (m : UInt32) : ComputedHash n
      (env.impl.civiclightPowhash2wayMidstate (scanHeader env work n) (scanHeader env work m)
        (headerMidstate env work)).1
  | second (m : UInt32) : ComputedHash n
      (env.impl.civiclightPowhash2wayMidstate (scanHeader env work m) (scanHeader env work n)
        (headerMidstate env work)).2

def submissionOf (hashed : UInt32 × List UInt8) : Submission where
  header := scanHeader env work hashed.1
  hash := hashed.2
  work := { work with data := work.data.set nonceIndex (bswap32 hashed.1) }

/-- The scan has hashed the nonces of `done`, which follow each other from `first` on. -/
structure Scanned (first : UInt32) (done : List (UInt32 × List UInt8)) (s : Scan) : Prop where
  n : s.n.toNat = first.toNat + done.length
  nonces : done.map (·.1.toNat) = List.range' first.toNat done.length
  computed : ∀ hashed ∈ done, ComputedHash env work hashed.1 hashed.2
  hashed : s.hashed = done.map fun hashed => scanHeader env work hashed.1
  submitted : s.submitted =
    (done.filter fun hashed => MeetsTarget hashed.2 work.target).map (submissionOf env work)
  counted : s.statsAdded.sum + s.statsBatch = done.length
  pdata : ∀ nonce, s.pdata.set nonceIndex nonce = work.data.set nonceIndex nonce

variable {env work}

theorem scanned_start : Scanned env work (work.data.getD nonceIndex 0) [] (scanStart work) :=
  ⟨rfl, rfl, by simp, rfl, rfl, rfl, fun _ => rfl⟩

theorem Scanned.look {first : UInt32} {done : List (UInt32 × List UInt8)} {s : Scan}
    (h : Scanned env work first done s) :
    Scanned env work first done { s with looks := s.looks + 1 } :=
  ⟨h.n, h.nonces, h.computed, h.hashed, h.submitted, h.counted, h.pdata⟩

theorem offer_eq (work : Work) (hbench : env.bench = false) (n : UInt32) (hash : List UInt8)
    (s : Scan) :
    ∃ pdata, offer env work n hash s =
        { s with
          pdata
          submitted := s.submitted ++
            if MeetsTarget hash work.target then
              [⟨scanHeader env work n, hash,
                { work with data := s.pdata.set nonceIndex (bswap32 n) }⟩]
            else [] } ∧
      ∀ nonce, pdata.set nonceIndex nonce = s.pdata.set nonceIndex nonce := by
  rw [offer, hbench]
  by_cases hvalid : MeetsTarget hash work.target
  · have htrue := (validHash_iff hash work.target).mpr hvalid
    refine ⟨s.pdata.set nonceIndex (bswap32 n), ?_, fun nonce => by rw [List.set_set]⟩
    simp [htrue, hvalid]
  · have hfalse := Bool.eq_false_iff.mpr fun h => hvalid ((validHash_iff _ _).mp h)
    refine ⟨s.pdata, ?_, fun _ => rfl⟩
    simp [hfalse, hvalid]

theorem toNat_succ {n : UInt32} (h : n.toNat + 1 < 2 ^ 32) : (n + 1).toNat = n.toNat + 1 := by
  rw [UInt32.toNat_add]
  exact Nat.mod_eq_of_lt h

theorem Scanned.next {first : UInt32} {done : List (UInt32 × List UInt8)} {s s' : Scan}
    (h : Scanned env work first done s) {hash : List UInt8} (pdata : List UInt32)
    (hcomputed : ComputedHash env work s.n hash) (hlt : s.n.toNat + 1 < 2 ^ 32)
    (hn : s'.n = s.n + 1) (hhashed : s'.hashed = s.hashed ++ [scanHeader env work s.n])
    (hsubmitted : s'.submitted = s.submitted ++
      if MeetsTarget hash work.target then
        [⟨scanHeader env work s.n, hash,
          { work with data := pdata.set nonceIndex (bswap32 s.n) }⟩]
      else [])
    (hpdata : ∀ nonce, pdata.set nonceIndex nonce = work.data.set nonceIndex nonce)
    (hpdata' : ∀ nonce, s'.pdata.set nonceIndex nonce = work.data.set nonceIndex nonce)
    (hcounted : s'.statsAdded.sum + s'.statsBatch = s.statsAdded.sum + s.statsBatch + 1) :
    Scanned env work first (done ++ [(s.n, hash)]) s' := by
  have hlen : (done ++ [(s.n, hash)]).length = done.length + 1 := by simp
  constructor
  · rw [hn, hlen, toNat_succ hlt, h.n, Nat.add_assoc]
  · rw [List.map_append, h.nonces, hlen, List.range'_1_concat, List.map_singleton, h.n]
  · intro hashed hmem
    rcases List.mem_append.mp hmem with hmem | hmem
    · exact h.computed hashed hmem
    · rw [List.mem_singleton.mp hmem]
      exact hcomputed
  · rw [hhashed, h.hashed, List.map_append]
    rfl
  · rw [hsubmitted, h.submitted, List.filter_append, List.map_append]
    by_cases hvalid : MeetsTarget hash work.target
    · simp [hvalid, submissionOf, hpdata]
    · simp [hvalid]
  · rw [hcounted, h.counted, hlen]
  · exact hpdata'

theorem countHashes_eq (hbench : env.bench = false) (count : Nat) (s : Scan) :
    ∃ statsBatch statsAdded, countHashes env count s = { s with statsBatch, statsAdded } ∧
      statsAdded.sum + statsBatch = s.statsAdded.sum + s.statsBatch + count := by
  rw [countHashes, hbench, if_neg (by decide)]
  split
  · refine ⟨0, s.statsAdded ++ [s.statsBatch + count], rfl, ?_⟩
    simp
    omega
  · exact ⟨s.statsBatch + count, s.statsAdded, rfl, by omega⟩

theorem Scanned.round (hbench : env.bench = false) {first : UInt32}
    {done : List (UInt32 × List UInt8)} {s : Scan} (h : Scanned env work first done s)
    (hlt : s.n.toNat + 1 < 2 ^ 32) :
    ∃ hash, Scanned env work first (done ++ [(s.n, hash)]) (scanRound env work s) := by
  obtain ⟨batch, added, hcount, hsum⟩ := countHashes_eq hbench 1
    { s with hashed := s.hashed ++ [scanHeader env work s.n] }
  refine ⟨_, h.next s.pdata .single hlt rfl ?_ ?_ h.pdata ?_ ?_⟩
  all_goals
    rw [scanRound, hcount]
    obtain ⟨pdata, hoffer, hpdata⟩ := offer_eq work hbench s.n _
      { s with
        hashed := s.hashed ++ [scanHeader env work s.n], statsBatch := batch, statsAdded := added }
    rw [hoffer]
  · exact fun nonce => (hpdata nonce).trans (h.pdata nonce)
  · exact hsum

theorem Scanned.pairRound (hbench : env.bench = false) {first : UInt32}
    {done : List (UInt32 × List UInt8)} {s : Scan} (h : Scanned env work first done s)
    (hlt : s.n.toNat + 2 < 2 ^ 32) :
    ∃ hash0 hash1, Scanned env work first (done ++ [(s.n, hash0)] ++ [(s.n + 1, hash1)])
      (scanPairRound env work s) := by
  let header0 := scanHeader env work s.n
  let header1 := scanHeader env work (s.n + 1)
  let hashes := env.impl.civiclightPowhash2wayMidstate header0 header1 (headerMidstate env work)
  obtain ⟨batch, added, hcount, hsum⟩ := countHashes_eq hbench 2
    { s with hashed := s.hashed ++ [header0, header1] }
  obtain ⟨pdata0, hoffer0, hpdata0⟩ := offer_eq work hbench s.n hashes.1
    { s with
      hashed := s.hashed ++ [header0, header1], statsBatch := batch, statsAdded := added }
  obtain ⟨pdata1, hoffer1, hpdata1⟩ := offer_eq work hbench (s.n + 1) hashes.2
    (offer env work s.n hashes.1
      { s with
        hashed := s.hashed ++ [header0, header1], statsBatch := batch, statsAdded := added })
  have hround : scanPairRound env work s =
      { offer env work (s.n + 1) hashes.2 (offer env work s.n hashes.1
          (countHashes env 2 { s with hashed := s.hashed ++ [header0, header1] })) with
        n := s.n + 2 } := rfl
  rw [hcount, hoffer1, hoffer0] at hround
  have hkeep0 : ∀ nonce, pdata0.set nonceIndex nonce = work.data.set nonceIndex nonce :=
    fun nonce => (hpdata0 nonce).trans (h.pdata nonce)
  have hkeep1 : ∀ nonce, pdata1.set nonceIndex nonce = work.data.set nonceIndex nonce := by
    intro nonce
    rw [hpdata1, hoffer0]
    exact hkeep0 nonce
  -- the state between the two nonces
  have middle : Scanned env work first (done ++ [(s.n, hashes.1)])
      { s with
        n := s.n + 1
        hashed := s.hashed ++ [header0]
        submitted := s.submitted ++
          if MeetsTarget hashes.1 work.target then
            [⟨header0, hashes.1,
              { work with data := s.pdata.set nonceIndex (bswap32 s.n) }⟩]
          else []
        pdata := pdata0
        statsBatch := s.statsBatch + 1 } :=
    h.next s.pdata (.first (s.n + 1)) (by omega) rfl rfl rfl h.pdata hkeep0 rfl
  have hn : (s.n + 1).toNat = s.n.toNat + 1 := toNat_succ (by omega)
  refine ⟨hashes.1, hashes.2, middle.next pdata0 (.second s.n) ?_ ?_ ?_ ?_ hkeep0 ?_ ?_⟩
  · show (s.n + 1).toNat + 1 < 2 ^ 32
    omega
  · rw [hround]
    show s.n + 2 = s.n + 1 + 1
    rw [UInt32.add_assoc]
    rfl
  · rw [hround]
    simp [header0, header1]
  · rw [hround]
  · rw [hround]
    exact hkeep1
  · rw [hround]
    simp only at hsum ⊢
    omega

def SeenRestart (env : ScanEnv) (s : Scan) : Prop := ∃ k < s.looks, env.restart k = true

theorem scanRound_looks (s : Scan) : (scanRound env work s).looks = s.looks := by
  simp only [scanRound, offer, countHashes]
  split_ifs <;> rfl

theorem scanPairRound_looks (s : Scan) : (scanPairRound env work s).looks = s.looks := by
  simp only [scanPairRound, offer, countHashes]
  split_ifs <;> rfl

structure ScanRange (env : ScanEnv) (work : Work) (first last : UInt32) (s : Scan) : Prop where
  scanned : ∃ done, Scanned env work first done s
  inside : s.n.toNat ≤ last.toNat

/-- The loop ends at its guard or at the restart flag, given rounds that stay in the range
and enough fuel for its nonces. -/
theorem scanLoop_range {first last : UInt32} (guard : UInt32 → Bool) (round : Scan → Scan)
    (hround : ∀ s, ScanRange env work first last s → guard s.n = true →
      ScanRange env work first last (round s) ∧ s.n.toNat < (round s).n.toNat ∧
        (round s).looks = s.looks)
    (hguard : ∀ n : UInt32, n.toNat = last.toNat → guard n = false) {s : Scan}
    (h : ScanRange env work first last s) {fuel : Nat}
    (hfuel : last.toNat - s.n.toNat ≤ fuel) :
    ScanRange env work first last (scanLoop env guard round fuel s) ∧
      (guard (scanLoop env guard round fuel s).n = false ∨
        SeenRestart env (scanLoop env guard round fuel s)) := by
  induction fuel generalizing s with
  | zero =>
      have := h.inside
      exact ⟨h, Or.inl (hguard s.n (by omega))⟩
  | succ fuel ih =>
      rw [scanLoop]
      have looked : ScanRange env work first last { s with looks := s.looks + 1 } := by
        obtain ⟨done, hdone⟩ := h.scanned
        exact ⟨⟨done, hdone.look⟩, h.inside⟩
      split
      · rename_i hopen
        dsimp only
        split
        · rename_i hrestart
          exact ⟨looked, Or.inr ⟨s.looks, Nat.lt_succ_self _, hrestart⟩⟩
        · obtain ⟨hnext, hprogress, -⟩ := hround _ looked hopen
          exact ih hnext (by dsimp only at hprogress; omega)
      · rename_i hclosed
        exact ⟨h, Or.inl (Bool.eq_false_iff.mpr hclosed)⟩

theorem scanRound_range (hbench : env.bench = false) {first last : UInt32} {s : Scan}
    (h : ScanRange env work first last s) (hguard : s.n < last) :
    ScanRange env work first last (scanRound env work s) ∧
      s.n.toNat < (scanRound env work s).n.toNat ∧ (scanRound env work s).looks = s.looks := by
  obtain ⟨done, hdone⟩ := h.scanned
  have hlt : s.n.toNat < last.toNat := hguard
  have hbound := last.toNat_lt
  obtain ⟨hash, hnext⟩ := hdone.round hbench (by omega)
  have hn := hnext.n
  have hn' := hdone.n
  rw [List.length_append, List.length_singleton] at hn
  exact ⟨⟨⟨_, hnext⟩, by omega⟩, by omega, scanRound_looks s⟩

theorem scanPairRound_range (hbench : env.bench = false) {first last : UInt32} {s : Scan}
    (hlast : last.toNat + 1 < 2 ^ 32) (h : ScanRange env work first last s)
    (hguard : s.n + 1 < last) :
    ScanRange env work first last (scanPairRound env work s) ∧
      s.n.toNat < (scanPairRound env work s).n.toNat ∧
      (scanPairRound env work s).looks = s.looks := by
  obtain ⟨done, hdone⟩ := h.scanned
  have hinside := h.inside
  have hlt : (s.n + 1).toNat < last.toNat := hguard
  rw [toNat_succ (by omega)] at hlt
  obtain ⟨hash0, hash1, hnext⟩ := hdone.pairRound hbench (by omega)
  have hn := hnext.n
  have hn' := hdone.n
  simp only [List.length_append, List.length_singleton] at hn
  exact ⟨⟨⟨_, hnext⟩, by omega⟩, by omega, scanPairRound_looks s⟩

theorem scanMain_range (hbench : env.bench = false) {first last : UInt32} {s : Scan}
    (hlast : last.toNat + 1 < 2 ^ 32) (h : ScanRange env work first last s) {fuel : Nat}
    (hfuel : last.toNat - s.n.toNat ≤ fuel) :
    ScanRange env work first last (scanMain env work last fuel s) ∧
      (last.toNat ≤ (scanMain env work last fuel s).n.toNat + 1 ∨
        SeenRestart env (scanMain env work last fuel s)) := by
  rw [scanMain]
  split
  · obtain ⟨hrange, hend⟩ := scanLoop_range (· < last) (scanRound env work)
      (fun s hs hopen => scanRound_range hbench hs (of_decide_eq_true hopen))
      (fun n hn => decide_eq_false (by rw [UInt32.lt_iff_toNat_lt]; omega)) h hfuel
    refine ⟨hrange, hend.imp_left fun hclosed => ?_⟩
    have := of_decide_eq_false hclosed
    rw [UInt32.lt_iff_toNat_lt] at this
    omega
  · obtain ⟨hrange, hend⟩ := scanLoop_range (· + 1 < last) (scanPairRound env work)
      (fun s hs hopen => scanPairRound_range hbench hlast hs (of_decide_eq_true hopen))
      (fun n hn => decide_eq_false (by
        rw [UInt32.lt_iff_toNat_lt, toNat_succ (by omega)]
        omega)) h hfuel
    refine ⟨hrange, hend.imp_left fun hclosed => ?_⟩
    have := of_decide_eq_false hclosed
    have hinside := hrange.inside
    rw [UInt32.lt_iff_toNat_lt, toNat_succ (by omega)] at this
    omega

theorem scanTail_range (hbench : env.bench = false) {first last : UInt32} {s : Scan}
    (h : ScanRange env work first last s)
    (hend : last.toNat ≤ s.n.toNat + 1 ∨ SeenRestart env s) :
    ScanRange env work first last (scanTail env work last s) ∧
      ((scanTail env work last s).n.toNat = last.toNat ∨
        SeenRestart env (scanTail env work last s)) := by
  obtain ⟨done, hdone⟩ := h.scanned
  have hinside := h.inside
  have hbound := last.toNat_lt
  rw [scanTail]
  split
  · rename_i hopen
    have hlt : s.n.toNat < last.toNat := hopen
    dsimp only
    split
    · rename_i hrestart
      exact ⟨⟨⟨done, hdone.look⟩, hinside⟩, Or.inr ⟨s.looks, Nat.lt_succ_self _, hrestart⟩⟩
    · simp only [hbench, Bool.false_eq_true, if_false]
      let header := scanHeader env work s.n
      let hash := env.impl.civiclightPowhashFromMidstate header (headerMidstate env work)
      obtain ⟨pdata, hoffer, hpdata⟩ := offer_eq work hbench s.n hash
        { s with
          looks := s.looks + 1, hashed := s.hashed ++ [header], statsBatch := s.statsBatch + 1 }
      have hn : (s.n + 1).toNat = s.n.toNat + 1 := toNat_succ (by omega)
      rw [show env.impl.civiclightPowhashFromMidstate (scanHeader env work s.n)
        (headerMidstate env work) = hash from rfl, hoffer]
      refine ⟨⟨⟨done ++ [(s.n, hash)], hdone.next s.pdata .single (by omega) rfl rfl rfl
        hdone.pdata (fun nonce => (hpdata nonce).trans (hdone.pdata nonce)) rfl⟩, ?_⟩, ?_⟩
      · exact hn.trans_le hlt
      · refine hend.imp (fun hlast => hn.trans ?_) ?_
        · omega
        · rintro ⟨k, hk, hrestart⟩
          exact ⟨k, Nat.lt_succ_of_lt hk, hrestart⟩
  · rename_i hclosed
    rw [UInt32.lt_iff_toNat_lt] at hclosed
    exact ⟨h, hend.imp_left fun _ => by omega⟩

theorem flushStats_eq (hbench : env.bench = false) (s : Scan) :
    ∃ statsAdded, flushStats env s = { s with statsBatch := 0, statsAdded } ∧
      statsAdded.sum = s.statsAdded.sum + s.statsBatch := by
  rw [flushStats, hbench]
  by_cases hbatch : s.statsBatch = 0
  · refine ⟨s.statsAdded, ?_, by rw [hbatch]; rfl⟩
    rw [if_neg (by simp [hbatch]), ← hbatch]
  · exact ⟨s.statsAdded ++ [s.statsBatch], by rw [if_pos (by simp [hbatch])], by simp⟩

theorem length_flatMap_le32enc (words : List UInt32) :
    (words.flatMap le32enc).length = 4 * words.length :=
  length_flatMap_pieces length_le32enc words

theorem take_flatMap_le32enc (words : List UInt32) (k : Nat) :
    (words.flatMap le32enc).take (4 * k) = (words.take k).flatMap le32enc :=
  take_flatMap_pieces length_le32enc words k

theorem length_scanHeader (hdata : work.data.length = 48) (n : UInt32) :
    (scanHeader env work n).length = 80 := by
  rw [scanHeader, length_flatMap_le32enc, List.length_set, scanEdata]
  split <;> simp [hdata]

theorem take_scanHeader (n : UInt32) :
    (scanHeader env work n).take 64 = ((scanEdata env work).flatMap le32enc).take 64 := by
  rw [scanHeader, take_flatMap_le32enc _ 16, take_flatMap_le32enc _ 16,
    List.take_set_of_le (by decide)]

/-- The hash of a nonce is the hash of its header, by whichever path it was computed. -/
theorem ComputedHash.eq (paired : env.impl.Paired) (hdata : work.data.length = 48) {n : UInt32}
    {hash : List UInt8} (h : ComputedHash env work n hash) :
    hash = env.impl.civiclightHash (scanHeader env work n) := by
  have hmid : ∀ m, Streams env.impl.transformBe ((scanHeader env work m).take 64)
      (headerMidstate env work) := by
    intro m
    rw [take_scanHeader m]
    exact streams_sha256Update (streams_sha256CtxInit env.impl.transformBe env.impl.stack) _
  have same : ∀ m, (scanHeader env work n).take 64 = (scanHeader env work m).take 64 := by
    intro m
    rw [take_scanHeader, take_scanHeader]
  cases h with
  | single =>
      rw [PowImpl.civiclightPowhashFromMidstate,
        PowImpl.sha256d_80Midstate_eq (length_scanHeader hdata n) (hmid n)]
      rfl
  | first m =>
      rw [PowImpl.civiclightPowhash2wayMidstate_eq paired (length_scanHeader hdata n)
        (length_scanHeader hdata m) (same m) (hmid n)]
      rfl
  | second m =>
      rw [PowImpl.civiclightPowhash2wayMidstate_eq paired (length_scanHeader hdata m)
        (length_scanHeader hdata n) (same m).symm (hmid m)]
      rfl

/-- A scan hashes the nonces from the first one on, one after the other, up to a restart or the
end of its range, and submits those whose hash meets the target. -/
theorem scanhashCiviclight_exact (env : ScanEnv) (work : Work) (maxNonce : UInt32) (fuel : Nat)
    (hbench : env.bench = false) (hmax : 1 ≤ maxNonce)
    (hfirst : work.data.getD nonceIndex 0 ≤ maxNonce - 1)
    (hfuel : (maxNonce - 1).toNat ≤ fuel) :
    let first := work.data.getD nonceIndex 0
    let scan := scanhashCiviclight env work maxNonce fuel
    ∃ done : List (UInt32 × List UInt8),
      done.map (·.1.toNat) = List.range' first.toNat done.length ∧
      first.toNat + done.length ≤ maxNonce.toNat - 1 ∧
      ((∀ k < scan.1.looks, env.restart k = false) →
        first.toNat + done.length = maxNonce.toNat - 1) ∧
      (∀ hashed ∈ done, ComputedHash env work hashed.1 hashed.2 ∧
        (env.impl.Paired → work.data.length = 48 →
          hashed.2 = env.impl.civiclightHash (scanHeader env work hashed.1))) ∧
      scan.1.hashed = done.map (fun hashed => scanHeader env work hashed.1) ∧
      scan.1.submitted = (done.filter fun hashed => MeetsTarget hashed.2 work.target).map
        (submissionOf env work) ∧
      scan.1.statsAdded.sum = done.length ∧
      scan.2.1.toNat = done.length ∧
      ∃ e : UInt32, e.toNat = first.toNat + done.length ∧
        scan.2.2 = { work with data := work.data.set nonceIndex e } := by
  intro first scan
  have hone : (maxNonce - 1).toNat = maxNonce.toNat - 1 := UInt32.toNat_sub_of_le _ _ hmax
  have hlast : (maxNonce - 1).toNat + 1 < 2 ^ 32 := by
    have := maxNonce.toNat_lt
    have : 1 ≤ maxNonce.toNat := hmax
    omega
  have start : ScanRange env work first (maxNonce - 1) (scanStart work) :=
    ⟨⟨[], scanned_start⟩, hfirst⟩
  obtain ⟨hmain, hmainEnd⟩ := scanMain_range hbench hlast start
    ((Nat.sub_le _ _).trans hfuel)
  obtain ⟨htail, htailEnd⟩ := scanTail_range hbench hmain hmainEnd
  obtain ⟨added, hflush, hsum⟩ := flushStats_eq hbench
    (scanTail env work (maxNonce - 1) (scanMain env work (maxNonce - 1) fuel (scanStart work)))
  obtain ⟨done, hdone⟩ := htail.scanned
  have hinside := htail.inside
  have hn := hdone.n
  have hscan : scan.1 = _ := hflush
  have hend : scan.1.n.toNat = first.toNat + done.length := by
    rw [hscan]
    exact hn
  refine ⟨done, hdone.nonces, by omega, ?_, ?_, ?_, ?_, ?_, ?_, ?_⟩
  · intro hnever
    rw [hscan] at hnever
    rcases htailEnd with hreached | ⟨k, hk, hrestart⟩
    · omega
    · rw [hnever k hk] at hrestart
      contradiction
  · intro hashed hmem
    have hcomputed := hdone.computed hashed hmem
    exact ⟨hcomputed, fun paired hdata => hcomputed.eq paired hdata⟩
  · rw [hscan]
    exact hdone.hashed
  · rw [hscan]
    exact hdone.submitted
  · rw [hscan]
    exact hsum.trans hdone.counted
  · have hdiff : scan.2.1 = scan.1.n - first := rfl
    rw [hdiff, UInt32.toNat_sub_of_le _ _ (UInt32.le_iff_toNat_le.mpr (by omega)), hend,
      Nat.add_sub_cancel_left]
  · refine ⟨scan.1.n, hend, ?_⟩
    have hfinal : scan.2.2 = { work with data := scan.1.pdata.set nonceIndex scan.1.n } := rfl
    rw [hfinal, hscan, hdone.pdata]

end

/-- A pair and the nonce left over. -/
theorem scanhashCiviclight_exact_three :
    let env : ScanEnv := { ScanEnv.plain with oneway := false }
    let work : Work :=
      { data := (List.replicate 48 0).set nonceIndex 5, target := List.replicate 8 0
        targetdiff := ⟨0⟩, height := 0, jobId := none, xnonce2 := [], reauthEpoch := 0 }
    let scan := scanhashCiviclight env work 9 8
    scan.1.hashed = [5, 6, 7].map (scanHeader env work) ∧ scan.1.statsAdded.sum = 3 ∧
      scan.2.2 = { work with data := work.data.set nonceIndex 8 } := by
  intro env work scan
  obtain ⟨done, hnonces, -, hall, -, hhashed, -, hcounted, -, e, he, hwork⟩ :=
    scanhashCiviclight_exact env work 9 8 rfl (by decide) (by decide) (by decide)
  have hlen : done.length = 3 := by
    have := hall fun _ _ => rfl
    have hfirst : (work.data.getD nonceIndex 0).toNat = 5 := rfl
    have hnine : (9 : UInt32).toNat = 9 := rfl
    omega
  have hmap : done.map (·.1) = [5, 6, 7] := by
    apply List.map_injective_iff.mpr (fun _ _ => UInt32.toNat_inj.mp)
    rw [List.map_map, Function.comp_def, hnonces, hlen]
    rfl
  have height : e = 8 := by
    rw [← UInt32.toNat_inj, he, hlen]
    rfl
  refine ⟨?_, hcounted.trans hlen, height ▸ hwork⟩
  rw [hhashed, ← hmap, List.map_map]
  rfl

end SojCivicLight.Mining
