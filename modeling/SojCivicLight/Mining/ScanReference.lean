import SojCivicLight.CivicLight.Reference
import SojCivicLight.Mining.ScanExact

/-! What a scan submits, in terms of the hash of a header. -/

namespace SojCivicLight.Mining

open SojCivicLight.Util SojCivicLight.Stratum SojCivicLight.CivicLight

/-- The submission for a nonce. -/
def solution (env : ScanEnv) (work : Work) (n : UInt32) : Submission :=
  submissionOf env work (n, civiclight (scanHeader env work n))

/-- A nonce whose header is worth submitting. -/
def Solves (env : ScanEnv) (work : Work) (n : UInt32) : Prop :=
  MeetsTarget (civiclight (scanHeader env work n)) work.target

instance (env : ScanEnv) (work : Work) : DecidablePred (Solves env work) := fun _ =>
  inferInstanceAs (Decidable (MeetsTarget _ _))

theorem Scanned.pairs {build : HashBuild} {env : ScanEnv} (runs : build.Runs env.impl)
    {work : Work} (hdata : work.data.length = 48) {first : UInt32}
    {done : List (UInt32 × List UInt8)} {s : Scan} (h : Scanned env work first done s) :
    done = ((List.range' first.toNat done.length).map UInt32.ofNat).map fun n =>
      (n, civiclight (scanHeader env work n)) := by
  have hnonces : (List.range' first.toNat done.length).map UInt32.ofNat = done.map (·.1) := by
    rw [← h.nonces, List.map_map]
    exact List.map_congr_left fun hashed _ => UInt32.ofNat_toNat
  rw [hnonces, List.map_map]
  refine (List.map_id done).symm.trans (List.map_congr_left fun hashed hmem => ?_)
  have hash := (h.computed hashed hmem).eq runs.paired hdata
  rw [runs.hash_eq (length_scanHeader hdata hashed.1)] at hash
  exact Prod.ext rfl hash

theorem Scanned.solutions {build : HashBuild} {env : ScanEnv} (runs : build.Runs env.impl)
    {work : Work} (hdata : work.data.length = 48) {first : UInt32}
    {done : List (UInt32 × List UInt8)} {s : Scan} (h : Scanned env work first done s) :
    s.submitted = (((List.range' first.toNat done.length).map UInt32.ofNat).filter
      (Solves env work)).map (solution env work) := by
  rw [h.submitted]
  conv_lhs => rw [h.pairs runs hdata, List.filter_map, List.map_map]
  rfl

/-- On every build a scan submits, in their order, those of the nonces it has counted whose header
has a hash that meets the target. -/
theorem scanhash_submits_solutions {build : HashBuild} {env : ScanEnv} (runs : build.Runs env.impl)
    {work : Work} (hdata : work.data.length = 48) {maxNonce : UInt32} {fuel : Nat}
    (hbench : env.bench = false) (hmax : 1 ≤ maxNonce)
    (hfirst : work.data.getD nonceIndex 0 ≤ maxNonce - 1) (hfuel : (maxNonce - 1).toNat ≤ fuel) :
    let scan := scanhashCiviclight env work maxNonce fuel
    let nonces := (List.range' (work.data.getD nonceIndex 0).toNat scan.2.1.toNat).map UInt32.ofNat
    scan.1.submitted = (nonces.filter (Solves env work)).map (solution env work) := by
  intro scan nonces
  have hlast : (maxNonce - 1).toNat + 1 < 2 ^ 32 := by
    have hone : (maxNonce - 1).toNat = maxNonce.toNat - 1 := UInt32.toNat_sub_of_le _ _ hmax
    have hlt := maxNonce.toNat_lt
    have hpos : 1 ≤ maxNonce.toNat := hmax
    omega
  have start : ScanRange env work (work.data.getD nonceIndex 0) (maxNonce - 1) (scanStart work) :=
    ⟨⟨[], scanned_start⟩, hfirst⟩
  obtain ⟨hmain, hmainEnd⟩ := scanMain_range hbench hlast start ((Nat.sub_le _ _).trans hfuel)
  obtain ⟨⟨⟨done, hdone⟩, -⟩, -⟩ := scanTail_range hbench hmain hmainEnd
  obtain ⟨added, hflush, -⟩ := flushStats_eq hbench
    (scanTail env work (maxNonce - 1) (scanMain env work (maxNonce - 1) fuel (scanStart work)))
  have hscan : scan.1 = _ := hflush
  have hn := hdone.n
  have hcount : scan.2.1.toNat = done.length := by
    have hdiff : scan.2.1 = scan.1.n - work.data.getD nonceIndex 0 := rfl
    rw [hdiff, hscan]
    dsimp only
    rw [UInt32.toNat_sub_of_le _ _ (UInt32.le_iff_toNat_le.mpr (by omega)), hn,
      Nat.add_sub_cancel_left]
  have hsubmitted := hdone.solutions runs hdata
  rw [← hcount] at hsubmitted
  rw [hscan]
  exact hsubmitted

theorem scanhash_submits_solutions_pair :
    let ypStack : Yespower.HmacSha256Ctx :=
      ⟨⟨fun _ => 7, 5, fun _ => 0xff⟩, ⟨fun _ => 7, 5, fun _ => 0xff⟩⟩
    let build : HashBuild :=
      { sha := .x86, avx2 := true, ypScratch := fun _ => 0xcc, ypStack
        stack := ⟨fun _ => 0xcc, fun _ => 7, 5⟩ }
    let unmapped : Yespower.Local := { alignedSize := 0, aligned := fun _ => ⟨0, 0, 0, 0⟩ }
    let sys : Yespower.System := { unmaps := true, mapping := some fun _ => ⟨1, 2, 3, 4⟩ }
    let env : ScanEnv :=
      { impl := build.impl ⟨⟨unmapped, fun _ => unmapped⟩, sys, fun _ => sys⟩
        oneway := false, bench := false, restart := fun _ => false }
    let work : Work :=
      { data := (List.replicate 48 0).set nonceIndex 5, target := List.replicate 8 0
        targetdiff := ⟨0⟩, height := 0, jobId := none, xnonce2 := [], reauthEpoch := 0 }
    let scan := scanhashCiviclight env work 9 8
    let nonces := (List.range' (work.data.getD nonceIndex 0).toNat scan.2.1.toNat).map UInt32.ofNat
    scan.1.submitted = (nonces.filter (Solves env work)).map (solution env work) := by
  intro ypStack build unmapped sys env work
  have grants : sys.Grants := ⟨rfl, rfl⟩
  have available : HashThread.Available ⟨⟨unmapped, fun _ => unmapped⟩, sys, fun _ => sys⟩ :=
    ⟨grants.available _ _, fun _ => grants.available _ _⟩
  exact scanhash_submits_solutions (available.runs build) rfl rfl (by decide) (by decide)
    (by decide)

end SojCivicLight.Mining
