import SojCivicLight.Library.Loop
import SojCivicLight.Stratum.Methods
import SojCivicLight.Util.Endian

/-! Building the work of the mining threads from the current job. -/

namespace SojCivicLight.Stratum

open SojCivicLight.Library SojCivicLight.Util

/-- The hash and the difficulty arithmetic that `stratum_gen_work` calls. -/
structure Gate where
  sha256d : List UInt8 → Bytes 32
  /-- the division by the options' factors -/
  scaleDiff : Double → Double
  diffToHash : Double → List UInt32

def Gate.zero : Gate where
  sha256d _ := .zero 32
  scaleDiff diff := diff
  diffToHash _ := List.replicate 8 0

def sha256dGenMerkleRoot (gate : Gate) (job : StratumJob) : Bytes 32 :=
  job.branch.foldl (fun root row => gate.sha256d (root.val ++ row.val)) (gate.sha256d job.coinbase)

def ntimeIndex : Nat := 17
def nbitsIndex : Nat := 18
def nonceIndex : Nat := 19

def stdBuildBlockHeader (version : UInt32) (prevhash merkleTree : List UInt8)
    (ntime nbits : UInt32) : List UInt32 :=
  let data := (List.replicate 48 0).set 0 version
  let data := forUp 0 8 1 (fun i data => data.set (1 + i) (wordAt le32dec prevhash i)) data
  let data := forUp 0 8 1 (fun i data => data.set (9 + i) (wordAt be32dec merkleTree i)) data
  let data := (data.set ntimeIndex ntime).set nbitsIndex nbits
  (data.set 20 0x80000000).set 31 0x00000280

def stdBuildExtraheader (gate : Gate) (job : StratumJob) : List UInt32 :=
  stdBuildBlockHeader (le32dec job.version.val) job.prevhash.val
    (sha256dGenMerkleRoot gate job).val (le32dec job.ntime.val) (le32dec job.nbits.val)

/-- `for (t = 0; t < n && !(++x[t]); t++);` -/
def increment : List UInt8 → List UInt8
  | [] => []
  | x :: rest => if x + 1 = 0 then 0 :: increment rest else (x + 1) :: rest

/-- The `xnonce2_size` bytes at the extranonce2 slot, some of them past the coinbase when it
is too short. -/
def StratumCtx.slotBytes (heap : Heap) (sctx : StratumCtx) : List UInt8 :=
  (List.range sctx.xnonce2Size).map fun i =>
    coinbaseByte heap sctx.job.coinbase (sctx.job.xnonce2 + i)

/-- The coinbase with `bytes` stored at `off`; what falls past its end is not kept. -/
def storeBytes (coinbase : List UInt8) (off : Nat) (bytes : List UInt8) : List UInt8 :=
  (coinbase.take off ++ bytes ++ coinbase.drop (off + bytes.length)).take coinbase.length

/-- The extranonce2 that the next call is to use. -/
def preIncrement (heap : Heap) (sctx : StratumCtx) : StratumCtx :=
  { sctx with
    newJob := false
    job :=
      { sctx.job with
        coinbase :=
          storeBytes sctx.job.coinbase sctx.job.xnonce2 (increment (sctx.slotBytes heap)) } }

def buildWork (gate : Gate) (heap : Heap) (reauthEpoch : Nat) (sctx : StratumCtx)
    (jobId : CStr) : Work where
  data := stdBuildExtraheader gate sctx.job
  target := gate.diffToHash (gate.scaleDiff sctx.job.diff)
  targetdiff := gate.scaleDiff sctx.job.diff
  height := sctx.blockHeight
  jobId := some jobId
  xnonce2 := sctx.slotBytes heap
  reauthEpoch

/-- The context and the work after the call and whether the work is for a new job, none
when there is no job id to copy. -/
def stratumGenWork (gate : Gate) (heap : Heap) (reauthEpoch : Nat) (sctx : StratumCtx) :
    Option (StratumCtx × Work × Bool) :=
  sctx.job.jobId.map fun jobId =>
    (preIncrement heap sctx, buildWork gate heap reauthEpoch sctx jobId, sctx.newJob)

theorem stratumGenWork_eq_some {gate : Gate} {heap : Heap} {reauthEpoch : Nat}
    {sctx : StratumCtx} {built : StratumCtx × Work × Bool}
    (h : stratumGenWork gate heap reauthEpoch sctx = some built) :
    ∃ jobId, sctx.job.jobId = some jobId ∧ built =
      (preIncrement heap sctx, buildWork gate heap reauthEpoch sctx jobId, sctx.newJob) := by
  obtain ⟨jobId, hjob, rfl⟩ := Option.map_eq_some_iff.mp h
  exact ⟨jobId, hjob, rfl⟩

theorem length_increment (x : List UInt8) : (increment x).length = x.length := by
  induction x with
  | nil => rfl
  | cons b rest ih =>
      rw [increment]
      split
      · rw [List.length_cons, List.length_cons, ih]
      · rfl

@[simp] theorem length_slotBytes (heap : Heap) (sctx : StratumCtx) :
    (sctx.slotBytes heap).length = sctx.xnonce2Size := by
  simp [StratumCtx.slotBytes]

theorem slotBytes_of_le (heap : Heap) {sctx : StratumCtx}
    (h : sctx.job.xnonce2 + sctx.xnonce2Size ≤ sctx.job.coinbase.length) :
    sctx.slotBytes heap = (sctx.job.coinbase.drop sctx.job.xnonce2).take sctx.xnonce2Size := by
  apply List.ext_getElem
  · rw [length_slotBytes, List.length_take, List.length_drop]
    omega
  · intro i hi hi'
    rw [length_slotBytes] at hi
    simp only [StratumCtx.slotBytes, List.getElem_map, List.getElem_range, List.getElem_take,
      List.getElem_drop]
    exact dif_pos (by omega)

theorem storeBytes_eq {coinbase bytes : List UInt8} {off : Nat}
    (h : off + bytes.length ≤ coinbase.length) :
    storeBytes coinbase off bytes =
      coinbase.take off ++ bytes ++ coinbase.drop (off + bytes.length) := by
  rw [storeBytes, List.take_of_length_le]
  simp only [List.length_append, List.length_take, List.length_drop]
  omega

theorem length_storeBytes {coinbase bytes : List UInt8} {off : Nat} (h : off ≤ coinbase.length) :
    (storeBytes coinbase off bytes).length = coinbase.length := by
  simp only [storeBytes, List.length_append, List.length_take, List.length_drop]
  omega

theorem take_storeBytes {coinbase bytes : List UInt8} {off : Nat} (h : off ≤ coinbase.length) :
    (storeBytes coinbase off bytes).take off = coinbase.take off := by
  rw [storeBytes, List.take_take, Nat.min_eq_left h, List.append_assoc,
    List.take_append_of_le_length (by rw [List.length_take]; omega), List.take_take,
    Nat.min_self]

theorem stdBuildBlockHeader_eq (version : UInt32) (prevhash merkleTree : List UInt8)
    (ntime nbits : UInt32) :
    stdBuildBlockHeader version prevhash merkleTree ntime nbits =
      [version] ++ (List.range 8).map (wordAt le32dec prevhash) ++
        (List.range 8).map (wordAt be32dec merkleTree) ++ [ntime, nbits, 0, 0x80000000] ++
        List.replicate 10 0 ++ [0x00000280] ++ List.replicate 16 0 := by
  simp [stdBuildBlockHeader, ntimeIndex, nbitsIndex, forUp, List.range', List.replicate,
    List.set, List.range, List.range.loop]

theorem length_stdBuildBlockHeader (version : UInt32) (prevhash merkleTree : List UInt8)
    (ntime nbits : UInt32) :
    (stdBuildBlockHeader version prevhash merkleTree ntime nbits).length = 48 := by
  rw [stdBuildBlockHeader_eq]
  simp only [List.length_append, List.length_map, List.length_range, List.length_cons,
    List.length_nil, List.length_replicate]

theorem length_stratumGenWork {gate : Gate} {heap : Heap} {reauthEpoch : Nat}
    {sctx : StratumCtx} {built : StratumCtx × Work × Bool}
    (h : stratumGenWork gate heap reauthEpoch sctx = some built) :
    built.2.1.data.length = 48 := by
  obtain ⟨jobId, -, rfl⟩ := stratumGenWork_eq_some h
  rw [buildWork, stdBuildExtraheader]
  simp only [length_stdBuildBlockHeader]

end SojCivicLight.Stratum
