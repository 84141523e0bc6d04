import Mathlib.Data.UInt
import SojCivicLight.Mining.Scanhash

/-! The submit line, and the header that the pool rebuilds from it. -/

namespace SojCivicLight.Stratum

open SojCivicLight.Util SojCivicLight.Mining

structure SubmitParams where
  user : CStr
  jobId : CStr
  xnonce2str : CStr
  ntimestr : CStr
  noncestr : CStr

def submitParams (rpcUser : CStr) (work : Work) : SubmitParams where
  user := rpcUser
  jobId := work.jobId.getD (cstr "(null)")
  xnonce2str := bin2hex work.xnonce2
  ntimestr := bin2hex (le32enc (work.data.getD ntimeIndex 0))
  noncestr := bin2hex (le32enc (work.data.getD nonceIndex 0))

def jsonBufLen : Nat := 8192

def stdLeBuildStratumRequest (rpcUser : CStr) (work : Work) : CStr :=
  let params := submitParams rpcUser work
  (cstr "\x7b\"method\":\"mining.submit\",\"params\":[\"" ++ params.user ++ cstr "\",\"" ++
    params.jobId ++ cstr "\",\"" ++ params.xnonce2str ++ cstr "\",\"" ++ params.ntimestr ++
    cstr "\",\"" ++ params.noncestr ++ cstr "\"],\"id\":4\x7d").take (jsonBufLen - 1)

def merkleRootOf (sha256d : List UInt8 → Bytes 32) (strings : NotifyStrings)
    (xnonce1 xnonce2 : List UInt8) : Bytes 32 :=
  (strings.branches.map unhex).foldl (fun root row => sha256d (root.val ++ row))
    (sha256d (unhex strings.coinb1 ++ xnonce1 ++ xnonce2 ++ unhex strings.coinb2))

/-- The pool's header for a submit line that answers the notify with these strings. -/
def poolHeader (sha256d : List UInt8 → Bytes 32) (strings : NotifyStrings)
    (xnonce1 : List UInt8) (params : SubmitParams) : List UInt8 :=
  (unhex strings.version).reverse ++ swapWords (unhex strings.prevhash) ++
    (merkleRootOf sha256d strings xnonce1 (unhex params.xnonce2str)).val ++
    (unhex params.ntimestr).reverse ++ (unhex strings.nbits).reverse ++
    (unhex params.noncestr).reverse

/-! The job of a notify, over the works built from it. -/

theorem DecodedJob.slotBytes {sctx : StratumCtx} {strings : NotifyStrings}
    (h : DecodedJob sctx strings sctx.job) (heap : Heap) :
    sctx.slotBytes heap = (sctx.job.coinbase.drop sctx.job.xnonce2).take sctx.xnonce2Size := by
  have hslot := h.slot
  rw [List.length_take, List.length_drop] at hslot
  by_cases hsize : sctx.xnonce2Size = 0
  · rw [hsize, List.take_zero]
    exact List.eq_nil_of_length_eq_zero ((length_slotBytes heap sctx).trans hsize)
  · exact slotBytes_of_le heap (by omega)

theorem DecodedJob.preIncrement {sctx : StratumCtx} {strings : NotifyStrings}
    (h : DecodedJob sctx strings sctx.job) (heap : Heap) :
    DecodedJob (preIncrement heap sctx) strings (preIncrement heap sctx).job := by
  have hlen : (increment (sctx.slotBytes heap)).length = sctx.xnonce2Size := by
    rw [length_increment, length_slotBytes]
  have hparts : sctx.job.coinbase = (unhex strings.coinb1 ++ sctx.xnonce1) ++
      (sctx.slotBytes heap ++ unhex strings.coinb2) := by
    rw [h.slotBytes heap, ← List.append_assoc]
    exact h.coinbase
  have hstored : storeBytes sctx.job.coinbase sctx.job.xnonce2 (increment (sctx.slotBytes heap)) =
      (unhex strings.coinb1 ++ sctx.xnonce1) ++
        (increment (sctx.slotBytes heap) ++ unhex strings.coinb2) := by
    have hroom : sctx.job.coinbase.length = sctx.job.xnonce2 + sctx.xnonce2Size +
        (unhex strings.coinb2).length := by
      rw [hparts, h.xnonce2]
      simp only [List.length_append, length_slotBytes]
      omega
    rw [storeBytes_eq (by omega), hlen, h.xnonce2, hparts, List.take_left, ← List.drop_drop,
      List.drop_left, List.append_assoc]
    congr 2
    rw [← length_slotBytes heap sctx, List.drop_left]
  have hcut : ((storeBytes sctx.job.coinbase sctx.job.xnonce2
      (increment (sctx.slotBytes heap))).drop sctx.job.xnonce2).take sctx.xnonce2Size =
      increment (sctx.slotBytes heap) := by
    rw [hstored, h.xnonce2, List.drop_left, ← hlen, List.take_left]
  refine ⟨h.jobId, ?_, h.xnonce2, ?_, h.merkleCount, h.branch, h.version, h.prevhash, h.nbits,
    h.ntime⟩
  · rw [← List.append_assoc] at hstored
    exact hstored.trans (congrArg (fun slot => unhex strings.coinb1 ++ sctx.xnonce1 ++ slot ++
      unhex strings.coinb2) hcut.symm)
  · exact (congrArg List.length hcut).trans hlen

/-! The works of a job. -/

/-- A work of this job: its id, and its header over the extranonce2 that it carries. -/
structure WorkOf (gate : Gate) (xnonce1 : List UInt8) (strings : NotifyStrings) (work : Work) :
    Prop where
  jobId : work.jobId = some strings.jobId
  data : work.data = stdBuildBlockHeader (le32dec (unhex strings.version))
    (unhex strings.prevhash) (merkleRootOf gate.sha256d strings xnonce1 work.xnonce2).val
    (le32dec (unhex strings.stime)) (le32dec (unhex strings.nbits))

theorem scanHeader_eq {env : ScanEnv} (hbench : env.bench = false) {work : Work}
    {version ntime nbits start : UInt32} {prevhash merkleTree : List UInt8}
    (hdata : work.data =
      (stdBuildBlockHeader version prevhash merkleTree ntime nbits).set nonceIndex start)
    (n : UInt32) :
    scanHeader env work n = be32enc version ++
      ((List.range 8).map (wordAt le32dec prevhash)).flatMap be32enc ++
      ((List.range 8).map (wordAt be32dec merkleTree)).flatMap be32enc ++ be32enc ntime ++
      be32enc nbits ++ le32enc n := by
  have hedata : (scanEdata env work).set 19 n =
      (version :: (List.range 8).map (wordAt le32dec prevhash) ++
        (List.range 8).map (wordAt be32dec merkleTree) ++ [ntime, nbits]).map bswap32 ++ [n] := by
    rw [scanEdata, hdata, stdBuildBlockHeader_eq]
    simp [hbench, nonceIndex, List.range, List.range.loop, List.replicate]
  rw [scanHeader, hedata, List.flatMap_append, List.flatMap_map]
  simp [le32enc_bswap32, List.flatMap_append, List.flatMap_cons]

theorem words_getD (version : UInt32) (prevhash merkleTree : List UInt8)
    (ntime nbits start nonce : UInt32) :
    ((((stdBuildBlockHeader version prevhash merkleTree ntime nbits).set nonceIndex start).set
        nonceIndex nonce).getD ntimeIndex 0 = ntime) ∧
      ((((stdBuildBlockHeader version prevhash merkleTree ntime nbits).set nonceIndex start).set
        nonceIndex nonce).getD nonceIndex 0 = nonce) := by
  rw [stdBuildBlockHeader_eq]
  simp [nonceIndex, ntimeIndex, List.range, List.range.loop, List.replicate]

/-- What the pool and the miner must agree on. -/
structure Agrees (sha256d : List UInt8 → Bytes 32) (strings : NotifyStrings)
    (xnonce1 : List UInt8) (user : CStr) (submission : Submission) : Prop where
  header : submission.header =
    poolHeader sha256d strings xnonce1 (submitParams user submission.work)
  jobId : (submitParams user submission.work).jobId = strings.jobId
  ntime : (submitParams user submission.work).ntimestr = strings.stime.map toLower

theorem WorkOf.agrees {gate : Gate} {xnonce1 : List UInt8} {params : Option Json}
    {strings : NotifyStrings} (hparams : WellFormedNotify params strings) {work : Work}
    (h : WorkOf gate xnonce1 strings work) {env : ScanEnv} (hbench : env.bench = false)
    (start : UInt32) (user : CStr) {submission : Submission}
    (hsubmits : Submits env { work with data := work.data.set nonceIndex start } submission) :
    Agrees gate.sha256d strings xnonce1 user submission := by
  obtain ⟨-, -, -, -, -, hntime⟩ := hparams.hex
  obtain ⟨hprevhash64, hversion8, hnbits8, hntime8⟩ := hparams.lengths
  obtain ⟨n, hheader, hwork⟩ := hsubmits
  have len4 : ∀ {s : CStr}, s.length = 8 → (unhex s).length = 4 := fun hs => by
    rw [length_unhex, hs]
  have hroot := (merkleRootOf gate.sha256d strings xnonce1 work.xnonce2).property
  obtain ⟨hntimeWord, hnonceWord⟩ := words_getD (le32dec (unhex strings.version))
    (unhex strings.prevhash) (merkleRootOf gate.sha256d strings xnonce1 work.xnonce2).val
    (le32dec (unhex strings.stime)) (le32dec (unhex strings.nbits)) start (bswap32 n)
  rw [← h.data] at hntimeWord hnonceWord
  have hntimestr : (submitParams user submission.work).ntimestr =
      bin2hex (unhex strings.stime) := by
    rw [hwork, submitParams]
    exact congrArg bin2hex ((congrArg le32enc hntimeWord).trans (le32enc_dec (len4 hntime8)))
  have hnoncestr : (submitParams user submission.work).noncestr = bin2hex (be32enc n) := by
    rw [hwork, submitParams]
    exact congrArg bin2hex ((congrArg le32enc hnonceWord).trans (le32enc_bswap32 n))
  have hxnonce2str : (submitParams user submission.work).xnonce2str = bin2hex work.xnonce2 := by
    rw [hwork, submitParams]
  refine ⟨?_, ?_, ?_⟩
  · rw [hheader, scanHeader_eq hbench (congrArg (List.set · nonceIndex start) h.data), poolHeader,
      hntimestr, hnoncestr, hxnonce2str, unhex_bin2hex, unhex_bin2hex, unhex_bin2hex,
      flatMap_le32dec (n := 8) (by rw [length_unhex, hprevhash64]), flatMap_be32dec (n := 8) hroot,
      be32enc_dec (len4 hversion8), be32enc_dec (len4 hntime8), be32enc_dec (len4 hnbits8),
      be32enc_eq_reverse, List.reverse_reverse]
  · rw [hwork, submitParams]
    exact congrArg (Option.getD · _) h.jobId
  · rw [hntimestr, bin2hex_unhex hntime (by rw [hntime8])]

def NotifyStrings.params (strings : NotifyStrings) : Json :=
  .array [.string strings.jobId, .string strings.prevhash, .string strings.coinb1,
    .string strings.coinb2, .array (strings.branches.map .string), .string strings.version,
    .string strings.nbits, .string strings.stime]

end SojCivicLight.Stratum
