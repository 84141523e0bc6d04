import SojCivicLight.Stratum.Context

/-! `mining.notify`: what `stratum_notify` checks, what it has written when it gives up,
and what it stores when it does not. -/

namespace SojCivicLight.Stratum

open SojCivicLight.Util

/-- The bytes the heap happens to hold: in a grown coinbase, in new merkle rows, and past
the end of the coinbase. -/
structure Heap where
  grown : Nat → UInt8
  row : Nat → Nat → UInt8
  beyond : Nat → UInt8

/-- The first loop of `getblocheight` runs up to a byte `0xff`, the second past it. -/
def skipBytes (byteAt : Nat → UInt8) (isTag : Bool) : Nat → Nat → Nat
  | 0, p => p
  | fuel + 1, p =>
      if (byteAt p == 0xff) == isTag then skipBytes byteAt isTag fuel (p + 1) else p

/-- `byteAt` reads the byte at an offset from the start of the coinbase. -/
def getblocheight (byteAt : Nat → UInt8) (coinbaseSize : Nat) : UInt32 :=
  let m := coinbaseSize - 2
  let p := skipBytes byteAt false (m - 32) 32
  let p := skipBytes byteAt true (m - p) p
  if byteAt (p - 1) == 0xff && byteAt (p - 2) == 0xff then
    let hlen := byteAt (p + 1)
    let le16 := fun q => (byteAt q).toNat + 256 * (byteAt (q + 1)).toNat
    let height := le16 (p + 2)
    if hlen == 4 then UInt32.ofNat (height + 0x10000 * le16 (p + 4))
    else if hlen == 3 then UInt32.ofNat (height + 0x10000 * (byteAt (p + 4)).toNat)
    else UInt32.ofNat height
  else 0

structure NotifyFields where
  jobId : CStr
  prevhash : CStr
  coinb1 : CStr
  coinb2 : CStr
  merkle : List Json
  merkleCount : Int
  version : CStr
  nbits : CStr
  stime : CStr
  clean : Bool

def readNotify (params : Option Json) : Option NotifyFields := do
  let .array merkle ← jsonArrayGet params 4 | none
  let jobId ← jsonStringValue (jsonArrayGet params 0)
  let prevhash ← jsonStringValue (jsonArrayGet params 1)
  let coinb1 ← jsonStringValue (jsonArrayGet params 2)
  let coinb2 ← jsonStringValue (jsonArrayGet params 3)
  let version ← jsonStringValue (jsonArrayGet params 5)
  let nbits ← jsonStringValue (jsonArrayGet params 6)
  let stime ← jsonStringValue (jsonArrayGet params 7)
  guard (prevhash.length = 64 ∧ version.length = 8 ∧ nbits.length = 8 ∧ stime.length = 8)
  pure { jobId, prevhash, coinb1, coinb2, merkle, merkleCount := castInt merkle.length, version,
         nbits, stime, clean := jsonIsTrue (jsonArrayGet params 8) }

def freshRow (heap : Heap) (i : Nat) : Bytes 32 :=
  ⟨(List.range 32).map (heap.row i), by simp⟩

/-- New rows when the branch has more than the buffer. -/
def growMerkle (heap : Heap) (rows : List (Bytes 32)) (count : Int) : List (Bytes 32) :=
  if rows.length < count then (List.range count.toNat).map (freshRow heap) else rows

def branchString (branch : Json) : Option CStr :=
  (jsonStringValue (some branch)).filter fun s => s.length == 64

/-- The loop over the branch: the rows it leaves, and whether it met no bad entry. -/
def decodeMerkle : List (Bytes 32) → List Json → List (Bytes 32) × Bool
  | row :: rows, branch :: rest =>
      match branchString branch with
      | some s => (row.hex2bin s :: (decodeMerkle rows rest).1, (decodeMerkle rows rest).2)
      | none => (row :: rows, false)
  | rows, _ => (rows, true)

def realloc (fresh : Nat → UInt8) (old : List UInt8) (size : Nat) : List UInt8 :=
  old.take size ++ (List.range (size - old.length)).map fun i => fresh (old.length + i)

/-- The coinbase: `coinb1`, extranonce1, the extranonce2 slot (zeroed for a new job id,
else what the buffer held there) and `coinb2`. -/
def layCoinbase (heap : Heap) (sctx : StratumCtx) (fields : NotifyFields) : List UInt8 :=
  let coinb1Size := fields.coinb1.length / 2
  let coinb2Size := fields.coinb2.length / 2
  let start := coinb1Size + sctx.xnonce1.length
  let buffer := realloc heap.grown sctx.job.coinbase
    (start + sctx.xnonce2Size + coinb2Size)
  let slot :=
    if sctx.job.jobId = some fields.jobId then (buffer.drop start).take sctx.xnonce2Size
    else List.replicate sctx.xnonce2Size 0
  (hex2bin (buffer.take coinb1Size) fields.coinb1).1 ++ sctx.xnonce1 ++ slot ++
    (hex2bin (buffer.drop (start + sctx.xnonce2Size)) fields.coinb2).1

def coinbaseByte (heap : Heap) (coinbase : List UInt8) (i : Nat) : UInt8 :=
  if h : i < coinbase.length then coinbase[i] else heap.beyond i

/-- All that is written once the branch is known to be good. -/
def acceptJob (heap : Heap) (sctx : StratumCtx) (fields : NotifyFields)
    (merkle : List (Bytes 32)) : StratumCtx :=
  let coinbase := layCoinbase heap sctx fields
  { sctx with
    blockHeight := castInt (getblocheight (coinbaseByte heap coinbase) coinbase.length).toNat
    job :=
      { version := sctx.job.version.hex2bin fields.version
        merkle
        merkleCount := fields.merkleCount
        coinbase
        xnonce2 := fields.coinb1.length / 2 + sctx.xnonce1.length
        jobId := some fields.jobId
        prevhash := sctx.job.prevhash.hex2bin fields.prevhash
        nbits := sctx.job.nbits.hex2bin fields.nbits
        ntime := sctx.job.ntime.hex2bin fields.stime
        clean := fields.clean
        diff := sctx.nextDiff } }

/-- All that has been written when the branch turns out to be bad. -/
def rejectBranch (sctx : StratumCtx) (fields : NotifyFields) (merkle : List (Bytes 32)) :
    StratumCtx :=
  { sctx with
    job :=
      { sctx.job with
        version := sctx.job.version.hex2bin fields.version
        merkle
        merkleCount := 0 } }

def stratumNotify (heap : Heap) (sctx : StratumCtx) (params : Option Json) :
    StratumCtx × Bool :=
  match readNotify params with
  | none => (sctx, false)
  | some fields =>
      let rows := growMerkle heap sctx.job.merkle fields.merkleCount
      let decoded := decodeMerkle rows (fields.merkle.take fields.merkleCount.toNat)
      if decoded.2 then (acceptJob heap sctx fields decoded.1, true)
      else (rejectBranch sctx fields decoded.1, false)

/-! The branch loop. -/

theorem le_length_growMerkle (heap : Heap) (rows : List (Bytes 32)) (count : Int) :
    count.toNat ≤ (growMerkle heap rows count).length := by
  rw [growMerkle]
  split
  · simp
  · omega

theorem decodeMerkle_good {rows : List (Bytes 32)} {branches : List Json}
    (hlen : branches.length ≤ rows.length) :
    (decodeMerkle rows branches).2 = true ↔ ∀ b ∈ branches, (branchString b).isSome := by
  induction branches generalizing rows with
  | nil => simp [decodeMerkle]
  | cons branch rest ih =>
      obtain _ | ⟨row, rows⟩ := rows
      · simp at hlen
      · cases hbranch : branchString branch with
        | none => simp [decodeMerkle, hbranch]
        | some s =>
            have := @ih rows (by simpa using hlen)
            simp [decodeMerkle, hbranch, this]

theorem Bytes.hex2bin_of_hex {n : Nat} (p : Bytes n) {s : CStr} (hhex : AllHex s)
    (hlen : s.length = 2 * n) : (p.hex2bin s).val = unhex s := by
  have hp := p.property
  have hdecoded := Util.hex2bin_of_hex (p := p.val) hhex (by omega) (by omega)
  calc (p.hex2bin s).val = (Util.hex2bin p.val s).1 := rfl
    _ = unhex s ++ List.replicate (p.val.length - s.length / 2) 0 := by rw [hdecoded]
    _ = unhex s := by simp [hp, hlen]

theorem branchString_string {s : CStr} (hlen : s.length = 64) :
    branchString (.string s) = some s := by
  simp [branchString, jsonStringValue, hlen]

theorem decodeMerkle_of_hex {rows : List (Bytes 32)} {branches : List CStr}
    (hlen : branches.length ≤ rows.length)
    (hbranches : ∀ s ∈ branches, s.length = 64 ∧ AllHex s) :
    ((decodeMerkle rows (branches.map Json.string)).1.take branches.length).map (·.val) =
      branches.map unhex := by
  induction branches generalizing rows with
  | nil => simp
  | cons s branches ih =>
      obtain _ | ⟨row, rows⟩ := rows
      · simp at hlen
      · obtain ⟨hs, hhex⟩ := hbranches s List.mem_cons_self
        have hrest := @ih rows (by simpa using hlen)
          fun t ht => hbranches t (List.mem_cons_of_mem s ht)
        simp [decodeMerkle, branchString_string hs, row.hex2bin_of_hex hhex hs, hrest]

/-! When the call returns true. -/

/-- The branch entries the loop looks at are strings of 64 characters. -/
def NotifyFields.BranchGood (fields : NotifyFields) : Prop :=
  ∀ b ∈ fields.merkle.take fields.merkleCount.toNat, (branchString b).isSome

instance (fields : NotifyFields) : Decidable fields.BranchGood :=
  inferInstanceAs (Decidable (∀ b ∈ fields.merkle.take fields.merkleCount.toNat, _))

theorem decodeMerkle_good_iff (heap : Heap) (rows : List (Bytes 32)) (fields : NotifyFields) :
    (decodeMerkle (growMerkle heap rows fields.merkleCount)
      (fields.merkle.take fields.merkleCount.toNat)).2 = true ↔ fields.BranchGood := by
  apply decodeMerkle_good
  have := le_length_growMerkle heap rows fields.merkleCount
  rw [List.length_take]
  omega

theorem stratumNotify_eq (heap : Heap) (sctx : StratumCtx) (params : Option Json) :
    (readNotify params = none ∧ stratumNotify heap sctx params = (sctx, false)) ∨
    ∃ fields merkle, readNotify params = some fields ∧
      merkle = (decodeMerkle (growMerkle heap sctx.job.merkle fields.merkleCount)
        (fields.merkle.take fields.merkleCount.toNat)).1 ∧
      ((fields.BranchGood ∧
          stratumNotify heap sctx params = (acceptJob heap sctx fields merkle, true)) ∨
        (¬ fields.BranchGood ∧
          stratumNotify heap sctx params = (rejectBranch sctx fields merkle, false))) := by
  cases hread : readNotify params with
  | none =>
      refine Or.inl ⟨rfl, ?_⟩
      rw [stratumNotify, hread]
  | some fields =>
      refine Or.inr ⟨fields, _, rfl, rfl, ?_⟩
      rw [stratumNotify, hread]
      have hgood := decodeMerkle_good_iff heap sctx.job.merkle fields
      by_cases hbranch : fields.BranchGood
      · exact Or.inl ⟨hbranch, if_pos (hgood.mpr hbranch)⟩
      · exact Or.inr ⟨hbranch, if_neg fun h => hbranch (hgood.mp h)⟩

theorem stratumNotify_accepts (heap : Heap) (sctx : StratumCtx) (params : Option Json) :
    (stratumNotify heap sctx params).2 = true ↔
      ∃ fields, readNotify params = some fields ∧ fields.BranchGood := by
  obtain ⟨hread, heq⟩ | ⟨fields, _, hread, _, ⟨hbranch, heq⟩ | ⟨hbranch, heq⟩⟩ :=
    stratumNotify_eq heap sctx params
  · simp [heq, hread]
  · simp [heq, hread, hbranch]
  · simp [heq, hread, hbranch]

/-! Which params are meant to be accepted, and what is then stored. -/

structure NotifyStrings where
  jobId : CStr
  prevhash : CStr
  coinb1 : CStr
  coinb2 : CStr
  branches : List CStr
  version : CStr
  nbits : CStr
  stime : CStr

structure WellFormedNotify (params : Option Json) (strings : NotifyStrings) : Prop where
  jobId : jsonStringValue (jsonArrayGet params 0) = some strings.jobId
  prevhash : jsonStringValue (jsonArrayGet params 1) = some strings.prevhash
  coinb1 : jsonStringValue (jsonArrayGet params 2) = some strings.coinb1
  coinb2 : jsonStringValue (jsonArrayGet params 3) = some strings.coinb2
  branches : jsonArrayGet params 4 = some (.array (strings.branches.map Json.string))
  version : jsonStringValue (jsonArrayGet params 5) = some strings.version
  nbits : jsonStringValue (jsonArrayGet params 6) = some strings.nbits
  stime : jsonStringValue (jsonArrayGet params 7) = some strings.stime
  lengths : strings.prevhash.length = 64 ∧ strings.version.length = 8 ∧
    strings.nbits.length = 8 ∧ strings.stime.length = 8
  even : strings.coinb1.length % 2 = 0 ∧ strings.coinb2.length % 2 = 0
  branch : ∀ s ∈ strings.branches, s.length = 64 ∧ AllHex s
  hex : AllHex strings.prevhash ∧ AllHex strings.coinb1 ∧ AllHex strings.coinb2 ∧
    AllHex strings.version ∧ AllHex strings.nbits ∧ AllHex strings.stime

/-- The job that the strings stand for, with the extranonce of `sctx`. -/
structure DecodedJob (sctx : StratumCtx) (strings : NotifyStrings) (job : StratumJob) :
    Prop where
  jobId : job.jobId = some strings.jobId
  coinbase : job.coinbase = unhex strings.coinb1 ++ sctx.xnonce1 ++
    (job.coinbase.drop job.xnonce2).take sctx.xnonce2Size ++ unhex strings.coinb2
  xnonce2 : job.xnonce2 = (unhex strings.coinb1 ++ sctx.xnonce1).length
  slot : ((job.coinbase.drop job.xnonce2).take sctx.xnonce2Size).length = sctx.xnonce2Size
  merkleCount : job.merkleCount = strings.branches.length
  branch : job.branch.map (·.val) = strings.branches.map unhex
  version : job.version.val = unhex strings.version
  prevhash : job.prevhash.val = unhex strings.prevhash
  nbits : job.nbits.val = unhex strings.nbits
  ntime : job.ntime.val = unhex strings.stime

/-- The call returns true exactly for well-formed params, and then stores their decoding. -/
def NotifyExact (heap : Heap) (sctx : StratumCtx) (params : Option Json) : Prop :=
  ((stratumNotify heap sctx params).2 = true ↔ ∃ strings, WellFormedNotify params strings) ∧
    ((stratumNotify heap sctx params).2 = true → ∃ strings, WellFormedNotify params strings ∧
      DecodedJob sctx strings (stratumNotify heap sctx params).1.job)

/-- What the code leaves unchecked: that the fields are hex and can be cut into bytes, and
that the branch length fits an `int`. -/
structure NotifyFields.Sound (fields : NotifyFields) : Prop where
  hex : AllHex fields.prevhash ∧ AllHex fields.coinb1 ∧ AllHex fields.coinb2 ∧
    AllHex fields.version ∧ AllHex fields.nbits ∧ AllHex fields.stime
  branch : ∀ b ∈ fields.merkle, ∀ s, jsonStringValue (some b) = some s → AllHex s
  even : fields.coinb1.length % 2 = 0 ∧ fields.coinb2.length % 2 = 0
  count : fields.merkle.length < 2 ^ 31

def WellFormedNotify.fields {params : Option Json} {strings : NotifyStrings}
    (_ : WellFormedNotify params strings) : NotifyFields :=
  { jobId := strings.jobId, prevhash := strings.prevhash, coinb1 := strings.coinb1,
    coinb2 := strings.coinb2, merkle := strings.branches.map Json.string,
    merkleCount := castInt strings.branches.length, version := strings.version,
    nbits := strings.nbits, stime := strings.stime, clean := jsonIsTrue (jsonArrayGet params 8) }

theorem WellFormedNotify.read {params : Option Json} {strings : NotifyStrings}
    (h : WellFormedNotify params strings) : readNotify params = some h.fields := by
  simp [readNotify, h.branches, h.jobId, h.prevhash, h.coinb1, h.coinb2, h.version, h.nbits,
    h.stime, h.lengths, guard, WellFormedNotify.fields]

theorem WellFormedNotify.branchGood {params : Option Json} {strings : NotifyStrings}
    (h : WellFormedNotify params strings) : h.fields.BranchGood := by
  intro b hb
  obtain ⟨s, hs, rfl⟩ := List.mem_map.mp (List.mem_of_mem_take hb)
  rw [branchString_string (h.branch s hs).1]
  rfl

theorem readNotify_eq_some {params : Option Json} {fields : NotifyFields}
    (h : readNotify params = some fields) :
    jsonArrayGet params 4 = some (.array fields.merkle) ∧
    jsonStringValue (jsonArrayGet params 0) = some fields.jobId ∧
    jsonStringValue (jsonArrayGet params 1) = some fields.prevhash ∧
    jsonStringValue (jsonArrayGet params 2) = some fields.coinb1 ∧
    jsonStringValue (jsonArrayGet params 3) = some fields.coinb2 ∧
    jsonStringValue (jsonArrayGet params 5) = some fields.version ∧
    jsonStringValue (jsonArrayGet params 6) = some fields.nbits ∧
    jsonStringValue (jsonArrayGet params 7) = some fields.stime ∧
    (fields.prevhash.length = 64 ∧ fields.version.length = 8 ∧ fields.nbits.length = 8 ∧
      fields.stime.length = 8) ∧
    fields.merkleCount = castInt fields.merkle.length := by
  simp only [readNotify, bind, Option.bind_eq_some_iff] at h
  obtain ⟨merkle, h4, h⟩ := h
  cases merkle with
  | array merkle =>
      simp only [Option.bind_eq_some_iff] at h
      obtain ⟨jobId, h0, prevhash, h1, coinb1, h2, coinb2, h3, version, h5, nbits, h6, stime, h7,
        hlengths, hguard, h⟩ := h
      obtain rfl := Option.some.inj h
      exact ⟨h4, h0, h1, h2, h3, h5, h6, h7, by simpa [guard] using hguard, rfl⟩
  | _ => simp at h

theorem strings_of_branchString {branches : List Json}
    (h : ∀ b ∈ branches, (branchString b).isSome) :
    ∃ strings : List CStr, branches = strings.map Json.string ∧ ∀ s ∈ strings, s.length = 64 := by
  induction branches with
  | nil => exact ⟨[], rfl, by simp⟩
  | cons b branches ih =>
      obtain ⟨strings, rfl, hlens⟩ := ih fun c hc => h c (List.mem_cons_of_mem b hc)
      cases b with
      | string s =>
          have hs := h _ List.mem_cons_self
          have hlen : s.length = 64 := by
            simpa [branchString, jsonStringValue, Option.isSome_filter] using hs
          exact ⟨s :: strings, rfl, List.forall_mem_cons.mpr ⟨hlen, hlens⟩⟩
      | _ => simpa [branchString, jsonStringValue] using h _ List.mem_cons_self

theorem NotifyFields.Sound.wellFormed {params : Option Json} {fields : NotifyFields}
    (hsound : fields.Sound) (hread : readNotify params = some fields)
    (hgood : fields.BranchGood) : ∃ strings, WellFormedNotify params strings := by
  obtain ⟨h4, h0, h1, h2, h3, h5, h6, h7, hlengths, hcount⟩ := readNotify_eq_some hread
  rw [BranchGood, hcount, castInt_of_lt hsound.count, Int.toNat_natCast, List.take_length] at hgood
  obtain ⟨branches, hmerkle, hlens⟩ := strings_of_branchString hgood
  refine ⟨⟨fields.jobId, fields.prevhash, fields.coinb1, fields.coinb2, branches,
    fields.version, fields.nbits, fields.stime⟩,
    ⟨h0, h1, h2, h3, hmerkle ▸ h4, h5, h6, h7, hlengths, hsound.even, ?_, hsound.hex⟩⟩
  intro s hs
  exact ⟨hlens s hs, hsound.branch (.string s) (hmerkle ▸ List.mem_map_of_mem hs) s rfl⟩

/-! What an accepted notify stores. -/

theorem length_realloc (fresh : Nat → UInt8) (old : List UInt8) (size : Nat) :
    (realloc fresh old size).length = size := by
  rw [realloc, List.length_append, List.length_take, List.length_map, List.length_range]
  omega

theorem hex2bin_exact {p : List UInt8} {s : CStr} (hhex : AllHex s) (heven : s.length % 2 = 0)
    (hlen : p.length = s.length / 2) : (hex2bin p s).1 = unhex s := by
  rw [Util.hex2bin_of_hex hhex heven (by omega)]
  simp [hlen]

theorem layCoinbase_eq (heap : Heap) (sctx : StratumCtx) (fields : NotifyFields) :
    ∃ head slot tail : List UInt8, head.length = fields.coinb1.length / 2 ∧
      slot.length = sctx.xnonce2Size ∧ tail.length = fields.coinb2.length / 2 ∧
      layCoinbase heap sctx fields = (hex2bin head fields.coinb1).1 ++ sctx.xnonce1 ++ slot ++
        (hex2bin tail fields.coinb2).1 := by
  simp only [layCoinbase]
  generalize hbuffer : realloc heap.grown sctx.job.coinbase _ = buffer
  have hlen : buffer.length = fields.coinb1.length / 2 + sctx.xnonce1.length +
      sctx.xnonce2Size + fields.coinb2.length / 2 := by rw [← hbuffer, length_realloc]
  refine ⟨_, _, _, ?_, ?_, ?_, rfl⟩
  · rw [List.length_take]
    omega
  · split
    · rw [List.length_take, List.length_drop]
      omega
    · exact List.length_replicate
  · rw [List.length_drop]
    omega

theorem layCoinbase_of_hex (heap : Heap) (sctx : StratumCtx) {fields : NotifyFields}
    (hhex : AllHex fields.coinb1 ∧ AllHex fields.coinb2)
    (heven : fields.coinb1.length % 2 = 0 ∧ fields.coinb2.length % 2 = 0) :
    ∃ slot : List UInt8, slot.length = sctx.xnonce2Size ∧
      layCoinbase heap sctx fields =
        unhex fields.coinb1 ++ sctx.xnonce1 ++ slot ++ unhex fields.coinb2 := by
  obtain ⟨head, slot, tail, hhead, hslot, htail, heq⟩ := layCoinbase_eq heap sctx fields
  rw [hex2bin_exact hhex.1 heven.1 hhead, hex2bin_exact hhex.2 heven.2 htail] at heq
  exact ⟨slot, hslot, heq⟩

theorem acceptJob_branch (heap : Heap) (sctx : StratumCtx) (fields : NotifyFields)
    (merkle : List (Bytes 32)) : (acceptJob heap sctx fields merkle).job.branch =
      merkle.take fields.merkleCount.toNat := rfl

theorem acceptJob_decoded (heap : Heap) (sctx : StratumCtx) {params : Option Json}
    {strings : NotifyStrings} (h : WellFormedNotify params strings)
    (hcount : strings.branches.length < 2 ^ 31) :
    DecodedJob sctx strings (acceptJob heap sctx h.fields
      (decodeMerkle (growMerkle heap sctx.job.merkle h.fields.merkleCount)
        (h.fields.merkle.take h.fields.merkleCount.toNat)).1).job := by
  obtain ⟨hprevhash, hcoinb1, hcoinb2, hversion, hnbits, hntime⟩ := h.hex
  obtain ⟨hprevhash64, hversion8, hnbits8, hntime8⟩ := h.lengths
  have hint : h.fields.merkleCount = strings.branches.length := castInt_of_lt hcount
  have htoNat : h.fields.merkleCount.toNat = strings.branches.length := by
    rw [hint, Int.toNat_natCast]
  obtain ⟨slot, hslot, hcoinbase⟩ :=
    @layCoinbase_of_hex heap sctx h.fields ⟨hcoinb1, hcoinb2⟩ h.even
  -- cutting the coinbase at the slot
  have hoffset : h.fields.coinb1.length / 2 + sctx.xnonce1.length =
      (unhex strings.coinb1 ++ sctx.xnonce1).length := by
    rw [List.length_append, length_unhex]
    rfl
  have hcut : ((layCoinbase heap sctx h.fields).drop
      (unhex strings.coinb1 ++ sctx.xnonce1).length).take sctx.xnonce2Size = slot := by
    have hfield : h.fields.coinb1 = strings.coinb1 := rfl
    rw [hcoinbase, hfield, List.append_assoc _ slot, List.drop_left, ← hslot, List.take_left]
  constructor
  case coinbase =>
    rw [acceptJob, hoffset, hcut]
    exact hcoinbase
  case slot =>
    rw [acceptJob, hoffset, hcut, hslot]
  case branch =>
    have hrows := le_length_growMerkle heap sctx.job.merkle h.fields.merkleCount
    have hall : h.fields.merkle.take h.fields.merkleCount.toNat =
        strings.branches.map Json.string := by
      rw [htoNat]
      exact List.take_of_length_le (List.length_map _).le
    rw [acceptJob_branch, hall, htoNat]
    exact decodeMerkle_of_hex (htoNat.symm.trans_le hrows) h.branch
  case jobId => rfl
  case xnonce2 => exact hoffset
  case merkleCount => simpa only [acceptJob] using hint
  case version => exact sctx.job.version.hex2bin_of_hex hversion hversion8
  case prevhash => exact sctx.job.prevhash.hex2bin_of_hex hprevhash hprevhash64
  case nbits => exact sctx.job.nbits.hex2bin_of_hex hnbits hnbits8
  case ntime => exact sctx.job.ntime.hex2bin_of_hex hntime hntime8

theorem WellFormedNotify.accepted (heap : Heap) (sctx : StratumCtx) {params : Option Json}
    {strings : NotifyStrings} (h : WellFormedNotify params strings) :
    stratumNotify heap sctx params = (acceptJob heap sctx h.fields
      (decodeMerkle (growMerkle heap sctx.job.merkle h.fields.merkleCount)
        (h.fields.merkle.take h.fields.merkleCount.toNat)).1, true) := by
  obtain ⟨hnone, -⟩ | ⟨fields, merkle, hread, rfl, ⟨-, heq⟩ | ⟨hbad, -⟩⟩ :=
    stratumNotify_eq heap sctx params
  · rw [h.read] at hnone
    cases hnone
  · obtain rfl := Option.some.inj (hread.symm.trans h.read)
    exact heq
  · obtain rfl := Option.some.inj (hread.symm.trans h.read)
    exact absurd h.branchGood hbad

/-- The call is exact where what it accepts has hex fields of whole bytes and a branch
whose length fits an `int`: it asks for neither. -/
theorem stratumNotify_exact_iff (heap : Heap) (sctx : StratumCtx) (params : Option Json) :
    NotifyExact heap sctx params ↔
      ∀ fields, readNotify params = some fields → fields.BranchGood → fields.Sound := by
  constructor
  · rintro ⟨-, hstored⟩ fields hread hgood
    obtain ⟨strings, h, hjob⟩ :=
      hstored ((stratumNotify_accepts heap sctx params).mpr ⟨fields, hread, hgood⟩)
    obtain rfl := Option.some.inj (hread.symm.trans h.read)
    refine ⟨h.hex, ?_, h.even, ?_⟩
    · intro b hb s hs
      obtain ⟨t, ht, rfl⟩ := List.mem_map.mp hb
      obtain rfl := Option.some.inj hs
      exact (h.branch _ ht).2
    · -- the stored count is an `int`
      have hlt := castInt_lt strings.branches.length
      have hcount : castInt strings.branches.length = strings.branches.length := by
        simpa [h.accepted heap sctx, acceptJob, WellFormedNotify.fields] using hjob.merkleCount
      have hlen : h.fields.merkle.length = strings.branches.length := by
        simp [WellFormedNotify.fields]
      omega
  · intro hsound
    refine ⟨?_, ?_⟩
    · rw [stratumNotify_accepts]
      exact ⟨fun ⟨fields, hread, hgood⟩ =>
          (hsound fields hread hgood).wellFormed hread hgood,
        fun ⟨_, h⟩ => ⟨h.fields, h.read, h.branchGood⟩⟩
    · intro hret
      obtain ⟨fields, hread, hgood⟩ := (stratumNotify_accepts heap sctx params).mp hret
      obtain ⟨strings, h⟩ := (hsound fields hread hgood).wellFormed hread hgood
      obtain rfl := Option.some.inj (hread.symm.trans h.read)
      have hlt := (hsound _ hread hgood).count
      refine ⟨strings, h, ?_⟩
      rw [h.accepted heap sctx]
      exact acceptJob_decoded heap sctx h (by simpa [WellFormedNotify.fields] using hlt)

def Heap.zero : Heap := ⟨fun _ => 0, fun _ _ => 0, fun _ => 0⟩

def nonHexNotify : Json :=
  .array [.string (cstr "a"), .string (List.replicate 64 48), .string (cstr "zz"),
    .string (cstr "00"), .array [], .string (cstr "00000001"), .string (cstr "1d00ffff"),
    .string (cstr "5e000000"), .bool true]

theorem stratumNotify_accepts_nonHex : ¬ NotifyExact .zero .init (some nonHexNotify) := by
  rintro ⟨hexact, -⟩
  obtain ⟨strings, h⟩ := hexact.mp (by decide +kernel)
  have hcoinb1 : cstr "zz" = strings.coinb1 := Option.some.inj h.coinb1
  have hhex : AllHex (cstr "zz") := hcoinb1 ▸ h.hex.2.1
  exact absurd hhex (by decide +kernel)

end SojCivicLight.Stratum
