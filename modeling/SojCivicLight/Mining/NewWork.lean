import SojCivicLight.Mining.ScanExact

/-! How a mining thread takes work from `g_work`, and the nonces that are its own. -/

namespace SojCivicLight.Mining

open SojCivicLight.Util SojCivicLight.Stratum

/-- `strtoul(s, NULL, 16)`: white space, a sign, `0x`, then the hex digits, saturating. -/
def strtoul16 (s : CStr) : UInt64 :=
  let s := s.dropWhile isSpace
  let negative := s.head? == some 45
  let s := if negative || s.head? == some 43 then s.drop 1 else s
  let s :=
    match s with
    | 48 :: x :: d :: rest => if (x == 120 || x == 88) && isHexDigit d then d :: rest else s
    | _ => s
  let n := (s.takeWhile isHexDigit).foldl (fun n c => 16 * n + hexValue c) 0
  if 2 ^ 64 ≤ n then 0xffffffffffffffff else if negative then -n.toUInt64 else n.toUInt64

section

variable (threads : Nat)

def firstNonce (thrId : Nat) : UInt32 := 0xffffffff / UInt32.ofNat threads * UInt32.ofNat thrId

/-- The end of its range, once it has taken work. -/
def lastNonce (thrId : Nat) : UInt32 :=
  0xffffffff / UInt32.ofNat threads * (UInt32.ofNat thrId + 1) - 0x20

/-- `end_nonce` before the thread has taken work. -/
def initialEndNonce (thrId : Nat) : UInt32 :=
  0xffffffff / UInt32.ofNat threads * (UInt32.ofNat thrId + 1) - UInt32.ofNat threads

def workCmpWords : Nat := 19

def forceNewWork (work gWork : Work) : Bool :=
  match work.jobId, gWork.jobId with
  | some jobId, some gJobId => strtoul16 jobId ≠ strtoul16 gJobId
  | _, _ => true

end

/-- Whether `std_get_new_work` copies `g_work`: the job ids count only with a stratum. -/
def copiesFor (haveStratum : Bool) (work gWork : Work) (endNonce : UInt32) : Bool :=
  (haveStratum && forceNewWork work gWork) || endNonce ≤ work.data.getD nonceIndex 0 ||
    work.data.take workCmpWords ≠ gWork.data.take workCmpWords

/-- `std_get_new_work`: the work and the end of its range after the call. -/
def getNewWork (haveStratum : Bool) (threads thrId : Nat) (work gWork : Work)
    (endNonce : UInt32) : Work × UInt32 :=
  if copiesFor haveStratum work gWork endNonce then
    ({ gWork with data := gWork.data.set nonceIndex (firstNonce threads thrId) },
      lastNonce threads thrId)
  else
    ({ work with data := work.data.set nonceIndex (work.data.getD nonceIndex 0 + 1) }, endNonce)

/-! With a stratum, as all threads but those of a benchmark take work. -/

def copiesWork (work gWork : Work) (endNonce : UInt32) : Bool := copiesFor true work gWork endNonce

def stdGetNewWork (threads thrId : Nat) (work gWork : Work) (endNonce : UInt32) : Work × UInt32 :=
  getNewWork true threads thrId work gWork endNonce

/-- The end of a scan of about `max64` hashes. -/
def maxNonce (workNonce endNonce : UInt32) (max64 : Int) : UInt32 :=
  let max64 := if max64 ≤ 0 then 1000 else max64
  if endNonce.toNat < workNonce.toNat + max64 then endNonce
  else workNonce + UInt32.ofNat max64.toNat

/-! The ranges. -/

section

variable {threads : Nat}

def rangeSize (threads : Nat) : Nat := (2 ^ 32 - 1) / threads

theorem rangeSize_mul_le {k : Nat} (hk : k ≤ threads) :
    rangeSize threads * k ≤ 2 ^ 32 - 1 :=
  (Nat.mul_le_mul_left _ hk).trans (Nat.div_mul_le_self _ _)

theorem le_rangeSize (hthreads : 1 ≤ threads) (hmax : threads ≤ 9999) :
    9999 ≤ rangeSize threads := by
  rw [rangeSize, Nat.le_div_iff_mul_le hthreads]
  omega

theorem toNat_rangeSize_mul (hthreads : 1 ≤ threads) (hmax : threads ≤ 9999) {k : Nat}
    (hk : k ≤ threads) :
    (0xffffffff / UInt32.ofNat threads * UInt32.ofNat k).toNat = rangeSize threads * k := by
  have hle := rangeSize_mul_le hk
  have hthreads32 : (UInt32.ofNat threads).toNat = threads :=
    UInt32.toNat_ofNat_of_lt' (by omega : threads < 2 ^ 32)
  have hk32 : (UInt32.ofNat k).toNat = k := UInt32.toNat_ofNat_of_lt' (by omega : k < 2 ^ 32)
  have hall : (0xffffffff : UInt32).toNat = 2 ^ 32 - 1 := rfl
  rw [UInt32.toNat_mul, UInt32.toNat_div, hthreads32, hk32, hall]
  exact Nat.mod_eq_of_lt (Nat.lt_of_le_of_lt hle (by decide))

theorem toNat_firstNonce (hthreads : 1 ≤ threads) (hmax : threads ≤ 9999) {thrId : Nat}
    (h : thrId < threads) : (firstNonce threads thrId).toNat = rangeSize threads * thrId :=
  toNat_rangeSize_mul hthreads hmax (Nat.le_of_lt h)

theorem toNat_rangeEnd (hthreads : 1 ≤ threads) (hmax : threads ≤ 9999) {thrId : Nat}
    (h : thrId < threads) :
    (0xffffffff / UInt32.ofNat threads * (UInt32.ofNat thrId + 1)).toNat =
      rangeSize threads * (thrId + 1) := by
  rw [← toNat_rangeSize_mul hthreads hmax h, Nat.succ_eq_add_one, UInt32.ofNat_add]
  rfl

theorem toNat_lastNonce (hthreads : 1 ≤ threads) (hmax : threads ≤ 9999) {thrId : Nat}
    (h : thrId < threads) :
    (lastNonce threads thrId).toNat = rangeSize threads * (thrId + 1) - 32 := by
  have hsize := le_rangeSize hthreads hmax
  have hend := toNat_rangeEnd hthreads hmax h
  have hthirtyTwo : (0x20 : UInt32).toNat = 32 := rfl
  rw [lastNonce, UInt32.toNat_sub_of_le, hend, hthirtyTwo]
  rw [UInt32.le_iff_toNat_le, hend, hthirtyTwo, Nat.mul_succ]
  omega

theorem toNat_initialEndNonce (hthreads : 1 ≤ threads) (hmax : threads ≤ 9999) {thrId : Nat}
    (h : thrId < threads) :
    (initialEndNonce threads thrId).toNat = rangeSize threads * (thrId + 1) - threads := by
  have hsize := le_rangeSize hthreads hmax
  have hend := toNat_rangeEnd hthreads hmax h
  have hthreads32 : (UInt32.ofNat threads).toNat = threads :=
    UInt32.toNat_ofNat_of_lt' (by omega : threads < 2 ^ 32)
  rw [initialEndNonce, UInt32.toNat_sub_of_le, hend, hthreads32]
  rw [UInt32.le_iff_toNat_le, hend, hthreads32, Nat.mul_succ]
  omega

/-! No bound of a range is the last nonce there is. -/

theorem lastNonce_succ_lt (hthreads : 1 ≤ threads) (hmax : threads ≤ 9999) {thrId : Nat}
    (h : thrId < threads) : (lastNonce threads thrId).toNat + 1 < 2 ^ 32 := by
  have hbound : rangeSize threads * (thrId + 1) ≤ 2 ^ 32 - 1 := rangeSize_mul_le h
  rw [toNat_lastNonce hthreads hmax h]
  omega

theorem initialEndNonce_succ_lt (hthreads : 1 ≤ threads) (hmax : threads ≤ 9999) {thrId : Nat}
    (h : thrId < threads) : (initialEndNonce threads thrId).toNat + 1 < 2 ^ 32 := by
  have hbound : rangeSize threads * (thrId + 1) ≤ 2 ^ 32 - 1 := rangeSize_mul_le h
  rw [toNat_initialEndNonce hthreads hmax h]
  omega

theorem firstNonce_lt_lastNonce (hthreads : 1 ≤ threads) (hmax : threads ≤ 9999) {thrId : Nat}
    (h : thrId < threads) : firstNonce threads thrId < lastNonce threads thrId := by
  have hsize := le_rangeSize hthreads hmax
  rw [UInt32.lt_iff_toNat_lt, toNat_firstNonce hthreads hmax h, toNat_lastNonce hthreads hmax h,
    Nat.mul_succ]
  omega

/-- The scan ends inside the range, and the sum does not wrap. -/
theorem toNat_maxNonce (workNonce endNonce : UInt32) (max64 : Int) :
    ((maxNonce workNonce endNonce max64).toNat : Int) =
      min (endNonce.toNat : Int) (workNonce.toNat + if max64 ≤ 0 then 1000 else max64) := by
  rw [maxNonce]
  generalize hbudget : (if max64 ≤ 0 then 1000 else max64) = budget
  have hpos : 0 < budget := by
    split at hbudget <;> omega
  have hbound := endNonce.toNat_lt
  split
  · omega
  · have hsmall : (UInt32.ofNat budget.toNat).toNat = budget.toNat :=
      UInt32.toNat_ofNat_of_lt' (by show budget.toNat < 2 ^ 32; omega)
    rw [UInt32.toNat_add, hsmall, Nat.mod_eq_of_lt (by omega)]
    omega

end

/-! What a thread has after taking work. -/

theorem stdGetNewWork_copy {threads thrId : Nat} {work gWork : Work} {endNonce : UInt32}
    (h : copiesWork work gWork endNonce = true) :
    stdGetNewWork threads thrId work gWork endNonce =
      ({ gWork with data := gWork.data.set nonceIndex (firstNonce threads thrId) },
        lastNonce threads thrId) :=
  if_pos h

theorem stdGetNewWork_keep {threads thrId : Nat} {work gWork : Work} {endNonce : UInt32}
    (h : copiesWork work gWork endNonce = false) :
    stdGetNewWork threads thrId work gWork endNonce =
      ({ work with data := work.data.set nonceIndex (work.data.getD nonceIndex 0 + 1) },
        endNonce) :=
  if_neg (Bool.eq_false_iff.mp h)

/-- A thread keeps its work only when it has nonces left and the same header words as
`g_work`, and the two job ids read as the same number. -/
theorem copiesWork_eq_false {work gWork : Work} {endNonce : UInt32}
    (h : copiesWork work gWork endNonce = false) :
    (∃ jobId gJobId, work.jobId = some jobId ∧ gWork.jobId = some gJobId ∧
      strtoul16 jobId = strtoul16 gJobId) ∧
      work.data.getD nonceIndex 0 < endNonce ∧
      work.data.take workCmpWords = gWork.data.take workCmpWords := by
  simp only [copiesWork, copiesFor, Bool.true_and, Bool.or_eq_false_iff, decide_eq_false_iff_not,
    not_not] at h
  obtain ⟨⟨hforce, hnonce⟩, hwords⟩ := h
  refine ⟨?_, UInt32.not_le.mp hnonce, hwords⟩
  rw [forceNewWork] at hforce
  split at hforce
  · rename_i jobId gJobId hjob hgJob
    exact ⟨jobId, gJobId, hjob, hgJob, of_not_not (of_decide_eq_false hforce)⟩
  · contradiction

end SojCivicLight.Mining
