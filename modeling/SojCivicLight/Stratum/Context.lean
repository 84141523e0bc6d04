import Mathlib.Data.Int.DivMod
import SojCivicLight.Util.Hex

/-! The records the stratum code works on, and the JSON values it reads them from.  A C
string is its bytes before the terminator, a buffer the list of its bytes, a pointer that
may be NULL an option, and a double its bit pattern. -/

namespace SojCivicLight.Stratum

open SojCivicLight.Util

abbrev CStr := List UInt8

def cstr (s : String) : CStr := s.toList.map fun c => c.toNat.toUInt8

def Bytes (n : Nat) := { bytes : List UInt8 // bytes.length = n }

namespace Bytes

instance (n : Nat) : DecidableEq (Bytes n) :=
  inferInstanceAs (DecidableEq { bytes : List UInt8 // bytes.length = n })

def zero (n : Nat) : Bytes n := ⟨List.replicate n 0, List.length_replicate⟩

def hex2bin {n : Nat} (p : Bytes n) (hexstr : CStr) : Bytes n :=
  ⟨(Util.hex2bin p.val hexstr).1, by rw [length_hex2bin, p.property]⟩

end Bytes

structure Double where
  bits : UInt64
deriving DecidableEq, Repr

namespace Double

def isZero (x : Double) : Bool := x.bits <<< (1 : UInt64) == 0

/-- `x > 0`: not a NaN, not signed, not zero. -/
def isPos (x : Double) : Bool := 0 < x.bits && x.bits ≤ 0x7ff0000000000000

end Double

/-- The conversion of a wider integer to `int`. -/
@[irreducible] def castInt (n : Int) : Int := n.bmod (2 ^ 32)

theorem castInt_lt (n : Int) : castInt n < 2 ^ 31 := by
  rw [castInt]
  exact @Int.bmod_lt n (2 ^ 32) (by decide)

theorem castInt_of_lt {n : Nat} (h : n < 2 ^ 31) : castInt n = n := by
  rw [castInt]
  exact Int.bmod_eq_of_le (by omega) (by omega)

inductive Json where
  | null
  | bool (value : Bool)
  | integer (value : Int)
  | real (value : Double)
  | string (value : CStr)
  | array (elements : List Json)
  | object (members : List (CStr × Json))

def jsonStringValue : Option Json → Option CStr
  | some (.string value) => some value
  | _ => none

def jsonArrayGet : Option Json → Nat → Option Json
  | some (.array elements), index => elements[index]?
  | _, _ => none

def jsonObjectGet : Option Json → CStr → Option Json
  | some (.object members), key => (members.find? fun member => member.1 == key).map (·.2)
  | _, _ => none

def jsonIntegerValue : Option Json → Int
  | some (.integer value) => value
  | _ => 0

def jsonIsTrue : Option Json → Bool
  | some (.bool value) => value
  | _ => false

def jsonIsNull : Option Json → Bool
  | some .null => true
  | _ => false

def jsonIsFalse : Option Json → Bool
  | some (.bool value) => !value
  | _ => false

/-- `strcasecmp` on ASCII letters. -/
def strcaseEq (left right : CStr) : Bool :=
  left.map toLower == right.map toLower

def strstr : CStr → CStr → Bool
  | [], needle => needle.isEmpty
  | c :: rest, needle => needle.isPrefixOf (c :: rest) || strstr rest needle

structure StratumJob where
  prevhash : Bytes 32
  jobId : Option CStr
  coinbase : List UInt8
  /-- the offset of the extranonce2 slot in `coinbase` -/
  xnonce2 : Nat
  merkleCount : Int
  /-- `merkle_buf_size` rows -/
  merkle : List (Bytes 32)
  version : Bytes 4
  nbits : Bytes 4
  ntime : Bytes 4
  diff : Double
  clean : Bool

/-- The merkle branch: the rows in use. -/
def StratumJob.branch (job : StratumJob) : List (Bytes 32) :=
  job.merkle.take job.merkleCount.toNat

structure StratumCtx where
  /-- the open connection, by its number among all connections made -/
  curl : Option Nat
  nextDiff : Double
  xnonce1 : List UInt8
  xnonce2Size : Nat
  job : StratumJob
  blockHeight : Int
  newJob : Bool

def StratumCtx.init : StratumCtx where
  curl := none
  nextDiff := ⟨0⟩
  xnonce1 := []
  xnonce2Size := 0
  job :=
    { prevhash := .zero 32, jobId := none, coinbase := [], xnonce2 := 0, merkleCount := 0,
      merkle := [], version := .zero 4, nbits := .zero 4, ntime := .zero 4, diff := ⟨0⟩,
      clean := false }
  blockHeight := 0
  newJob := false

def stratumDisconnect (sctx : StratumCtx) : StratumCtx :=
  { sctx with
    curl := none, newJob := false, xnonce1 := [], xnonce2Size := 0, nextDiff := ⟨0⟩
    job := { sctx.job with jobId := none } }

structure Work where
  data : List UInt32
  target : List UInt32
  targetdiff : Double
  height : Int
  jobId : Option CStr
  xnonce2 : List UInt8
  reauthEpoch : Nat
deriving DecidableEq

def Work.zero : Work where
  data := List.replicate 48 0
  target := List.replicate 8 0
  targetdiff := ⟨0⟩
  height := 0
  jobId := none
  xnonce2 := []
  reauthEpoch := 0

end SojCivicLight.Stratum
