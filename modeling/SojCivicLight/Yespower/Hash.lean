import SojCivicLight.Yespower.Simulation

/-! The yespower entry points: the scalar hash of version 1.0 and the fixed-parameter
two-lane hash, over their thread-local regions. -/

namespace SojCivicLight.Yespower

open SojCivicLight.Library

/-- `YP_SHA256_Buf`, `YP_PBKDF2_SHA256` with one iteration, and `YP_HMAC_SHA256_Buf`. -/
structure Primitives where
  sha256Buf : List UInt8 → List UInt8
  pbkdf2Sha256 : (passwd salt : List UInt8) → (dkLen : Nat) → List UInt8
  hmacSha256Buf : (K input : List UInt8) → List UInt8

/-- `civic_yespower_local_t`: the size of the mapped region, zero where there is none, and
what it holds. -/
structure Local where
  alignedSize : Nat
  aligned : Region M128

/-- What the system answers: whether unmapping succeeds, and the new mapping if there is
one. -/
structure System where
  unmaps : Bool
  mapping : Option (Region M128)

/-- `free_region`: zero or minus one, and the region left. -/
def freeRegion (sys : System) (region : Local) : Int × Local :=
  if region.alignedSize ≠ 0 ∧ !sys.unmaps then
    (-1, region)
  else
    (0, { region with alignedSize := 0 })

/-- `alloc_region`: whether it returns a pointer, and the region left. -/
def allocRegion (sys : System) (region : Local) (size : Nat) : Bool × Local :=
  match sys.mapping with
  | some aligned => (true, { alignedSize := size, aligned })
  | none => (false, { region with alignedSize := 0 })

/-- The test before a hash: keep a region that is large enough, else map a new one. -/
def requireRegion (sys : System) (region : Local) (need : Nat) : Bool × Local :=
  if region.alignedSize < need then
    let (rc, region) := freeRegion sys region
    if rc ≠ 0 then (false, region) else allocRegion sys region need
  else
    (true, region)

def wordBytes (w : UInt32) : List UInt8 :=
  [w.toUInt8, (w >>> 8).toUInt8, (w >>> 16).toUInt8, (w >>> 24).toUInt8]

def bytesWord (b : List UInt8) : UInt32 :=
  (b.getD 0 0).toUInt32 ||| (b.getD 1 0).toUInt32 <<< 8 ||| (b.getD 2 0).toUInt32 <<< 16 |||
    (b.getD 3 0).toUInt32 <<< 24

def M128.bytes (x : M128) : List UInt8 :=
  wordBytes x.w0 ++ wordBytes x.w1 ++ wordBytes x.w2 ++ wordBytes x.w3

def M128.ofBytes (b : List UInt8) : M128 :=
  ⟨bytesWord b, bytesWord (b.drop 4), bytesWord (b.drop 8), bytesWord (b.drop 12)⟩

def storeBytes (m : Region M128) (p count : Nat) (bytes : List UInt8) : Region M128 :=
  forUp 0 count 1 (fun i m => store m (p + 16 * i) (M128.ofBytes (bytes.drop (16 * i)))) m

def loadBytes (m : Region M128) (p count : Nat) : List UInt8 :=
  (List.range count).flatMap fun i => (load m (p + 16 * i)).bytes

/-- `civic_yespower_params_t` of version 1.0. -/
structure Params where
  N : Nat
  r : Nat
  pers : Option (List UInt8)
  perslen : Nat

def Params.invalid (params : Params) : Bool :=
  params.N < 1024 || params.N > 512 * 1024 || params.r < 8 || params.r > 32 ||
    params.N &&& (params.N - 1) != 0 || (params.pers.isNone && params.perslen != 0)

def sPart : Nat := swidthToSbytes1 swidth_1_0
def sSize : Nat := 3 * sPart
def bSize (r : Nat) : Nat := 128 * r
def vSize (N r : Nat) : Nat := bSize r * N
def xySize (r : Nat) : Nat := bSize r + 64
def need (N r : Nat) : Nat := bSize r + vSize N r + xySize r + sSize

/-- The offsets of the parts of a region; `V` is its start. -/
def offsetB (N r : Nat) : Nat := vSize N r
def offsetXY (N r : Nat) : Nat := offsetB N r + bSize r
def offsetS (N r : Nat) : Nat := offsetXY N r + xySize r

def initCtx (S : Nat) : PwxformCtx :=
  { S0 := S, S1 := S + sPart, S2 := S + 2 * sPart, w := 0, Sbytes := sSize }

/-- PBKDF2 into `B`, and the first 32 bytes read back. -/
def seedB (prim : Primitives) (passwd salt : List UInt8) (B : Nat) (m : Region M128) :
    Region M128 × List UInt8 :=
  let m := storeBytes m B 8 (prim.pbkdf2Sha256 passwd salt 128)
  (m, loadBytes m B 2)

/-- What a hash leaves: the digest it writes, its return value and its region. -/
structure HashResult where
  dst : List UInt8
  rc : Int
  region : Local

def hashFailed (region : Local) : HashResult :=
  { dst := List.replicate 32 0xff, rc := -1, region }

/-- `civic_yespower` past its checks, in a region that is large enough. -/
def civicYespowerIn (prim : Primitives) (region : Local) (src : List UInt8)
    (params : Params) : HashResult :=
  let N := params.N
  let r := params.r
  let sha256 := prim.sha256Buf src
  let salt := match params.pers with
    | some pers => pers.take params.perslen
    | none => []
  let seeded := seedB prim sha256 salt (offsetB N r) region.aligned
  let m := (smix seeded.1 (offsetB N r) r N 0 (offsetXY N r) (initCtx (offsetS N r))).1
  { dst := prim.hmacSha256Buf (loadBytes m (offsetB N r + bSize r - 64) 4) seeded.2
    rc := 0
    region := { region with aligned := m } }

/-- `civic_yespower`, version 1.0 -/
def civicYespower (prim : Primitives) (sys : System) (region : Local) (src : List UInt8)
    (params : Params) : HashResult :=
  if params.invalid then
    hashFailed region
  else
    let required := requireRegion sys region (need params.N params.r)
    if required.1 then civicYespowerIn prim required.2 src params else hashFailed required.2

/-- The two results of `civic_yespower2_fixed`, with the lanes' regions. -/
structure PairResult where
  dst : Fin 2 → List UInt8
  rc : Int
  regions : Fin 2 → Local

def pairFailed (regions : Fin 2 → Local) : PairResult :=
  { dst := fun _ => List.replicate 32 0xff, rc := -1, regions }

/-- `civic_yespower2_fixed` past the preparation of its lanes, each with its region and
its `sha256`. -/
def civicYespower2FixedIn (prim : Primitives) (N r : Nat) (regions : Fin 2 → Local)
    (sha256 : Fin 2 → List UInt8) : PairResult :=
  let P := civicSmix_1_0_2way id (fun _ => offsetB N r) N r (fun _ => 0)
    (fun _ => offsetXY N r)
    { heap := fun lane => (regions lane).aligned, st := fun _ => initCtx (offsetS N r) }
  { dst := fun lane =>
      prim.hmacSha256Buf (loadBytes (P.heap lane) (offsetB N r + bSize r - 64) 4) (sha256 lane)
    rc := 0
    regions := fun lane => { regions lane with aligned := P.heap lane } }

/-- `civic_yespower2_fixed`.  The lanes are prepared in turn, so a second lane without
a region fails after the first lane's block is written. -/
def civicYespower2Fixed (prim : Primitives) (sys : Fin 2 → System) (locals : Fin 2 → Local)
    (src : Fin 2 → List UInt8) : PairResult :=
  let N := 2048
  let r := 8
  let prepare (lane : Fin 2) (region : Local) : Local × List UInt8 :=
    let seeded := seedB prim (prim.sha256Buf (src lane)) [] (offsetB N r) region.aligned
    ({ region with aligned := seeded.1 }, seeded.2)
  let required0 := requireRegion (sys 0) (locals 0) (need N r)
  if !required0.1 then
    pairFailed ![required0.2, locals 1]
  else
    let lane0 := prepare 0 required0.2
    let required1 := requireRegion (sys 1) (locals 1) (need N r)
    if !required1.1 then
      pairFailed ![lane0.1, required1.2]
    else
      let lane1 := prepare 1 required1.2
      civicYespower2FixedIn prim N r ![lane0.1, lane1.1] ![lane0.2, lane1.2]

/-- The parameters the two-lane hash is fixed to. -/
def fixedParams : Params := { N := 2048, r := 8, pers := none, perslen := 0 }

end SojCivicLight.Yespower
