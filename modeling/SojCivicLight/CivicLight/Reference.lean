import SojCivicLight.CivicLight.PowHash
import SojCivicLight.CivicLight.ShaNeon
import SojCivicLight.CivicLight.SphSha2
import SojCivicLight.Yespower.HashRefine

/-! The CivicLight hash as a function of the header, and the builds that compute it. -/

namespace SojCivicLight.CivicLight

open SojCivicLight.Library
open SojCivicLight.Yespower

/-- The compression functions, the portable ones and those over the instructions of x86 and of ARM,
are all that of the standard, whatever the scratch held; two blocks at once are each compressed as
if alone. -/
theorem sha256Transforms_fips (W : Nat → UInt32) :
    (sha256Transform W = fipsTransform ∧ sphSha256TransformBe W = fipsTransform ∧
      sha256X86ShaTransformBe = fipsTransform ∧ sha256NeonShaTransformBe = fipsTransform) ∧
    (sphSha256TransformLe W = fipsWordTransform ∧ sha256X86ShaTransformLe = fipsWordTransform ∧
      sha256NeonShaTransformLe = fipsWordTransform) ∧
    (∀ s0 s1 b0 b1,
      sha256X86X2shaTransformBe s0 s1 b0 b1 = (fipsTransform s0 b0, fipsTransform s1 b1) ∧
      sha256NeonX2shaTransformBe s0 s1 b0 b1 = (fipsTransform s0 b0, fipsTransform s1 b1)) ∧
    ∀ s0 s1 m0 m1,
      sha256X86X2shaTransformLe s0 s1 m0 m1 =
        (fipsWordTransform s0 m0, fipsWordTransform s1 m1) ∧
      sha256NeonX2shaTransformLe s0 s1 m0 m1 =
        (fipsWordTransform s0 m0, fipsWordTransform s1 m1) := by
  refine ⟨⟨?_, ?_, ?_, ?_⟩, ⟨?_, ?_, ?_⟩, fun s0 s1 b0 b1 => ⟨?_, ?_⟩,
    fun s0 s1 m0 m1 => ⟨?_, ?_⟩⟩
  · exact sha256Transform_eq W
  · exact sphSha256TransformBe_eq W
  · exact sha256X86ShaTransformBe_eq
  · exact sha256NeonShaTransformBe_eq
  · exact sphSha256TransformLe_eq W
  · exact sha256X86ShaTransformLe_eq
  · exact sha256NeonShaTransformLe_eq
  · exact sha256X86X2shaTransformBe_eq s0 s1 b0 b1
  · exact sha256NeonX2shaTransformBe_eq s0 s1 b0 b1
  · exact sha256X86X2shaTransformLe_eq s0 s1 m0 m1
  · exact sha256NeonX2shaTransformLe_eq s0 s1 m0 m1

/-! The hash, over SHA-256 and yespower as they are published. -/

def fipsSha256 (message : List UInt8) : List UInt8 := fipsDigest fipsTransform message

/-- Before the activation the header's double hash is hashed twice more, with a constant in
between; from then on it goes through yespower. -/
def civiclight (header80 : List UInt8) : List UInt8 :=
  let hash1 := fipsSha256 (fipsSha256 (fipsSha256 header80))
  if PowImpl.civiclightV2ActivationTime ≤ PowImpl.extractNtime header80 then
    fipsSha256 (PowImpl.xorBuf (fixedParams.hash hash1) hash1)
  else fipsSha256 (hash1.map (· ^^^ 0x5A))

/-! The builds. -/

/-- The machines with instructions for SHA-256. -/
inductive ShaUnit where
  | x86
  | neon

def ShaUnit.transformBe : ShaUnit → Transform
  | x86 => sha256X86ShaTransformBe
  | neon => sha256NeonShaTransformBe

def ShaUnit.transform2xBe : ShaUnit → ShaState → ShaState → ShaBlock → ShaBlock →
    ShaState × ShaState
  | x86 => sha256X86X2shaTransformBe
  | neon => sha256NeonX2shaTransformBe

/-- A build, and what its uninitialised memory holds. -/
structure HashBuild where
  sha : ShaUnit
  avx2 : Bool
  ypScratch : Nat → UInt32
  ypStack : HmacSha256Ctx
  stack : Sha256Context

/-- The regions of a thread, and what the system answers when they are to grow. -/
structure HashThread where
  regions : ThreadRegions
  single : System
  pair : Fin 2 → System

def HashBuild.impl (build : HashBuild) (thread : HashThread) : PowImpl where
  transformBe := build.sha.transformBe
  transform2xBe := build.sha.transform2xBe
  yespower := fun input =>
    let h := civicYespower (ypPrimitives build.ypScratch build.ypStack) thread.single
      thread.regions.single input fixedParams
    (h.rc, h.dst)
  yespower2 := fun input0 input1 =>
    let h := civicYespower2Tls build.avx2 (ypPrimitives build.ypScratch build.ypStack) thread.pair
      thread.regions.pair ![input0, input1] fixedParams
    (h.rc, h.dst 0, h.dst 1)
  stack := build.stack

/-- Memory can be had for the hash and for the pair of hashes. -/
structure HashThread.Available (thread : HashThread) : Prop where
  single : (requireRegion thread.single thread.regions.single (need 2048 8)).1 = true
  pair : ∀ lane,
    (requireRegion (thread.pair lane) (thread.regions.pair lane) (need 2048 8)).1 = true

/-- Hashes that run on a build: the regions differ from call to call, and memory can be had in
each. -/
structure HashBuild.Runs (build : HashBuild) (I : PowImpl) : Prop where
  transformBe : I.transformBe = build.sha.transformBe
  transform2xBe : I.transform2xBe = build.sha.transform2xBe
  yespower : ∀ input, ∃ thread : HashThread, thread.Available ∧
    I.yespower input = (build.impl thread).yespower input
  yespower2 : ∀ input0 input1, ∃ thread : HashThread, thread.Available ∧
    I.yespower2 input0 input1 = (build.impl thread).yespower2 input0 input1

theorem HashThread.Available.runs {thread : HashThread} (available : thread.Available)
    (build : HashBuild) : build.Runs (build.impl thread) where
  transformBe := rfl
  transform2xBe := rfl
  yespower := fun _ => ⟨thread, available, rfl⟩
  yespower2 := fun _ _ => ⟨thread, available, rfl⟩

theorem fixedParams_usable : fixedParams.Usable := ⟨by decide, by decide⟩

section Build

variable {build : HashBuild} {I : PowImpl} (runs : build.Runs I)
include runs

theorem HashBuild.Runs.transformBe_eq : I.transformBe = fipsTransform := by
  rw [runs.transformBe]
  cases build.sha with
  | x86 => exact sha256X86ShaTransformBe_eq
  | neon => exact sha256NeonShaTransformBe_eq

theorem HashBuild.Runs.transform2xBe_eq (s0 s1 : ShaState) (b0 b1 : ShaBlock) :
    I.transform2xBe s0 s1 b0 b1 = (fipsTransform s0 b0, fipsTransform s1 b1) := by
  rw [runs.transform2xBe]
  cases build.sha with
  | x86 => exact sha256X86X2shaTransformBe_eq s0 s1 b0 b1
  | neon => exact sha256NeonX2shaTransformBe_eq s0 s1 b0 b1

theorem HashBuild.Runs.sha256Full_eq {data : List UInt8} (hlen : data.length ≤ 80) :
    I.sha256Full data = fipsSha256 data := by
  rw [PowImpl.sha256Full_eq, runs.transformBe_eq,
    shaDigest_eq _ (Nat.lt_of_le_of_lt hlen (by decide))]
  rfl

theorem HashBuild.Runs.yespower_eq {input : List UInt8} (hlen : input.length = 32) :
    I.yespower input = (0, fixedParams.hash input) := by
  obtain ⟨thread, available, hcall⟩ := runs.yespower input
  have houtcome := civicYespower_refines (ypPrimitives build.ypScratch build.ypStack)
    (length_ypSeed _ _) thread.single thread.regions.single input fixedParams
  obtain ⟨hdst, hrc⟩ := Prod.mk.inj
    (houtcome.trans (if_pos ⟨fixedParams_usable.1, available.single⟩))
  rw [hcall, ← fixedParams_usable.hash_eq build.ypScratch build.ypStack (by rw [hlen]; decide)]
  exact Prod.ext hrc hdst

theorem HashBuild.Runs.yespower2_eq {input0 input1 : List UInt8} (h0 : input0.length = 32)
    (h1 : input1.length = 32) :
    I.yespower2 input0 input1 = (0, fixedParams.hash input0, fixedParams.hash input1) := by
  obtain ⟨thread, available, hcall⟩ := runs.yespower2 input0 input1
  obtain ⟨hrc, hdst⟩ := civicYespower2Tls_refines build.avx2 ![input0, input1]
    (length_ypSeed build.ypScratch build.ypStack) fixedParams_usable.1 available.pair
  have hash := fun {input : List UInt8} (hlen : input.length = 32) =>
    @Params.Usable.hash_eq build.ypScratch build.ypStack fixedParams fixedParams_usable input
      (by rw [hlen]; decide)
  rw [hcall]
  exact Prod.ext hrc (Prod.ext ((hdst 0).trans (hash h0)) ((hdst 1).trans (hash h1)))

theorem HashBuild.Runs.paired : I.Paired where
  transform := fun s0 s1 b0 b1 => by
    rw [runs.transform2xBe_eq, runs.transformBe_eq]
  yespower := fun a b ha hb => by
    rw [runs.yespower2_eq ha hb, runs.yespower_eq ha, runs.yespower_eq hb]

/-- Every build computes the hash of a header, whatever its memory held before. -/
theorem HashBuild.Runs.hash_eq {header : List UInt8} (hlen : header.length = 80) :
    I.civiclightHash header = civiclight header := by
  have digest : ∀ data, (fipsSha256 data).length = 32 := fun _ => rfl
  have first : I.sha256Full header = fipsSha256 header := runs.sha256Full_eq (Nat.le_of_eq hlen)
  have double : I.sha256dLocal header = fipsSha256 (fipsSha256 header) := by
    rw [PowImpl.sha256dLocal, first, runs.sha256Full_eq (by rw [digest]; decide)]
  have hash1 : I.sha256Full (fipsSha256 (fipsSha256 header)) =
      fipsSha256 (fipsSha256 (fipsSha256 header)) := runs.sha256Full_eq (by rw [digest]; decide)
  unfold PowImpl.civiclightHash PowImpl.civiclightPowhash PowImpl.civiclightCore civiclight
  rw [double]
  dsimp only
  split
  · rw [PowImpl.civiclightCoreV2, hash1, runs.yespower_eq (digest _),
      runs.sha256Full_eq (by rw [xorBuf_length]; decide)]
  · rw [PowImpl.civiclightCoreV1, hash1,
      runs.sha256Full_eq (by rw [List.length_map, digest]; decide)]

end Build

/-- One header and two at once: the hash of each, on every build, whatever the memory of the thread
held before. -/
theorem civiclight_builds {build : HashBuild} {I : PowImpl} (runs : build.Runs I)
    {header0 header1 : List UInt8} (h0 : header0.length = 80) (h1 : header1.length = 80) :
    I.civiclightHash header0 = civiclight header0 ∧
      I.civiclightHash2way header0 header1 = (civiclight header0, civiclight header1) := by
  refine ⟨runs.hash_eq h0, ?_⟩
  rw [← runs.hash_eq h0, ← runs.hash_eq h1]
  unfold PowImpl.civiclightHash2way
  split
  · rfl
  · rename_i hsame
    have hmid := streams_sha256Update (streams_sha256CtxInit I.transformBe I.stack)
      (header0.take 64)
    exact PowImpl.civiclightPowhash2wayMidstate_eq runs.paired h0 h1 (not_not.mp hsame) hmid

/-- The instructions of ARM, and regions that another hash has left its data in. -/
theorem civiclight_builds_neon :
    let ypStack : HmacSha256Ctx :=
      ⟨⟨fun _ => 7, 5, fun _ => 0xff⟩, ⟨fun _ => 7, 5, fun _ => 0xff⟩⟩
    let build : HashBuild :=
      { sha := .neon, avx2 := false, ypScratch := fun _ => 0xcc, ypStack
        stack := ⟨fun _ => 0xcc, fun _ => 7, 5⟩ }
    let stale : Local := { alignedSize := need 2048 8, aligned := fun a => ⟨a.toUInt32, 7, 7, 7⟩ }
    let sys : System := { unmaps := false, mapping := none }
    let I := build.impl ⟨⟨stale, fun _ => stale⟩, sys, fun _ => sys⟩
    let header0 : List UInt8 := List.replicate 80 0
    let header1 : List UInt8 := List.replicate 80 0xff
    I.civiclightHash header0 = civiclight header0 ∧
      I.civiclightHash2way header0 header1 = (civiclight header0, civiclight header1) := by
  intro ypStack build stale sys I header0 header1
  have kept : (requireRegion sys stale (need 2048 8)).1 = true := by
    rw [requireRegion, if_neg (Nat.lt_irrefl _)]
  have available : HashThread.Available ⟨⟨stale, fun _ => stale⟩, sys, fun _ => sys⟩ :=
    ⟨kept, fun _ => kept⟩
  exact civiclight_builds (available.runs build) List.length_replicate List.length_replicate

end SojCivicLight.CivicLight
