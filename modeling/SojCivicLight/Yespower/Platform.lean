import Mathlib.Algebra.Group.Nat.Defs
import Mathlib.Data.Nat.Basic

/-! The memory of a hash computation: what `alloc_region` maps, and where in it the tables and
the V array are put. -/

namespace SojCivicLight.Yespower.Platform

def hugepageThreshold : UInt64 := 2 * 1024 * 1024

def hugepageSize : UInt64 := 2 * 1024 * 1024

def mapFailed : UInt64 := 0xffffffffffffffff

/-- The branches of the preprocessor on a 64-bit machine, where `HUGEPAGE_SIZE` is defined. -/
inductive PlatformBuild where
  | mapHugetlb
  | mapAnon
  | posixMemalign
  | malloc
  deriving DecidableEq

/-- What the calls for memory return for a length; `mmap` is also told of `MAP_HUGETLB`. -/
structure MemoryCalls where
  mmap : UInt64 → Bool → UInt64
  posixMemalign : UInt64 → UInt64 → Option UInt64
  malloc : UInt64 → UInt64

structure YespowerRegion where
  base : UInt64
  aligned : UInt64
  baseSize : UInt64
  alignedSize : UInt64
  deriving DecidableEq

def initRegion : YespowerRegion := ⟨0, 0, 0, 0⟩

/-- The state of `alloc_region` before its last lines; `length` is what the last call for memory
asked for. -/
structure Mapping where
  base : UInt64
  aligned : UInt64
  baseSize : UInt64
  length : UInt64

/-- The end of the branches with `mmap`: a failure becomes `NULL`, and a large region starts at
a huge page. -/
def mapped (size base baseSize length : UInt64) : Mapping :=
  let base := if base = mapFailed then 0 else base
  let aligned :=
    if base ≠ 0 ∧ hugepageSize ≤ size then (base + hugepageSize - 1) &&& ~~~(hugepageSize - 1)
    else base
  ⟨base, aligned, baseSize, length⟩

variable (calls : MemoryCalls)

def mapHugetlb (size : UInt64) : Mapping :=
  let hugepageMask := hugepageSize - 1
  let huge : Bool := hugepageThreshold ≤ size ∧ size ≤ size + hugepageMask
  let newSize :=
    if huge then (size + hugepageMask) &&& ~~~hugepageMask
    else if hugepageSize ≤ size then size + hugepageSize
    else size
  let base := calls.mmap newSize huge
  if base ≠ mapFailed then mapped size base newSize newSize
  else if huge then
    let newSize := size + hugepageSize
    let base := calls.mmap newSize false
    mapped size base (if base ≠ mapFailed then newSize else size) newSize
  else mapped size base size newSize

def mapAnon (size : UInt64) : Mapping :=
  mapped size (calls.mmap size false) size size

def allocAligned (size : UInt64) : Mapping :=
  match calls.posixMemalign 64 size with
  | some base => ⟨base, base, size, size⟩
  | none => ⟨0, 0, size, size⟩

def allocMalloc (size : UInt64) : Mapping :=
  if size + 63 < size then ⟨0, 0, size, size⟩
  else
    let base := calls.malloc (size + 63)
    if base ≠ 0 then
      let aligned := base + 63
      ⟨base, aligned - (aligned &&& 63), size, size + 63⟩
    else ⟨0, 0, size, size + 63⟩

def PlatformBuild.map (build : PlatformBuild) (size : UInt64) : Mapping :=
  match build with
  | .mapHugetlb => Platform.mapHugetlb calls size
  | .mapAnon => Platform.mapAnon calls size
  | .posixMemalign => allocAligned calls size
  | .malloc => allocMalloc calls size

def Mapping.region (m : Mapping) (size : UInt64) : YespowerRegion where
  base := m.base
  aligned := m.aligned
  baseSize := if m.base ≠ 0 then m.baseSize else 0
  alignedSize := if m.base ≠ 0 then size else 0

/-- `alloc_region`; it returns the `aligned` of the region it fills in. -/
def allocRegion (build : PlatformBuild) (size : UInt64) : YespowerRegion :=
  (build.map calls size).region size

/-- `free_region`; `munmap` says whether a mapping could be given back. -/
def freeRegion (build : PlatformBuild) (munmap : UInt64 → UInt64 → Bool)
    (region : YespowerRegion) : Option YespowerRegion :=
  if region.base ≠ 0 ∧ (build = .mapHugetlb ∨ build = .mapAnon) ∧
      munmap region.base region.baseSize = false then none
  else some initRegion

/-- The start of `civic_yespower`: a region that is large enough is kept from call to call. -/
def reserveRegion (build : PlatformBuild) (munmap : UInt64 → UInt64 → Bool)
    (region : YespowerRegion) (need : UInt64) : Bool × YespowerRegion :=
  if region.alignedSize < need then
    match freeRegion build munmap region with
    | none => (false, region)
    | some _ =>
        let region := allocRegion calls build need
        (region.aligned ≠ 0, region)
  else (true, region)

/-! What the calls promise, and what a region is for. -/

/-- Memory of `length` bytes that starts at a multiple of `unit`. -/
structure Placed (unit : Nat) (base length : UInt64) : Prop where
  aligned : base.toNat % unit = 0
  inside : base.toNat + length.toNat ≤ 2 ^ 64

/-- Each call fails or returns memory of the length it was asked for, and a mapping starts at a
page of the kind it was asked for. -/
structure MemoryCalls.Sound : Prop where
  mmap : ∀ length huge, calls.mmap length huge = mapFailed ∨
    Placed (if huge then 2097152 else 4096) (calls.mmap length huge) length
  posixMemalign : ∀ length base, calls.posixMemalign 64 length = some base →
    Placed 64 base length
  malloc : ∀ length, calls.malloc length = 0 ∨ Placed 16 (calls.malloc length) length

/-- What the caller relies on: the aligned part lies inside what is recorded, the record is what
was asked for, and without memory nothing counts as held. -/
structure RegionOk (size length : UInt64) (region : YespowerRegion) : Prop where
  base_le : region.aligned ≠ 0 → region.base ≤ region.aligned
  inside : region.aligned ≠ 0 → region.aligned.toNat + region.alignedSize.toNat ≤
    region.base.toNat + region.baseSize.toNat
  enough : region.aligned ≠ 0 → size ≤ region.alignedSize
  length : region.aligned ≠ 0 → region.baseSize = length
  null : region.aligned = 0 → region.alignedSize = 0

abbrev Mapping.Ok (size : UInt64) (m : Mapping) : Prop :=
  RegionOk size m.length (m.region size)

variable {calls}

theorem and_not_hugepageMask (x : UInt64) :
    (x &&& ~~~(hugepageSize - 1)).toNat = x.toNat / 2 ^ 21 * 2 ^ 21 := by
  have hshift : (x &&& ~~~(hugepageSize - 1)).toBitVec = x.toBitVec >>> 21 <<< 21 := by
    rw [BitVec.shiftLeft_ushiftRight]
    rfl
  have hlt := x.toNat_lt
  rw [← UInt64.toNat_toBitVec, hshift, BitVec.toNat_shiftLeft, BitVec.toNat_ushiftRight,
    UInt64.toNat_toBitVec, Nat.shiftRight_eq_div_pow, Nat.shiftLeft_eq]
  omega

/-- The start of the first huge page at or behind a base. -/
def nextHugepage (base : UInt64) : Nat := (base.toNat + 2097151) / 2097152 * 2097152

theorem nextHugepage_eq {base : UInt64} (h : base.toNat + 2097152 ≤ 2 ^ 64) :
    ((base + hugepageSize - 1) &&& ~~~(hugepageSize - 1)).toNat = nextHugepage base := by
  have hsum : (base + hugepageSize - 1).toNat = base.toNat + 2097151 := by
    rw [UInt64.toNat_sub, UInt64.toNat_add, show hugepageSize.toNat = 2097152 from rfl,
      show (1 : UInt64).toNat = 1 from rfl]
    omega
  rw [and_not_hugepageMask, hsum]
  rfl

theorem base_le_nextHugepage (base : UInt64) : base.toNat ≤ nextHugepage base := by
  unfold nextHugepage
  omega

theorem nextHugepage_lt (base : UInt64) : nextHugepage base < base.toNat + 2097152 := by
  unfold nextHugepage
  omega

theorem nextHugepage_of_aligned {base : UInt64} (h : base.toNat % 2097152 = 0) :
    nextHugepage base = base.toNat := by
  unfold nextHugepage
  omega

theorem Mapping.ok_null {size : UInt64} {m : Mapping} (hbase : m.base = 0)
    (haligned : m.aligned = 0) : m.Ok size := by
  have hnull : (m.region size).aligned = 0 := haligned
  refine ⟨fun h => absurd hnull h, fun h => absurd hnull h, fun h => absurd hnull h,
    fun h => absurd hnull h, fun _ => ?_⟩
  exact if_neg (not_not_intro hbase)

theorem Mapping.region_of_base {base : UInt64} (hbase : base ≠ 0)
    (aligned baseSize length size : UInt64) :
    Mapping.region ⟨base, aligned, baseSize, length⟩ size = ⟨base, aligned, baseSize, size⟩ := by
  rw [Mapping.region, if_pos hbase, if_pos hbase]

theorem ne_zero_of_le {base aligned : UInt64} (hbase : base ≠ 0)
    (hle : base.toNat ≤ aligned.toNat) : aligned ≠ 0 := by
  rintro rfl
  exact hbase (UInt64.toNat_inj.mp (Nat.le_zero.mp hle))

theorem Mapping.ok_iff {size length base aligned : UInt64} (hbase : base ≠ 0)
    (hle : base.toNat ≤ aligned.toNat) :
    (Mapping.mk base aligned length length).Ok size ↔
      aligned.toNat + size.toNat ≤ base.toNat + length.toNat := by
  have haligned := ne_zero_of_le hbase hle
  rw [Mapping.Ok, Mapping.region_of_base hbase]
  constructor
  · intro h
    exact h.inside haligned
  · intro h
    exact ⟨fun _ => hle, fun _ => h, fun _ => UInt64.le_refl size, fun _ => rfl,
      fun h => absurd h haligned⟩

theorem mapped_failed (size baseSize length : UInt64) :
    (mapped size mapFailed baseSize length).Ok size :=
  Mapping.ok_null rfl rfl

/-- The end of the branches with `mmap` needs room up to the next huge page. -/
theorem mapped_ok_iff {size base length : UInt64}
    (inside : base = mapFailed ∨ base.toNat + length.toNat ≤ 2 ^ 64)
    (enough : size.toNat ≤ length.toNat) :
    (mapped size base length length).Ok size ↔
      base = mapFailed ∨ base = 0 ∨ size < hugepageSize ∨
        nextHugepage base + size.toNat ≤ base.toNat + length.toNat := by
  by_cases hfailed : base = mapFailed
  · refine iff_of_true ?_ (Or.inl hfailed)
    rw [hfailed]
    exact mapped_failed size length length
  have hinside := inside.resolve_left hfailed
  by_cases hzero : base = 0
  · refine iff_of_true ?_ (Or.inr (Or.inl hzero))
    have hmapped : mapped size 0 length length = ⟨0, 0, length, length⟩ := by
      simp [mapped, show (0 : UInt64) ≠ mapFailed by decide]
    rw [hzero, hmapped]
    exact Mapping.ok_null rfl rfl
  have hsmall : size < hugepageSize ↔ ¬hugepageSize ≤ size := UInt64.not_le.symm
  simp only [hfailed, hzero, false_or]
  by_cases hsize : hugepageSize ≤ size
  · have hbig : 2097152 ≤ size.toNat := hsize
    have hnext := nextHugepage_eq (show base.toNat + 2097152 ≤ 2 ^ 64 by omega)
    have hmapped : mapped size base length length =
        ⟨base, (base + hugepageSize - 1) &&& ~~~(hugepageSize - 1), length, length⟩ := by
      simp only [mapped, if_neg hfailed, if_pos (And.intro hzero hsize)]
    rw [hmapped, or_iff_right (fun h => hsmall.mp h hsize), ← hnext]
    apply Mapping.ok_iff hzero
    exact Nat.le_trans (base_le_nextHugepage base) (Nat.le_of_eq hnext.symm)
  · have hmapped : mapped size base length length = ⟨base, base, length, length⟩ := by
      simp only [mapped, if_neg hfailed, if_neg fun h : base ≠ 0 ∧ hugepageSize ≤ size =>
        hsize h.2]
    rw [hmapped]
    refine iff_of_true ((Mapping.ok_iff hzero (Nat.le_refl _)).mpr ?_) (Or.inl (hsmall.mpr hsize))
    exact Nat.add_le_add_left enough _

theorem MemoryCalls.Sound.mmap_inside (sound : calls.Sound) (length : UInt64) (huge : Bool) :
    calls.mmap length huge = mapFailed ∨
      (calls.mmap length huge).toNat + length.toNat ≤ 2 ^ 64 :=
  (sound.mmap length huge).imp_right Placed.inside

theorem toNat_add_of_fits {size : UInt64} (fits : size.toNat + 2097152 < 2 ^ 64) {k : UInt64}
    (hk : k.toNat ≤ 2097152) : (size + k).toNat = size.toNat + k.toNat := by
  rw [UInt64.toNat_add]
  exact Nat.mod_eq_of_lt (by omega)

/-- With huge pages there is room on each path: a huge mapping starts at a huge page, and the
others are longer by one where the region has to be moved up. -/
theorem mapHugetlb_ok (sound : calls.Sound) {size : UInt64}
    (fits : size.toNat + 2097152 < 2 ^ 64) : (mapHugetlb calls size).Ok size := by
  have hmask : (size + (hugepageSize - 1)).toNat = size.toNat + 2097151 :=
    toNat_add_of_fits fits (by decide)
  have hslack : (size + hugepageSize).toNat = size.toNat + 2097152 :=
    toNat_add_of_fits fits (by decide)
  have hrounded := and_not_hugepageMask (size + (hugepageSize - 1))
  rw [hmask] at hrounded
  have hnowrap : size ≤ size + (hugepageSize - 1) := by
    rw [UInt64.le_iff_toNat_le, hmask]
    omega
  by_cases hsize : hugepageThreshold ≤ size
  · have hhuge : decide (hugepageThreshold ≤ size ∧ size ≤ size + (hugepageSize - 1)) = true :=
      decide_eq_true ⟨hsize, hnowrap⟩
    simp only [mapHugetlb, hhuge, if_true]
    split
    next hbase =>
      refine (mapped_ok_iff (sound.mmap_inside _ true) (by omega)).mpr ?_
      have placed := ((sound.mmap _ true).resolve_left hbase).aligned
      rw [nextHugepage_of_aligned placed, hrounded]
      omega
    next =>
      by_cases hbase : calls.mmap (size + hugepageSize) false = mapFailed
      · rw [hbase]
        exact mapped_failed size _ _
      · rw [if_pos hbase]
        refine (mapped_ok_iff (sound.mmap_inside _ false) (by omega)).mpr ?_
        have := nextHugepage_lt (calls.mmap (size + hugepageSize) false)
        omega
  · have hhuge : decide (hugepageThreshold ≤ size ∧ size ≤ size + (hugepageSize - 1)) = false :=
      decide_eq_false fun h => hsize h.1
    have hsmall : ¬hugepageSize ≤ size := hsize
    simp only [mapHugetlb, hhuge, if_neg hsmall, Bool.false_eq_true, if_false, ite_self]
    refine (mapped_ok_iff (sound.mmap_inside _ false) (Nat.le_refl _)).mpr ?_
    exact Or.inr (Or.inr (Or.inl (UInt64.not_le.mp hsmall)))

/-- Without huge pages nothing is mapped beyond the size, so a large region must not be moved. -/
theorem mapAnon_ok_iff (sound : calls.Sound) (size : UInt64) :
    (mapAnon calls size).Ok size ↔ calls.mmap size false = mapFailed ∨ size < hugepageSize ∨
      (calls.mmap size false).toNat % 2097152 = 0 := by
  rw [mapAnon, mapped_ok_iff (sound.mmap_inside size false) (Nat.le_refl _)]
  have hle := base_le_nextHugepage (calls.mmap size false)
  have hmoved : nextHugepage (calls.mmap size false) + size.toNat ≤
      (calls.mmap size false).toNat + size.toNat ↔
        (calls.mmap size false).toNat % 2097152 = 0 := by
    constructor
    · intro h
      have heq : nextHugepage (calls.mmap size false) = (calls.mmap size false).toNat := by omega
      rw [← heq, nextHugepage, Nat.mul_mod_left]
    · intro h
      rw [nextHugepage_of_aligned h]
  rw [hmoved]
  refine or_congr_right ⟨fun h => ?_, Or.inr⟩
  rcases h with h | h
  · rw [h]
    exact Or.inr rfl
  · exact h

theorem allocAligned_ok (size : UInt64) : (allocAligned calls size).Ok size := by
  unfold allocAligned
  split
  next base hbase =>
    by_cases hzero : base = 0
    · exact Mapping.ok_null hzero hzero
    · exact (Mapping.ok_iff hzero (Nat.le_refl _)).mpr (Nat.le_refl _)
  next => exact Mapping.ok_null rfl rfl

/-- The base moved up to a multiple of 64 within what `malloc` gave. -/
theorem le_alignedMalloc {base size : UInt64} (placed : Placed 16 base (size + 63))
    (hsum : (size + 63).toNat = size.toNat + 63) :
    base.toNat ≤ (base + 63 - ((base + 63) &&& 63)).toNat := by
  have haligned := placed.aligned
  have hinside := placed.inside
  have hend : (base + 63).toNat = base.toNat + 63 := by
    rw [UInt64.toNat_add, show (63 : UInt64).toNat = 63 from rfl]
    omega
  have hoff : ((base + 63) &&& 63).toNat = (base.toNat + 63) % 64 := by
    rw [UInt64.toNat_and, hend]
    exact Nat.and_two_pow_sub_one_eq_mod _ 6
  rw [UInt64.toNat_sub, hend, hoff]
  omega

/-- The branch with `malloc` records the size instead of what it asks for. -/
theorem allocMalloc_ok_iff (sound : calls.Sound) {size : UInt64}
    (fits : size.toNat + 2097152 < 2 ^ 64) :
    (allocMalloc calls size).Ok size ↔ calls.malloc (size + 63) = 0 := by
  have hsum : (size + 63).toNat = size.toNat + 63 := toNat_add_of_fits fits (by decide)
  have hfits : ¬size + 63 < size := by
    rw [UInt64.lt_iff_toNat_lt, hsum]
    omega
  rw [allocMalloc, if_neg hfits]
  by_cases hbase : calls.malloc (size + 63) = 0
  · refine iff_of_true ?_ hbase
    rw [if_neg (not_not_intro hbase)]
    exact Mapping.ok_null rfl rfl
  · refine iff_of_false ?_ hbase
    have hle := le_alignedMalloc ((sound.malloc (size + 63)).resolve_left hbase) hsum
    rw [if_pos hbase]
    generalize calls.malloc (size + 63) = base at *
    intro h
    have hlength : size = size + 63 := by
      have := h.length (ne_zero_of_le hbase hle)
      rwa [Mapping.region_of_base hbase] at this
    have := congrArg UInt64.toNat hlength
    omega

/-- The memory a hash is computed in lies inside the memory that was obtained, and the record
of it is true, in each build exactly under these outcomes of the calls. -/
theorem allocRegion_ok_iff (calls : MemoryCalls) (sound : calls.Sound) (build : PlatformBuild)
    (size : UInt64) (fits : size.toNat + 2097152 < 2 ^ 64) :
    RegionOk size (build.map calls size).length (allocRegion calls build size) ↔
      match build with
      | .mapHugetlb => True
      | .mapAnon => calls.mmap size false = mapFailed ∨ size < hugepageSize ∨
          (calls.mmap size false).toNat % 2097152 = 0
      | .posixMemalign => True
      | .malloc => calls.malloc (size + 63) = 0 := by
  cases build with
  | mapHugetlb => exact iff_of_true (mapHugetlb_ok sound fits) trivial
  | mapAnon => exact mapAnon_ok_iff sound size
  | posixMemalign => exact iff_of_true (allocAligned_ok size) trivial
  | malloc => exact allocMalloc_ok_iff sound fits

/-- Calls that find memory for lengths up to 4 GiB, not always at a huge page. -/
def smallMemory : MemoryCalls where
  mmap length huge :=
    if length.toNat ≤ 2 ^ 32 then (if huge then 0x7f0000200000 else 0x7f0000201000) else mapFailed
  posixMemalign _ length := if length.toNat ≤ 2 ^ 32 then some 0x7f0000201040 else none
  malloc length := if length.toNat ≤ 2 ^ 32 then 0x7f0000201010 else 0

theorem smallMemory_sound : smallMemory.Sound where
  mmap length huge := by
    cases huge <;> by_cases h : length.toNat ≤ 2 ^ 32 <;> simp only [smallMemory, h, if_true,
      if_false, true_or, Bool.false_eq_true]
    all_goals exact Or.inr ⟨by decide, Nat.le_trans (Nat.add_le_add_left h _) (by decide)⟩
  posixMemalign length base h := by
    by_cases hlength : length.toNat ≤ 2 ^ 32
    · simp only [smallMemory, if_pos hlength] at h
      cases h
      exact ⟨by decide, Nat.le_trans (Nat.add_le_add_left hlength _) (by decide)⟩
    · simp only [smallMemory, if_neg hlength] at h
      cases h
  malloc length := by
    by_cases h : length.toNat ≤ 2 ^ 32 <;> simp only [smallMemory, h, if_true, if_false, true_or]
    exact Or.inr ⟨by decide, Nat.le_trans (Nat.add_le_add_left h _) (by decide)⟩

theorem allocRegion_ok_hugetlb :
    RegionOk 0x300000 (PlatformBuild.mapHugetlb.map smallMemory 0x300000).length
      (allocRegion smallMemory .mapHugetlb 0x300000) :=
  (allocRegion_ok_iff smallMemory smallMemory_sound .mapHugetlb 0x300000 (by decide)).mpr trivial

/-- Without huge pages, two megabytes that start at an ordinary page are used past their end. -/
theorem mapAnon_overruns :
    smallMemory.Sound ∧
    (allocRegion smallMemory .mapAnon 0x200000).aligned ≠ 0 ∧
    ¬ (allocRegion smallMemory .mapAnon 0x200000).aligned.toNat +
        (allocRegion smallMemory .mapAnon 0x200000).alignedSize.toNat ≤
      (allocRegion smallMemory .mapAnon 0x200000).base.toNat +
        (allocRegion smallMemory .mapAnon 0x200000).baseSize.toNat :=
  ⟨smallMemory_sound, by decide, by decide⟩

/-! What is mapped has an aligned part, in every build. -/

theorem mapped_held {size base length : UInt64} (baseSize : UInt64)
    (inside : base = mapFailed ∨ base.toNat + length.toNat ≤ 2 ^ 64)
    (enough : size.toNat ≤ length.toNat) :
    (mapped size base baseSize length).base = 0 ↔
      (mapped size base baseSize length).aligned = 0 := by
  by_cases hfailed : base = mapFailed
  · rw [hfailed]
    exact Iff.rfl
  have hinside := inside.resolve_left hfailed
  simp only [mapped, if_neg hfailed]
  split
  · rename_i hmoved
    obtain ⟨hbase, hsize⟩ := hmoved
    have hbig : 2097152 ≤ size.toNat := hsize
    have hnext := nextHugepage_eq (show base.toNat + 2097152 ≤ 2 ^ 64 by omega)
    refine iff_of_false hbase (ne_zero_of_le hbase ?_)
    exact Nat.le_trans (base_le_nextHugepage base) (Nat.le_of_eq hnext.symm)
  · exact Iff.rfl

theorem mapHugetlb_eq_mapped (calls : MemoryCalls) {size : UInt64}
    (fits : size.toNat + 2097152 < 2 ^ 64) :
    ∃ length huge baseSize, size.toNat ≤ UInt64.toNat length ∧
      mapHugetlb calls size = mapped size (calls.mmap length huge) baseSize length := by
  have hmask : (size + (hugepageSize - 1)).toNat = size.toNat + 2097151 :=
    toNat_add_of_fits fits (by decide)
  have hslack : (size + hugepageSize).toNat = size.toNat + 2097152 :=
    toNat_add_of_fits fits (by decide)
  have hrounded := and_not_hugepageMask (size + (hugepageSize - 1))
  rw [hmask] at hrounded
  cases hhuge : decide (hugepageThreshold ≤ size ∧ size ≤ size + (hugepageSize - 1)) with
  | true =>
      simp only [mapHugetlb, hhuge, if_true]
      split
      · exact ⟨_, true, _, by omega, rfl⟩
      · exact ⟨_, false, _, by omega, rfl⟩
  | false =>
      simp only [mapHugetlb, hhuge, Bool.false_eq_true, if_false]
      split
      · split
        · exact ⟨_, false, _, by omega, rfl⟩
        · exact ⟨_, false, _, by omega, rfl⟩
      · split
        · exact ⟨_, false, _, Nat.le_refl _, rfl⟩
        · exact ⟨_, false, _, Nat.le_refl _, rfl⟩

theorem allocMalloc_held (sound : calls.Sound) {size : UInt64}
    (fits : size.toNat + 2097152 < 2 ^ 64) :
    (allocMalloc calls size).base = 0 ↔ (allocMalloc calls size).aligned = 0 := by
  have hsum : (size + 63).toNat = size.toNat + 63 := toNat_add_of_fits fits (by decide)
  rw [allocMalloc]
  split
  · exact Iff.rfl
  · dsimp only
    split
    · rename_i hbase
      have hle := le_alignedMalloc ((sound.malloc (size + 63)).resolve_left hbase) hsum
      exact iff_of_false hbase (ne_zero_of_le hbase hle)
    · exact Iff.rfl

/-- A region with a base has an aligned part, so that a failure leaves no size behind. -/
theorem allocRegion_held (sound : calls.Sound) (build : PlatformBuild) {size : UInt64}
    (fits : size.toNat + 2097152 < 2 ^ 64) :
    (allocRegion calls build size).base = 0 ↔ (allocRegion calls build size).aligned = 0 := by
  cases build with
  | mapHugetlb =>
      obtain ⟨length, huge, baseSize, henough, heq⟩ := mapHugetlb_eq_mapped calls fits
      show (mapHugetlb calls size).base = 0 ↔ (mapHugetlb calls size).aligned = 0
      rw [heq]
      exact mapped_held baseSize (sound.mmap_inside length huge) henough
  | mapAnon => exact mapped_held size (sound.mmap_inside size false) (Nat.le_refl _)
  | posixMemalign =>
      show (allocAligned calls size).base = 0 ↔ (allocAligned calls size).aligned = 0
      unfold allocAligned
      split <;> exact Iff.rfl
  | malloc => exact allocMalloc_held sound fits

/-- What is recorded of a region: a size where there is a base, and only there. -/
structure YespowerRegion.Recorded (region : YespowerRegion) : Prop where
  held : region.base ≠ 0 ↔ region.alignedSize ≠ 0
  aligned : region.aligned = 0 ↔ region.alignedSize = 0

theorem allocRegion_recorded (sound : calls.Sound) (build : PlatformBuild) {size : UInt64}
    (fits : size.toNat + 2097152 < 2 ^ 64) (hsize : size ≠ 0) :
    (allocRegion calls build size).Recorded ∧
      ((allocRegion calls build size).aligned ≠ 0 →
        (allocRegion calls build size).alignedSize = size) := by
  have held : (build.map calls size).base = 0 ↔ (build.map calls size).aligned = 0 :=
    allocRegion_held sound build fits
  have hrecorded : (allocRegion calls build size).alignedSize =
      if (build.map calls size).base ≠ 0 then size else 0 := rfl
  by_cases hbase : (build.map calls size).base = 0
  · rw [if_neg (not_not_intro hbase)] at hrecorded
    refine ⟨⟨iff_of_false (not_not_intro hbase) (not_not_intro hrecorded), ?_⟩, ?_⟩
    · exact iff_of_true (held.mp hbase) hrecorded
    · exact fun haligned => absurd (held.mp hbase) haligned
  · rw [if_pos hbase] at hrecorded
    have hsome : (allocRegion calls build size).alignedSize ≠ 0 := hrecorded.trans_ne hsize
    exact ⟨⟨iff_of_true hbase hsome, iff_of_false (mt held.mpr hbase) hsome⟩, fun _ => hrecorded⟩

/-- Where nothing is held the call asks for memory, and has what it is given. -/
theorem reserveRegion_retries (calls : MemoryCalls) (build : PlatformBuild)
    (munmap : UInt64 → UInt64 → Bool) {region : YespowerRegion} {need : UInt64}
    (recorded : region.Recorded) (hfailed : region.aligned = 0) (hneed : need ≠ 0) :
    reserveRegion calls build munmap region need =
      (decide ((allocRegion calls build need).aligned ≠ 0), allocRegion calls build need) := by
  have hnone := recorded.aligned.mp hfailed
  have hbase : region.base = 0 := not_not.mp fun h => recorded.held.mp h hnone
  have hless : region.alignedSize < need := by
    rw [hnone]
    exact UInt64.pos_iff_ne_zero.mpr hneed
  have hfree : freeRegion build munmap region = some initRegion :=
    if_neg fun h => h.1 hbase
  rw [reserveRegion, if_pos hless, hfree]

end SojCivicLight.Yespower.Platform
