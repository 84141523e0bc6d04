import SojCivicLight.CivicLight.Streaming
import SojCivicLight.Library.Sha2
import SojCivicLight.Util.Endian

/-! The block transform of FIPS 180-4 that the transforms of every build compute. -/

namespace SojCivicLight.CivicLight

open SojCivicLight.Library
open SojCivicLight.Util

/-- The words of a block, the first byte of each high. -/
def blockWords (block : ShaBlock) : Nat → UInt32 := wordAt be32dec (List.ofFn block)

/-- A transform of words as `sha256_transform_le` takes them. -/
abbrev WordTransform := ShaState → (Nat → UInt32) → ShaState

def fipsWordTransform : WordTransform :=
  fun state m => (sha256.compress m (Work.ofFn state)).toFn

def fipsTransform : Transform := fun state block => fipsWordTransform state (blockWords block)

theorem fipsWordTransform_apply (state : ShaState) (m : Nat → UInt32) (i : Fin 8) :
    fipsWordTransform state m i =
      (sha256.run (sha256.schedule m) (Work.ofFn state) 64).toFn i + state i := by
  rw [fipsWordTransform, Sha2.compress, Work.toFn_add, Work.toFn_ofFn]
  rfl

end SojCivicLight.CivicLight
