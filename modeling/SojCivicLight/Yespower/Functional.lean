import SojCivicLight.Library.RoMix
import SojCivicLight.Yespower.Hash
import SojCivicLight.Yespower.Portable

/-! yespower 1.0 as a function: its blocks, its tables and the array it fills are values, and no
part of it has an address. -/

namespace SojCivicLight.Yespower

open SojCivicLight.Library

/-- The tables of pwxform, 2048 registers each, and the place the next registers go. -/
structure Tables where
  S0 : Nat → M128
  S1 : Nat → M128
  S2 : Nat → M128
  w : Nat

/-- What becomes of a register: the words of each of its quads are multiplied, a register of the
first table is added and one of the second xored. -/
def Tables.look (t : Tables) (X : M128) : M128 :=
  let p0 := t.S0 (X.w0.toNat / 16 % 2048)
  let p1 := t.S1 (X.w1.toNat / 16 % 2048)
  .ofQuads (((X.d0 >>> 32) * X.d0.toUInt32.toUInt64 + p0.d0) ^^^ p1.d0)
    (((X.d1 >>> 32) * X.d1.toUInt32.toUInt64 + p0.d1) ^^^ p1.d1)

/-- A block under way, with the tables. -/
abbrev Mixed := Blk × Tables

def mixColumn (k : Fin 4) (s : Mixed) : Mixed :=
  (Function.update s.1 k (s.2.look (s.1 k)), s.2)

def keep0 (k : Fin 4) (s : Mixed) : Mixed :=
  (s.1, { s.2 with S0 := Function.update s.2.S0 s.2.w (s.1 k) })

def keep1 (k : Fin 4) (s : Mixed) : Mixed :=
  (s.1, { s.2 with S1 := Function.update s.2.S1 s.2.w (s.1 k) })

def keepNext (s : Mixed) : Mixed := (s.1, { s.2 with w := s.2.w + 1 })

/-- Two registers, both put into the tables. -/
def mixPairKeep (k k' : Fin 4) (s : Mixed) : Mixed :=
  keepNext (keep1 k' (mixColumn k' (keep0 k (mixColumn k s))))

def mixPair (k k' : Fin 4) (s : Mixed) : Mixed := mixColumn k' (mixColumn k s)

/-- The tables take turns. -/
def turnTables (s : Mixed) : Mixed :=
  (s.1, { S0 := s.2.S2, S1 := s.2.S0, S2 := s.2.S1, w := s.2.w % 2048 })

/-- Three rounds, the first of which puts all of its registers into the tables. -/
def mixOne (s : Mixed) : Mixed :=
  let s := mixPairKeep 2 3 (mixPairKeep 0 1 s)
  let s := mixPair 2 3 (mixPairKeep 0 1 s)
  let s := mixPair 2 3 (mixPairKeep 0 1 s)
  turnTables s

/-! Block mixes. -/

def Blk.zero : Blk := fun _ => ⟨0, 0, 0, 0⟩

def lastBlk (bs : List Blk) : Blk := bs.getD (bs.length - 1) Blk.zero

def mixRound (s : Mixed) (b : Blk) : Mixed := mixOne (xorBlk s.1 b, s.2)

/-- The block under way after the first `i` blocks. -/
def mixedAfter (bs : List Blk) (t : Tables) (i : Nat) : Mixed :=
  (bs.take i).foldl mixRound (lastBlk bs, t)

/-- BlockMix with pwxform, and Salsa20 for the last block. -/
def mixBlocks (bs : List Blk) (t : Tables) : List Blk × Tables :=
  ((List.range bs.length).map fun i =>
      let X := (mixedAfter bs t (i + 1)).1
      if i + 1 = bs.length then salsa20 X 1 else X,
    (mixedAfter bs t bs.length).2)

/-- BlockMix of two blocks with Salsa20. -/
def mixSalsa (bs : List Blk) : List Blk :=
  let Y0 := salsa20 (xorBlk (bs.getD 1 Blk.zero) (bs.getD 0 Blk.zero)) 1
  let Y1 := salsa20 (xorBlk Y0 (bs.getD 1 Blk.zero)) 1
  [Y0, Y1]

def blkIndex (bs : List Blk) : Nat := (lastBlk bs 0).w0.toNat

def xorBlks (bs bs' : List Blk) : List Blk := List.zipWith xorBlk bs bs'

def salsaMix : RoMix (List Blk) Unit where
  mix := fun bs _ => (mixSalsa bs, ())
  xor := xorBlks
  index := blkIndex

def pwxMix : RoMix (List Blk) Tables where
  mix := mixBlocks
  xor := xorBlks
  index := blkIndex

/-! SMix. -/

section Expand

variable {σ : Type} (M : RoMix (List Blk) σ)

/-- A pair of blocks behind the ones there are, mixed from the last pair. -/
def expandStep (s : List Blk × σ) : List Blk × σ :=
  let t := M.mix (s.1.drop (s.1.length - 2)) s.2
  (s.1 ++ t.1, t.2)

def expand : Nat → List Blk × σ → List Blk × σ
  | 0, s => s
  | n + 1, s => expandStep M (expand n s)

end Expand

def registerAt (bs : List Blk) (k : Nat) : M128 := bs.getD (k / 4) Blk.zero (Fin.ofNat 4 k)

/-- The tables that 1536 blocks are. -/
def Tables.ofBlks (bs : List Blk) : Tables where
  S0 := registerAt bs
  S1 := fun k => registerAt bs (2048 + k)
  S2 := fun k => registerAt bs (4096 + k)
  w := 0

/-- From a pair of blocks: the tables, `r` pairs, and the two passes over `N` of these. -/
def smixBlks (r N : Nat) (B : List Blk) : List Blk :=
  let s := salsaMix.fill 768 { table := [], block := B, rest := () }
  let t := expand pwxMix (r - 1) (s.block, Tables.ofBlks s.table.flatten)
  (pwxMix.run N (nloopRw N) t.1 t.2).block

def Blk.ofBytes (b : List UInt8) : Blk := fun k => M128.ofBytes (b.drop (16 * k.val))

def Blk.bytes (b : Blk) : List UInt8 := (b 0).bytes ++ (b 1).bytes ++ (b 2).bytes ++ (b 3).bytes

/-- yespower 1.0, over its three primitives. -/
def yespower (prim : Primitives) (N r : Nat) (pers src : List UInt8) : List UInt8 :=
  let sha256 := prim.sha256Buf src
  let B := prim.pbkdf2Sha256 sha256 pers 128
  let blks := smixBlks r N
    [salsa20SimdShuffle (Blk.ofBytes B), salsa20SimdShuffle (Blk.ofBytes (B.drop 64))]
  prim.hmacSha256Buf (salsa20SimdUnshuffle (lastBlk blks)).bytes (B.take 32)

end SojCivicLight.Yespower
