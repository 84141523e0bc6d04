import Mathlib.Data.List.Basic

/-! 32-bit words in memory, in both byte orders. -/

namespace SojCivicLight.Util

def le32dec (p : List UInt8) : UInt32 :=
  (p.getD 0 0).toUInt32 + ((p.getD 1 0).toUInt32 <<< (8 : UInt32)) +
    ((p.getD 2 0).toUInt32 <<< (16 : UInt32)) + ((p.getD 3 0).toUInt32 <<< (24 : UInt32))

def be32dec (p : List UInt8) : UInt32 :=
  (p.getD 3 0).toUInt32 + ((p.getD 2 0).toUInt32 <<< (8 : UInt32)) +
    ((p.getD 1 0).toUInt32 <<< (16 : UInt32)) + ((p.getD 0 0).toUInt32 <<< (24 : UInt32))

def le32enc (x : UInt32) : List UInt8 :=
  [x.toUInt8, (x >>> (8 : UInt32)).toUInt8, (x >>> (16 : UInt32)).toUInt8,
    (x >>> (24 : UInt32)).toUInt8]

def be32enc (x : UInt32) : List UInt8 :=
  [(x >>> (24 : UInt32)).toUInt8, (x >>> (16 : UInt32)).toUInt8, (x >>> (8 : UInt32)).toUInt8,
    x.toUInt8]

def bswap32 (x : UInt32) : UInt32 := be32dec (le32enc x)

theorem le32dec_toNat (a b c d : UInt8) : (le32dec [a, b, c, d]).toNat =
    a.toNat + 256 * b.toNat + 65536 * c.toNat + 16777216 * d.toNat := by
  have := a.toNat_lt
  have := b.toNat_lt
  have := c.toNat_lt
  have := d.toNat_lt
  simp [le32dec, UInt32.toNat_add, UInt32.toNat_shiftLeft, Nat.shiftLeft_eq]
  omega

theorem be32dec_eq (a b c d : UInt8) : be32dec [a, b, c, d] = le32dec [d, c, b, a] := rfl

theorem length_le32enc (x : UInt32) : (le32enc x).length = 4 := rfl

theorem be32enc_eq_reverse (x : UInt32) : be32enc x = (le32enc x).reverse := rfl

theorem le32enc_le32dec (a b c d : UInt8) : le32enc (le32dec [a, b, c, d]) = [a, b, c, d] := by
  have hnat := le32dec_toNat a b c d
  have := a.toNat_lt
  have := b.toNat_lt
  have := c.toNat_lt
  have := d.toNat_lt
  simp only [le32enc, List.cons.injEq, and_true, ← UInt8.toNat_inj, UInt32.toNat_toUInt8,
    UInt32.toNat_shiftRight, Nat.shiftRight_eq_div_pow, hnat]
  simp
  omega

theorem le32dec_le32enc (x : UInt32) : le32dec (le32enc x) = x := by
  have hlt := x.toNat_lt
  rw [← UInt32.toNat_inj, le32enc, le32dec_toNat]
  simp only [UInt32.toNat_toUInt8, UInt32.toNat_shiftRight, Nat.shiftRight_eq_div_pow]
  simp
  omega

theorem be32enc_be32dec (a b c d : UInt8) : be32enc (be32dec [a, b, c, d]) = [a, b, c, d] := by
  rw [be32dec_eq, be32enc_eq_reverse, le32enc_le32dec]
  rfl

theorem be32enc_le32dec (a b c d : UInt8) : be32enc (le32dec [a, b, c, d]) = [d, c, b, a] := by
  rw [be32enc_eq_reverse, le32enc_le32dec]
  rfl

theorem le32enc_bswap32 (x : UInt32) : le32enc (bswap32 x) = be32enc x :=
  calc le32enc (bswap32 x) = le32enc (le32dec (be32enc x)) := rfl
    _ = be32enc x := le32enc_le32dec _ _ _ _

theorem exists_four {p : List UInt8} (h : p.length = 4) : ∃ a b c d, p = [a, b, c, d] := by
  obtain _ | ⟨a, _ | ⟨b, _ | ⟨c, _ | ⟨d, _ | ⟨e, rest⟩⟩⟩⟩⟩ := p
  case cons.cons.cons.cons.nil => exact ⟨a, b, c, d, rfl⟩
  all_goals simp at h

theorem le32enc_dec {p : List UInt8} (h : p.length = 4) : le32enc (le32dec p) = p := by
  obtain ⟨a, b, c, d, rfl⟩ := exists_four h
  exact le32enc_le32dec a b c d

theorem be32enc_dec {p : List UInt8} (h : p.length = 4) : be32enc (le32dec p) = p.reverse := by
  rw [be32enc_eq_reverse, le32enc_dec h]

/-- The word at `p + i`, `p` a pointer to words. -/
def wordAt (dec : List UInt8 → UInt32) (p : List UInt8) (i : Nat) : UInt32 := dec (p.drop (4 * i))

/-- Every four bytes in the other order. -/
def swapWords : List UInt8 → List UInt8
  | a :: b :: c :: d :: rest => d :: c :: b :: a :: swapWords rest
  | _ => []

theorem flatMap_words {dec : List UInt8 → UInt32} {enc : UInt32 → List UInt8}
    {group : List UInt8 → List UInt8}
    (hgroup : ∀ a b c d rest, group (a :: b :: c :: d :: rest) =
      enc (dec (a :: b :: c :: d :: rest)) ++ group rest) (hnil : group [] = []) {p : List UInt8}
    {n : Nat} (hlen : p.length = 4 * n) :
    ((List.range n).map (wordAt dec p)).flatMap enc = group p := by
  induction n generalizing p with
  | zero =>
      obtain rfl := List.eq_nil_of_length_eq_zero hlen
      exact hnil.symm
  | succ n ih =>
      obtain _ | ⟨a, _ | ⟨b, _ | ⟨c, _ | ⟨d, rest⟩⟩⟩⟩ := p
      case cons.cons.cons.cons =>
        have hrest := ih (p := rest) (by simp at hlen; omega)
        have hshift : (List.range n).map (wordAt dec (a :: b :: c :: d :: rest) ∘ (· + 1)) =
            (List.range n).map (wordAt dec rest) := by
          apply List.map_congr_left
          intro i _
          rw [Function.comp, wordAt, wordAt, Nat.mul_add]
          rfl
        rw [List.range_succ_eq_map, List.map_cons, List.map_map, List.flatMap_cons, hgroup]
        rw [show Nat.succ = (· + 1) from rfl, hshift, hrest]
        rfl
      all_goals
        simp only [List.length_cons, List.length_nil] at hlen
        omega

theorem flatMap_le32dec {p : List UInt8} {n : Nat} (hlen : p.length = 4 * n) :
    ((List.range n).map (wordAt le32dec p)).flatMap be32enc = swapWords p :=
  flatMap_words (fun a b c d rest => by
    rw [show le32dec (a :: b :: c :: d :: rest) = le32dec [a, b, c, d] from rfl,
      be32enc_le32dec]
    rfl) rfl hlen

theorem flatMap_be32dec {p : List UInt8} {n : Nat} (hlen : p.length = 4 * n) :
    ((List.range n).map (wordAt be32dec p)).flatMap be32enc = p :=
  @flatMap_words be32dec be32enc id (fun a b c d rest => by
    rw [show be32dec (a :: b :: c :: d :: rest) = be32dec [a, b, c, d] from rfl,
      be32enc_be32dec]
    rfl) rfl p n hlen

end SojCivicLight.Util
