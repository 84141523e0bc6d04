import Mathlib.Data.List.Basic

/-! C strings inside a buffer, and writes that stay inside it.  An access outside the buffer
is `none`. -/

namespace SojCivicLight.Library

variable {α : Type}

/-! Searching a string. -/

section Search

variable [DecidableEq α]

def strchr (s : List α) (c : α) : Option Nat := s.idxOf? c

def strrchr (s : List α) (c : α) : Option Nat :=
  (s.reverse.idxOf? c).map fun i => s.length - 1 - i

/-- `strstr` with the needle first. -/
def strstr (needle : List α) : List α → Option Nat
  | [] => if needle = [] then some 0 else none
  | c :: s => if needle <+: c :: s then some 0 else (strstr needle s).map (· + 1)

theorem strchr_append {xs : List α} {c : α} (h : c ∉ xs) (ys : List α) :
    strchr (xs ++ c :: ys) c = some xs.length := by
  induction xs with
  | nil => simp [strchr, List.idxOf?_cons]
  | cons x xs ih =>
      have hne : x ≠ c := fun heq => h (heq ▸ List.mem_cons_self)
      have htail := ih fun hmem => h (List.mem_cons_of_mem x hmem)
      rw [strchr] at htail ⊢
      rw [List.cons_append, List.idxOf?_cons, htail]
      simp [hne]

theorem strchr_none {s : List α} {c : α} (h : c ∉ s) : strchr s c = none :=
  List.idxOf?_eq_none_iff.mpr h

theorem strrchr_append (xs : List α) {c : α} {ys : List α} (h : c ∉ ys) :
    strrchr (xs ++ c :: ys) c = some xs.length := by
  have hmem : c ∉ ys.reverse := by rwa [List.mem_reverse]
  have hfirst := strchr_append hmem xs.reverse
  rw [strchr] at hfirst
  have hrev : (xs ++ c :: ys).reverse = ys.reverse ++ c :: xs.reverse := by simp
  rw [strrchr, hrev, hfirst, Option.map_some, List.length_append, List.length_cons,
    List.length_reverse]
  congr 1
  omega

theorem strrchr_none {s : List α} {c : α} (h : c ∉ s) : strrchr s c = none := by
  have hrev : s.reverse.idxOf? c = none :=
    List.idxOf?_eq_none_iff.mpr (by rwa [List.mem_reverse])
  rw [strrchr, hrev, Option.map_none]

/-- No occurrence begins in a part that lacks the first element of the needle. -/
theorem strstr_skip {xs : List α} {c : α} (h : c ∉ xs) (needle ys : List α) :
    strstr (c :: needle) (xs ++ ys) = (strstr (c :: needle) ys).map (· + xs.length) := by
  induction xs with
  | nil => simp
  | cons x xs ih =>
      have hne : c ≠ x := fun heq => h (heq ▸ List.mem_cons_self)
      have hstart : ¬ c :: needle <+: x :: (xs ++ ys) := fun hstart =>
        hne (List.cons_prefix_cons.mp hstart).1
      rw [List.cons_append, strstr, if_neg hstart, ih fun hmem => h (List.mem_cons_of_mem x hmem),
        Option.map_map]
      rfl

theorem strstr_append {xs : List α} {c : α} (h : c ∉ xs) (needle ys : List α) :
    strstr (c :: needle) (xs ++ (c :: needle ++ ys)) = some xs.length := by
  have hhead : strstr (c :: needle) (c :: needle ++ ys) = some 0 := by simp [strstr]
  rw [strstr_skip h, hhead, Option.map_some, Nat.zero_add]

theorem strstr_none {needle s : List α} (h : ¬ needle <:+: s) : strstr needle s = none := by
  induction s with
  | nil =>
      rw [strstr, if_neg]
      rintro rfl
      exact h (List.infix_refl [])
  | cons c s ih =>
      rw [strstr, if_neg fun hstart => h hstart.isInfix, ih fun hsub =>
        h (hsub.trans (List.suffix_cons c s).isInfix)]
      rfl

end Search

/-! The buffer. -/

/-- The C string that starts at `i`. -/
def stringAt (b : List UInt8) (i : Nat) : Option (List UInt8) :=
  if 0 ∈ b.drop i then some ((b.drop i).takeWhile (· ≠ 0)) else none

def poke (b : List α) (i : Nat) (v : α) : Option (List α) :=
  if i < b.length then some (b.set i v) else none

/-- `memmove(b + dst, b + src, n)`.  A negative `n` is more than any buffer holds once it is a
`size_t`. -/
def memmove (b : List α) (dst src : Nat) (n : Int) : Option (List α) :=
  if 0 ≤ n ∧ src + n ≤ b.length ∧ dst + n ≤ b.length then
    some (b.take dst ++ (b.drop src).take n.toNat ++ b.drop (dst + n.toNat))
  else
    none

/-- `memset(b + start, v, n)` -/
def memset (b : List α) (start : Int) (v : α) (n : Int) : Option (List α) :=
  if 0 ≤ start ∧ 0 ≤ n ∧ start + n ≤ b.length then
    some (b.take start.toNat ++ List.replicate n.toNat v ++ b.drop (start.toNat + n.toNat))
  else
    none

/-- `strcpy(b + i, s)` -/
def strcpy (b : List UInt8) (i : Nat) (s : List UInt8) : Option (List UInt8) :=
  if i + (s.length + 1) ≤ b.length then
    some (b.take i ++ (s ++ 0 :: b.drop (i + (s.length + 1))))
  else
    none

theorem stringAt_append (pre : List UInt8) {s : List UInt8} (hs : 0 ∉ s) (rest : List UInt8) :
    stringAt (pre ++ (s ++ 0 :: rest)) pre.length = some s := by
  have hall : ∀ c ∈ s, (decide (c ≠ 0)) = true := fun c hc =>
    decide_eq_true fun hzero => hs (hzero ▸ hc)
  rw [stringAt, List.drop_left, if_pos (by simp), List.takeWhile_append_of_pos hall,
    List.takeWhile_cons_of_neg (by simp), List.append_nil]

theorem stringAt_start {s : List UInt8} (hs : 0 ∉ s) (rest : List UInt8) :
    stringAt (s ++ 0 :: rest) 0 = some s :=
  stringAt_append [] hs rest

theorem poke_append (pre : List α) (c v : α) (rest : List α) :
    poke (pre ++ c :: rest) pre.length v = some (pre ++ v :: rest) := by
  rw [poke, if_pos (by simp), List.set_append_right _ _ (Nat.le_refl _), Nat.sub_self,
    List.set_cons_zero]

theorem strcpy_append (pre s rest : List UInt8) (h : s.length + 1 ≤ rest.length) :
    strcpy (pre ++ rest) pre.length s = some (pre ++ (s ++ 0 :: rest.drop (s.length + 1))) := by
  rw [strcpy, if_pos (by rw [List.length_append]; omega), List.take_left,
    List.drop_length_add_append]

theorem memmove_append (pre b : List α) (dst src : Nat) (n : Int) :
    memmove (pre ++ b) (pre.length + dst) (pre.length + src) n =
      (memmove b dst src n).map (pre ++ ·) := by
  have hiff : (0 ≤ n ∧ (pre.length + src : Nat) + n ≤ (pre ++ b).length ∧
      (pre.length + dst : Nat) + n ≤ (pre ++ b).length) ↔
      0 ≤ n ∧ src + n ≤ b.length ∧ dst + n ≤ b.length := by
    rw [List.length_append]
    omega
  rw [memmove, memmove]
  split
  · rename_i h
    rw [if_pos (hiff.mp h), Option.map_some, List.take_length_add_append,
      List.drop_length_add_append, Nat.add_assoc, List.drop_length_add_append]
    simp only [List.append_assoc]
  · rename_i h
    rw [if_neg (hiff.not.mp h), Option.map_none]

theorem memset_append (pre b : List α) (start : Int) (hstart : 0 ≤ start) (v : α) (n : Int) :
    memset (pre ++ b) (pre.length + start) v n = (memset b start v n).map (pre ++ ·) := by
  have hiff : (0 ≤ (pre.length : Int) + start ∧ 0 ≤ n ∧
      (pre.length : Int) + start + n ≤ (pre ++ b).length) ↔
      0 ≤ start ∧ 0 ≤ n ∧ start + n ≤ b.length := by
    rw [List.length_append]
    omega
  have hoff : ((pre.length : Int) + start).toNat = pre.length + start.toNat := by omega
  rw [memset, memset, hoff]
  split
  · rename_i h
    rw [if_pos (hiff.mp h), Option.map_some, List.take_length_add_append, Nat.add_assoc,
      List.drop_length_add_append]
    simp only [List.append_assoc]
  · rename_i h
    rw [if_neg (hiff.not.mp h), Option.map_none]

theorem memmove_self {b : List α} {k : Nat} {n : Int} (hn : 0 ≤ n)
    (hroom : k + n ≤ b.length) : memmove b k k n = some b := by
  rw [memmove, if_pos ⟨hn, hroom, hroom⟩, ← List.drop_drop, List.append_assoc,
    List.take_append_drop, List.take_append_drop]

theorem memset_none {b : List α} {start : Int} (hstart : 0 ≤ start) (hroom : start ≤ b.length)
    (v : α) : memset b start v 0 = some b := by
  rw [memset, if_pos ⟨hstart, Int.le_refl 0, by omega⟩]
  simp

theorem memset_middle (xs ys zs : List α) (v : α) {start n : Int} (hstart : start = xs.length)
    (hn : n = ys.length) : memset (xs ++ (ys ++ zs)) start v n =
      some (xs ++ (List.replicate ys.length v ++ zs)) := by
  subst hstart hn
  have hroom : (xs.length : Int) + ys.length ≤ (xs ++ (ys ++ zs)).length := by
    rw [List.length_append, List.length_append]
    omega
  rw [memset, if_pos ⟨by omega, by omega, hroom⟩, Int.toNat_natCast, Int.toNat_natCast,
    List.take_left, List.drop_length_add_append, List.drop_left, List.append_assoc]

/-- A string is moved over the gap in front of it, and as many bytes behind it are cleared:
the byte in front of the gap is left, and then come the string and only zeros. -/
theorem close_gap (gap tail : List α) (z : α) :
    ∃ c, ((memmove (gap ++ z :: (tail ++ [z])) 1 (gap.length + 1) (tail.length + 1)).bind
      fun b => memset b (tail.length + 1) z gap.length) =
        some (c :: (tail ++ List.replicate (gap.length + 1) z)) := by
  cases gap with
  | nil =>
      refine ⟨z, ?_⟩
      have hlen : (z :: (tail ++ [z])).length = tail.length + 2 := by simp
      have hmove := memmove_self (b := z :: (tail ++ [z])) (k := 1) (n := tail.length + 1)
        (by omega) (by omega)
      rw [List.nil_append, List.length_nil, Nat.zero_add, hmove, Option.bind_some]
      exact memset_none (by omega) (by omega) z
  | cons c gap =>
      refine ⟨c, ?_⟩
      let rest := (c :: gap ++ z :: tail).drop (tail.length + 2)
      have hall : c :: gap ++ z :: (tail ++ [z]) = c :: gap ++ z :: tail ++ [z] := by simp
      have hrest : (c :: gap ++ z :: (tail ++ [z])).drop (1 + (tail.length + 1)) =
          rest ++ [z] := by
        rw [hall, List.drop_append_of_le_length (by simp; omega), Nat.add_comm 1]
      have hlen : rest.length = gap.length := by
        simp only [rest, List.length_drop, List.length_append, List.length_cons]
        omega
      have hsrc : (c :: gap ++ z :: (tail ++ [z])).drop ((c :: gap).length + 1) =
          tail ++ [z] := by
        rw [List.drop_length_add_append]
        rfl
      have hmove : memmove (c :: gap ++ z :: (tail ++ [z])) 1 ((c :: gap).length + 1)
          (tail.length + 1) = some (c :: tail ++ (z :: rest ++ [z])) := by
        rw [memmove, if_pos ⟨by omega, by simp; omega, by simp; omega⟩,
          show ((tail.length : Int) + 1).toNat = tail.length + 1 by omega, hsrc, hrest,
          List.take_of_length_le (l := tail ++ [z]) (by simp)]
        simp
      rw [hmove, Option.bind_some, memset_middle (c :: tail) (z :: rest) [z] z (by simp)
        (by simp [hlen]), List.length_cons, hlen, List.length_cons, ← List.replicate_succ',
        List.cons_append]

/-! What a write leaves alone. -/

section Frame

variable {b b' : List α} {v : α} {j : Nat}

theorem getElem?_poke {i : Nat} (h : poke b i v = some b') (hj : j ≠ i) : b'[j]? = b[j]? := by
  rw [poke] at h
  split at h
  · rw [← Option.some.inj h, List.getElem?_set_ne hj.symm]
  · exact absurd h (by simp)

theorem getElem?_splice {i k : Nat} {xs : List α} (hlen : (b.take i ++ xs).length = k)
    (hj : k ≤ j) : (b.take i ++ xs ++ b.drop k)[j]? = b[j]? := by
  rw [List.getElem?_append_right (by omega), hlen, List.getElem?_drop]
  congr 1
  omega

theorem getElem?_memmove {dst src : Nat} {n : Int} (h : memmove b dst src n = some b')
    (hj : dst + n ≤ j) : b'[j]? = b[j]? := by
  rw [memmove] at h
  split at h
  · rename_i hroom
    have hlen : (b.take dst ++ (b.drop src).take n.toNat).length = dst + n.toNat := by
      rw [List.length_append, List.length_take, List.length_take, List.length_drop]
      omega
    rw [← Option.some.inj h]
    exact getElem?_splice hlen (by omega)
  · exact absurd h (by simp)

theorem getElem?_memset {start n : Int} (h : memset b start v n = some b') (hj : start + n ≤ j) :
    b'[j]? = b[j]? := by
  rw [memset] at h
  split at h
  · rename_i hroom
    have hlen : (b.take start.toNat ++ List.replicate n.toNat v).length =
        start.toNat + n.toNat := by
      rw [List.length_append, List.length_take, List.length_replicate]
      omega
    rw [← Option.some.inj h]
    exact getElem?_splice hlen (by omega)
  · exact absurd h (by simp)

end Frame

end SojCivicLight.Library
