import Mathlib.Data.List.Find
import Mathlib.Data.List.Perm.Basic
import Mathlib.Tactic.Tauto
import SojCivicLight.Library.Circular
import SojCivicLight.Stratum.Context

/-! The hash table of an object. -/

namespace SojCivicLight.Jansson

open SojCivicLight.Library
open SojCivicLight.Stratum

/-- A byte of the key is added as a `char`, which has a sign. -/
def hashStr (key : CStr) : UInt64 :=
  key.foldl (fun hash c => (hash <<< 5) + hash + c.toInt8.toInt64.toUInt64) 5381

def primes : List Nat :=
  [5, 13, 23, 53, 97, 193, 389, 769, 1543, 3079, 6151, 12289, 24593, 49157, 98317, 196613, 393241,
    786433, 1572869, 3145739, 6291469, 12582917, 25165843, 50331653, 100663319, 201326611,
    402653189, 805306457, 1610612741]

/-- `pair_t`, but for its node. -/
structure Pair (V : Type) where
  hash : UInt64
  serial : Nat
  key : CStr
  value : V

/-- `hashtable_t` and the memory of its pairs; a pair is named by the address of its `list`, and
`list` is the node of the table itself. -/
structure Hashtable (A V : Type) where
  list : A
  links : Links A
  pairs : A → Pair V
  allocated : List A
  numBuckets : Nat
  first : Nat → A
  last : Nat → A
  size : Nat

namespace Hashtable

variable {A V : Type} [DecidableEq A]

def buckets (t : Hashtable A V) : Nat := primes.getD t.numBuckets 0

def bucketIsEmpty (t : Hashtable A V) (bucket : Nat) : Bool :=
  t.first bucket = t.list ∧ t.first bucket = t.last bucket

def insertToBucket (t : Hashtable A V) (bucket : Nat) (list : A) : Hashtable A V :=
  if t.bucketIsEmpty bucket then
    { t with
      links := t.links.insert t.list list
      first := Function.update t.first bucket list
      last := Function.update t.last bucket list }
  else
    { t with
      links := t.links.insert (t.first bucket) list
      first := Function.update t.first bucket list }

/-- The loop of `hashtable_find_pair` from `list` on, none when it has not ended. -/
def findFrom (t : Hashtable A V) (bucket : Nat) (key : CStr) (hash : UInt64) :
    Nat → A → Option (Option A)
  | 0, _ => none
  | fuel + 1, list =>
      if (t.pairs list).hash = hash ∧ (t.pairs list).key = key then some (some list)
      else if list = t.last bucket then some none
      else t.findFrom bucket key hash fuel (t.links.next list)

def findPair (t : Hashtable A V) (bucket : Nat) (key : CStr) (hash : UInt64) : Option (Option A) :=
  if t.bucketIsEmpty bucket then some none
  else t.findFrom bucket key hash t.size (t.first bucket)

def bucketOf (t : Hashtable A V) (hash : UInt64) : Nat := hash.toNat % t.buckets

/-- `hashtable_do_del` once the pair is found. -/
def unlinkPair (t : Hashtable A V) (bucket : Nat) (pair : A) : Hashtable A V :=
  let t :=
    if pair = t.first bucket ∧ pair = t.last bucket then
      { t with
        first := Function.update t.first bucket t.list
        last := Function.update t.last bucket t.list }
    else if pair = t.first bucket then
      { t with first := Function.update t.first bucket (t.links.next pair) }
    else if pair = t.last bucket then
      { t with last := Function.update t.last bucket (t.links.prev pair) }
    else t
  { t with
    links := t.links.remove pair
    allocated := t.allocated.filter (· ≠ pair)
    size := t.size - 1 }

def del (t : Hashtable A V) (key : CStr) : Option (Int × Hashtable A V) := do
  let hash := hashStr key
  match ← t.findPair (t.bucketOf hash) key hash with
  | none => some (-1, t)
  | some pair => some (0, t.unlinkPair (t.bucketOf hash) pair)

/-- The loop of `hashtable_do_rehash`. -/
def rehashFrom (t : Hashtable A V) : Nat → A → Option (Hashtable A V)
  | 0, list => if list = t.list then some t else none
  | fuel + 1, list =>
      if list = t.list then some t
      else
        let next := t.links.next list
        (t.insertToBucket (t.bucketOf (t.pairs list).hash) list).rehashFrom fuel next

/-- `hashtable_do_rehash`, when memory for the buckets can be had. -/
def rehash (t : Hashtable A V) : Option (Hashtable A V) :=
  let list := t.links.next t.list
  { t with
    numBuckets := t.numBuckets + 1
    links := t.links.link t.list t.list
    first := fun _ => t.list
    last := fun _ => t.list }.rehashFrom t.size list

/-- `hashtable_init`, when memory for the buckets can be had, in any memory. -/
def init (list : A) (memory : Links A) (pairs : A → Pair V) : Hashtable A V where
  list := list
  links := memory.link list list
  pairs := pairs
  allocated := []
  numBuckets := 0
  first := fun _ => list
  last := fun _ => list
  size := 0

/-- The rehash of `hashtable_set`, for a table that is full. -/
def makeRoom (t : Hashtable A V) : Option (Hashtable A V) :=
  if t.buckets ≤ t.size then t.rehash else some t

/-- `hashtable_set`, with what `jsonp_malloc` returns for a pair. -/
def set (t : Hashtable A V) (key : CStr) (serial : Nat) (value : V) (malloc : Option A) :
    Option (Int × Hashtable A V) := do
  let t ← t.makeRoom
  let hash := hashStr key
  match ← t.findPair (t.bucketOf hash) key hash with
  | some pair =>
      some (0, { t with
        pairs := Function.update t.pairs pair { t.pairs pair with value := value } })
  | none =>
      match malloc with
      | none => some (-1, t)
      | some pair =>
          let t :=
            { t with
              allocated := pair :: t.allocated
              pairs := Function.update t.pairs pair ⟨hash, serial, key, value⟩
              links := t.links.link pair pair }
          let t := t.insertToBucket (t.bucketOf hash) pair
          some (0, { t with size := t.size + 1 })

def get (t : Hashtable A V) (key : CStr) : Option (Option V) := do
  let hash := hashStr key
  let pair ← t.findPair (t.bucketOf hash) key hash
  some (pair.map fun pair => (t.pairs pair).value)

/-- `hashtable_clear` -/
def clear (t : Hashtable A V) : Hashtable A V :=
  { t with
    allocated := []
    links := t.links.link t.list t.list
    first := fun _ => t.list
    last := fun _ => t.list
    size := 0 }

/-- The nodes from `list` on, by `hashtable_iter_next`, up to that of the table. -/
def iterFrom (t : Hashtable A V) : Nat → A → Option (List A)
  | 0, list => if list = t.list then some [] else none
  | fuel + 1, list =>
      if list = t.list then some []
      else (t.iterFrom fuel (t.links.next list)).map (list :: ·)

/-- What a walk by `hashtable_iter` and `hashtable_iter_next` visits. -/
def entries (t : Hashtable A V) : Option (List (CStr × V)) :=
  (t.iterFrom t.size (t.links.next t.list)).map
    (·.map fun pair => ((t.pairs pair).key, (t.pairs pair).value))

/-! Where the pairs lie: one run of the list for each bucket that has any. -/

/-- What holds of the buckets but one. -/
structure Elsewhere (t : Hashtable A V) (bucket : Nat) (groups : List (Nat × List A)) : Prop where
  distinct : (groups.map Prod.fst).Nodup
  absent : bucket ∉ groups.map Prod.fst
  first : ∀ g ∈ groups, g.2.head? = some (t.first g.1)
  last : ∀ g ∈ groups, g.2.getLast? = some (t.last g.1)
  hashed : ∀ g ∈ groups, ∀ a ∈ g.2, t.bucketOf (t.pairs a).hash = g.1
  vacant : ∀ i, i ≠ bucket → i ∉ groups.map Prod.fst → t.first i = t.list ∧ t.last i = t.list

structure Placed (t : Hashtable A V) (groups : List (Nat × List A)) : Prop where
  circular : Circular t.links t.list (groups.flatMap Prod.snd)
  distinct : (groups.map Prod.fst).Nodup
  first : ∀ g ∈ groups, g.2.head? = some (t.first g.1)
  last : ∀ g ∈ groups, g.2.getLast? = some (t.last g.1)
  hashed : ∀ g ∈ groups, ∀ a ∈ g.2, t.bucketOf (t.pairs a).hash = g.1
  vacant : ∀ i, i ∉ groups.map Prod.fst → t.first i = t.list ∧ t.last i = t.list

variable {t t' : Hashtable A V} {bucket : Nat} {groups front back : List (Nat × List A)}

omit [DecidableEq A] in
theorem Elsewhere.congr (h : Elsewhere t bucket groups) (list : t'.list = t.list)
    (pairs : t'.pairs = t.pairs) (numBuckets : t'.numBuckets = t.numBuckets)
    (first : ∀ i, i ≠ bucket → t'.first i = t.first i)
    (last : ∀ i, i ≠ bucket → t'.last i = t.last i) : Elsewhere t' bucket groups := by
  have hne : ∀ g ∈ groups, g.1 ≠ bucket := by
    rintro g hg rfl
    exact h.absent (List.mem_map_of_mem hg)
  refine ⟨h.distinct, h.absent, fun g hg => ?_, fun g hg => ?_, fun g hg a ha => ?_,
    fun i hi habsent => ?_⟩
  · rw [first g.1 (hne g hg)]
    exact h.first g hg
  · rw [last g.1 (hne g hg)]
    exact h.last g hg
  · rw [bucketOf, buckets, numBuckets, pairs]
    exact h.hashed g hg a ha
  · rw [first i hi, last i hi, list]
    exact h.vacant i hi habsent

omit [DecidableEq A] in
theorem Placed.elsewhere (h : Placed t groups) (habsent : bucket ∉ groups.map Prod.fst) :
    Elsewhere t bucket groups :=
  ⟨h.distinct, habsent, h.first, h.last, h.hashed, fun i _ hi => h.vacant i hi⟩

omit [DecidableEq A] in
theorem Placed.others {nodes : List A} (h : Placed t (front ++ (bucket, nodes) :: back)) :
    Elsewhere t bucket (front ++ back) := by
  have hmem : ∀ g ∈ front ++ back, g ∈ front ++ (bucket, nodes) :: back := by
    intro g hg
    rcases List.mem_append.mp hg with hg | hg
    · exact List.mem_append_left _ hg
    · exact List.mem_append_right _ (List.mem_cons_of_mem _ hg)
  have hdistinct := h.distinct
  rw [List.map_append, List.map_cons, List.nodup_middle, List.nodup_cons, ← List.map_append]
    at hdistinct
  refine ⟨hdistinct.2, hdistinct.1, fun g hg => h.first g (hmem g hg),
    fun g hg => h.last g (hmem g hg), fun g hg => h.hashed g (hmem g hg), fun i hi habsent => ?_⟩
  refine h.vacant i fun hin => ?_
  rw [List.map_append, List.map_cons, List.mem_append, List.mem_cons] at hin
  rw [List.map_append, List.mem_append, not_or] at habsent
  rcases hin with hin | rfl | hin
  · exact habsent.1 hin
  · exact hi rfl
  · exact habsent.2 hin

omit [DecidableEq A] in
theorem Elsewhere.put {nodes : List A} (h : Elsewhere t bucket (front ++ back))
    (circular : Circular t.links t.list ((front ++ (bucket, nodes) :: back).flatMap Prod.snd))
    (first : nodes.head? = some (t.first bucket)) (last : nodes.getLast? = some (t.last bucket))
    (hashed : ∀ a ∈ nodes, t.bucketOf (t.pairs a).hash = bucket) :
    Placed t (front ++ (bucket, nodes) :: back) := by
  have hcases : ∀ g ∈ front ++ (bucket, nodes) :: back,
      g = (bucket, nodes) ∨ g ∈ front ++ back := by
    intro g hg
    rw [List.mem_append, List.mem_cons] at hg
    rw [List.mem_append]
    tauto
  refine ⟨circular, ?_, fun g hg => ?_, fun g hg => ?_, fun g hg => ?_, fun i hi => ?_⟩
  · rw [List.map_append, List.map_cons, List.nodup_middle, List.nodup_cons, ← List.map_append]
    exact ⟨h.absent, h.distinct⟩
  · rcases hcases g hg with rfl | hg
    · exact first
    · exact h.first g hg
  · rcases hcases g hg with rfl | hg
    · exact last
    · exact h.last g hg
  · rcases hcases g hg with rfl | hg
    · exact hashed
    · exact h.hashed g hg
  · rw [List.map_append, List.map_cons, List.mem_append, List.mem_cons, not_or, not_or] at hi
    refine h.vacant i hi.2.1 ?_
    rw [List.map_append, List.mem_append, not_or]
    exact ⟨hi.1, hi.2.2⟩

omit [DecidableEq A] in
theorem Elsewhere.drop (h : Elsewhere t bucket groups)
    (circular : Circular t.links t.list (groups.flatMap Prod.snd))
    (vacant : t.first bucket = t.list ∧ t.last bucket = t.list) : Placed t groups := by
  refine ⟨circular, h.distinct, h.first, h.last, h.hashed, fun i hi => ?_⟩
  rcases eq_or_ne i bucket with rfl | hne
  · exact vacant
  · exact h.vacant i hne hi

theorem Placed.isEmpty_iff (h : Placed t groups) :
    t.bucketIsEmpty bucket = true ↔ bucket ∉ groups.map Prod.fst := by
  rw [bucketIsEmpty, decide_eq_true_iff]
  constructor
  · rintro ⟨hfirst, -⟩ hmem
    obtain ⟨g, hg, rfl⟩ := List.mem_map.mp hmem
    have hin : t.first g.1 ∈ groups.flatMap Prod.snd :=
      List.mem_flatMap.mpr ⟨g, hg, List.mem_of_head? (h.first g hg)⟩
    rw [hfirst] at hin
    exact (List.nodup_cons.mp h.circular.nodup).1 hin
  · intro habsent
    obtain ⟨hfirst, hlast⟩ := h.vacant bucket habsent
    exact ⟨hfirst, hfirst.trans hlast.symm⟩

omit [DecidableEq A] in
/-- A bucket that has pairs has a run of its own. -/
theorem exists_group (hmem : bucket ∈ groups.map Prod.fst) :
    ∃ front nodes back, groups = front ++ (bucket, nodes) :: back := by
  obtain ⟨g, hg, rfl⟩ := List.mem_map.mp hmem
  obtain ⟨front, back, rfl⟩ := List.append_of_mem hg
  exact ⟨front, g.2, back, rfl⟩

/-- What an insertion and a removal leave as they are. -/
structure SameTable (t t' : Hashtable A V) : Prop where
  list : t'.list = t.list
  pairs : t'.pairs = t.pairs
  numBuckets : t'.numBuckets = t.numBuckets

theorem insertToBucket_same (t : Hashtable A V) (bucket : Nat) (node : A) :
    SameTable t (t.insertToBucket bucket node) ∧
      (t.insertToBucket bucket node).allocated = t.allocated ∧
      (t.insertToBucket bucket node).size = t.size := by
  rw [insertToBucket]
  split
  · exact ⟨⟨rfl, rfl, rfl⟩, rfl, rfl⟩
  · exact ⟨⟨rfl, rfl, rfl⟩, rfl, rfl⟩

theorem Placed.insertToBucket (h : Placed t groups) {node : A}
    (hnode : node ∉ t.list :: groups.flatMap Prod.snd) :
    ∃ groups', Placed (t.insertToBucket (t.bucketOf (t.pairs node).hash) node) groups' ∧
      (groups'.flatMap Prod.snd).Perm (node :: groups.flatMap Prod.snd) ∧
      ∀ x, x ∉ t.list :: node :: groups.flatMap Prod.snd →
        (t.insertToBucket (t.bucketOf (t.pairs node).hash) node).links.next x = t.links.next x := by
  generalize hbucket : t.bucketOf (t.pairs node).hash = bucket
  have hlist : node ≠ t.list := List.ne_of_not_mem_cons hnode
  by_cases hmem : bucket ∈ groups.map Prod.fst
  · obtain ⟨front, nodes, back, rfl⟩ := exists_group hmem
    have hfirst := h.first (bucket, nodes) (by simp)
    have hlast := h.last (bucket, nodes) (by simp)
    have hhashed := h.hashed (bucket, nodes) (by simp)
    obtain ⟨a, nodes, rfl⟩ : ∃ a as, nodes = a :: as := by
      cases nodes with
      | nil => cases hfirst
      | cons a as => exact ⟨a, as, rfl⟩
    have ha : a = t.first bucket := Option.some.inj hfirst
    have hne : node ≠ t.first bucket := by
      rintro rfl
      refine hnode (List.mem_cons_of_mem _ ?_)
      rw [List.mem_flatMap]
      exact ⟨(bucket, a :: nodes), by simp, ha ▸ List.mem_cons_self⟩
    have hempty : ¬ t.bucketIsEmpty bucket = true := fun hempty => h.isEmpty_iff.mp hempty hmem
    rw [Hashtable.insertToBucket, if_neg hempty]
    have hcircular := h.circular
    rw [List.flatMap_append, List.flatMap_cons, List.cons_append] at hcircular hnode
    refine ⟨front ++ (bucket, node :: a :: nodes) :: back, ?_, ?_, ?_⟩
    · refine Elsewhere.put (h.others.congr rfl rfl rfl ?_ fun _ _ => rfl) ?_ ?_ hlast ?_
      · exact fun i hi => Function.update_of_ne hi _ _
      · rw [List.flatMap_append, List.flatMap_cons, ← ha]
        exact hcircular.insert_before hnode
      · exact congrArg some (Function.update_self bucket node t.first).symm
      · intro b hb
        rcases List.mem_cons.mp hb with rfl | hb
        · exact hbucket
        · exact hhashed b hb
    · rw [List.flatMap_append, List.flatMap_cons, List.flatMap_append, List.flatMap_cons,
        List.cons_append]
      exact List.perm_middle
    · intro x hx
      refine t.links.next_insert hne ?_ ?_
      · rintro rfl
        exact hx (by simp)
      · rintro rfl
        have hprev := h.circular.prev_mem_of (x := t.first bucket) (List.mem_cons_of_mem _
          (List.mem_flatMap.mpr ⟨(bucket, a :: nodes), by simp, ha ▸ List.mem_cons_self⟩))
        rw [List.mem_cons] at hprev
        rw [List.mem_cons, List.mem_cons] at hx
        tauto
  · rw [Hashtable.insertToBucket, if_pos (h.isEmpty_iff.mpr hmem)]
    refine ⟨groups ++ (bucket, [node]) :: [], ?_, ?_, ?_⟩
    · have helse : Elsewhere t bucket (groups ++ []) := by
        rw [List.append_nil]
        exact h.elsewhere hmem
      refine Elsewhere.put (helse.congr rfl rfl rfl ?_ ?_) ?_ ?_ ?_ ?_
      · exact fun i hi => Function.update_of_ne hi _ _
      · exact fun i hi => Function.update_of_ne hi _ _
      · rw [List.flatMap_append]
        exact h.circular.insert_tail hnode
      · exact congrArg some (Function.update_self bucket node t.first).symm
      · exact congrArg some (Function.update_self bucket node t.last).symm
      · intro b hb
        rw [List.mem_singleton] at hb
        rw [hb]
        exact hbucket
    · rw [List.flatMap_append]
      exact List.perm_append_singleton _ _
    · intro x hx
      refine t.links.next_insert hlist ?_ ?_
      · rintro rfl
        exact hx (by simp)
      · rintro rfl
        have hprev := h.circular.prev_mem
        rw [List.mem_cons] at hprev
        rw [List.mem_cons, List.mem_cons] at hx
        tauto

/-! Finding. -/

/-- What `hashtable_find_pair` compares. -/
def pairMatches (t : Hashtable A V) (key : CStr) (hash : UInt64) (a : A) : Bool :=
  (t.pairs a).hash = hash ∧ (t.pairs a).key = key

theorem findFrom_segment {key : CStr} {hash : UInt64} {a b : A} {nodes : List A}
    (segment : Segment t.links a nodes b) (hlast : (a :: nodes).getLast? = some (t.last bucket))
    (distinct : (a :: nodes).Nodup) {fuel : Nat} (hfuel : nodes.length < fuel) :
    t.findFrom bucket key hash fuel a = some ((a :: nodes).find? (t.pairMatches key hash)) := by
  induction nodes generalizing a fuel with
  | nil =>
      obtain ⟨fuel, rfl⟩ := Nat.exists_eq_add_of_lt hfuel
      have ha : a = t.last bucket := Option.some.inj hlast
      rw [List.length_nil, Nat.zero_add, findFrom, List.find?_cons, if_pos ha, pairMatches]
      by_cases hmatch : (t.pairs a).hash = hash ∧ (t.pairs a).key = key
      · rw [if_pos hmatch, decide_eq_true hmatch]
      · rw [if_neg hmatch, decide_eq_false hmatch, List.find?_nil]
  | cons x nodes ih =>
      obtain ⟨fuel, rfl⟩ := Nat.exists_eq_add_of_lt hfuel
      rw [List.getLast?_cons_cons] at hlast
      obtain ⟨hnotin, distinct⟩ := List.nodup_cons.mp distinct
      have ha : a ≠ t.last bucket := by
        rintro rfl
        exact hnotin (List.mem_of_getLast? hlast)
      have hrest : t.findFrom bucket key hash ((x :: nodes).length + fuel) x = _ :=
        ih segment.2 hlast distinct (by rw [List.length_cons]; omega)
      rw [findFrom, if_neg ha, List.find?_cons, pairMatches, segment.1.1, hrest]
      by_cases hmatch : (t.pairs a).hash = hash ∧ (t.pairs a).key = key
      · rw [if_pos hmatch, decide_eq_true hmatch]
      · rw [if_neg hmatch, decide_eq_false hmatch]

theorem Placed.findPair_eq (h : Placed t groups)
    (hsize : (groups.flatMap Prod.snd).length ≤ t.size) (key : CStr) (hash : UInt64) :
    t.findPair (t.bucketOf hash) key hash =
      some ((groups.flatMap Prod.snd).find? (t.pairMatches key hash)) := by
  have hother : ∀ gs : List (Nat × List A), (∀ g ∈ gs, g ∈ groups) →
      t.bucketOf hash ∉ gs.map Prod.fst →
      (gs.flatMap Prod.snd).find? (t.pairMatches key hash) = none := by
    intro gs hgs habsent
    refine List.find?_eq_none.mpr fun a ha hmatch => habsent ?_
    obtain ⟨g, hg, hag⟩ := List.mem_flatMap.mp ha
    have hhash := h.hashed g (hgs g hg) a hag
    rw [pairMatches, decide_eq_true_iff] at hmatch
    rw [hmatch.1] at hhash
    exact hhash ▸ List.mem_map_of_mem hg
  by_cases hmem : t.bucketOf hash ∈ groups.map Prod.fst
  · have hempty : ¬ t.bucketIsEmpty (t.bucketOf hash) = true := fun hempty =>
      h.isEmpty_iff.mp hempty hmem
    rw [findPair, if_neg hempty]
    obtain ⟨front, nodes, back, hgroups⟩ := exists_group hmem
    have hdistinct := h.distinct
    have hfirst := h.first
    have hlast := h.last
    have hcircular := h.circular
    rw [hgroups] at hfirst hlast hcircular hdistinct hsize
    have hfirst := hfirst (t.bucketOf hash, nodes) (by simp)
    have hlast := hlast (t.bucketOf hash, nodes) (by simp)
    rw [List.map_append, List.map_cons, List.nodup_middle, List.nodup_cons, List.mem_append,
      not_or] at hdistinct
    have hfront := hother front (fun g hg => by rw [hgroups]; exact List.mem_append_left _ hg)
      hdistinct.1.1
    have hback := hother back
      (fun g hg => by rw [hgroups]; exact List.mem_append_right _ (List.mem_cons_of_mem _ hg))
      hdistinct.1.2
    cases nodes with
    | nil => cases hfirst
    | cons a nodes =>
        have ha : a = t.first (t.bucketOf hash) := Option.some.inj hfirst
        rw [List.flatMap_append, List.flatMap_cons] at hcircular hsize
        have hnodes := (List.nodup_append.mp ((List.nodup_append.mp
          (List.nodup_cons.mp hcircular.nodup).2).2.1)).1
        obtain ⟨b, hsegment⟩ : ∃ b, Segment t.links a nodes b := by
          rw [List.cons_append] at hcircular
          have hrest := (Segment.split.mp hcircular.linked).2
          cases hcons : back.flatMap Prod.snd with
          | nil =>
              rw [hcons, List.append_nil] at hrest
              exact ⟨_, hrest⟩
          | cons b rest =>
              rw [hcons] at hrest
              exact ⟨b, (Segment.split.mp hrest).1⟩
        rw [List.length_append, List.length_append, List.length_cons] at hsize
        rw [hgroups, List.flatMap_append, List.flatMap_cons, List.find?_append, List.find?_append,
          hfront, hback, Option.none_or, Option.or_none, ← ha]
        exact findFrom_segment hsegment hlast hnodes (by omega)
  · rw [findPair, if_pos (h.isEmpty_iff.mpr hmem), hother groups (fun _ hg => hg) hmem]

/-! Removing. -/

theorem Placed.unlinkPair (h : Placed t groups) {pair : A}
    (hpair : pair ∈ groups.flatMap Prod.snd) :
    ∃ groups', Placed (t.unlinkPair (t.bucketOf (t.pairs pair).hash) pair) groups' ∧
      (groups.flatMap Prod.snd).Perm (pair :: groups'.flatMap Prod.snd) := by
  obtain ⟨g, hg, hin⟩ := List.mem_flatMap.mp hpair
  rw [h.hashed g hg pair hin]
  obtain ⟨bucket, nodes⟩ := g
  obtain ⟨front, back, rfl⟩ := List.append_of_mem hg
  obtain ⟨before, after, rfl⟩ := List.append_of_mem hin
  have hfirst := h.first _ hg
  have hlast := h.last _ hg
  have hhashed := h.hashed _ hg
  have hcircular := h.circular
  simp only [List.flatMap_append, List.flatMap_cons] at hcircular ⊢
  have hdistinct := (List.nodup_append.mp ((List.nodup_append.mp
    (List.nodup_cons.mp hcircular.nodup).2).2.1)).1
  rw [List.nodup_middle, List.nodup_cons, List.mem_append, not_or] at hdistinct
  have hperm : (front.flatMap Prod.snd ++ (before ++ pair :: after ++ back.flatMap Prod.snd)).Perm
      (pair :: (front.flatMap Prod.snd ++ (before ++ after ++ back.flatMap Prod.snd))) := by
    rw [List.append_assoc, List.cons_append, ← List.append_assoc, List.append_assoc before after,
      ← List.append_assoc (front.flatMap Prod.snd) before]
    exact List.perm_middle
  have hremoved : Circular (t.links.remove pair) t.list
      (front.flatMap Prod.snd ++ (before ++ after ++ back.flatMap Prod.snd)) := by
    rw [List.append_assoc before, List.cons_append, ← List.append_assoc] at hcircular
    have hremoved := hcircular.remove
    rwa [List.append_assoc, ← List.append_assoc before] at hremoved
  have hkept : ∀ a ∈ before ++ after, t.bucketOf (t.pairs a).hash = bucket := by
    intro a ha
    refine hhashed a ?_
    rw [List.mem_append] at ha
    rw [List.mem_append, List.mem_cons]
    tauto
  have hput : ∀ t' : Hashtable A V, t'.list = t.list → t'.pairs = t.pairs →
      t'.numBuckets = t.numBuckets → t'.links = t.links.remove pair →
      (∀ i, i ≠ bucket → t'.first i = t.first i) → (∀ i, i ≠ bucket → t'.last i = t.last i) →
      (before ++ after).head? = some (t'.first bucket) →
      (before ++ after).getLast? = some (t'.last bucket) →
      ∃ groups', Placed t' groups' ∧
        (front.flatMap Prod.snd ++ (before ++ pair :: after ++ back.flatMap Prod.snd)).Perm
          (pair :: groups'.flatMap Prod.snd) := by
    intro t' list pairs numBuckets links first last hhead hlast'
    refine ⟨front ++ (bucket, before ++ after) :: back, ?_, ?_⟩
    · refine Elsewhere.put (h.others.congr list pairs numBuckets first last) ?_ hhead hlast' ?_
      · rw [links, list, List.flatMap_append, List.flatMap_cons]
        exact hremoved
      · intro a ha
        rw [bucketOf, buckets, numBuckets, pairs]
        exact hkept a ha
    · rw [List.flatMap_append, List.flatMap_cons]
      exact hperm
  rw [Hashtable.unlinkPair]
  cases before with
  | nil =>
      have hpairFirst : pair = t.first bucket := Option.some.inj hfirst
      cases after with
      | nil =>
          have hpairLast : pair = t.last bucket := Option.some.inj hlast
          rw [if_pos ⟨hpairFirst, hpairLast⟩]
          refine ⟨front ++ back, Elsewhere.drop (h.others.congr rfl rfl rfl ?_ ?_) ?_ ?_, ?_⟩
          · exact fun i hi => Function.update_of_ne hi _ _
          · exact fun i hi => Function.update_of_ne hi _ _
          · rw [List.flatMap_append]
            exact hremoved
          · exact ⟨Function.update_self bucket _ _, Function.update_self bucket _ _⟩
          · rw [List.flatMap_append]
            exact hperm
      | cons y after =>
          have hpairLast : pair ≠ t.last bucket := by
            rintro rfl
            rw [List.nil_append, List.getLast?_cons_cons] at hlast
            exact hdistinct.1.2 (List.mem_of_getLast? hlast)
          have hnext : t.links.next pair = y := hcircular.next_eq
          rw [if_neg fun hboth => hpairLast hboth.2, if_pos hpairFirst, hnext]
          refine hput _ rfl rfl rfl rfl ?_ (fun _ _ => rfl) ?_ ?_
          · exact fun i hi => Function.update_of_ne hi _ _
          · exact congrArg some (Function.update_self bucket y t.first).symm
          · rw [List.nil_append, List.getLast?_cons_cons] at hlast
            exact hlast
  | cons b before =>
      have hpairFirst : pair ≠ t.first bucket := by
        have hb : b = t.first bucket := Option.some.inj hfirst
        rintro rfl
        exact hdistinct.1.1 (hb ▸ List.mem_cons_self)
      cases after with
      | nil =>
          have hpairLast : pair = t.last bucket := by
            rw [List.getLast?_concat] at hlast
            exact Option.some.inj hlast
          obtain ⟨init, z, hinit⟩ : ∃ init z, b :: before = init ++ [z] :=
            ⟨_, _, (List.dropLast_append_getLast (List.cons_ne_nil b before)).symm⟩
          have hprev : t.links.prev pair = z := by
            rw [hinit, List.append_assoc, List.append_assoc, ← List.append_assoc] at hcircular
            exact hcircular.prev_eq
          rw [if_neg fun hboth => hpairFirst hboth.1, if_neg hpairFirst, if_pos hpairLast, hprev]
          refine hput _ rfl rfl rfl rfl (fun _ _ => rfl) ?_ hfirst ?_
          · exact fun i hi => Function.update_of_ne hi _ _
          · rw [List.append_nil, hinit, List.getLast?_concat]
            exact congrArg some (Function.update_self bucket z t.last).symm
      | cons y after =>
          have hlast' : (y :: after).getLast? = some (t.last bucket) := by
            rw [List.getLast?_append_cons, List.getLast?_cons_cons] at hlast
            exact hlast
          have hpairLast : pair ≠ t.last bucket := by
            rintro rfl
            exact hdistinct.1.2 (List.mem_of_getLast? hlast')
          rw [if_neg fun hboth => hpairFirst hboth.1, if_neg hpairFirst, if_neg hpairLast]
          refine hput _ rfl rfl rfl rfl (fun _ _ => rfl) (fun _ _ => rfl) hfirst ?_
          rw [List.getLast?_append_cons]
          exact hlast'

/-! Rehashing. -/

/-- The pairs that are left are put in, whatever the buckets have already. -/
theorem Placed.rehashFrom (h : Placed t groups) {list : A} {rest : List A}
    (walk : Walk t.links t.list list rest) (distinct : rest.Nodup)
    (apart : ∀ a ∈ rest, a ∉ t.list :: groups.flatMap Prod.snd) {fuel : Nat}
    (hfuel : rest.length ≤ fuel) :
    ∃ t' groups', t.rehashFrom fuel list = some t' ∧ Placed t' groups' ∧
      (groups'.flatMap Prod.snd).Perm (rest ++ groups.flatMap Prod.snd) ∧ SameTable t t' ∧
      t'.allocated = t.allocated ∧ t'.size = t.size := by
  induction rest generalizing t groups list fuel with
  | nil =>
      have hlist : list = t.list := walk
      have hstop : t.rehashFrom fuel list = some t := by
        cases fuel with
        | zero => rw [Hashtable.rehashFrom, if_pos hlist]
        | succ fuel => rw [Hashtable.rehashFrom, if_pos hlist]
      exact ⟨t, groups, hstop, h, List.Perm.refl _, ⟨rfl, rfl, rfl⟩, rfl, rfl⟩
  | cons a rest ih =>
      obtain ⟨fuel, rfl⟩ := Nat.exists_eq_add_of_le' (Nat.lt_of_lt_of_le (Nat.succ_pos _) hfuel)
      obtain ⟨rfl, walk⟩ := walk
      obtain ⟨hnotin, distinct⟩ := List.nodup_cons.mp distinct
      rw [List.forall_mem_cons] at apart
      have hne : list ≠ t.list := List.ne_of_not_mem_cons apart.1
      obtain ⟨groups1, h1, hperm, hnext⟩ := h.insertToBucket apart.1
      obtain ⟨same, hallocated, hsize⟩ :=
        insertToBucket_same t (t.bucketOf (t.pairs list).hash) list
      have apart1 : ∀ b ∈ rest, b ∉ t.list :: list :: groups.flatMap Prod.snd := by
        intro b hb hmem
        have hb' := apart.2 b hb
        rw [List.mem_cons] at hb'
        rw [List.mem_cons, List.mem_cons] at hmem
        rcases hmem with hmem | rfl | hmem
        · exact hb' (Or.inl hmem)
        · exact hnotin hb
        · exact hb' (Or.inr hmem)
      have walk1 := walk.frame fun b hb => hnext b (apart1 b hb)
      rw [← same.list] at walk1
      obtain ⟨t', groups', hrun, h', hperm', same', hallocated', hsize'⟩ := ih h1 walk1 distinct
        (fun b hb hmem => apart1 b hb (by
          rw [same.list, List.mem_cons, hperm.mem_iff] at hmem
          exact List.mem_cons.mpr hmem)) (Nat.le_of_succ_le_succ hfuel)
      refine ⟨t', groups', ?_, h', ?_, ?_, hallocated'.trans hallocated, hsize'.trans hsize⟩
      · rw [Hashtable.rehashFrom, if_neg hne]
        exact hrun
      · rw [List.cons_append]
        exact (hperm'.trans (hperm.append_left rest)).trans List.perm_middle
      · exact ⟨same'.list.trans same.list, same'.pairs.trans same.pairs,
          same'.numBuckets.trans same.numBuckets⟩

end Hashtable

end SojCivicLight.Jansson
