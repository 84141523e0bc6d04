import SojCivicLight.Jansson.Hashtable
import SojCivicLight.Jansson.Loaded

/-! A hash table as the map that the calls of it make, and an object as the list of its members. -/

namespace SojCivicLight.Jansson.Hashtable

open SojCivicLight.Library
open SojCivicLight.Stratum

variable {A V : Type} [DecidableEq A] {t t' : Hashtable A V} {groups : List (Nat × List A)}

/-! The map that a table holds. -/

structure Holds (t : Hashtable A V) (m : CStr → Option V) (nodes : List A) : Prop where
  placed : ∃ groups, Placed t groups ∧ (groups.flatMap Prod.snd).Perm nodes
  hashed : ∀ a ∈ nodes, (t.pairs a).hash = hashStr (t.pairs a).key
  keys : (nodes.map fun a => (t.pairs a).key).Nodup
  size : t.size = nodes.length
  allocated : ∀ a ∈ nodes, a ∈ t.allocated
  prime : t.numBuckets < primes.length
  value : ∀ key value, m key = some value ↔
    ∃ a ∈ nodes, (t.pairs a).key = key ∧ (t.pairs a).value = value

variable {m : CStr → Option V} {nodes : List A}

omit [DecidableEq A] in
theorem Holds.key_inj (h : Holds t m nodes) {a b : A} (ha : a ∈ nodes) (hb : b ∈ nodes)
    (hkey : (t.pairs a).key = (t.pairs b).key) : a = b :=
  List.inj_on_of_nodup_map h.keys ha hb hkey

omit [DecidableEq A] in
theorem Holds.find_eq (h : Holds t m nodes) {a : A} (ha : a ∈ nodes) :
    m (t.pairs a).key = some (t.pairs a).value :=
  (h.value _ _).mpr ⟨a, ha, rfl, rfl⟩

/-- What is found is the pair of the key, and none only when the map has no value for it. -/
theorem Holds.findPair (h : Holds t m nodes) (key : CStr) :
    ∃ found, t.findPair (t.bucketOf (hashStr key)) key (hashStr key) = some found ∧
      match found with
      | some a => a ∈ nodes ∧ (t.pairs a).key = key
      | none => m key = none := by
  obtain ⟨groups, placed, hperm⟩ := h.placed
  refine ⟨_, placed.findPair_eq (by rw [h.size, hperm.length_eq]) key (hashStr key), ?_⟩
  cases hfound : (groups.flatMap Prod.snd).find? (t.pairMatches key (hashStr key)) with
  | some a =>
      have hmatch := List.find?_some hfound
      rw [pairMatches, decide_eq_true_iff] at hmatch
      exact ⟨hperm.mem_iff.mp (List.mem_of_find?_eq_some hfound), hmatch.2⟩
  | none =>
      cases hvalue : m key with
      | none => rfl
      | some value =>
          obtain ⟨a, ha, hkey, -⟩ := (h.value key value).mp hvalue
          refine absurd ?_ (List.find?_eq_none.mp hfound a (hperm.mem_iff.mpr ha))
          rw [pairMatches, decide_eq_true_iff]
          exact ⟨(h.hashed a ha).trans (congrArg hashStr hkey), hkey⟩

theorem Holds.get_eq (h : Holds t m nodes) (key : CStr) : t.get key = some (m key) := by
  obtain ⟨found, hfound, hspec⟩ := h.findPair key
  rw [Hashtable.get, hfound, Option.bind_eq_bind, Option.bind_some]
  cases found with
  | none => rw [hspec]; rfl
  | some a =>
      obtain ⟨ha, rfl⟩ := hspec
      rw [h.find_eq ha]
      rfl

omit [DecidableEq A] in
theorem Placed.congr (h : Placed t groups)
    (circular : Circular t'.links t'.list (groups.flatMap Prod.snd)) (list : t'.list = t.list)
    (numBuckets : t'.numBuckets = t.numBuckets) (first : t'.first = t.first)
    (last : t'.last = t.last)
    (hash : ∀ a ∈ groups.flatMap Prod.snd, (t'.pairs a).hash = (t.pairs a).hash) :
    Placed t' groups := by
  refine ⟨circular, h.distinct, ?_, ?_, fun g hg a ha => ?_, ?_⟩
  · rw [first]
    exact h.first
  · rw [last]
    exact h.last
  · rw [bucketOf, buckets, numBuckets, hash a (List.mem_flatMap.mpr ⟨g, hg, ha⟩)]
    exact h.hashed g hg a ha
  · rw [first, last, list]
    exact h.vacant

theorem Holds.rehash (h : Holds t m nodes) (hfull : t.buckets ≤ t.size)
    (hsize : t.size < 1610612741) :
    ∃ t', t.rehash = some t' ∧ Holds t' m nodes ∧ t'.list = t.list ∧
      t'.allocated = t.allocated := by
  obtain ⟨groups, placed, hperm⟩ := h.placed
  have hprime : t.numBuckets + 1 < primes.length := by
    have hlt := h.prime
    have hne : t.numBuckets ≠ 28 := by
      intro heq
      have hbuckets : t.buckets = 1610612741 := by
        rw [buckets, heq]
        rfl
      omega
    have hlength : primes.length = 29 := rfl
    omega
  obtain ⟨hnotin, distinct⟩ := List.nodup_cons.mp placed.circular.nodup
  have walk : Walk (t.links.link t.list t.list) t.list (t.links.next t.list)
      (groups.flatMap Prod.snd) :=
    placed.circular.linked.walk.frame fun a ha =>
      Function.update_of_ne (ne_of_mem_of_not_mem ha hnotin) _ _
  have start : Placed
      { t with
        numBuckets := t.numBuckets + 1
        links := t.links.link t.list t.list
        first := fun _ => t.list
        last := fun _ => t.list } [] := by
    refine ⟨Circular.empty t.links t.list, List.nodup_nil, ?_, ?_, ?_, fun _ _ => ⟨rfl, rfl⟩⟩
    · exact fun g hg => absurd hg List.not_mem_nil
    · exact fun g hg => absurd hg List.not_mem_nil
    · exact fun g hg => absurd hg List.not_mem_nil
  obtain ⟨t', groups', hrun, placed', hperm', same, hallocated, hsize'⟩ :=
    start.rehashFrom walk distinct (fun a ha hmem => by
      rw [List.flatMap_nil, List.mem_singleton] at hmem
      exact hnotin (hmem ▸ ha)) (Nat.le_of_eq (hperm.length_eq.trans h.size.symm))
  rw [List.flatMap_nil, List.append_nil] at hperm'
  have hplaced : ∃ groups', Placed t' groups' ∧ (groups'.flatMap Prod.snd).Perm nodes :=
    ⟨groups', placed', hperm'.trans hperm⟩
  refine ⟨t', hrun, ⟨hplaced, ?_, ?_, hsize'.trans h.size, ?_, ?_, ?_⟩, same.list, hallocated⟩
  · rw [same.pairs]
    exact h.hashed
  · rw [same.pairs]
    exact h.keys
  · rw [hallocated]
    exact h.allocated
  · rw [same.numBuckets]
    exact hprime
  · rw [same.pairs]
    exact h.value

/-- A value put in the place of another. -/
theorem Holds.setValue (h : Holds t m nodes) {a : A} (ha : a ∈ nodes) (value : V) :
    Holds
      { t with pairs := Function.update t.pairs a { t.pairs a with value := value } }
      (Function.update m (t.pairs a).key (some value)) nodes := by
  generalize hpairs : Function.update t.pairs a { t.pairs a with value := value } = pairs
  have hself : pairs a = { t.pairs a with value := value } := by
    rw [← hpairs, Function.update_self]
  have hother : ∀ b, b ≠ a → pairs b = t.pairs b := by
    intro b hb
    rw [← hpairs, Function.update_of_ne hb]
  have hkept : ∀ b, (pairs b).key = (t.pairs b).key ∧ (pairs b).hash = (t.pairs b).hash := by
    intro b
    rcases eq_or_ne b a with rfl | hb
    · rw [hself]
      exact ⟨rfl, rfl⟩
    · rw [hother b hb]
      exact ⟨rfl, rfl⟩
  obtain ⟨groups, placed, hperm⟩ := h.placed
  refine ⟨⟨groups, placed.congr placed.circular rfl rfl rfl rfl fun b _ => (hkept b).2, hperm⟩,
    fun b hb => ?_, ?_, h.size, h.allocated, h.prime, fun key value' => ?_⟩
  · rw [(hkept b).1, (hkept b).2]
    exact h.hashed b hb
  · rw [List.map_congr_left fun b _ => (hkept b).1]
    exact h.keys
  · rcases eq_or_ne key (t.pairs a).key with rfl | hne
    · rw [Function.update_self, Option.some.injEq]
      constructor
      · rintro rfl
        exact ⟨a, ha, (hkept a).1, congrArg Pair.value hself⟩
      · rintro ⟨b, hb, hkey, rfl⟩
        rw [(hkept b).1] at hkey
        rw [h.key_inj hb ha hkey]
        exact (congrArg Pair.value hself).symm
    · rw [Function.update_of_ne hne, h.value]
      constructor
      · rintro ⟨b, hb, rfl, rfl⟩
        have hsame := hother b fun heq => hne (by rw [heq])
        exact ⟨b, hb, congrArg Pair.key hsame, congrArg Pair.value hsame⟩
      · rintro ⟨b, hb, rfl, rfl⟩
        have hsame := hother b fun heq => hne (by rw [heq]; exact (hkept a).1)
        exact ⟨b, hb, (congrArg Pair.key hsame).symm, (congrArg Pair.value hsame).symm⟩

/-- A new pair put in. -/
theorem Holds.insert (h : Holds t m nodes) {pair : A} (hlist : pair ≠ t.list)
    (hpair : pair ∉ t.allocated) {key : CStr} (hkey : m key = none) (serial : Nat) (value : V) :
    let t1 : Hashtable A V :=
      { t with
        allocated := pair :: t.allocated
        pairs := Function.update t.pairs pair ⟨hashStr key, serial, key, value⟩
        links := t.links.link pair pair }
    let t2 := t1.insertToBucket (t1.bucketOf (hashStr key)) pair
    Holds { t2 with size := t2.size + 1 } (Function.update m key (some value)) (pair :: nodes) := by
  intro t1 t2
  obtain ⟨groups, placed, hperm⟩ := h.placed
  have hnodes : pair ∉ nodes := fun hmem => hpair (h.allocated pair hmem)
  have hself : t1.pairs pair = ⟨hashStr key, serial, key, value⟩ := Function.update_self pair _ _
  have hother : ∀ a ∈ nodes, t1.pairs a = t.pairs a := fun a ha =>
    Function.update_of_ne (ne_of_mem_of_not_mem ha hnodes) _ _
  have hfree : pair ∉ t.list :: groups.flatMap Prod.snd := by
    rw [List.mem_cons, hperm.mem_iff, not_or]
    exact ⟨hlist, hnodes⟩
  have placed1 : Placed t1 groups := by
    refine placed.congr (placed.circular.frame ?_ ?_) rfl rfl rfl rfl ?_
    · exact fun a ha => Function.update_of_ne (ne_of_mem_of_not_mem ha hfree) _ _
    · exact fun a ha => Function.update_of_ne (ne_of_mem_of_not_mem ha hfree) _ _
    · intro a ha
      rw [hother a (hperm.mem_iff.mp ha)]
  obtain ⟨groups', placed', hperm', -⟩ := placed1.insertToBucket hfree
  rw [hself] at placed'
  obtain ⟨same, hallocated, hsize⟩ := insertToBucket_same t1 (t1.bucketOf (hashStr key)) pair
  have same : SameTable t1 t2 := same
  have hallocated : t2.allocated = pair :: t.allocated := hallocated
  have hsize : t2.size = t.size := hsize
  refine ⟨⟨groups', placed'.congr placed'.circular rfl rfl rfl rfl fun _ _ => rfl,
    hperm'.trans (hperm.cons pair)⟩, ?_, ?_, ?_, ?_, ?_, fun key' value' => ?_⟩
  · dsimp only
    rw [same.pairs, List.forall_mem_cons, hself]
    refine ⟨rfl, fun a ha => ?_⟩
    rw [hother a ha]
    exact h.hashed a ha
  · dsimp only
    rw [same.pairs, List.map_cons, List.nodup_cons, hself,
      List.map_congr_left fun a ha => congrArg Pair.key (hother a ha)]
    refine ⟨fun hmem => ?_, h.keys⟩
    obtain ⟨a, ha, rfl⟩ := List.mem_map.mp hmem
    rw [h.find_eq ha] at hkey
    cases hkey
  · dsimp only
    rw [hsize, h.size, List.length_cons]
  · dsimp only
    rw [hallocated, List.forall_mem_cons]
    exact ⟨List.mem_cons_self, fun a ha => List.mem_cons_of_mem pair (h.allocated a ha)⟩
  · dsimp only
    rw [same.numBuckets]
    exact h.prime
  · dsimp only
    rw [same.pairs]
    rcases eq_or_ne key' key with rfl | hne
    · rw [Function.update_self, Option.some.injEq]
      constructor
      · rintro rfl
        exact ⟨pair, List.mem_cons_self, by rw [hself], by rw [hself]⟩
      · rintro ⟨a, ha, hkey', rfl⟩
        rcases List.mem_cons.mp ha with rfl | ha
        · rw [hself]
        · rw [hother a ha] at hkey'
          rw [← hkey', h.find_eq ha] at hkey
          cases hkey
    · rw [Function.update_of_ne hne, h.value]
      constructor
      · rintro ⟨a, ha, hkey', hvalue⟩
        rw [← hother a ha] at hkey' hvalue
        exact ⟨a, List.mem_cons_of_mem pair ha, hkey', hvalue⟩
      · rintro ⟨a, ha, hkey', hvalue⟩
        rcases List.mem_cons.mp ha with rfl | ha
        · rw [hself] at hkey'
          exact absurd hkey'.symm hne
        · rw [hother a ha] at hkey' hvalue
          exact ⟨a, ha, hkey', hvalue⟩

theorem unlinkPair_same (t : Hashtable A V) (bucket : Nat) (pair : A) :
    SameTable t (t.unlinkPair bucket pair) ∧
      (t.unlinkPair bucket pair).allocated = t.allocated.filter (· ≠ pair) ∧
      (t.unlinkPair bucket pair).size = t.size - 1 := by
  rw [Hashtable.unlinkPair]
  split
  · exact ⟨⟨rfl, rfl, rfl⟩, rfl, rfl⟩
  · split
    · exact ⟨⟨rfl, rfl, rfl⟩, rfl, rfl⟩
    · split
      · exact ⟨⟨rfl, rfl, rfl⟩, rfl, rfl⟩
      · exact ⟨⟨rfl, rfl, rfl⟩, rfl, rfl⟩

/-- A pair taken out. -/
theorem Holds.unlinkPair (h : Holds t m nodes) {pair : A} (hpair : pair ∈ nodes) :
    ∃ nodes',
      Holds (t.unlinkPair (t.bucketOf (hashStr (t.pairs pair).key)) pair)
        (Function.update m (t.pairs pair).key none) nodes' := by
  obtain ⟨groups, placed, hperm⟩ := h.placed
  obtain ⟨groups', placed', hperm'⟩ := placed.unlinkPair (hperm.mem_iff.mpr hpair)
  rw [h.hashed pair hpair] at placed'
  obtain ⟨same, hallocated, hsize⟩ :=
    unlinkPair_same t (t.bucketOf (hashStr (t.pairs pair).key)) pair
  have hnodes := hperm.symm.trans hperm'
  have hmem : ∀ a ∈ groups'.flatMap Prod.snd, a ∈ nodes := fun a ha =>
    hnodes.mem_iff.mpr (List.mem_cons_of_mem pair ha)
  have hkeys := (hnodes.map fun a => (t.pairs a).key).nodup h.keys
  rw [List.map_cons, List.nodup_cons] at hkeys
  have hne : ∀ a ∈ groups'.flatMap Prod.snd, (t.pairs a).key ≠ (t.pairs pair).key := by
    intro a ha heq
    exact hkeys.1 (heq ▸ List.mem_map_of_mem ha)
  refine ⟨groups'.flatMap Prod.snd, ⟨groups', placed', List.Perm.refl _⟩, ?_, ?_, ?_, ?_, ?_,
    fun key value => ?_⟩
  · rw [same.pairs]
    exact fun a ha => h.hashed a (hmem a ha)
  · rw [same.pairs]
    exact hkeys.2
  · rw [hsize, h.size, hnodes.length_eq, List.length_cons, Nat.add_sub_cancel]
  · intro a ha
    rw [hallocated, List.mem_filter, decide_eq_true_iff]
    exact ⟨h.allocated a (hmem a ha), fun heq => hne a ha (by rw [heq])⟩
  · rw [same.numBuckets]
    exact h.prime
  · rw [same.pairs]
    rcases eq_or_ne key (t.pairs pair).key with rfl | hkey
    · rw [Function.update_self]
      exact iff_of_false (fun hvalue => Option.some_ne_none _ hvalue.symm)
        fun ⟨a, ha, heq, _⟩ => hne a ha heq
    · rw [Function.update_of_ne hkey, h.value]
      constructor
      · rintro ⟨a, ha, rfl, rfl⟩
        rcases List.mem_cons.mp (hnodes.mem_iff.mp ha) with rfl | ha
        · exact absurd rfl hkey
        · exact ⟨a, ha, rfl, rfl⟩
      · rintro ⟨a, ha, rfl, rfl⟩
        exact ⟨a, hmem a ha, rfl, rfl⟩

/-- A table without pairs. -/
theorem holds_empty (links : Links A) (first : t.first = fun _ => t.list)
    (last : t.last = fun _ => t.list) (hlinks : t.links = links.link t.list t.list)
    (hsize : t.size = 0) (hprime : t.numBuckets < primes.length) :
    Holds t (fun _ => none) [] := by
  refine ⟨⟨[], ?_, List.Perm.refl _⟩, ?_, List.nodup_nil, hsize, ?_, hprime, fun key value => ?_⟩
  · refine ⟨?_, List.nodup_nil, ?_, ?_, ?_, fun i _ => ?_⟩
    · rw [hlinks]
      exact Circular.empty links t.list
    · exact fun g hg => absurd hg List.not_mem_nil
    · exact fun g hg => absurd hg List.not_mem_nil
    · exact fun g hg => absurd hg List.not_mem_nil
    · rw [first, last]
      exact ⟨rfl, rfl⟩
  · exact fun a ha => absurd ha List.not_mem_nil
  · exact fun a ha => absurd ha List.not_mem_nil
  · exact iff_of_false (fun hvalue => Option.some_ne_none _ hvalue.symm)
      fun ⟨_, ha, _⟩ => absurd ha List.not_mem_nil

/-! Runs of calls, and the map that they make. -/

inductive Call (A V : Type) where
  | set (key : CStr) (serial : Nat) (value : V) (malloc : Option A)
  | del (key : CStr)
  | clear

def call (t : Hashtable A V) : Call A V → Option (Int × Hashtable A V)
  | .set key serial value malloc => t.set key serial value malloc
  | .del key => t.del key
  | .clear => some (0, t.clear)

def run (t : Hashtable A V) : List (Call A V) → Option (List Int × Hashtable A V)
  | [] => some ([], t)
  | c :: calls => do
      let (rc, t) ← t.call c
      let (rcs, t) ← t.run calls
      some (rc :: rcs, t)

/-- `jsonp_malloc` fails or returns memory that is not in use. -/
def Fresh (t : Hashtable A V) : Call A V → Prop
  | .set _ _ _ malloc => ∀ pair ∈ malloc, pair ≠ t.list ∧ pair ∉ t.allocated
  | _ => True

def FreshRun (t : Hashtable A V) : List (Call A V) → Prop
  | [] => True
  | c :: calls => t.Fresh c ∧ ∀ r ∈ t.call c, r.2.FreshRun calls

instance (t : Hashtable A V) : (c : Call A V) → Decidable (t.Fresh c)
  | .set _ _ _ malloc =>
      inferInstanceAs (Decidable (∀ pair ∈ malloc, pair ≠ t.list ∧ pair ∉ t.allocated))
  | .del _ => .isTrue trivial
  | .clear => .isTrue trivial

instance decidableFreshRun (t : Hashtable A V) :
    (calls : List (Call A V)) → Decidable (t.FreshRun calls)
  | [] => .isTrue trivial
  | c :: calls =>
      have := fun t' : Hashtable A V => decidableFreshRun t' calls
      inferInstanceAs (Decidable (t.Fresh c ∧ ∀ r ∈ t.call c, r.2.FreshRun calls))

/-- What a call does to the map: a value for a key that has none needs a new pair. -/
def mapCall (m : CStr → Option V) : Call A V → Int × (CStr → Option V)
  | .set key _ value malloc =>
      if (m key).isSome ∨ malloc.isSome then (0, Function.update m key (some value)) else (-1, m)
  | .del key => if (m key).isSome then (0, Function.update m key none) else (-1, m)
  | .clear => (0, fun _ => none)

def mapRun (m : CStr → Option V) : List (Call A V) → List Int × (CStr → Option V)
  | [] => ([], m)
  | c :: calls =>
      let (rcs, m') := mapRun (mapCall m c).2 calls
      ((mapCall m c).1 :: rcs, m')

theorem Holds.makeRoom (h : Holds t m nodes) (hsize : t.size < 1610612741) :
    ∃ t', t.makeRoom = some t' ∧ Holds t' m nodes ∧ t'.list = t.list ∧
      t'.allocated = t.allocated := by
  rw [Hashtable.makeRoom]
  split
  · rename_i hfull
    exact h.rehash hfull hsize
  · exact ⟨t, rfl, h, rfl, rfl⟩

theorem Holds.set (h : Holds t m nodes) (hsize : t.size < 1610612741) (key : CStr) (serial : Nat)
    (value : V) {malloc : Option A} (fresh : t.Fresh (.set key serial value malloc)) :
    ∃ t' nodes', t.set key serial value malloc =
        some ((mapCall m (.set key serial value malloc)).1, t') ∧
      Holds t' (mapCall m (.set key serial value malloc)).2 nodes' ∧ t'.size ≤ t.size + 1 := by
  obtain ⟨t1, hroom, h1, hlist, hallocated⟩ := h.makeRoom hsize
  have hsame : t1.size = t.size := h1.size.trans h.size.symm
  obtain ⟨found, hfound, hspec⟩ := h1.findPair key
  rw [Hashtable.set, hroom, Option.bind_eq_bind, Option.bind_some]
  dsimp only
  rw [hfound, Option.bind_eq_bind, Option.bind_some]
  cases found with
  | some a =>
      obtain ⟨ha, rfl⟩ := hspec
      have hvalue := h1.find_eq ha
      rw [mapCall, if_pos (Or.inl (by rw [hvalue]; rfl))]
      exact ⟨_, nodes, rfl, h1.setValue ha value, hsame.le.trans (Nat.le_succ _)⟩
  | none =>
      have hnone : m key = none := hspec
      cases malloc with
      | none =>
          rw [mapCall, if_neg (by simp [hnone])]
          exact ⟨t1, nodes, rfl, h1, hsame.le.trans (Nat.le_succ _)⟩
      | some pair =>
          obtain ⟨hne, hnew⟩ := fresh pair rfl
          rw [mapCall, if_pos (show (m key).isSome ∨ (some pair).isSome from Or.inr rfl)]
          have hinsert := h1.insert (by rwa [hlist]) (by rwa [hallocated]) hnone serial value
          refine ⟨_, pair :: nodes, rfl, hinsert, ?_⟩
          rw [hinsert.size, h.size, List.length_cons]

theorem Holds.del (h : Holds t m nodes) (key : CStr) :
    ∃ t' nodes', t.del key = some ((mapCall m (Call.del (A := A) key)).1, t') ∧
      Holds t' (mapCall m (Call.del (A := A) key)).2 nodes' ∧ t'.size ≤ t.size + 1 := by
  obtain ⟨found, hfound, hspec⟩ := h.findPair key
  rw [Hashtable.del, hfound, Option.bind_eq_bind, Option.bind_some]
  cases found with
  | some a =>
      obtain ⟨ha, rfl⟩ := hspec
      have hvalue := h.find_eq ha
      rw [mapCall, if_pos (by rw [hvalue]; rfl)]
      obtain ⟨nodes', hholds⟩ := h.unlinkPair ha
      refine ⟨_, nodes', rfl, hholds, ?_⟩
      rw [(unlinkPair_same _ _ _).2.2]
      omega
  | none =>
      have hnone : m key = none := hspec
      rw [mapCall, if_neg (by rw [hnone]; exact Bool.false_ne_true)]
      exact ⟨t, nodes, rfl, h, Nat.le_succ _⟩

theorem Holds.call (h : Holds t m nodes) (hsize : t.size < 1610612741) {c : Call A V}
    (fresh : t.Fresh c) :
    ∃ t' nodes', t.call c = some ((mapCall m c).1, t') ∧ Holds t' (mapCall m c).2 nodes' ∧
      t'.size ≤ t.size + 1 := by
  cases c with
  | set key serial value malloc => exact h.set hsize key serial value fresh
  | del key => exact h.del key
  | clear =>
      exact ⟨t.clear, [], rfl, holds_empty t.links rfl rfl rfl rfl h.prime, Nat.zero_le _⟩

theorem Holds.run (h : Holds t m nodes) {calls : List (Call A V)} (fresh : t.FreshRun calls)
    (hlen : t.size + calls.length ≤ 1610612741) :
    ∃ t' nodes', t.run calls = some ((mapRun m calls).1, t') ∧
      Holds t' (mapRun m calls).2 nodes' := by
  induction calls generalizing t m nodes with
  | nil => exact ⟨t, nodes, rfl, h⟩
  | cons c calls ih =>
      rw [List.length_cons] at hlen
      obtain ⟨t1, nodes1, hcall, h1, hsize1⟩ := h.call (by omega) fresh.1
      obtain ⟨t', nodes', hrun, h'⟩ := ih h1 (fresh.2 _ hcall) (by omega)
      refine ⟨t', nodes', ?_, h'⟩
      rw [Hashtable.run, hcall, Option.bind_eq_bind, Option.bind_some]
      dsimp only
      rw [hrun, Option.bind_eq_bind, Option.bind_some]
      rfl

/-! Going over a table. -/

theorem iterFrom_walk {list : A} {rest : List A} (walk : Walk t.links t.list list rest)
    (apart : t.list ∉ rest) {fuel : Nat} (hfuel : rest.length ≤ fuel) :
    t.iterFrom fuel list = some rest := by
  induction rest generalizing list fuel with
  | nil =>
      have hlist : list = t.list := walk
      cases fuel with
      | zero => rw [iterFrom, if_pos hlist]
      | succ fuel => rw [iterFrom, if_pos hlist]
  | cons a rest ih =>
      obtain ⟨fuel, rfl⟩ := Nat.exists_eq_add_of_le' (Nat.lt_of_lt_of_le (Nat.succ_pos _) hfuel)
      obtain ⟨rfl, walk⟩ := walk
      rw [List.mem_cons, not_or] at apart
      rw [iterFrom, if_neg (Ne.symm apart.1),
        ih walk apart.2 (Nat.le_of_succ_le_succ hfuel), Option.map_some]

theorem Holds.entries_eq (h : Holds t m nodes) :
    ∃ entries, t.entries = some entries ∧ (entries.map Prod.fst).Nodup ∧
      entries.length = t.size ∧ ∀ key value, m key = some value ↔ (key, value) ∈ entries := by
  obtain ⟨groups, placed, hperm⟩ := h.placed
  have hiter : t.iterFrom t.size (t.links.next t.list) = _ :=
    iterFrom_walk placed.circular.linked.walk (List.nodup_cons.mp placed.circular.nodup).1
      (Nat.le_of_eq (hperm.length_eq.trans h.size.symm))
  refine ⟨_, by rw [entries, hiter, Option.map_some], ?_, ?_, fun key value => ?_⟩
  · rw [List.map_map]
    exact ((hperm.map fun a => (t.pairs a).key).nodup_iff).mpr h.keys
  · rw [List.length_map, hperm.length_eq, h.size]
  · rw [h.value, List.mem_map]
    constructor
    · rintro ⟨a, ha, rfl, rfl⟩
      exact ⟨a, hperm.mem_iff.mpr ha, rfl⟩
    · rintro ⟨a, ha, heq⟩
      cases heq
      exact ⟨a, hperm.mem_iff.mp ha, rfl, rfl⟩

theorem holds_run (list : A) (memory : Links A) (pairs : A → Pair V) {calls : List (Call A V)}
    (fresh : (init list memory pairs).FreshRun calls) (hlen : calls.length ≤ 1610612741) :
    ∃ t nodes, (init list memory pairs).run calls = some ((mapRun (fun _ => none) calls).1, t) ∧
      Holds t (mapRun (fun _ => none) calls).2 nodes := by
  have start : Holds (init list memory pairs) (fun _ => none) [] :=
    holds_empty memory rfl rfl rfl rfl (Nat.succ_pos 28)
  exact start.run fresh (by rw [init, Nat.zero_add]; exact hlen)

/-- Whatever calls are made of a table, from its start on and over any memory, it is the map that
they make: what they return, what `hashtable_get` finds, and the pairs that a walk over the table
visits, each once. -/
theorem run_refines (list : A) (memory : Links A) (pairs : A → Pair V) {calls : List (Call A V)}
    (fresh : (init list memory pairs).FreshRun calls) (hlen : calls.length ≤ 1610612741) :
    ∃ t, (init list memory pairs).run calls = some ((mapRun (fun _ => none) calls).1, t) ∧
      (∀ key, t.get key = some ((mapRun (fun _ => none) calls).2 key)) ∧
      ∃ entries, t.entries = some entries ∧ (entries.map Prod.fst).Nodup ∧
        entries.length = t.size ∧
        ∀ key value, (mapRun (fun _ => none) calls).2 key = some value ↔
          (key, value) ∈ entries := by
  obtain ⟨t, nodes, hrun, h⟩ := holds_run list memory pairs fresh hlen
  exact ⟨t, hrun, h.get_eq, h.entries_eq⟩

/-- Seven keys in a table of five buckets: the sixth makes it grow, the first is set again and the
second taken out over the new buckets, and the last allocation fails. -/
theorem run_refines_rehash :
    let calls : List (Call Nat Nat) :=
      [.set [97] 0 1 (some 1), .set [98] 1 2 (some 2), .set [99] 2 3 (some 3),
        .set [100] 3 4 (some 4), .set [101] 4 5 (some 5), .set [102] 5 6 (some 6),
        .set [103] 6 7 (some 7), .set [97] 7 8 none, .del [98], .set [104] 8 9 none]
    let start : Hashtable Nat Nat := init 0 ⟨fun _ => 7, fun _ => 7⟩ fun _ => ⟨0, 0, [], 0⟩
    ∃ t, start.run calls = some ((mapRun (fun _ => none) calls).1, t) ∧
      (∀ key, t.get key = some ((mapRun (fun _ => none) calls).2 key)) ∧
      ∃ entries, t.entries = some entries ∧ (entries.map Prod.fst).Nodup ∧
        entries.length = t.size ∧
        ∀ key value, (mapRun (fun _ => none) calls).2 key = some value ↔
          (key, value) ∈ entries := by
  intro calls start
  exact run_refines 0 _ _ (by decide +kernel) (by decide)

/-! The members of an object. -/

/-- What the calls of `json_object_set_new_nocheck`, `json_object_del` and `json_object_clear` make
of the members of an object. -/
def memberCall (members : List (CStr × Json)) : Call A Json → List (CStr × Json)
  | .set key _ value malloc =>
      if key ∈ members.map (·.1) ∨ malloc.isSome then jsonObjectSet members key value else members
  | .del key => members.filter (·.1 ≠ key)
  | .clear => []

/-- The members are those of the map, each key once. -/
structure Members (m : CStr → Option Json) (members : List (CStr × Json)) : Prop where
  keys : (members.map (·.1)).Nodup
  value : ∀ key value, m key = some value ↔ (key, value) ∈ members

theorem mem_jsonObjectSet_iff {members : List (CStr × Json)} (keys : (members.map (·.1)).Nodup)
    (key : CStr) (value : Json) (member : CStr × Json) :
    member ∈ jsonObjectSet members key value ↔
      member = (key, value) ∨ member.1 ≠ key ∧ member ∈ members := by
  induction members with
  | nil => simp [jsonObjectSet]
  | cons first members ih =>
      obtain ⟨hfirst, hkeys⟩ := List.nodup_cons.mp keys
      rw [jsonObjectSet]
      split
      · rename_i heq
        rw [beq_iff_eq] at heq
        have hother : member ∈ members → member.1 ≠ key := by
          rintro hmem rfl
          exact hfirst (List.mem_map.mpr ⟨member, hmem, heq.symm⟩)
        rw [List.mem_cons, List.mem_cons]
        constructor
        · rintro (rfl | hmem)
          · exact Or.inl rfl
          · exact Or.inr ⟨hother hmem, Or.inr hmem⟩
        · rintro (rfl | ⟨hne, rfl | hmem⟩)
          · exact Or.inl rfl
          · exact absurd heq hne
          · exact Or.inr hmem
      · rename_i hne
        rw [beq_iff_eq] at hne
        rw [List.mem_cons, List.mem_cons, ih hkeys]
        constructor
        · rintro (rfl | rfl | ⟨hmember, hmem⟩)
          · exact Or.inr ⟨hne, Or.inl rfl⟩
          · exact Or.inl rfl
          · exact Or.inr ⟨hmember, Or.inr hmem⟩
        · rintro (rfl | ⟨hmember, rfl | hmem⟩)
          · exact Or.inr (Or.inl rfl)
          · exact Or.inl rfl
          · exact Or.inr (Or.inr ⟨hmember, hmem⟩)

theorem Members.isSome_iff {m : CStr → Option Json} {members : List (CStr × Json)}
    (h : Members m members) (key : CStr) : (m key).isSome ↔ key ∈ members.map (·.1) := by
  rw [Option.isSome_iff_exists, List.mem_map]
  constructor
  · rintro ⟨value, hvalue⟩
    exact ⟨(key, value), (h.value key value).mp hvalue, rfl⟩
  · rintro ⟨⟨_, value⟩, hmem, rfl⟩
    exact ⟨value, (h.value _ value).mpr hmem⟩

omit [DecidableEq A] in
theorem Members.call {m : CStr → Option Json} {members : List (CStr × Json)}
    (h : Members m members) (c : Call A Json) : Members (mapCall m c).2 (memberCall members c) := by
  cases c with
  | set key serial value malloc =>
      have hiff := h.isSome_iff key
      rw [mapCall, memberCall]
      by_cases hset : (m key).isSome ∨ malloc.isSome
      · rw [if_pos hset, if_pos (hset.imp_left hiff.mp)]
        refine ⟨?_, fun key' value' => ?_⟩
        · rw [keys_jsonObjectSet]
          split
          · exact h.keys
          · rename_i hmem
            refine List.nodup_append.mpr ⟨h.keys,
              List.nodup_cons.mpr ⟨List.not_mem_nil, List.nodup_nil⟩, fun a ha b hb hab => ?_⟩
            rw [List.mem_singleton] at hb
            exact hmem (hb ▸ hab ▸ ha)
        · rw [mem_jsonObjectSet_iff h.keys, Prod.mk.injEq, ← h.value]
          dsimp only
          rcases eq_or_ne key' key with rfl | hne
          · rw [Function.update_self, Option.some.injEq]
            simp [eq_comm]
          · rw [Function.update_of_ne hne]
            simp [hne]
      · rw [if_neg hset, if_neg fun hor => hset (hor.imp_left hiff.mpr)]
        exact h
  | del key =>
      rw [mapCall, memberCall]
      split
      · refine ⟨(h.keys.sublist (List.filter_sublist.map _)), fun key' value' => ?_⟩
        rw [List.mem_filter, ← h.value, decide_eq_true_iff]
        dsimp only
        rcases eq_or_ne key' key with rfl | hne
        · rw [Function.update_self]
          simp
        · rw [Function.update_of_ne hne]
          simp [hne]
      · rename_i hnone
        have hall : members.filter (·.1 ≠ key) = members := by
          refine List.filter_eq_self.mpr fun member hmem => ?_
          rw [decide_eq_true_iff]
          rintro rfl
          exact hnone ((h.isSome_iff _).mpr (List.mem_map_of_mem hmem))
        rw [hall]
        exact h
  | clear => exact ⟨List.nodup_nil, fun key value => by simp [mapCall, memberCall]⟩

omit [DecidableEq A] in
theorem Members.run {m : CStr → Option Json} {members : List (CStr × Json)} (h : Members m members)
    (calls : List (Call A Json)) : Members (mapRun m calls).2 (calls.foldl memberCall members) := by
  induction calls generalizing m members with
  | nil => exact h
  | cons c calls ih => exact ih (h.call c)

theorem Members.find_eq {m : CStr → Option Json} {members : List (CStr × Json)}
    (h : Members m members) (key : CStr) :
    m key = jsonObjectGet (some (.object members)) key := by
  rw [jsonObjectGet]
  cases hfound : members.find? fun member => member.1 == key with
  | some member =>
      have hkey := List.find?_some hfound
      rw [beq_iff_eq] at hkey
      subst hkey
      exact (h.value _ _).mpr (List.mem_of_find?_eq_some hfound)
  | none =>
      cases hvalue : m key with
      | none => rfl
      | some value =>
          have hmem := (h.value key value).mp hvalue
          exact absurd (beq_self_eq_true key) (List.find?_eq_none.mp hfound _ hmem)

/-- An object is the list of its members: whatever calls are made of its table, `json_object_get`
finds what the list has, and a walk over the table visits the members of the list, in some
order. -/
theorem object_refines (list : A) (memory : Links A) (pairs : A → Pair Json)
    {calls : List (Call A Json)} (fresh : (init list memory pairs).FreshRun calls)
    (hlen : calls.length ≤ 1610612741) :
    ∃ rcs t entries, (init list memory pairs).run calls = some (rcs, t) ∧
      (∀ key, t.get key =
        some (jsonObjectGet (some (.object (calls.foldl memberCall []))) key)) ∧
      t.entries = some entries ∧ entries.Perm (calls.foldl memberCall []) := by
  obtain ⟨t, nodes, hrun, h⟩ := holds_run list memory pairs fresh hlen
  have hstart : Members (fun _ => none) [] := ⟨List.nodup_nil, fun key value => by simp⟩
  have hmembers := hstart.run calls
  obtain ⟨entries, hentries, hkeys, -, hvalue⟩ := h.entries_eq
  refine ⟨_, t, entries, hrun, fun key => ?_, hentries, ?_⟩
  · rw [h.get_eq, hmembers.find_eq]
  · refine (List.perm_ext_iff_of_nodup hkeys.of_map hmembers.keys.of_map).mpr ?_
    rintro ⟨key, value⟩
    rw [← hvalue, hmembers.value]

theorem object_refines_rehash :
    let calls : List (Call Nat Json) :=
      [.set [97] 0 .null (some 1), .set [98] 1 (.bool true) (some 2),
        .set [99] 2 (.integer 3) (some 3), .set [100] 3 .null (some 4),
        .set [101] 4 (.bool false) (some 5), .set [102] 5 (.integer 6) (some 6),
        .del [99], .set [97] 6 (.integer 7) none]
    let start : Hashtable Nat Json :=
      init 0 ⟨fun _ => 7, fun _ => 7⟩ fun _ => ⟨0, 0, [], .null⟩
    ∃ rcs t entries, start.run calls = some (rcs, t) ∧
      (∀ key, t.get key =
        some (jsonObjectGet (some (.object (calls.foldl memberCall []))) key)) ∧
      t.entries = some entries ∧ entries.Perm (calls.foldl memberCall []) :=
  object_refines 0 _ _ (by decide +kernel) (by decide)

end SojCivicLight.Jansson.Hashtable
