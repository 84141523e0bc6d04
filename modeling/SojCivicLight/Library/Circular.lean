import Mathlib.Data.List.Nodup
import Mathlib.Logic.Function.Basic

/-! Circular doubly linked lists in a memory of next and previous pointers. -/

namespace SojCivicLight.Library

variable {A : Type} [DecidableEq A]

structure Links (A : Type) where
  next : A → A
  prev : A → A

/-- Make `b` follow `a`. -/
def Links.link (links : Links A) (a b : A) : Links A where
  next := Function.update links.next a b
  prev := Function.update links.prev b a

/-- The nodes between `a` and `b`, each linked with the one before it in both directions. -/
def Segment (links : Links A) (a : A) : List A → A → Prop
  | [], b => links.next a = b ∧ links.prev b = a
  | x :: xs, b => (links.next a = x ∧ links.prev x = a) ∧ Segment links x xs b

/-- The list of a head: its nodes in order, from the head back to the head. -/
structure Circular (links : Links A) (head : A) (nodes : List A) : Prop where
  linked : Segment links head nodes head
  nodup : (head :: nodes).Nodup

namespace Segment

omit [DecidableEq A] in
theorem split {links : Links A} {a b x : A} {xs ys : List A} :
    Segment links a (xs ++ x :: ys) b ↔ Segment links a xs x ∧ Segment links x ys b := by
  induction xs generalizing a with
  | nil => rfl
  | cons y xs ih =>
      rw [List.cons_append, Segment, Segment, ih, ← and_assoc]

omit [DecidableEq A] in
/-- A segment depends on the next pointers up to its last node and on the previous ones from
its first node on. -/
theorem frame {links links' : Links A} {a b : A} {xs : List A} (h : Segment links a xs b)
    (next : ∀ x ∈ a :: xs, links'.next x = links.next x)
    (prev : ∀ x ∈ b :: xs, links'.prev x = links.prev x) : Segment links' a xs b := by
  induction xs generalizing a with
  | nil =>
      rw [List.forall_mem_singleton] at next prev
      exact ⟨next.trans h.1, prev.trans h.2⟩
  | cons x xs ih =>
      rw [List.forall_mem_cons] at next
      rw [List.forall_mem_cons, List.forall_mem_cons] at prev
      refine ⟨⟨next.1.trans h.1.1, prev.2.1.trans h.1.2⟩, ih h.2 next.2 ?_⟩
      exact List.forall_mem_cons.mpr ⟨prev.1, prev.2.2⟩

theorem link_frame {links : Links A} {a b p n : A} {xs : List A} (h : Segment links a xs b)
    (hp : p ∉ a :: xs) (hn : n ∉ b :: xs) : Segment (links.link p n) a xs b := by
  apply h.frame
  · intro x hx
    exact Function.update_of_ne (ne_of_mem_of_not_mem hx hp) n links.next
  · intro x hx
    exact Function.update_of_ne (ne_of_mem_of_not_mem hx hn) p links.prev

theorem link_self (links : Links A) (a b : A) : Segment (links.link a b) a [] b :=
  And.intro (by exact Function.update_self a b links.next)
    (by exact Function.update_self b a links.prev)

end Segment

namespace Circular

variable {links : Links A} {head : A} {nodes : List A}

omit [DecidableEq A] in
theorem frame {links' : Links A} (h : Circular links head nodes)
    (next : ∀ x ∈ head :: nodes, links'.next x = links.next x)
    (prev : ∀ x ∈ head :: nodes, links'.prev x = links.prev x) : Circular links' head nodes :=
  ⟨h.linked.frame next prev, h.nodup⟩

theorem empty (links : Links A) (head : A) : Circular (links.link head head) head [] :=
  ⟨Segment.link_self links head head, List.pairwise_singleton _ head⟩

omit [DecidableEq A] in
theorem next_eq_head_iff (h : Circular links head nodes) :
    links.next head = head ↔ nodes = [] := by
  cases nodes with
  | nil => exact iff_of_true h.linked.1 rfl
  | cons x nodes =>
      have hne : head ≠ x := fun heq =>
        (List.nodup_cons.mp h.nodup).1 (heq ▸ List.mem_cons_self ..)
      refine iff_of_false (fun heq => hne ?_) (List.cons_ne_nil x nodes)
      exact heq.symm.trans h.linked.1.1

omit [DecidableEq A] in
theorem prev_mem (h : Circular links head nodes) : links.prev head ∈ head :: nodes := by
  rcases List.eq_nil_or_concat nodes with rfl | ⟨front, last, rfl⟩
  · rw [h.linked.2]
    exact List.mem_cons_self
  · rw [List.concat_eq_append] at h ⊢
    have hprev : links.prev head = last := (Segment.split.mp h.linked).2.2
    rw [hprev]
    exact List.mem_cons_of_mem head (List.mem_append_right front (List.mem_singleton_self last))

/-- A new node between the last one and the head. -/
theorem insert_last {node : A} (h : Circular links head nodes) (hnode : node ∉ head :: nodes) :
    Circular ((links.link node head).link (links.prev head) node) head (nodes ++ [node]) := by
  have hnew : node ≠ head := List.ne_of_not_mem_cons hnode
  have nodup : ((head :: nodes) ++ [node]).Nodup :=
    List.nodup_append_comm.mp (List.nodup_cons.mpr ⟨hnode, h.nodup⟩)
  refine ⟨?_, nodup⟩
  rcases List.eq_nil_or_concat nodes with rfl | ⟨front, last, rfl⟩
  · have hprev : links.prev head = head := h.linked.2
    rw [hprev]
    refine ⟨Segment.link_self _ head node, Segment.link_frame (Segment.link_self ..) ?_ ?_⟩
    · rw [List.mem_singleton]
      exact hnew.symm
    · rwa [List.mem_singleton]
  · rw [List.concat_eq_append] at h hnode ⊢
    obtain ⟨hfront, hlast⟩ := Segment.split.mp h.linked
    have hprev : links.prev head = last := hlast.2
    obtain ⟨hhead, hnodes⟩ := List.nodup_cons.mp h.nodup
    have hdistinct : last ∉ front :=
      (List.nodup_cons.mp (List.nodup_append_comm.mp hnodes)).1
    simp only [List.mem_append, List.mem_cons, List.not_mem_nil, or_false, not_or] at hhead hnode
    rw [hprev, List.append_assoc, List.singleton_append, Segment.split]
    refine ⟨(hfront.link_frame ?_ ?_).link_frame ?_ ?_, Segment.link_self _ last node,
      Segment.link_frame (Segment.link_self ..) ?_ ?_⟩
    all_goals
      simp only [List.mem_cons, List.not_mem_nil, or_false, not_or]
    · exact ⟨hnew, hnode.2.1⟩
    · exact ⟨hhead.2, hhead.1⟩
    · exact ⟨Ne.symm hhead.2, hdistinct⟩
    · exact ⟨hnode.2.2, hnode.2.1⟩
    · exact Ne.symm hnode.2.2
    · exact hnew

/-- The first node taken out. -/
theorem remove_first {x : A} (h : Circular links head (x :: nodes)) :
    Circular (links.link (links.prev x) (links.next x)) head nodes := by
  obtain ⟨hfirst, hrest⟩ := h.linked
  obtain ⟨hhead, hnodes⟩ := List.nodup_cons.mp h.nodup
  have hx := List.nodup_cons.mp hnodes
  rw [List.mem_cons, not_or] at hhead
  rw [hfirst.2]
  refine ⟨?_, List.nodup_cons.mpr ⟨hhead.2, hx.2⟩⟩
  cases nodes with
  | nil =>
      rw [hrest.1]
      exact Segment.link_self links head head
  | cons y ys =>
      rw [hrest.1.1]
      have hy := List.nodup_cons.mp hx.2
      rw [List.mem_cons, not_or] at hhead
      refine ⟨Segment.link_self links head y, hrest.2.link_frame ?_ ?_⟩
      · rw [List.mem_cons, not_or]
        exact hhead.2
      · rw [List.mem_cons, not_or]
        exact ⟨Ne.symm hhead.2.1, hy.1⟩

end Circular

/-! Insertion and removal anywhere. -/

/-- `node` put before `list`, write by write. -/
def Links.insert (links : Links A) (list node : A) : Links A :=
  let links := { links with next := Function.update links.next node list }
  let links := { links with prev := Function.update links.prev node (links.prev list) }
  let links := { links with next := Function.update links.next (links.prev list) node }
  { links with prev := Function.update links.prev list node }

/-- `list` taken out, write by write. -/
def Links.remove (links : Links A) (list : A) : Links A :=
  let links :=
    { links with next := Function.update links.next (links.prev list) (links.next list) }
  { links with prev := Function.update links.prev (links.next list) (links.prev list) }

theorem Links.insert_eq (links : Links A) {list node : A} (h : node ≠ list) :
    links.insert list node = (links.link node list).link (links.prev list) node := by
  have hprev : Function.update links.prev node (links.prev list) list = links.prev list :=
    Function.update_of_ne h.symm _ _
  unfold Links.insert Links.link
  dsimp only
  rw [hprev, Function.update_comm h.symm]

theorem Links.remove_eq (links : Links A) {list : A} (h : links.prev list ≠ list) :
    links.remove list = links.link (links.prev list) (links.next list) := by
  have hnext : Function.update links.next (links.prev list) (links.next list) list =
      links.next list := Function.update_of_ne h.symm _ _
  unfold Links.remove Links.link
  dsimp only
  rw [hnext]

namespace Circular

variable {links : Links A} {head : A}

omit [DecidableEq A] in
/-- Any node may stand for the head. -/
theorem rotate {x : A} {xs ys : List A} (h : Circular links head (xs ++ x :: ys)) :
    Circular links x (ys ++ head :: xs) := by
  obtain ⟨hfront, hback⟩ := Segment.split.mp h.linked
  have hperm : (head :: xs ++ x :: ys).Perm (x :: ys ++ head :: xs) := List.perm_append_comm
  exact ⟨Segment.split.mpr ⟨hback, hfront⟩, hperm.nodup h.nodup⟩

theorem insert_tail {node : A} {nodes : List A} (h : Circular links head nodes)
    (hnode : node ∉ head :: nodes) : Circular (links.insert head node) head (nodes ++ [node]) := by
  rw [links.insert_eq (List.ne_of_not_mem_cons hnode)]
  exact h.insert_last hnode

theorem insert_before {list node : A} {xs ys : List A} (h : Circular links head (xs ++ list :: ys))
    (hnode : node ∉ head :: (xs ++ list :: ys)) :
    Circular (links.insert list node) head (xs ++ node :: list :: ys) := by
  have hperm : (head :: xs ++ list :: ys).Perm (list :: ys ++ head :: xs) := List.perm_append_comm
  have hfree : node ∉ list :: (ys ++ head :: xs) := fun hmem => hnode (hperm.mem_iff.mpr hmem)
  have hnew := h.rotate.insert_tail hfree
  rw [List.append_assoc, List.cons_append] at hnew
  have hback := hnew.rotate
  rwa [List.append_assoc, List.singleton_append] at hback

theorem remove {x : A} {xs ys : List A} (h : Circular links head (xs ++ x :: ys)) :
    Circular (links.remove x) head (xs ++ ys) := by
  rcases List.eq_nil_or_concat xs with rfl | ⟨front, last, rfl⟩
  · have hprev : links.prev x = head := h.linked.1.2
    have hne : links.prev x ≠ x := by
      rw [hprev]
      exact List.ne_of_not_mem_cons (List.nodup_cons.mp h.nodup).1
    rw [links.remove_eq hne]
    exact h.remove_first
  · rw [List.concat_eq_append, List.append_assoc, List.singleton_append] at h ⊢
    have hturned := h.rotate
    rw [List.cons_append] at hturned
    have hprev : links.prev x = last := hturned.linked.1.2
    have hne : links.prev x ≠ x := by
      rw [hprev]
      exact List.ne_of_not_mem_cons (List.nodup_cons.mp hturned.nodup).1
    rw [links.remove_eq hne]
    exact hturned.remove_first.rotate

omit [DecidableEq A] in
theorem next_eq {x y : A} {xs ys : List A} (h : Circular links head (xs ++ x :: y :: ys)) :
    links.next x = y :=
  (Segment.split.mp h.linked).2.1.1

omit [DecidableEq A] in
theorem prev_eq {x y : A} {xs ys : List A} (h : Circular links head (xs ++ x :: y :: ys)) :
    links.prev y = x :=
  (Segment.split.mp h.linked).2.1.2

omit [DecidableEq A] in
theorem prev_mem_of {x : A} {nodes : List A} (h : Circular links head nodes)
    (hx : x ∈ head :: nodes) : links.prev x ∈ head :: nodes := by
  rcases List.mem_cons.mp hx with rfl | hx
  · exact h.prev_mem
  · obtain ⟨xs, ys, rfl⟩ := List.append_of_mem hx
    have hperm : (head :: xs ++ x :: ys).Perm (x :: ys ++ head :: xs) := List.perm_append_comm
    exact hperm.mem_iff.mpr h.rotate.prev_mem

end Circular

theorem Links.next_insert (links : Links A) {list node x : A} (hnode : node ≠ list)
    (hx : x ≠ node) (hprev : x ≠ links.prev list) :
    (links.insert list node).next x = links.next x := by
  rw [links.insert_eq hnode]
  exact (Function.update_of_ne hprev _ _).trans (Function.update_of_ne hx _ _)

/-- The nodes that a walk along the next pointers comes to before `stop`. -/
def Walk (links : Links A) (stop : A) : A → List A → Prop
  | a, [] => a = stop
  | a, x :: xs => a = x ∧ Walk links stop (links.next x) xs

omit [DecidableEq A] in
theorem Segment.walk {links : Links A} {a b : A} {xs : List A} (h : Segment links a xs b) :
    Walk links b (links.next a) xs := by
  induction xs generalizing a with
  | nil => exact h.1
  | cons x xs ih => exact ⟨h.1.1, ih h.2⟩

omit [DecidableEq A] in
theorem Walk.frame {links links' : Links A} {stop a : A} {xs : List A} (h : Walk links stop a xs)
    (next : ∀ x ∈ xs, links'.next x = links.next x) : Walk links' stop a xs := by
  induction xs generalizing a with
  | nil => exact h
  | cons x xs ih =>
      rw [List.forall_mem_cons] at next
      refine ⟨h.1, ?_⟩
      rw [next.1]
      exact ih h.2 next.2

end SojCivicLight.Library
