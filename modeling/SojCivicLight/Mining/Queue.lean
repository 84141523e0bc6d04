import SojCivicLight.Library.Circular
import SojCivicLight.Library.Run

/-! The queues between the threads. -/

namespace SojCivicLight.Mining

open SojCivicLight.Library

/-- An address, with zero for `NULL`; an entry is named by the address of its `q_node`. -/
abbrev Addr := Nat

/-! The list operations of `elist.h`, write by write. -/

section Elist

variable (links : Links Addr)

def initListHead (ptr : Addr) : Links Addr where
  next := Function.update links.next ptr ptr
  prev := Function.update links.prev ptr ptr

def listAdd (node prev next : Addr) : Links Addr where
  next := Function.update (Function.update links.next node next) prev node
  prev := Function.update (Function.update links.prev next node) node prev

def listAddTail (node head : Addr) : Links Addr :=
  listAdd links node (links.prev head) head

def listDelBetween (prev next : Addr) : Links Addr where
  next := Function.update links.next prev next
  prev := Function.update links.prev next prev

def listDel (entry : Addr) : Links Addr :=
  let links := listDelBetween links (links.prev entry) (links.next entry)
  { next := Function.update links.next entry 0, prev := Function.update links.prev entry 0 }

def listEmpty (head : Addr) : Bool := links.next head = head

end Elist

/-! The queue; each of its operations is one critical section. -/

variable {α : Type}

/-- A queue and the memory of its entries. -/
structure ThreadQ (α : Type) where
  links : Links Addr
  data : Addr → α
  allocated : List Addr
  frozen : Bool
  stop : Bool

inductive PopResult (α : Type) where
  | waits
  | timedOut
  | stopped
  | corrupt
  | item (data : α)

variable (q : Addr)

/-- `tq_new`, in any memory. -/
def tqNew (memory : Links Addr) (data : Addr → α) : ThreadQ α where
  links := initListHead memory q
  data := data
  allocated := []
  frozen := false
  stop := false

/-- `tq_freezethaw` -/
def tqFreezethaw (tq : ThreadQ α) (frozen : Bool) : ThreadQ α := { tq with frozen }

def tqFreeze (tq : ThreadQ α) : ThreadQ α := tqFreezethaw tq true

def free (tq : ThreadQ α) (ent : Addr) : ThreadQ α :=
  { tq with allocated := tq.allocated.filter (· ≠ ent) }

/-- `tq_push`, with what `calloc` returns. -/
def tqPush (tq : ThreadQ α) (calloc : Option Addr) (data : α) : Bool × ThreadQ α :=
  match calloc with
  | none => (false, tq)
  | some ent =>
      let tq :=
        { tq with
          allocated := ent :: tq.allocated
          data := Function.update tq.data ent data
          links := initListHead tq.links ent }
      if !tq.frozen then (true, { tq with links := listAddTail tq.links ent q })
      else (false, free tq ent)

/-- `tq_pop` from one look at the list to its return or its next look; `rc` is what waiting for
the condition returns, when it waits.  The check of `ent` after `list_entry` is not here: an entry
goes by the address of its `q_node`, and that of an entry at `NULL` is none that `calloc` gives. -/
def tqPop (tq : ThreadQ α) (rc : Int) : PopResult α × ThreadQ α :=
  if listEmpty tq.links q && !tq.stop then (if rc ≠ 0 then .timedOut else .waits, tq)
  else if listEmpty tq.links q then (.stopped, tq)
  else if tq.links.next q = 0 ∨ tq.links.prev q = 0 then (.corrupt, tq)
  else if tq.links.next q = q then (.corrupt, tq)
  else
    let ent := tq.links.next q
    let tq := { tq with links := listDel tq.links ent }
    (.item (tq.data ent), free tq ent)

/-! Runs: any interleaving of the operations of any threads. -/

inductive QueueEvent (α : Type) where
  | push (calloc : Option Addr) (data : α)
  | pop (rc : Int)
  | freeze

/-- A queue with the data of the pushes that returned true and of the pops, in their order. -/
structure QueueRun (α : Type) where
  tq : ThreadQ α
  pushed : List α
  popped : List α

def queueStart (memory : Links Addr) (data : Addr → α) : QueueRun α :=
  ⟨tqNew q memory data, [], []⟩

/-- `calloc` fails or returns memory that is not in use. -/
def Fresh (tq : ThreadQ α) (calloc : Option Addr) : Prop :=
  ∀ ent ∈ calloc, ent ≠ 0 ∧ ent ≠ q ∧ ent ∉ tq.allocated

instance (tq : ThreadQ α) (calloc : Option Addr) : Decidable (Fresh q tq calloc) :=
  inferInstanceAs (Decidable (∀ ent ∈ calloc, _))

def queueStep (s : QueueRun α) : QueueEvent α → Option (QueueRun α)
  | .push calloc data =>
      if Fresh q s.tq calloc then
        let (rc, tq) := tqPush q s.tq calloc data
        some { s with tq, pushed := if rc then s.pushed ++ [data] else s.pushed }
      else none
  | .pop rc =>
      let (result, tq) := tqPop q s.tq rc
      some
        { s with
          tq
          popped := match result with
            | .item data => s.popped ++ [data]
            | _ => s.popped }
  | .freeze => some { s with tq := tqFreeze s.tq }

/-! The list is well formed, and holds what was pushed and not popped yet. -/

structure Queued (s : QueueRun α) (ents : List Addr) : Prop where
  circular : Circular s.tq.links q ents
  nonnull : ∀ ent ∈ q :: ents, ent ≠ 0
  allocated : ∀ ent, ent ∈ s.tq.allocated ↔ ent ∈ ents
  running : s.tq.stop = false
  pushed : s.pushed = s.popped ++ ents.map s.tq.data

/-- Nothing of the queue has changed: neither its flags and links nor its entries. -/
structure SameQueue (tq tq' : ThreadQ α) : Prop where
  frozen : tq'.frozen = tq.frozen
  stop : tq'.stop = tq.stop
  allocated : tq'.allocated = tq.allocated
  next : ∀ ptr ∈ q :: tq.allocated, tq'.links.next ptr = tq.links.next ptr
  prev : ∀ ptr ∈ q :: tq.allocated, tq'.links.prev ptr = tq.links.prev ptr
  data : ∀ ptr ∈ tq.allocated, tq'.data ptr = tq.data ptr

variable {q} {s : QueueRun α} {ents : List Addr}

theorem queued_start (hq : q ≠ 0) (memory : Links Addr) (data : Addr → α) :
    Queued q (queueStart q memory data) [] where
  circular := Circular.empty memory q
  nonnull := List.forall_mem_singleton.mpr hq
  allocated _ := Iff.rfl
  running := rfl
  pushed := rfl

theorem Queued.not_mem (h : Queued q s ents) {ent : Addr} (hne : ent ≠ q)
    (hnew : ent ∉ s.tq.allocated) : ent ∉ q :: ents := by
  rw [List.mem_cons, not_or]
  exact ⟨hne, fun hmem => hnew ((h.allocated ent).mpr hmem)⟩

/-- Memory that is not of the queue can be written. -/
theorem circular_initListHead {links : Links Addr} {ent : Addr} (h : Circular links q ents)
    (hnew : ent ∉ q :: ents) : Circular (initListHead links ent) q ents := by
  apply h.frame
  all_goals
    intro ptr hptr
    exact Function.update_of_ne (ne_of_mem_of_not_mem hptr hnew) _ _

theorem map_update_data {data : Addr → α} {ent : Addr} (hnew : ent ∉ ents) (value : α) :
    ents.map (Function.update data ent value) = ents.map data :=
  List.map_congr_left fun _ hmem =>
    Function.update_of_ne (ne_of_mem_of_not_mem hmem hnew) value data

theorem Queued.push (h : Queued q s ents) (hthawed : s.tq.frozen = false) {ent : Addr}
    (fresh : Fresh q s.tq (some ent)) (data : α) :
    (tqPush q s.tq (some ent) data).1 = true ∧
    Queued q ⟨(tqPush q s.tq (some ent) data).2, s.pushed ++ [data], s.popped⟩
      (ents ++ [ent]) := by
  obtain ⟨hnull, hhead, hnew⟩ := fresh ent rfl
  have hout := h.not_mem hhead hnew
  have hents : ent ∉ ents := fun hmem => hout (List.mem_cons_of_mem q hmem)
  have hpush : tqPush q s.tq (some ent) data = (true,
      { s.tq with
        allocated := ent :: s.tq.allocated
        data := Function.update s.tq.data ent data
        links := listAddTail (initListHead s.tq.links ent) ent q }) := by
    simp only [tqPush, hthawed, Bool.not_false, if_true]
  rw [hpush]
  refine ⟨rfl, ?_⟩
  constructor
  case circular => exact (circular_initListHead h.circular hout).insert_last hout
  case nonnull =>
    intro ptr hmem
    rw [← List.cons_append, List.mem_append, List.mem_singleton] at hmem
    rcases hmem with hmem | rfl
    · exact h.nonnull ptr hmem
    · exact hnull
  case allocated =>
    intro ptr
    rw [List.mem_append, List.mem_singleton, List.mem_cons, h.allocated ptr, or_comm]
  case running => exact h.running
  case pushed =>
    change s.pushed ++ [data] = s.popped ++ (ents ++ [ent]).map (Function.update s.tq.data ent data)
    rw [h.pushed, List.append_assoc, List.map_append, map_update_data hents, List.map_singleton,
      Function.update_self]

theorem push_frozen (hfrozen : s.tq.frozen = true) {calloc : Option Addr}
    (fresh : Fresh q s.tq calloc) (data : α) :
    (tqPush q s.tq calloc data).1 = false ∧ SameQueue q s.tq (tqPush q s.tq calloc data).2 := by
  cases calloc with
  | none => exact ⟨rfl, rfl, rfl, rfl, fun _ _ => rfl, fun _ _ => rfl, fun _ _ => rfl⟩
  | some ent =>
      obtain ⟨-, hhead, hnew⟩ := fresh ent rfl
      have hout : ent ∉ q :: s.tq.allocated := by
        rw [List.mem_cons, not_or]
        exact ⟨hhead, hnew⟩
      have hpush : tqPush q s.tq (some ent) data = (false,
          { s.tq with
            allocated := (ent :: s.tq.allocated).filter (· ≠ ent)
            data := Function.update s.tq.data ent data
            links := initListHead s.tq.links ent }) := by
        simp only [tqPush, hfrozen, Bool.not_true, if_false, Bool.false_eq_true, free]
      have hfree : (ent :: s.tq.allocated).filter (· ≠ ent) = s.tq.allocated := by
        rw [List.filter_cons_of_neg (by simp), List.filter_eq_self]
        exact fun ptr hmem => decide_eq_true (ne_of_mem_of_not_mem hmem hnew)
      rw [hpush]
      refine ⟨rfl, rfl, rfl, hfree, ?_, ?_, ?_⟩
      · intro ptr hptr
        exact Function.update_of_ne (ne_of_mem_of_not_mem hptr hout) ent s.tq.links.next
      · intro ptr hptr
        exact Function.update_of_ne (ne_of_mem_of_not_mem hptr hout) ent s.tq.links.prev
      · intro ptr hptr
        exact Function.update_of_ne (ne_of_mem_of_not_mem hptr hnew) data s.tq.data

theorem Queued.same {s' : QueueRun α} (h : Queued q s ents) (same : SameQueue q s.tq s'.tq)
    (pushed : s'.pushed = s.pushed) (popped : s'.popped = s.popped) : Queued q s' ents where
  circular := h.circular.frame
    (fun ptr hptr => same.next ptr (List.mem_cons.mpr ((List.mem_cons.mp hptr).imp_right
      (h.allocated ptr).mpr)))
    (fun ptr hptr => same.prev ptr (List.mem_cons.mpr ((List.mem_cons.mp hptr).imp_right
      (h.allocated ptr).mpr)))
  nonnull := h.nonnull
  allocated ent := by rw [same.allocated, h.allocated]
  running := same.stop.trans h.running
  pushed := by
    rw [pushed, popped, h.pushed]
    congr 1
    exact List.map_congr_left fun ent hmem => (same.data ent ((h.allocated ent).mpr hmem)).symm

theorem Queued.listEmpty_iff (h : Queued q s ents) :
    listEmpty s.tq.links q = true ↔ ents = [] := by
  rw [listEmpty, decide_eq_true_iff]
  exact h.circular.next_eq_head_iff

theorem Queued.pop_empty (h : Queued q s []) (rc : Int) :
    tqPop q s.tq rc = (if rc ≠ 0 then .timedOut else .waits, s.tq) := by
  have hempty : listEmpty s.tq.links q = true := h.listEmpty_iff.mpr rfl
  simp only [tqPop, hempty, h.running, Bool.not_false, Bool.and_true, if_true]

theorem Queued.pop {ent : Addr} (h : Queued q s (ent :: ents)) (rc : Int) :
    (tqPop q s.tq rc).1 = .item (s.tq.data ent) ∧
    Queued q ⟨(tqPop q s.tq rc).2, s.pushed, s.popped ++ [s.tq.data ent]⟩ ents := by
  have hempty : listEmpty s.tq.links q = false :=
    Bool.eq_false_iff.mpr fun hnil => List.cons_ne_nil _ _ (h.listEmpty_iff.mp hnil)
  have hnext : s.tq.links.next q = ent := h.circular.linked.1.1
  obtain ⟨hhead, hents⟩ := List.nodup_cons.mp h.circular.nodup
  obtain ⟨hent, hrest⟩ := List.nodup_cons.mp hents
  have hne : ent ≠ q := fun heq => hhead (heq ▸ List.mem_cons_self)
  have hout : ent ∉ q :: ents := by
    rw [List.mem_cons, not_or]
    exact ⟨hne, hent⟩
  have hnull : ¬(ent = 0 ∨ s.tq.links.prev q = 0) := not_or.mpr
    ⟨h.nonnull ent (List.mem_cons_of_mem q List.mem_cons_self),
      h.nonnull _ h.circular.prev_mem⟩
  have hpop : tqPop q s.tq rc = (.item (s.tq.data ent),
      { s.tq with
        links := listDel s.tq.links ent
        allocated := s.tq.allocated.filter (· ≠ ent) }) := by
    simp only [tqPop, hempty, hnext, Bool.false_and, Bool.false_eq_true, if_false, hnull, hne,
      free]
  rw [hpop]
  refine ⟨rfl, ?_⟩
  constructor
  case circular =>
    -- the entry that is given back is not of the list any more
    apply h.circular.remove_first.frame
    all_goals
      intro ptr hptr
      exact Function.update_of_ne (ne_of_mem_of_not_mem hptr hout) 0 _
  case nonnull =>
    intro ptr hptr
    apply h.nonnull
    rcases List.mem_cons.mp hptr with rfl | hptr
    · exact List.mem_cons_self
    · exact List.mem_cons_of_mem q (List.mem_cons_of_mem ent hptr)
  case allocated =>
    intro ptr
    rw [List.mem_filter, h.allocated ptr, decide_eq_true_iff, List.mem_cons]
    constructor
    · rintro ⟨heq | hmem, hother⟩
      · exact absurd heq hother
      · exact hmem
    · intro hmem
      exact ⟨Or.inr hmem, ne_of_mem_of_not_mem hmem hent⟩
  case running => exact h.running
  case pushed =>
    change s.pushed = s.popped ++ [s.tq.data ent] ++ ents.map s.tq.data
    rw [h.pushed, List.map_cons, List.append_assoc, List.singleton_append]

theorem Queued.pop_result (h : Queued q s ents) (rc : Int) :
    (tqPop q s.tq rc).1 =
      match s.pushed.drop s.popped.length with
      | [] => if rc ≠ 0 then .timedOut else .waits
      | data :: _ => .item data := by
  rw [h.pushed, List.drop_left]
  cases ents with
  | nil => rw [h.pop_empty rc, List.map_nil]
  | cons ent ents => rw [(h.pop rc).1, List.map_cons]

theorem queueStep_push {calloc : Option Addr} (fresh : Fresh q s.tq calloc) (data : α) :
    queueStep q s (.push calloc data) = some
      { tq := (tqPush q s.tq calloc data).2
        pushed := if (tqPush q s.tq calloc data).1 then s.pushed ++ [data] else s.pushed
        popped := s.popped } := if_pos fresh

theorem fresh_of_push {s' : QueueRun α} {calloc : Option Addr} {data : α}
    (taken : queueStep q s (.push calloc data) = some s') : Fresh q s.tq calloc := by
  by_contra hnot
  rw [queueStep, if_neg hnot] at taken
  cases taken

def PopResult.toList : PopResult α → List α
  | .item data => [data]
  | _ => []

theorem queueStep_pop (rc : Int) :
    queueStep q s (.pop rc) = some
      { tq := (tqPop q s.tq rc).2
        pushed := s.pushed
        popped := s.popped ++ (tqPop q s.tq rc).1.toList } := by
  rw [queueStep]
  cases hpop : tqPop q s.tq rc with
  | mk result tq =>
      cases result <;> simp only [PopResult.toList, List.append_nil]

theorem Queued.step {s' : QueueRun α} (h : Queued q s ents) {e : QueueEvent α}
    (taken : queueStep q s e = some s') : ∃ ents', Queued q s' ents' := by
  cases e with
  | push calloc data =>
      have fresh := fresh_of_push taken
      rw [queueStep_push fresh] at taken
      obtain rfl := Option.some.inj taken
      cases hfrozen : s.tq.frozen with
      | true =>
          obtain ⟨hrc, same⟩ := push_frozen hfrozen fresh data
          exact ⟨ents, h.same same (if_neg (Bool.eq_false_iff.mp hrc)) rfl⟩
      | false =>
          cases calloc with
          | none => exact ⟨ents, h⟩
          | some ent =>
              obtain ⟨hrc, next⟩ := h.push hfrozen fresh data
              rw [if_pos hrc]
              exact ⟨ents ++ [ent], next⟩
  | pop rc =>
      rw [queueStep_pop] at taken
      obtain rfl := Option.some.inj taken
      cases ents with
      | nil =>
          have hnone :
              (if rc ≠ 0 then PopResult.timedOut else .waits : PopResult α).toList = [] := by
            split <;> rfl
          rw [h.pop_empty rc, hnone, List.append_nil]
          exact ⟨[], h⟩
      | cons ent ents =>
          obtain ⟨hdata, next⟩ := h.pop rc
          rw [hdata]
          exact ⟨ents, next⟩
  | freeze =>
      obtain rfl := Option.some.inj taken
      exact ⟨ents, h.circular, h.nonnull, h.allocated, h.running, h.pushed⟩

theorem Queued.of_run (hq : q ≠ 0) {memory : Links Addr} {data : Addr → α}
    {trace : List (QueueRun α × QueueEvent α)}
    (run : Run (queueStep q) (queueStart q memory data) trace s) : ∃ ents, Queued q s ents :=
  run.invariant (fun s => ∃ ents, Queued q s ents) ⟨[], queued_start hq memory data⟩
    fun _ _ _ ⟨_, h⟩ taken => h.step taken

theorem frozen_step {s' : QueueRun α} {e : QueueEvent α} (hfrozen : s.tq.frozen = true)
    (taken : queueStep q s e = some s') : s'.tq.frozen = true := by
  cases e with
  | push calloc data =>
      have fresh := fresh_of_push taken
      rw [queueStep_push fresh] at taken
      obtain rfl := Option.some.inj taken
      exact (push_frozen hfrozen fresh data).2.frozen.trans hfrozen
  | pop rc =>
      rw [queueStep_pop] at taken
      obtain rfl := Option.some.inj taken
      have hkeep : (tqPop q s.tq rc).2.frozen = s.tq.frozen := by
        unfold tqPop
        repeat' split
        all_goals rfl
      exact hkeep.trans hfrozen
  | freeze =>
      obtain rfl := Option.some.inj taken
      rfl

theorem frozen_of_run {init : QueueRun α} {trace : List (QueueRun α × QueueEvent α)}
    (run : Run (queueStep q) init trace s) (h : ∃ taken ∈ trace, taken.2 = .freeze) :
    s.tq.frozen = true := by
  induction run with
  | start =>
      obtain ⟨taken, hmem, -⟩ := h
      exact absurd hmem List.not_mem_nil
  | next run taken ih =>
      obtain ⟨⟨t, e⟩, hmem, rfl⟩ := h
      rcases List.mem_cons.mp hmem with heq | hmem
      · cases heq
        obtain rfl := Option.some.inj taken
        rfl
      · exact frozen_step (ih ⟨(t, .freeze), hmem, rfl⟩) taken

/-- As many pops as there are entries return all of them, whether the queue is frozen or not. -/
theorem Queued.drain (h : Queued q s ents) :
    ∃ s', exec (queueStep q) s (List.replicate ents.length (.pop 0)) = some s' ∧
      s'.pushed = s.pushed ∧ s'.popped = s.pushed := by
  induction ents generalizing s with
  | nil =>
      refine ⟨s, rfl, rfl, ?_⟩
      rw [h.pushed, List.map_nil, List.append_nil]
  | cons ent ents ih =>
      obtain ⟨hdata, next⟩ := h.pop 0
      obtain ⟨s', hexec, hpushed, hpopped⟩ := ih next
      refine ⟨s', ?_, hpushed, hpopped⟩
      rw [List.length_cons, List.replicate_succ, exec, queueStep_pop, hdata, Option.bind_some]
      exact hexec

/-- In every interleaving the list is well formed, what is popped is what was pushed, once and
in order, the rest is in the list and can be popped, and a frozen queue takes nothing more. -/
theorem queue_is_fifo (q : Addr) (hq : q ≠ 0) (memory : Links Addr) (data : Addr → α)
    (trace : List (QueueRun α × QueueEvent α)) (s : QueueRun α)
    (run : Run (queueStep q) (queueStart q memory data) trace s) :
    (∃ ents, Circular s.tq.links q ents ∧ s.pushed = s.popped ++ ents.map s.tq.data) ∧
    (∀ rc, (tqPop q s.tq rc).1 =
      match s.pushed.drop s.popped.length with
      | [] => if rc ≠ 0 then .timedOut else .waits
      | data :: _ => .item data) ∧
    ((∃ taken ∈ trace, taken.2 = .freeze) → ∀ calloc data, Fresh q s.tq calloc →
      (tqPush q s.tq calloc data).1 = false ∧ SameQueue q s.tq (tqPush q s.tq calloc data).2) ∧
    ∃ s', exec (queueStep q) s
        (List.replicate (s.pushed.length - s.popped.length) (.pop 0)) = some s' ∧
      s'.pushed = s.pushed ∧ s'.popped = s.pushed := by
  obtain ⟨ents, h⟩ := Queued.of_run hq run
  have hlength : s.pushed.length - s.popped.length = ents.length := by
    rw [h.pushed, List.length_append, List.length_map, Nat.add_sub_cancel_left]
  refine ⟨⟨ents, h.circular, h.pushed⟩, h.pop_result, ?_, ?_⟩
  · intro hfroze calloc data fresh
    exact push_frozen (frozen_of_run run hfroze) fresh data
  · rw [hlength]
    exact h.drain

theorem queue_is_fifo_two :
    ∃ s : QueueRun Nat, s.pushed = [1, 2] ∧ s.popped = [1] ∧
      ∃ ents, Circular s.tq.links 8 ents ∧ s.pushed = s.popped ++ ents.map s.tq.data := by
  have run : Run (queueStep 8) (queueStart 8 ⟨fun _ => 0, fun _ => 0⟩ fun _ => 0) [] _ := .start
  have first := run.next (e := .push (some 16) 1) rfl
  have second := first.next (e := .push (some 32) 2) rfl
  have popped := second.next (e := .pop 0) rfl
  exact ⟨_, rfl, rfl, (queue_is_fifo 8 (by decide) _ _ _ _ popped).1⟩

end SojCivicLight.Mining
