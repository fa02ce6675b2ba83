import CentauriCarbon.Foundation.Placement
import CentauriCarbon.Outputs.DigitalOut
import CentauriCarbon.Stepping.Stepper

/-! # The move queues of the micro-controller

All queues take their nodes from one stock, `move_list`. A node points to the next one of its
queue or of the free list; a queue knows its first and its last node.
-/

namespace CentauriCarbon.Moves

open Function List

open Outputs (DigitalMove)
open Stepping (StepperMove)

variable {Queue : Type}

structure MoveQueueHead where
  first : Option Nat
  last : Option Nat

inductive MoveData where
  | unused
  | stepper (m : StepperMove)
  | digital (m : DigitalMove)

structure MoveHeap (Queue : Type) where
  next : Nat → Option Nat
  data : Nat → MoveData
  moveFreeList : Option Nat
  moveCount : Nat
  mq : Queue → MoveQueueHead

namespace MoveHeap

variable [DecidableEq Queue]

variable (heap : MoveHeap Queue) (q : Queue)

def moveFree (m : Nat) : MoveHeap Queue :=
  { heap with next := update heap.next m heap.moveFreeList, moveFreeList := some m }

def moveAlloc : Option (Nat × MoveHeap Queue) :=
  match heap.moveFreeList with
  | none => none
  | some mf => some (mf, { heap with moveFreeList := heap.next mf })

def moveQueueEmpty : Bool := (heap.mq q).first.isNone

def setHead (mh : MoveQueueHead) : MoveHeap Queue :=
  { heap with mq := update heap.mq q mh }

/-- `move_queue_push`: was the queue empty? The result is `none` where the code would follow a
null pointer. -/
def moveQueuePush (m : Nat) : Option (MoveHeap Queue × Bool) :=
  let mh := heap.mq q
  let heap := { heap with next := update heap.next m none }
  match mh.first with
  | some first =>
    match mh.last with
    | none => none
    | some last =>
      let heap := { heap with next := update heap.next last (some m) }
      some (heap.setHead q ⟨some first, some m⟩, false)
  | none => some (heap.setHead q ⟨some m, some m⟩, true)

def moveQueuePop : Option (Nat × MoveHeap Queue) :=
  match (heap.mq q).first with
  | none => none
  | some mn => some (mn, heap.setHead q { heap.mq q with first := heap.next mn })

def moveQueueClear : MoveHeap Queue := heap.setHead q { heap.mq q with first := none }

def moveReset : MoveHeap Queue :=
  if heap.moveCount = 0 then heap
  else
    let next := (range (heap.moveCount - 1)).foldl
      (fun next i => update next i (some (i + 1))) heap.next
    { heap with next := update next (heap.moveCount - 1) none, moveFreeList := some 0 }

def moveFinalize (moveCount : Nat) : MoveHeap Queue :=
  MoveHeap.moveReset ⟨fun _ => none, fun _ => .unused, none, moveCount, fun _ => ⟨none, none⟩⟩

/-- The loop of `stepper_stop` that frees all nodes of a queue. It has no result if it does not end
within `fuel` rounds or follows a null pointer. -/
def freeQueue (q : Queue) : Nat → MoveHeap Queue → Option (MoveHeap Queue)
  | 0, heap => if heap.moveQueueEmpty q then some heap else none
  | fuel + 1, heap =>
    if heap.moveQueueEmpty q then some heap
    else (heap.moveQueuePop q).bind fun popped => freeQueue q fuel (popped.2.moveFree popped.1)

def setData (m : Nat) (data : MoveData) : MoveHeap Queue :=
  { heap with data := update heap.data m data }

def stepperMove (m : Nat) : StepperMove :=
  match heap.data m with
  | .stepper m => m
  | .digital _ => ⟨0, 0, 0, false⟩
  | .unused => ⟨0, 0, 0, false⟩

def digitalMove (m : Nat) : DigitalMove :=
  match heap.data m with
  | .digital m => m
  | .stepper _ => ⟨0, 0⟩
  | .unused => ⟨0, 0⟩

end MoveHeap

inductive Place (Queue : Type) where
  | free
  | queue (q : Queue)
  | hand
  deriving DecidableEq

structure MoveQueueHead.Holds (mh : MoveQueueHead) (next : Nat → Option Nat)
    (nodes : List Nat) : Prop where
  hangs : Hangs next mh.first nodes
  last : nodes ≠ [] → mh.last = nodes.getLast?

theorem MoveQueueHead.Holds.update_of_notMem {next : Nat → Option Nat} {mh : MoveQueueHead}
    (holds : mh.Holds next nodes) (notMem : node ∉ nodes) (value : Option Nat) :
    mh.Holds (update next node value) nodes :=
  ⟨holds.hangs.update_of_notMem notMem value, holds.last⟩

structure MoveHeap.Placed (heap : MoveHeap Queue) (count : Nat)
    (nodes : Place Queue → List Nat) : Prop where
  counted : heap.moveCount = count
  placement : Placement (· < count) nodes
  free : Hangs heap.next heap.moveFreeList (nodes .free)
  queue : ∀ q, (heap.mq q).Holds heap.next (nodes (.queue q))

variable {count : Nat}

section

variable {heap : MoveHeap Queue} {nodes : Place Queue → List Nat} (placed : heap.Placed count nodes)
include placed

theorem MoveHeap.Placed.notMem (member : node ∈ nodes place) (different : place ≠ other) :
    node ∉ nodes other :=
  fun isOther => different (placed.placement.unique member isOther)

theorem MoveHeap.Placed.setData (m : Nat) (data : MoveData) :
    (heap.setData m data).Placed count nodes :=
  { placed with }

end

/-! ## The free list after a reset -/

theorem resetLoop_apply (next : Nat → Option Nat) (count i : Nat) :
    (range count).foldl (fun next i => update next i (some (i + 1))) next i =
      if i < count then some (i + 1) else next i := by
  induction count with
  | zero => rfl
  | succ count induction =>
    rw [range_succ, foldl_append, foldl_cons, foldl_nil]
    by_cases same : i = count
    · subst same
      rw [update_self, if_pos (Nat.lt_succ_self i)]
    rw [update_of_ne same, induction]
    by_cases earlier : i < count
    · rw [if_pos earlier, if_pos (Nat.lt_succ_of_lt earlier)]
    · rw [if_neg earlier, if_neg (by omega)]

theorem hangs_range' {next : Nat → Option Nat} (links : ∀ i, i < last → next i = some (i + 1))
    (ends : next last = none) (left start : Nat) (inside : start + left = last) :
    Hangs next (some start) (range' start (left + 1)) := by
  induction left generalizing start with
  | zero =>
    refine ⟨rfl, ?_⟩
    have atLast : start = last := inside
    rw [atLast]
    exact ends
  | succ left induction =>
    refine ⟨rfl, ?_⟩
    rw [links start (by omega)]
    exact induction (start + 1) (by omega)

/-- A reset changes neither the number of nodes nor the heads of the queues. -/
theorem MoveHeap.moveReset_frame (heap : MoveHeap Queue) :
    heap.moveReset.moveCount = heap.moveCount ∧ heap.moveReset.mq = heap.mq := by
  rw [moveReset]
  split
  · exact ⟨rfl, rfl⟩
  · exact ⟨rfl, rfl⟩

/-- A reset puts all nodes on the free list, whatever the pointers were. -/
theorem MoveHeap.hangs_moveReset (heap : MoveHeap Queue) (positive : heap.moveCount ≠ 0) :
    Hangs heap.moveReset.next heap.moveReset.moveFreeList (range heap.moveCount) := by
  rcases Nat.exists_eq_succ_of_ne_zero positive with ⟨last, count_eq⟩
  rw [moveReset, if_neg positive, count_eq, range_eq_range' (n := last.succ)]
  refine hangs_range' ?_ ?_ last 0 (Nat.zero_add last)
  · intro i before
    dsimp only
    rw [Nat.succ_sub_one, update_of_ne (Nat.ne_of_lt before), resetLoop_apply, if_pos before]
  · exact update_self _ _ _

/-! ## Moving nodes -/

variable [DecidableEq Queue]

def moveNode (nodes : Place Queue → List Nat) (source target : Place Queue)
    (rest given : List Nat) : Place Queue → List Nat :=
  update (update nodes source rest) target given

section MoveNode

variable {nodes : Place Queue → List Nat} {rest given : List Nat}

@[simp] theorem moveNode_target : moveNode nodes source target rest given target = given :=
  update_self _ _ _

@[simp] theorem moveNode_source (different : source ≠ target) :
    moveNode nodes source target rest given source = rest := by
  rw [moveNode, update_of_ne different, update_self]

@[simp] theorem moveNode_other (notSource : place ≠ source) (notTarget : place ≠ target) :
    moveNode nodes source target rest given place = nodes place := by
  rw [moveNode, update_of_ne notTarget, update_of_ne notSource]

theorem placement_moveNode {Owned : Nat → Prop} (placement : Placement Owned nodes)
    (different : source ≠ target) (taken : nodes source = node :: rest)
    (isGiven : given.Perm (node :: nodes target)) :
    Placement Owned (moveNode nodes source target rest given) := by
  have isTaken : (nodes source).Perm
      (node :: moveNode nodes source target rest given source) := by
    rw [moveNode_source different, taken]
  refine placement.move different isTaken ?_ ?_
  · rw [moveNode_target]
    exact isGiven
  · intro place notSource notTarget
    exact moveNode_other notSource notTarget

end MoveNode

namespace MoveHeap.Placed

variable {heap : MoveHeap Queue} {count : Nat} {nodes : Place Queue → List Nat}

theorem setHead (counted : heap.moveCount = count) (placement : Placement (· < count) nodes)
    (free : Hangs heap.next heap.moveFreeList (nodes .free))
    (own : mh.Holds heap.next (nodes (.queue q)))
    (others : ∀ other, other ≠ q → (heap.mq other).Holds heap.next (nodes (.queue other))) :
    (heap.setHead q mh).Placed count nodes where
  counted
  placement
  free
  queue := by
    intro other
    rw [MoveHeap.setHead]
    dsimp only
    by_cases same : other = q
    · subst same
      rw [update_self]
      exact own
    · rw [update_of_ne same]
      exact others other same

variable (placed : heap.Placed count nodes)
include placed

theorem moveAlloc {next : MoveHeap Queue} (allocated : heap.moveAlloc = some (m, next)) :
    ∃ rest, nodes .free = m :: rest ∧
      next.Placed count (moveNode nodes .free .hand rest (m :: nodes .hand)) := by
  rw [MoveHeap.moveAlloc] at allocated
  split at allocated
  · cases allocated
  next mf isFree =>
    cases allocated
    have hangs := placed.free
    rw [isFree] at hangs
    rcases hangs.exists_cons with ⟨rest, taken, behind⟩
    refine ⟨rest, taken, ?_⟩
    exact { placed with
      placement := placement_moveNode placed.placement (by simp) taken (Perm.refl _)
      free := behind }

theorem moveFree {rest : List Nat} (inHand : nodes .hand = m :: rest) :
    (heap.moveFree m).Placed count (moveNode nodes .hand .free rest (m :: nodes .free)) := by
  have member : m ∈ nodes .hand := by simp [inHand]
  exact { placed with
    placement := placement_moveNode placed.placement (by simp) inHand (Perm.refl _)
    free := placed.free.cons (placed.notMem member (by simp))
    queue := by
      intro q
      exact (placed.queue q).update_of_notMem (placed.notMem member (by simp)) _ }

theorem moveQueuePop (notEmpty : heap.moveQueueEmpty q = false) :
    ∃ m next rest, heap.moveQueuePop q = some (m, next) ∧ nodes (.queue q) = m :: rest ∧
      next.Placed count (moveNode nodes (.queue q) .hand rest (m :: nodes .hand)) := by
  have hangs := (placed.queue q).hangs
  rw [moveQueueEmpty, Option.isNone_eq_false_iff, Option.isSome_iff_exists] at notEmpty
  rcases notEmpty with ⟨m, isFirst⟩
  rw [isFirst] at hangs
  rcases hangs.exists_cons with ⟨rest, taken, behind⟩
  refine ⟨m, heap.setHead q { heap.mq q with first := heap.next m }, rest, ?_, taken, ?_⟩
  · rw [MoveHeap.moveQueuePop, isFirst]
  refine setHead placed.counted ?_ ?_ ?_ ?_
  · exact placement_moveNode placed.placement (by simp) taken (Perm.refl _)
  · rw [moveNode_other (by simp) (by simp)]
    exact placed.free
  · rw [moveNode_source (by simp)]
    refine ⟨behind, ?_⟩
    intro more
    have whole := (placed.queue q).last (by simp [taken])
    rw [taken, getLast?_cons_of_ne_nil more] at whole
    exact whole
  · intro other different
    rw [moveNode_other (by simp [different]) (by simp)]
    exact placed.queue other

theorem moveQueuePush (q : Queue) {rest : List Nat} (inHand : nodes .hand = m :: rest) :
    ∃ next, heap.moveQueuePush q m = some (next, heap.moveQueueEmpty q) ∧
      next.Placed count (moveNode nodes .hand (.queue q) rest (nodes (.queue q) ++ [m])) := by
  have member : m ∈ nodes .hand := by simp [inHand]
  have notInHand : Place.hand ≠ Place.queue q := by simp
  have notQueued : m ∉ nodes (.queue q) := placed.notMem member notInHand
  have placement := placement_moveNode placed.placement notInHand inHand
    (perm_append_singleton m (nodes (.queue q)))
  have own := placed.queue q
  rw [MoveHeap.moveQueuePush, moveQueueEmpty]
  cases isFirst : (heap.mq q).first with
  | none =>
    have empty : nodes (.queue q) = [] := own.hangs.eq_none_iff.mp isFirst
    refine ⟨_, rfl, setHead placed.counted placement ?_ ?_ ?_⟩
    · rw [moveNode_other (by simp) (by simp)]
      exact placed.free.update_of_notMem (placed.notMem member (by simp)) _
    · rw [moveNode_target, empty]
      refine ⟨⟨rfl, update_self _ _ _⟩, fun _ => rfl⟩
    · intro other different
      rw [moveNode_other (by simp) (by simp [different])]
      exact (placed.queue other).update_of_notMem (placed.notMem member (by simp)) _
  | some first =>
    have some_queued : nodes (.queue q) ≠ [] := by
      intro empty
      rw [own.hangs.eq_none_iff.mpr empty] at isFirst
      cases isFirst
    have isLast := own.last some_queued
    rcases Option.ne_none_iff_exists'.mp (mt getLast?_eq_none_iff.mp some_queued) with
      ⟨last, last_eq⟩
    rw [last_eq] at isLast
    have lastQueued : last ∈ nodes (.queue q) := mem_of_getLast? last_eq
    have hangs := own.hangs.concat (placed.placement.nodup _) notQueued last_eq
    rw [isFirst] at hangs
    rw [isLast]
    refine ⟨_, rfl, setHead placed.counted placement ?_ ?_ ?_⟩
    · rw [moveNode_other (by simp) (by simp)]
      apply Hangs.update_of_notMem _ (placed.notMem lastQueued (by simp))
      exact placed.free.update_of_notMem (placed.notMem member (by simp)) _
    · rw [moveNode_target]
      refine ⟨hangs, fun _ => ?_⟩
      rw [getLast?_concat]
    · intro other different
      rw [moveNode_other (by simp) (by simp [different])]
      apply MoveQueueHead.Holds.update_of_notMem _
        (placed.notMem lastQueued (by simp [Ne.symm different]))
      exact (placed.queue other).update_of_notMem (placed.notMem member (by simp)) _

end MoveHeap.Placed

/-! ## What the code holds

Between its operations the code knows which nodes it has in hand, and nothing else of where
the nodes are. -/

def MoveHeap.Holding (heap : MoveHeap Queue) (count : Nat) (hand : List Nat) : Prop :=
  ∃ nodes, heap.Placed count nodes ∧ nodes .hand = hand

theorem MoveHeap.holding_of_free {heap : MoveHeap Queue} (counted : heap.moveCount = count)
    (free : Hangs heap.next heap.moveFreeList (range count))
    (empty : ∀ q, heap.moveQueueEmpty q) : heap.Holding count [] := by
  refine ⟨update (fun _ => []) .free (range count), ⟨counted, ?_, free, ?_⟩, rfl⟩
  · apply Placement.of_single nodup_range
    intro node
    rw [mem_range]
  · intro q
    exact ⟨Option.isNone_iff_eq_none.mp (empty q), fun queued => absurd rfl queued⟩

theorem MoveHeap.holding_moveFinalize (positive : count ≠ 0) :
    (MoveHeap.moveFinalize count : MoveHeap Queue).Holding count [] := by
  rw [moveFinalize]
  apply holding_of_free
  · exact (moveReset_frame _).1
  · exact hangs_moveReset _ positive
  · intro q
    rw [moveQueueEmpty, (moveReset_frame _).2]
    rfl

namespace MoveHeap.Holding

variable {heap next : MoveHeap Queue}

omit [DecidableEq Queue] in
theorem setData (holding : heap.Holding count hand) (data : MoveData) :
    (heap.setData m data).Holding count hand := by
  rcases holding with ⟨nodes, placed, inHand⟩
  exact ⟨nodes, placed.setData m data, inHand⟩

theorem moveAlloc (holding : heap.Holding count hand)
    (allocated : heap.moveAlloc = some (m, next)) : next.Holding count (m :: hand) := by
  rcases holding with ⟨nodes, placed, rfl⟩
  rcases placed.moveAlloc allocated with ⟨rest, -, moved⟩
  exact ⟨_, moved, moveNode_target⟩

theorem moveFree (holding : heap.Holding count (m :: hand)) :
    (heap.moveFree m).Holding count hand := by
  rcases holding with ⟨nodes, placed, inHand⟩
  exact ⟨_, placed.moveFree inHand, moveNode_source (by simp)⟩

theorem moveQueuePop (holding : heap.Holding count hand)
    (notEmpty : heap.moveQueueEmpty q = false) :
    ∃ m next, heap.moveQueuePop q = some (m, next) ∧ next.Holding count (m :: hand) := by
  rcases holding with ⟨nodes, placed, rfl⟩
  rcases placed.moveQueuePop notEmpty with ⟨m, next, rest, popped, -, moved⟩
  exact ⟨m, next, popped, _, moved, moveNode_target⟩

theorem moveQueuePush (holding : heap.Holding count (m :: hand)) (q : Queue) :
    ∃ next, heap.moveQueuePush q m = some (next, heap.moveQueueEmpty q) ∧
      next.Holding count hand := by
  rcases holding with ⟨nodes, placed, inHand⟩
  rcases placed.moveQueuePush q inHand with ⟨next, pushed, moved⟩
  exact ⟨next, pushed, _, moved, moveNode_source (by simp)⟩

end MoveHeap.Holding

section

variable {heap : MoveHeap Queue}

theorem MoveHeap.moveQueueEmpty_clear_self : (heap.moveQueueClear q).moveQueueEmpty q := by
  rw [moveQueueEmpty, moveQueueClear, setHead]
  dsimp only
  rw [update_self]
  rfl

theorem MoveHeap.moveQueueEmpty_clear (empty : heap.moveQueueEmpty other) :
    (heap.moveQueueClear q).moveQueueEmpty other := by
  by_cases same : other = q
  · rw [same]
    exact moveQueueEmpty_clear_self
  rw [moveQueueEmpty, moveQueueClear, setHead]
  dsimp only
  rw [update_of_ne same]
  exact empty

theorem MoveHeap.freeQueue_of_empty (empty : heap.moveQueueEmpty q) (fuel : Nat) :
    heap.freeQueue q fuel = some heap := by
  cases fuel with
  | zero | succ => rw [freeQueue, if_pos empty]

/-- As many rounds as the queue has nodes are enough to free them all. -/
theorem MoveHeap.Placed.freeQueue {nodes : Place Queue → List Nat}
    (placed : heap.Placed count nodes) (enough : (nodes (.queue q)).length ≤ fuel) :
    ∃ next, MoveHeap.freeQueue q fuel heap = some next ∧ next.Holding count (nodes .hand) := by
  induction fuel generalizing heap nodes with
  | zero =>
    have none_queued := eq_nil_of_length_eq_zero (Nat.le_zero.mp enough)
    have empty : heap.moveQueueEmpty q := by
      rw [moveQueueEmpty, (placed.queue q).hangs.eq_none_iff.mpr none_queued]
      rfl
    exact ⟨heap, freeQueue_of_empty empty 0, nodes, placed, rfl⟩
  | succ fuel induction =>
    cases empty : heap.moveQueueEmpty q with
    | true => exact ⟨heap, freeQueue_of_empty empty (fuel + 1), nodes, placed, rfl⟩
    | false =>
      rcases placed.moveQueuePop empty with ⟨m, popped, rest, pop, taken, moved⟩
      have freed := moved.moveFree moveNode_target
      rw [taken] at enough
      have shorter := Nat.le_of_succ_le_succ enough
      rcases induction freed (by simpa using shorter) with ⟨next, ran, holding⟩
      refine ⟨next, ?_, holding⟩
      rw [MoveHeap.freeQueue, empty, if_neg Bool.false_ne_true, pop]
      exact ran

theorem MoveHeap.Holding.freeQueue (holding : heap.Holding count hand) (q : Queue) :
    ∃ next, MoveHeap.freeQueue q count heap = some next ∧ next.Holding count hand := by
  rcases holding with ⟨nodes, placed, rfl⟩
  apply placed.freeQueue
  have inside : nodes (.queue q) ⊆ range count := by
    intro node member
    exact mem_range.mpr ((placed.placement.owned node).mpr ⟨_, member⟩)
  have short := (subperm_of_subset (placed.placement.nodup (.queue q)) inside).length_le
  rw [length_range] at short
  exact short

end

end CentauriCarbon.Moves
