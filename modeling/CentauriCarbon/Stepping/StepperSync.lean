import CentauriCarbon.Foundation.BinaryHeap
import CentauriCarbon.Foundation.SlotPool
import CentauriCarbon.SerialLink.SerialQueue
import CentauriCarbon.Stepping.StepCompress

/-! # Synchronising the steppers of a micro-controller

The second half of `stepcompress.c`: the messages of all steppers are merged by their
request clock, and each one that needs a node of the move queue waits for the node that is
free first. `move_clocks` is a binary heap of the clocks at which nodes become free.
-/

namespace CentauriCarbon.Stepping

open List

open SerialLink (maxClock)

structure StepperSync where
  scList : List StepCompress
  moveClocks : List UInt64

variable (scList : List StepCompress)

def steppersyncAlloc (moveNum : Nat) : StepperSync :=
  ⟨scList, replicate moveNum 0⟩

/-- The loop of `heap_replace`; a missing child counts as `UINT64_MAX`. -/
def heapReplaceLoop (reqClock : UInt64) : Nat → List UInt64 → Nat → List UInt64
  | 0, mc, _ => mc
  | rounds + 1, mc, pos =>
    let child1Pos := 2 * pos + 1
    let child2Pos := 2 * pos + 2
    let child2Clock := if child2Pos < mc.length then mc.getD child2Pos 0 else uint64Max
    let child1Clock := if child1Pos < mc.length then mc.getD child1Pos 0 else uint64Max
    if reqClock ≤ child1Clock ∧ reqClock ≤ child2Clock then mc.set pos reqClock
    else if child1Clock < child2Clock then
      heapReplaceLoop reqClock rounds (mc.set pos child1Clock) child1Pos
    else heapReplaceLoop reqClock rounds (mc.set pos child2Clock) child2Pos

def heapReplace (moveClocks : List UInt64) (reqClock : UInt64) : List UInt64 :=
  heapReplaceLoop reqClock moveClocks.length moveClocks 0

def findLowest :
    List StepCompress → Nat → UInt64 → Option (Nat × StepMessage) → Option (Nat × StepMessage)
  | [], _, _, qm => qm
  | sc :: scList, i, reqClock, qm =>
    match sc.msgQueue with
    | [] => findLowest scList (i + 1) reqClock qm
    | m :: _ =>
      if m.reqClock < reqClock then findLowest scList (i + 1) m.reqClock (some (i, m))
      else findLowest scList (i + 1) reqClock qm

structure Batched where
  message : StepMessage
  minClock : UInt64

def dequeue (i : Nat) : List StepCompress :=
  scList.modify i fun sc => { sc with msgQueue := sc.msgQueue.tail }

def mergeMessages (moveClock : UInt64) : Nat → StepperSync → StepperSync × List Batched
  | 0, ss => (ss, [])
  | rounds + 1, ss =>
    match findLowest ss.scList 0 maxClock none with
    | none => (ss, [])
    | some (i, qm) =>
      if qm.minClock ≠ 0 ∧ qm.reqClock > moveClock then (ss, [])
      else
        let nextAvail := ss.moveClocks.getD 0 0
        let moveClocks :=
          if qm.minClock ≠ 0 then heapReplace ss.moveClocks qm.minClock else ss.moveClocks
        let merged := mergeMessages moveClock rounds ⟨dequeue ss.scList i, moveClocks⟩
        (merged.1, ⟨qm, nextAvail⟩ :: merged.2)

def flushAll (moveClock : UInt64) : List StepCompress → Outcome (List StepCompress)
  | [] => .done []
  | sc :: scList =>
    match stepcompressFlush sc moveClock with
    | .failed sc => .failed (sc :: scList)
    | .overran sc => .overran (sc :: scList)
    | .done sc =>
      match flushAll moveClock scList with
      | .failed rest => .failed (sc :: rest)
      | .overran rest => .overran (sc :: rest)
      | .done rest => .done (sc :: rest)

def queuedMessages : Nat := (scList.map (·.msgQueue.length)).sum

def steppersyncFlush (ss : StepperSync) (moveClock clearHistoryClock : UInt64) :
    Outcome (StepperSync × List Batched) :=
  match flushAll moveClock ss.scList with
  | .failed scList => .failed (⟨scList, ss.moveClocks⟩, [])
  | .overran scList => .overran (⟨scList, ss.moveClocks⟩, [])
  | .done scList =>
    let merged :=
      mergeMessages moveClock (queuedMessages scList) ⟨scList, ss.moveClocks⟩
    .done (⟨merged.1.scList.map fun sc => freeHistory sc clearHistoryClock,
      merged.1.moveClocks⟩, merged.2)

theorem heapReplaceLoop_eq_sink (reqClock : UInt64) (rounds : Nat) (mc : List UInt64) (pos : Nat) :
    heapReplaceLoop reqClock rounds mc pos = BinaryHeap.sink reqClock rounds mc pos := by
  have child : ∀ (heap : List UInt64) (index : Nat),
      (if index < heap.length then heap.getD index 0 else uint64Max) =
        BinaryHeap.key heap index := by
    intro heap index
    split
    · rename_i inside
      rw [BinaryHeap.key_of_lt inside, getD_eq_getElem _ _ inside]
    · rename_i outside
      rw [BinaryHeap.key_of_length_le (not_lt.mp outside)]
      rfl
  induction rounds generalizing mc pos with
  | zero => rfl
  | succ rounds induction =>
    rw [heapReplaceLoop, BinaryHeap.sink]
    rw [child, child, induction, induction]

/-- `heap_replace` keeps the heap order, takes out the first clock, which is the least one,
and adds the new clock. -/
theorem heapReplace_spec (ordered : BinaryHeap.Ordered moveClocks)
    (nonempty : 0 < moveClocks.length) (reqClock : UInt64) :
    BinaryHeap.Ordered (heapReplace moveClocks reqClock) ∧
      moveClocks.Perm (moveClocks.getD 0 0 :: moveClocks.tail) ∧
      (∀ clock ∈ moveClocks, moveClocks.getD 0 0 ≤ clock) ∧
      (heapReplace moveClocks reqClock).Perm (reqClock :: moveClocks.tail) := by
  have root : BinaryHeap.key moveClocks 0 = moveClocks.getD 0 0 := by
    rw [BinaryHeap.key_of_lt nonempty, getD_eq_getElem _ _ nonempty]
  rcases BinaryHeap.replaceRoot_spec ordered nonempty reqClock with ⟨kept, removed, added⟩
  rw [heapReplace, heapReplaceLoop_eq_sink, ← root]
  refine ⟨kept, removed, ?_, added⟩
  intro clock member
  exact ordered.root_le_of_mem member

/-! ## Slots of the move queue -/

/-- The messages of a batch that need a node of the move queue: the clock at which the
node they get is free, and the clock at which they free it. -/
def slotUses (batch : List Batched) : List (UInt64 × UInt64) :=
  (batch.filter fun batched => batched.message.minClock ≠ 0).map
    fun batched => (batched.minClock, batched.message.minClock)

structure Allots (before after : List UInt64) (batch : List Batched) : Prop where
  ordered : BinaryHeap.Ordered after
  exchanges : SlotPool.Exchanges before (slotUses batch) after

theorem Allots.append {before middle after : List UInt64} (first : Allots before middle left)
    (second : Allots middle after right) : Allots before after (left ++ right) := by
  refine ⟨second.ordered, ?_⟩
  rw [slotUses, filter_append, map_append]
  exact first.exchanges.append second.exchanges

theorem Allots.nonempty {before after : List UInt64} (allots : Allots before after batch)
    (nonempty : 0 < before.length) : 0 < after.length := by
  rw [allots.exchanges.length]
  exact nonempty

theorem allots_one (ordered : BinaryHeap.Ordered moveClocks) (nonempty : 0 < moveClocks.length)
    (qm : StepMessage) : Allots moveClocks
      (if qm.minClock ≠ 0 then heapReplace moveClocks qm.minClock else moveClocks)
      [⟨qm, moveClocks.getD 0 0⟩] := by
  split
  case isTrue uses =>
    rcases heapReplace_spec ordered nonempty qm.minClock with ⟨kept, removed, _, added⟩
    refine ⟨kept, ?_⟩
    rw [slotUses, filter_cons_of_pos (by simpa using uses)]
    exact .cons removed added (.nil _)
  case isFalse unused =>
    refine ⟨ordered, ?_⟩
    rw [slotUses, filter_cons_of_neg (by simpa using unused)]
    exact .nil _

theorem mergeMessages_allots (moveClock : UInt64) (rounds : Nat) (ss : StepperSync)
    (ordered : BinaryHeap.Ordered ss.moveClocks) (nonempty : 0 < ss.moveClocks.length) :
    Allots ss.moveClocks (mergeMessages moveClock rounds ss).1.moveClocks
      (mergeMessages moveClock rounds ss).2 := by
  induction rounds generalizing ss with
  | zero => exact ⟨ordered, .nil _⟩
  | succ rounds induction =>
    rw [mergeMessages]
    split
    · exact ⟨ordered, .nil _⟩
    rename_i i qm found
    split
    · exact ⟨ordered, .nil _⟩
    have first := allots_one ordered nonempty qm
    exact first.append (induction
      ⟨dequeue ss.scList i, if qm.minClock ≠ 0 then heapReplace ss.moveClocks qm.minClock
        else ss.moveClocks⟩ first.ordered (first.nonempty nonempty))

/-! ## Runs of flushes -/

structure FlushCall where
  scList : List StepCompress
  moveClock : UInt64
  clearHistoryClock : UInt64

def FlushCall.run (moveClocks : List UInt64) (call : FlushCall) : List UInt64 × List Batched :=
  let result :=
    (steppersyncFlush ⟨call.scList, moveClocks⟩ call.moveClock call.clearHistoryClock).state
  (result.1.moveClocks, result.2)

def flushCalls (moveClocks : List UInt64) : List FlushCall → List UInt64 × List Batched
  | [] => (moveClocks, [])
  | call :: calls =>
    let first := call.run moveClocks
    let rest := flushCalls first.1 calls
    (rest.1, first.2 ++ rest.2)

theorem flushCalls_allots (calls : List FlushCall) (ordered : BinaryHeap.Ordered moveClocks)
    (nonempty : 0 < moveClocks.length) :
    Allots moveClocks (flushCalls moveClocks calls).1 (flushCalls moveClocks calls).2 := by
  induction calls generalizing moveClocks with
  | nil => exact ⟨ordered, .nil _⟩
  | cons call calls induction =>
    have first : Allots moveClocks (call.run moveClocks).1 (call.run moveClocks).2 := by
      rw [FlushCall.run, steppersyncFlush]
      split
      · exact ⟨ordered, .nil _⟩
      · exact ⟨ordered, .nil _⟩
      · rename_i scList flushed
        exact mergeMessages_allots call.moveClock (queuedMessages scList) ⟨scList, moveClocks⟩
          ordered nonempty
    exact first.append (induction first.ordered (first.nonempty nonempty))

theorem ordered_replicate (moveNum : Nat) (clock : UInt64) :
    BinaryHeap.Ordered (replicate moveNum clock) := by
  intro index positive
  have above : BinaryHeap.parent index ≤ index := by
    rw [BinaryHeap.parent]
    omega
  by_cases inside : index < moveNum
  · rw [BinaryHeap.key_of_lt (by rw [length_replicate]; omega),
      BinaryHeap.key_of_lt (by rw [length_replicate]; omega), getElem_replicate, getElem_replicate]
  · rw [BinaryHeap.key_of_length_le (show (replicate moveNum clock).length ≤ index by
      rw [length_replicate]; omega)]
    exact le_top

/-- If the messages are received in the order they are sent, no more nodes are allocated
than the move queue has. -/
theorem move_queue_not_overcommitted (moveNum : Nat) (positive : 0 < moveNum)
    (calls : List FlushCall) :
    let run := flushCalls (replicate moveNum 0) calls
    BinaryHeap.Ordered run.1 ∧ (∀ clock ∈ run.1, run.1.getD 0 0 ≤ clock) ∧
      SlotPool.Exchanges (replicate moveNum 0) (slotUses run.2) run.1 ∧
      (∀ moveClocks : List UInt64, BinaryHeap.Ordered moveClocks → 0 < moveClocks.length →
        ∀ reqClock, BinaryHeap.Ordered (heapReplace moveClocks reqClock) ∧
          moveClocks.Perm (moveClocks.getD 0 0 :: moveClocks.tail) ∧
          (∀ clock ∈ moveClocks, moveClocks.getD 0 0 ≤ clock) ∧
          (heapReplace moveClocks reqClock).Perm (reqClock :: moveClocks.tail)) ∧
      ∀ received freed : Nat → UInt64, SlotPool.Timed (slotUses run.2) received freed →
        ∀ clock, SlotPool.occupied received freed clock (slotUses run.2).length ≤ moveNum := by
  intro run
  have length : (replicate moveNum (0 : UInt64)).length = moveNum := length_replicate
  have nonempty : 0 < (replicate moveNum (0 : UInt64)).length := by omega
  have allots : Allots (replicate moveNum 0) run.1 run.2 :=
    flushCalls_allots calls (ordered_replicate moveNum 0) nonempty
  refine ⟨allots.ordered, ?_, allots.exchanges, ?_, ?_⟩
  · exact (heapReplace_spec allots.ordered (allots.nonempty nonempty) 0).2.2.1
  · intro moveClocks ordered filled reqClock
    exact heapReplace_spec ordered filled reqClock
  intro received freed timed clock
  have bound := allots.exchanges.occupied_le timed clock (slotUses run.2).length le_rfl
  rw [length] at bound
  exact bound

def crossedCall : FlushCall where
  scList :=
    [{ stepcompressAlloc 0 0 with
        msgQueue :=
          [⟨.queueStep 10 1 0, 100, 1⟩, ⟨.queueStep 10 1 0, 50, 2⟩, ⟨.queueStep 10 1 0, 200, 3⟩] }]
  moveClock := 1000
  clearHistoryClock := 0

theorem slotUses_crossedCall :
    slotUses (flushCalls (replicate 1 0) [crossedCall]).2 = [(0, 100), (100, 50), (50, 200)] := by
  decide +kernel

theorem move_queue_not_overcommitted_crossed :
    SlotPool.occupied (fun index => [0, 100, 100].getD index 0)
      (fun index => [100, 100, 200].getD index (0 : UInt64)) 100
      (slotUses (flushCalls (replicate 1 0) [crossedCall]).2).length ≤ 1 := by
  apply (move_queue_not_overcommitted 1 (by decide) [crossedCall]).2.2.2.2
  rw [slotUses_crossedCall]
  constructor
  · intro index use entry
    rcases index with _ | _ | _ | index
    all_goals simp at entry
    all_goals subst entry; decide
  · intro index use entry
    rcases index with _ | _ | _ | index
    all_goals simp at entry
    all_goals subst entry; decide
  · intro earlier later order inside
    have inOrder : ∀ later < 3, ∀ earlier ≤ later,
        [0, 100, (100 : UInt64)].getD earlier 0 ≤ [0, 100, (100 : UInt64)].getD later 0 := by
      decide
    exact inOrder later inside earlier order

/-- Received out of order, the third message takes a node while the first still holds the
only one there is. -/
theorem move_queue_overcommitted_out_of_order :
    let uses := slotUses (flushCalls (replicate 1 0) [crossedCall]).2
    let received : List UInt64 := [0, 100, 60]
    let freed : List UInt64 := [100, 100, 200]
    (∀ index < 3, (uses.getD index (0, 0)).1 ≤ received.getD index 0 ∧
      freed.getD index 0 ≤ max (uses.getD index (0, 0)).2 (received.getD index 0)) ∧
      SlotPool.occupied (fun index => received.getD index 0)
        (fun index => freed.getD index 0) 60 3 = 2 := by
  decide +kernel

end CentauriCarbon.Stepping
