import CentauriCarbon.Stepping.HostRun
import CentauriCarbon.Stepping.StepperSync

/-! # Accounting for queued moves

Every `queue_step` takes a node of the micro-controller's move queue. `steppersync_flush`
accounts for it only if the message has a `min_clock`, which `add_move` copies from
`last_step_clock`.
-/

namespace CentauriCarbon.Stepping

open List

inductive QueueOp where
  | step (op : StepOp)
  | reset (lastStepClock : UInt64)
  | setLastPosition (clock : UInt64) (lastPosition : Int64)
  | setInvertSdir (invertSdir : Bool)
  | queueMsg (data : List UInt32)
  | queueMqMsg (reqClock : UInt64) (data : List UInt32)

def QueueOp.apply (sc : StepCompress) : QueueOp → Outcome StepCompress
  | .step op => op.apply sc
  | .reset lastStepClock => stepcompressReset sc lastStepClock
  | .setLastPosition clock lastPosition => stepcompressSetLastPosition sc clock lastPosition
  | .setInvertSdir invertSdir => .done (stepcompressSetInvertSdir sc invertSdir)
  | .queueMsg data => stepcompressQueueMsg sc data
  | .queueMqMsg reqClock data => stepcompressQueueMqMsg sc reqClock data

inductive SyncEvent where
  | stepper (i : Nat) (op : QueueOp)
  | flush (moveClock clearHistoryClock : UInt64)

def syncStep (ss : StepperSync) : SyncEvent → StepperSync × List Batched
  | .stepper i op =>
    (⟨ss.scList.modify i fun sc => (op.apply sc).state, ss.moveClocks⟩, [])
  | .flush moveClock clearHistoryClock =>
    (steppersyncFlush ss moveClock clearHistoryClock).state

def syncRun (ss : StepperSync) : List SyncEvent → StepperSync × List Batched
  | [] => (ss, [])
  | event :: events =>
    let first := syncStep ss event
    let rest := syncRun first.1 events
    (rest.1, first.2 ++ rest.2)

/-! ## When moves are accounted for -/

/-- Step clocks ascend, and a reset sets a clock other than zero. -/
def QueueOp.Above (floor : Nat) : QueueOp → Prop
  | .step op => op.Above floor
  | .reset lastStepClock => lastStepClock ≠ 0 ∧ lastStepClock.toNat < clockLimit
  | .setLastPosition _ _ => True
  | .setInvertSdir _ => True
  | .queueMsg _ => True
  | .queueMqMsg _ _ => True

def QueueOp.floor : QueueOp → Nat → Nat
  | .step op, floor => op.floor floor
  | .reset lastStepClock, _ => lastStepClock.toNat
  | .setLastPosition _ _, floor => floor
  | .setInvertSdir _, floor => floor
  | .queueMsg _, floor => floor
  | .queueMqMsg _ _, floor => floor

/-- Every event on a stepper is above the clocks that the stepper has taken. -/
def Regular (floors : List Nat) : List SyncEvent → Prop
  | [] => True
  | .stepper i op :: events =>
    (∀ floor, floors[i]? = some floor → op.Above floor) ∧ Regular (floors.modify i op.floor) events
  | .flush _ _ :: events => Regular floors events

/-- Before every event, each stepper has room for its pending step. -/
def RoomySync (ss : StepperSync) : List SyncEvent → Prop
  | [] => True
  | event :: events => (∀ sc ∈ ss.scList, sc.Roomy) ∧ RoomySync (syncStep ss event).1 events

instance instDecidableRoomySync : (ss : StepperSync) → (events : List SyncEvent) →
    Decidable (RoomySync ss events)
  | _, [] => .isTrue trivial
  | ss, event :: events =>
    have := instDecidableRoomySync (syncStep ss event).1 events
    inferInstanceAs (Decidable (_ ∧ _))

def StepMessage.Accounted (message : StepMessage) : Prop :=
  message.stepCount.isSome → message.minClock ≠ 0

structure Accountable (sc : StepCompress) (floor : Nat) : Prop where
  ready : ∃ requests, Ready sc requests floor
  started : 1 ≤ sc.lastStepClock.toNat
  messages : ∀ message ∈ sc.msgQueue, message.Accounted

theorem Performs.accountable {next : StepCompress}
    (performs : Performs sc next requests added rest pending floor)
    (accountable : Accountable sc earlier) : Accountable next floor := by
  rcases performs.serves with ⟨moves, emits, _, _⟩
  rcases emits.messages with ⟨messages, queue, means⟩
  have started := accountable.started
  refine ⟨⟨rest, performs.ready⟩, started.trans emits.advances, ?_⟩
  intro message member step zero
  change next.msgQueue = sc.msgQueue ++ messages at queue
  rw [queue] at member
  rcases mem_append.mp member with old | new
  · exact accountable.messages message old step zero
  · have low := means.minClock message new step
    rw [zero] at low
    exact absurd (started.trans low) (by decide)

variable {floors : List Nat} {scList : List StepCompress} {sc next : StepCompress} {floor : Nat}

/-- Only the queue, the clocks and the messages count, and the direction up to a turn. -/
theorem Accountable.transfer (accountable : Accountable sc floor) (turn : Bool → Bool)
    (sdir : next.sdir = sc.sdir.map turn) (queue : next.queue = sc.queue)
    (maxError : next.maxError = sc.maxError) (lastStepClock : next.lastStepClock = sc.lastStepClock)
    (nextStepClock : next.nextStepClock = sc.nextStepClock)
    (messages : ∀ message ∈ next.msgQueue, message.Accounted) : Accountable next floor := by
  rcases accountable.ready with ⟨requests, aligned, under, pending, taken⟩
  let turned := requests.map fun request => (⟨turn request.dir, request.clock⟩ : StepRequest)
  have sameClocks : clocks turned = clocks requests := by
    rw [clocks, clocks, map_map]
    rfl
  have sameUnder : ∀ bound, Under bound sc requests → Under bound next turned := by
    intro bound holds
    rw [Under, lastStepClock, sameClocks]
    exact holds
  refine ⟨⟨turned, ⟨?_, ?_, ?_, ?_, ?_, ?_⟩, sameUnder _ under, ?_, ?_⟩, ?_, messages⟩
  · rw [queue, sameClocks]
    exact aligned.queue
  · rw [lastStepClock, sameClocks]
    exact aligned.ascending
  · rw [lastStepClock, sameClocks]
    exact aligned.near
  · rw [lastStepClock, sameClocks]
    exact aligned.bounded
  · intro request member
    rcases mem_map.mp member with ⟨original, queued, rfl⟩
    rw [sdir, aligned.facing original queued]
    rfl
  · rw [maxError]
    exact aligned.maxError_le
  · intro waiting
    rw [nextStepClock] at waiting
    constructor
    · rw [nextStepClock]
      exact sameUnder _ (pending waiting).after
    · rw [nextStepClock]
      exact (pending waiting).bounded
  · rw [nextStepClock]
    exact taken
  · rw [lastStepClock]
    exact accountable.started

section

variable (accountable : Accountable sc floor)
include accountable

theorem stepcompressFlush_accountable (roomy : sc.Roomy) (moveClock : UInt64) :
    ∃ next, stepcompressFlush sc moveClock = .done next ∧ Accountable next floor := by
  rcases accountable.ready with ⟨requests, ready⟩
  rcases stepcompressFlush_spec ready roomy moveClock with ⟨next, rest, run, performs, _⟩
  exact ⟨next, run, performs.accountable accountable⟩

theorem Accountable.update (messages : ∀ message ∈ msgQueue, message.Accounted)
    (lastPosition : Int64) (historyList : List HistorySteps) : Accountable
      { sc with msgQueue, lastPosition, historyList } floor :=
  accountable.transfer id Option.map_id'.symm rfl rfl rfl rfl messages

theorem Accountable.enqueue (data : List UInt32) (minClock reqClock : UInt64) : Accountable
      { sc with msgQueue := sc.msgQueue ++ [⟨.other data, minClock, reqClock⟩] } floor := by
  apply accountable.update
  refine forall_mem_append.mpr ⟨accountable.messages, forall_mem_singleton.mpr ?_⟩
  intro step
  exact absurd step Bool.false_ne_true

theorem QueueOp.apply_accountable (roomy : sc.Roomy) (op : QueueOp) (above : op.Above floor) :
    ∃ next, op.apply sc = .done next ∧ Accountable next (op.floor floor) := by
  rcases accountable.ready with ⟨requests, ready⟩
  rcases stepcompressFlush_accountable accountable roomy uint64Max with ⟨flushed, flushes, kept⟩
  cases op with
  | step op =>
    rcases op.apply_spec ready roomy above with ⟨next, rest, run, performs⟩
    exact ⟨next, run, performs.accountable accountable⟩
  | reset lastStepClock =>
    rcases stepcompressReset_spec ready roomy lastStepClock with ⟨flushed, run, performs, reset⟩
    refine ⟨_, run, ⟨[], reset.ready above.2 performs.ready.aligned.maxError_le⟩, ?_, ?_⟩
    · apply Nat.one_le_iff_ne_zero.mpr
      intro zero
      exact above.1 (UInt64.toNat.inj zero)
    · exact (performs.accountable accountable).messages
  | setLastPosition clock lastPosition =>
    rw [QueueOp.apply, stepcompressSetLastPosition, flushes, Outcome.done_bind]
    exact ⟨_, rfl, kept.update kept.messages _ _⟩
  | setInvertSdir invertSdir =>
    refine ⟨_, rfl, ?_⟩
    rw [stepcompressSetInvertSdir]
    split
    · exact accountable
    · exact accountable.transfer (!·) rfl rfl rfl rfl rfl accountable.messages
  | queueMsg data =>
    rw [QueueOp.apply, stepcompressQueueMsg, flushes, Outcome.done_bind]
    exact ⟨_, rfl, kept.enqueue data 0 _⟩
  | queueMqMsg reqClock data =>
    rw [QueueOp.apply, stepcompressQueueMqMsg, flushes, Outcome.done_bind]
    exact ⟨_, rfl, kept.enqueue data reqClock reqClock⟩

end

/-! ## Runs -/

theorem forall₂_modify {Left Right : Type} {Related Guarded : Left → Right → Prop}
    {lefts : List Left} {rights : List Right} (related : Forall₂ Guarded lefts rights)
    (weaker : ∀ left right, Guarded left right → Related left right)
    (i : Nat) (changeLeft : Left → Left) (changeRight : Right → Right)
    (kept : ∀ left right, rights[i]? = some right → Guarded left right →
      Related (changeLeft left) (changeRight right)) :
    Forall₂ Related (lefts.modify i changeLeft) (rights.modify i changeRight) := by
  induction related generalizing i with
  | nil =>
    rw [modify_nil, modify_nil]
    exact .nil
  | @cons left right lefts rights head tail induction =>
    cases i with
    | zero => exact .cons (kept left right rfl head) (tail.imp weaker)
    | succ i => exact .cons (weaker left right head) (induction i kept)

variable (moveClock : UInt64) (ss : StepperSync) (events : List SyncEvent)

section

variable (accountable : Forall₂ Accountable scList floors)
include accountable

theorem flushAll_accountable (roomy : ∀ sc ∈ scList, sc.Roomy) :
    ∃ flushed, flushAll moveClock scList = .done flushed ∧ Forall₂ Accountable flushed floors := by
  induction accountable with
  | nil => exact ⟨[], rfl, .nil⟩
  | cons head tail induction =>
    rw [forall_mem_cons] at roomy
    rcases stepcompressFlush_accountable head roomy.1 moveClock with ⟨next, run, kept⟩
    rcases induction roomy.2 with ⟨rest, runRest, keptRest⟩
    refine ⟨next :: rest, ?_, .cons kept keptRest⟩
    rw [flushAll, run]
    dsimp only
    rw [runRest]

theorem findLowest_accounted (i : Nat) (reqClock : UInt64)
    (before : ∀ found ∈ qm, found.2.Accounted) :
    ∀ found ∈ findLowest scList i reqClock qm, found.2.Accounted := by
  induction accountable generalizing i reqClock qm with
  | nil => exact before
  | @cons sc floor scList floors head tail induction =>
    rw [findLowest]
    have messages := head.messages
    cases queue : sc.msgQueue with
    | nil => exact induction (i + 1) reqClock before
    | cons m rest =>
      dsimp only
      split
      · apply induction
        intro found member
        rw [← Option.mem_some_iff.mp member]
        apply messages
        rw [queue]
        exact mem_cons_self
      · exact induction (i + 1) reqClock before

theorem dequeue_accountable (i : Nat) : Forall₂ Accountable (dequeue scList i) floors := by
  rw [dequeue, ← modify_id i floors]
  apply forall₂_modify accountable fun _ _ => id
  intro sc floor _ holds
  apply holds.update
  intro message member
  exact holds.messages message (mem_of_mem_tail member)

end

theorem mergeMessages_accounted (rounds : Nat)
    (accountable : Forall₂ Accountable ss.scList floors) :
    Forall₂ Accountable (mergeMessages moveClock rounds ss).1.scList floors ∧
      ∀ batched ∈ (mergeMessages moveClock rounds ss).2, batched.message.Accounted := by
  induction rounds generalizing ss with
  | zero => exact ⟨accountable, by simp [mergeMessages]⟩
  | succ rounds induction =>
    rw [mergeMessages]
    split
    · exact ⟨accountable, by simp⟩
    rename_i i qm found
    have lowest : qm.Accounted :=
      findLowest_accounted accountable 0 SerialLink.maxClock (by simp) (i, qm)
        (Option.mem_def.mpr found)
    split
    · exact ⟨accountable, by simp⟩
    have rest := induction ⟨dequeue ss.scList i, if qm.minClock ≠ 0 then
      heapReplace ss.moveClocks qm.minClock else ss.moveClocks⟩
      (dequeue_accountable accountable i)
    exact ⟨rest.1, forall_mem_cons.mpr ⟨lowest, rest.2⟩⟩

theorem steppersyncFlush_accounted (moveClock clearHistoryClock : UInt64)
    (accountable : Forall₂ Accountable ss.scList floors) (roomy : ∀ sc ∈ ss.scList, sc.Roomy) :
    Forall₂ Accountable
        (steppersyncFlush ss moveClock clearHistoryClock).state.1.scList floors ∧
      ∀ batched ∈ (steppersyncFlush ss moveClock clearHistoryClock).state.2,
        batched.message.Accounted := by
  rcases flushAll_accountable moveClock accountable roomy with ⟨flushed, run, kept⟩
  rcases mergeMessages_accounted moveClock ⟨flushed, ss.moveClocks⟩ (queuedMessages flushed)
    kept with ⟨merged, batch⟩
  rw [steppersyncFlush, run]
  refine ⟨?_, batch⟩
  apply forall₂_map_left_iff.mpr
  apply merged.imp
  intro sc floor holds
  exact holds.update holds.messages _ _

theorem syncRun_accounted (accountable : Forall₂ Accountable ss.scList floors)
    (regular : Regular floors events) (roomy : RoomySync ss events) :
    (∃ floors, Forall₂ Accountable (syncRun ss events).1.scList floors) ∧
      ∀ batched ∈ (syncRun ss events).2, batched.message.Accounted := by
  induction events generalizing ss floors with
  | nil => exact ⟨⟨floors, accountable⟩, by simp [syncRun]⟩
  | cons event events induction =>
    have step : ∃ next : List Nat, Forall₂ Accountable (syncStep ss event).1.scList next ∧
        Regular next events ∧
        ∀ batched ∈ (syncStep ss event).2, batched.message.Accounted := by
      cases event with
      | stepper i op =>
        refine ⟨floors.modify i op.floor, ?_, regular.2, by simp [syncStep]⟩
        apply forall₂_modify ((forall₂_and_left _ _).mpr ⟨roomy.1, accountable⟩)
          fun _ _ => And.right
        intro sc floor known holds
        rcases op.apply_accountable holds.2 holds.1 (regular.1 floor known) with
          ⟨next, run, kept⟩
        rw [run]
        exact kept
      | flush moveClock clearHistoryClock =>
        rcases steppersyncFlush_accounted ss moveClock clearHistoryClock accountable roomy.1 with
          ⟨kept, batch⟩
        exact ⟨floors, kept, regular, batch⟩
    rcases step with ⟨next, kept, later, batch⟩
    rcases induction (syncStep ss event).1 kept later roomy.2 with ⟨final, rest⟩
    refine ⟨final, ?_⟩
    exact forall_mem_append.mpr ⟨batch, rest⟩

def replaceAll (moveClocks : List UInt64) (batch : List Batched) : List UInt64 :=
  (batch.filter fun batched => batched.message.minClock ≠ 0).foldl
    (fun moveClocks batched => heapReplace moveClocks batched.message.minClock) moveClocks

theorem replaceAll_append (moveClocks : List UInt64) (left right : List Batched) :
    replaceAll moveClocks (left ++ right) = replaceAll (replaceAll moveClocks left) right := by
  rw [replaceAll, filter_append, foldl_append]
  rfl

theorem mergeMessages_replaces (rounds : Nat) : (mergeMessages moveClock rounds ss).1.moveClocks =
      replaceAll ss.moveClocks (mergeMessages moveClock rounds ss).2 := by
  induction rounds generalizing ss with
  | zero => rfl
  | succ rounds induction =>
    rw [mergeMessages]
    split
    · rfl
    rename_i i qm found
    split
    · rfl
    dsimp only
    rw [induction]
    dsimp only
    rw [← singleton_append, replaceAll_append]
    congr 1
    rw [replaceAll]
    split
    case isTrue uses =>
      rw [filter_cons_of_pos (by simpa using uses)]
      rfl
    case isFalse unused =>
      rw [filter_cons_of_neg (by simpa using unused)]
      rfl

theorem syncRun_replaces :
    (syncRun ss events).1.moveClocks = replaceAll ss.moveClocks (syncRun ss events).2 := by
  induction events generalizing ss with
  | nil => rfl
  | cons event events induction =>
    have step : (syncStep ss event).1.moveClocks =
        replaceAll ss.moveClocks (syncStep ss event).2 := by
      cases event with
      | stepper i op => rfl
      | flush moveClock clearHistoryClock =>
        rw [syncStep, steppersyncFlush]
        split
        · rfl
        · rfl
        · exact mergeMessages_replaces moveClock _ _
    rw [syncRun]
    dsimp only
    rw [induction, step, replaceAll_append]

/-- If every stepper starts from a clock other than zero, is never reset to zero and has room
for its far steps, then every `queue_step` sent takes exactly one slot of `move_clocks`. -/
theorem queue_steps_accounted (scList : List StepCompress) (moveNum : Nat)
    (events : List SyncEvent)
    (fresh : ∀ sc ∈ scList, sc.IsReset ∧ sc.msgQueue = [] ∧ sc.lastStepClock ≠ 0 ∧
      sc.lastStepClock.toNat < clockLimit ∧ sc.maxError.toNat ≤ 8192)
    (regular : Regular (scList.map (·.lastStepClock.toNat)) events)
    (roomy : RoomySync (steppersyncAlloc scList moveNum) events) :
    let run := syncRun (steppersyncAlloc scList moveNum) events
    (∀ sc ∈ run.1.scList, ∀ message ∈ sc.msgQueue,
      message.stepCount.isSome → message.minClock ≠ 0) ∧
    (∀ batched ∈ run.2, batched.message.stepCount.isSome → batched.message.minClock ≠ 0) ∧
    run.1.moveClocks = (run.2.filter fun batched => batched.message.minClock ≠ 0).foldl
      (fun moveClocks batched => heapReplace moveClocks batched.message.minClock)
      (replicate moveNum 0) := by
  intro run
  have start : Forall₂ Accountable scList
      (scList.map (·.lastStepClock.toNat)) := by
    apply forall₂_map_right_iff.mpr
    apply forall₂_same.mpr
    intro sc member
    rcases fresh sc member with ⟨reset, empty, nonzero, bounded, accurate⟩
    refine ⟨⟨[], reset.ready bounded accurate⟩, ?_, ?_⟩
    · apply Nat.one_le_iff_ne_zero.mpr
      intro zero
      exact nonzero (UInt64.toNat.inj zero)
    · rw [empty]
      simp
  rcases syncRun_accounted (steppersyncAlloc scList moveNum) events start regular roomy with
    ⟨⟨floors, kept⟩, batch⟩
  refine ⟨?_, batch, syncRun_replaces _ events⟩
  intro sc member
  rcases mem_iff_getElem.mp member with ⟨index, inside, rfl⟩
  exact (forall₂_iff_get.mp kept).2 index inside (by
    rw [← kept.length_eq]
    exact inside) |>.messages

def startedAt (lastStepClock : UInt64) : StepCompress :=
  { stepcompressAlloc 25 10 with lastStepClock }

def resetBetween : List SyncEvent :=
  [.stepper 0 (.step (.append true 600)), .stepper 1 (.step (.append false 900)),
    .flush 650 0, .stepper 1 (.reset 1200), .flush 2000 0]

theorem queue_steps_accounted_sample :
    (syncRun (steppersyncAlloc [startedAt 500, startedAt 700] 2) resetBetween).2.length = 4 ∧
      ∀ batched ∈ (syncRun (steppersyncAlloc [startedAt 500, startedAt 700] 2)
        resetBetween).2, batched.message.stepCount.isSome → batched.message.minClock ≠ 0 := by
  refine ⟨by decide +kernel,
    (queue_steps_accounted [startedAt 500, startedAt 700] 2 _ ?_ ?_ (by decide +kernel)).2.1⟩
  · rw [forall_mem_cons, forall_mem_singleton]
    exact ⟨⟨⟨rfl, rfl, rfl⟩, rfl, by decide, by decide, by decide⟩, ⟨rfl, rfl, rfl⟩, rfl,
      by decide, by decide, by decide⟩
  · simp [Regular, resetBetween, QueueOp.Above, StepOp.Above, startedAt, clockLimit]

def afterHoming : List SyncEvent :=
  [.stepper 0 (.reset 0), .stepper 0 (.step (.append true 100)), .flush 1000 0]

/-- The `queue_step` carries the mark of a message that needs no node, and the only slot
is still counted as free. -/
theorem queue_step_unaccounted_after_homing :
    let run := syncRun (steppersyncAlloc [startedAt 500] 1) afterHoming
    run.2.map Batched.message =
        [⟨.setNextStepDir 1, 0, 0⟩, ⟨.queueStep 100 1 0, 0, 0⟩] ∧
      run.1.moveClocks = [0] := by
  decide +kernel

end CentauriCarbon.Stepping
