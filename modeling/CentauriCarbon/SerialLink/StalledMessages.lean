import CentauriCarbon.SerialLink.PendingMessages
import Mathlib.Data.List.TakeWhile

/-! # The messages that a command queue holds back

A message waits in the upcoming queue of its command queue until `check_send_command` finds that
its `min_clock` is reached. Nothing else takes messages from there, and they leave in order.
-/

namespace CentauriCarbon.SerialLink

open List

def upcomingIn (queues : List CommandQueue) (cq : Nat) : List QueueMessage :=
  ((queues.find? (·.id = cq)).map CommandQueue.upcomingQueue).getD []

variable (sq : SerialQueue) (cq : Nat) (msgs : List QueueMessage) (queue : CommandQueue)
    (clocks : SendClocks)

def DistinctIds (queues : List CommandQueue) : Prop := (queues.map CommandQueue.id).Nodup

@[simp] theorem upcomingIn_nil : upcomingIn [] cq = [] := rfl

theorem upcomingIn_cons (queues : List CommandQueue) : upcomingIn (queue :: queues) cq =
      if queue.id = cq then queue.upcomingQueue else upcomingIn queues cq := by
  rw [upcomingIn, find?_cons]
  by_cases same : queue.id = cq
  · rw [if_pos same]
    simp [same]
  · rw [if_neg same]
    simp [same, upcomingIn]

variable {queues : List CommandQueue}

theorem upcomingIn_of_notMem {cq : Nat} (absent : cq ∉ queues.map CommandQueue.id) :
    upcomingIn queues cq = [] := by
  induction queues with
  | nil => rfl
  | cons queue queues induction =>
    rw [map_cons, mem_cons, not_or] at absent
    rw [upcomingIn_cons, if_neg (Ne.symm absent.1)]
    exact induction absent.2

theorem upcomingIn_append (front back : List CommandQueue) : upcomingIn (front ++ back) cq =
      if cq ∈ front.map CommandQueue.id then upcomingIn front cq else upcomingIn back cq := by
  induction front with
  | nil => rfl
  | cons queue front induction =>
    rw [cons_append, upcomingIn_cons, upcomingIn_cons, induction, map_cons]
    by_cases same : queue.id = cq
    · rw [if_pos same, if_pos same, if_pos (mem_cons.mpr (.inl same.symm))]
    have iff_later : cq ∈ queue.id :: front.map CommandQueue.id ↔
        cq ∈ front.map CommandQueue.id := by
      rw [mem_cons, or_iff_right (Ne.symm same)]
    rw [if_neg same, if_neg same]
    simp only [iff_later]

theorem upcomingIn_map (change : CommandQueue → CommandQueue)
    (release : List QueueMessage → List QueueMessage) {cq : Nat}
    (sameId : ∀ queue, (change queue).id = queue.id)
    (upcoming : ∀ queue, queue.id = cq → (change queue).upcomingQueue = release queue.upcomingQueue)
    (present : cq ∈ queues.map CommandQueue.id) :
    upcomingIn (queues.map change) cq = release (upcomingIn queues cq) := by
  induction queues with
  | nil => cases present
  | cons queue queues induction =>
    rw [map_cons, upcomingIn_cons, upcomingIn_cons, sameId]
    by_cases same : queue.id = cq
    · rw [if_pos same, if_pos same, upcoming queue same]
    · rw [if_neg same, if_neg same]
      rw [map_cons, mem_cons] at present
      exact induction (present.resolve_left (Ne.symm same))

theorem map_id_map (sameId : ∀ queue, (change queue).id = queue.id) (queues : List CommandQueue) :
    (queues.map change).map CommandQueue.id = queues.map CommandQueue.id := by
  rw [map_map]
  exact map_congr_left fun queue _ => sameId queue

theorem map_id_promote (ackClock : UInt64) (queues : List CommandQueue) :
    (queues.map (promote ackClock)).map CommandQueue.id = queues.map CommandQueue.id := by
  apply map_id_map
  intro queue
  rfl

/-! ## The operations -/

def addUpcoming (cq : Nat) (msgs : List QueueMessage) (queue : CommandQueue) : CommandQueue :=
  if queue.id = cq then { queue with upcomingQueue := queue.upcomingQueue ++ msgs } else queue

theorem addUpcoming_id : (addUpcoming cq msgs queue).id = queue.id := by
  rw [addUpcoming]
  split
  · rfl
  · rfl

theorem upcomingIn_appendTo_self (queues : List CommandQueue) :
    upcomingIn (appendTo queues cq msgs) cq = upcomingIn queues cq ++ msgs := by
  rw [appendTo]
  split
  next present =>
    apply upcomingIn_map (addUpcoming cq msgs) (· ++ msgs) (addUpcoming_id cq msgs)
    · intro queue same
      rw [addUpcoming, if_pos same]
    · exact any_id_iff.mp present
  next absent =>
    rw [any_id_iff] at absent
    rw [upcomingIn_append, if_neg absent, upcomingIn_of_notMem absent, upcomingIn_cons, if_pos rfl]
    rfl

theorem upcomingIn_appendTo_other (queues : List CommandQueue) {cq other : Nat}
    (different : other ≠ cq) :
    upcomingIn (appendTo queues cq msgs) other = upcomingIn queues other := by
  rw [appendTo]
  split
  · by_cases present : other ∈ queues.map CommandQueue.id
    · apply upcomingIn_map (addUpcoming cq msgs) id (addUpcoming_id cq msgs) _ present
      intro queue isOther
      rw [addUpcoming, if_neg (isOther ▸ different)]
      rfl
    · rw [upcomingIn_of_notMem present]
      apply upcomingIn_of_notMem
      have sameIds := map_id_map (addUpcoming_id cq msgs) queues
      exact fun member => present (sameIds ▸ member)
  · rw [upcomingIn_append, upcomingIn_cons, if_neg (Ne.symm different), upcomingIn_nil]
    split
    · rfl
    next absent => exact (upcomingIn_of_notMem absent).symm

/-- A queue from which a message is taken, or which then is empty, holds back the same. -/
theorem upcomingIn_removeReady (distinct : DistinctIds queues) {queue : CommandQueue}
    (at_index : queues[index]? = some queue) :
    upcomingIn (removeReady queues index) cq = upcomingIn queues cq := by
  rcases removeReady_cases at_index with ⟨front, back, rfl, kept | ⟨-, noUpcoming, erased⟩⟩
  · rw [kept, upcomingIn_append, upcomingIn_append, upcomingIn_cons, upcomingIn_cons]
  rw [erased, upcomingIn_append, upcomingIn_append, upcomingIn_cons]
  by_cases same : queue.id = cq
  · have absent : cq ∉ back.map CommandQueue.id := by
      rw [DistinctIds, map_append, map_cons] at distinct
      have behind := (nodup_cons.mp (nodup_append.mp distinct).2.1).1
      rw [← same]
      exact behind
    rw [if_pos same, noUpcoming, upcomingIn_of_notMem absent]
  · rw [if_neg same]

/-! ## The functions of the serial queue -/

theorem serialqueueSendBatch_pendingQueues : (serialqueueSendBatch sq cq msgs).pendingQueues =
      if totalLength (msgs.map limitMinClock) = 0 then sq.pendingQueues
      else appendTo sq.pendingQueues cq (msgs.map limitMinClock) := by
  rw [serialqueueSendBatch]
  split
  · rfl
  · rfl

theorem distinctIds_sendBatch {sq : SerialQueue} (distinct : DistinctIds sq.pendingQueues) :
    DistinctIds (serialqueueSendBatch sq cq msgs).pendingQueues := by
  rw [serialqueueSendBatch_pendingQueues]
  split
  · exact distinct
  · exact nodup_appendTo distinct cq _

theorem upcomingIn_send {qm : QueueMessage} (some_bytes : qm.msg ≠ []) :
    upcomingIn (serialqueueSendBatch sq cq [qm]).pendingQueues cq =
      upcomingIn sq.pendingQueues cq ++ [limitMinClock qm] := by
  have nonzero : totalLength ([qm].map limitMinClock) ≠ 0 := by
    rw [map_singleton, totalLength_cons, limitMinClock_msg]
    have positive := length_pos_iff.mpr some_bytes
    omega
  rw [serialqueueSendBatch_pendingQueues, if_neg nonzero, upcomingIn_appendTo_self, map_singleton]

theorem checkSendCommand_pendingQueues :
    (checkSendCommand sq clocks).2.pendingQueues = sq.pendingQueues ∨
      (checkSendCommand sq clocks).2.pendingQueues =
        sq.pendingQueues.map (promote clocks.ackClock) := by
  rcases checkSendCommand_cases sq clocks with nothing | ⟨-, -, decision, needKickClock, checked, -⟩
  · left
    rw [nothing]
  · right
    rw [checked]
    rfl

theorem upcomingIn_check : ∃ released, upcomingIn sq.pendingQueues cq =
        released ++ upcomingIn (checkSendCommand sq clocks).2.pendingQueues cq ∧
      ∀ qm ∈ released, qm.minClock ≤ clocks.ackClock := by
  rcases checkSendCommand_pendingQueues sq clocks with same | released
  · exact ⟨[], by rw [same, nil_append], by simp⟩
  have promoted : upcomingIn (sq.pendingQueues.map (promote clocks.ackClock)) cq =
      (upcomingIn sq.pendingQueues cq).dropWhile fun qm => ¬ clocks.ackClock < qm.minClock := by
    by_cases present : cq ∈ sq.pendingQueues.map CommandQueue.id
    · exact upcomingIn_map (promote _) _ (fun _ => rfl) (fun _ _ => rfl) present
    · rw [upcomingIn_of_notMem present]
      apply upcomingIn_of_notMem
      exact fun member => present (map_id_promote _ _ ▸ member)
  rw [released, promoted]
  refine ⟨_, takeWhile_append_dropWhile.symm, ?_⟩
  intro qm member
  have reached := mem_takeWhile_imp member
  simpa using reached

theorem upcomingIn_fillBlock {sq next : SerialQueue} (distinct : DistinctIds sq.pendingQueues)
    (loop : fillBlock rounds sq payload = some (next, filled)) : DistinctIds next.pendingQueues ∧
      ∀ cq, upcomingIn next.pendingQueues cq = upcomingIn sq.pendingQueues cq := by
  refine fillBlock_keeps (fun now _ => DistinctIds now.pendingQueues ∧
    ∀ cq, upcomingIn now.pendingQueues cq = upcomingIn sq.pendingQueues cq) ?_
    ⟨distinct, fun _ => rfl⟩ loop
  rintro now payload index qm ⟨distinct, same⟩ found -
  rcases findReady_eq_some found with ⟨queue, rest, at_index, ready⟩
  refine ⟨(removeReady_removal at_index ready).ids.nodup distinct, ?_⟩
  intro cq
  exact (upcomingIn_removeReady cq distinct at_index).trans (same cq)

theorem handleMessage_pendingQueues (msg : List UInt8) :
    (handleMessage sq msg).pendingQueues = sq.pendingQueues := by
  have processed : ∀ (sq : SerialQueue) rseq,
      (processMessage sq rseq msg).pendingQueues = sq.pendingQueues := by
    intro sq rseq
    rw [processMessage]
    split_ifs
    · rfl
    · rfl
    · rfl
    · rfl
  rw [handleMessage]
  split
  · rfl
  rw [processed]
  split
  · rcases removeSent_frame sq (receivedSeq sq msg) sq.receiveSeq sq.sentQueue with
      ⟨_, _, _, _, removed⟩
    rw [updateReceiveSeq, removed]
    rfl
  · rfl

end CentauriCarbon.SerialLink
