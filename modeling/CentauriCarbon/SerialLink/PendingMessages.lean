import CentauriCarbon.SerialLink.SerialQueue
import Mathlib.Algebra.Order.BigOperators.Group.List
import Mathlib.Algebra.Order.Group.Nat

/-! # The messages that wait in the serial queue

Messages move from the upcoming queues to the ready queues and from there into blocks. The byte
counts that `serialqueue.c` keeps along the way are those of the queues.
-/

namespace CentauriCarbon.SerialLink

open List Protocol

structure Pending where
  queues : List CommandQueue
  readyBytes : Int
  upcomingBytes : Int

def SerialQueue.pending (sq : SerialQueue) : Pending :=
  ⟨sq.pendingQueues, sq.readyBytes, sq.upcomingBytes⟩

def readyTotal (queues : List CommandQueue) : Nat :=
  (queues.map fun queue => totalLength queue.readyQueue).sum

def upcomingTotal (queues : List CommandQueue) : Nat :=
  (queues.map fun queue => totalLength queue.upcomingQueue).sum

/-- A message that can be sent: it fits into a block and has a clock. -/
def QueueMessage.Sendable (qm : QueueMessage) : Prop :=
  0 < qm.msg.length ∧ qm.msg.length ≤ messagePayloadMax ∧ qm.reqClock < maxClock

instance QueueMessage.decidableSendable (qm : QueueMessage) : Decidable qm.Sendable :=
  inferInstanceAs (Decidable (_ ∧ _ ∧ _))

structure Pending.Accounted (queued : List (List UInt8)) (pending : Pending) : Prop where
  ready : pending.readyBytes = readyTotal pending.queues
  upcoming : pending.upcomingBytes = upcomingTotal pending.queues
  ids : (pending.queues.map CommandQueue.id).Nodup
  messages : ∀ queue ∈ pending.queues, ∀ qm ∈ queue.readyQueue ++ queue.upcomingQueue,
    qm.Sendable ∧ qm.msg ∈ queued

@[simp] theorem totalLength_nil : totalLength [] = 0 := rfl

@[simp] theorem totalLength_cons (qm : QueueMessage) (messages : List QueueMessage) :
    totalLength (qm :: messages) = qm.msg.length + totalLength messages := by
  simp [totalLength]

@[simp] theorem totalLength_append (front back : List QueueMessage) :
    totalLength (front ++ back) = totalLength front + totalLength back := by
  simp [totalLength]

@[simp] theorem readyTotal_append (front back : List CommandQueue) :
    readyTotal (front ++ back) = readyTotal front + readyTotal back := by
  simp [readyTotal]

@[simp] theorem readyTotal_cons (queue : CommandQueue) (queues : List CommandQueue) :
    readyTotal (queue :: queues) = totalLength queue.readyQueue + readyTotal queues := by
  simp [readyTotal]

@[simp] theorem upcomingTotal_append (front back : List CommandQueue) :
    upcomingTotal (front ++ back) = upcomingTotal front + upcomingTotal back := by
  simp [upcomingTotal]

@[simp] theorem upcomingTotal_cons (queue : CommandQueue) (queues : List CommandQueue) :
    upcomingTotal (queue :: queues) = totalLength queue.upcomingQueue + upcomingTotal queues := by
  simp [upcomingTotal]

/-- The scan of `findReady` from some position and best message on: it finds the first
message of a queue, or keeps its best message and there was none with a lower clock. -/
theorem findReady_scan (queues : List CommandQueue) (start : Nat)
    (best : UInt64 × Option (Nat × QueueMessage)) :
    let found := (queues.zipIdx start).foldl
      (fun (best : UInt64 × Option (Nat × QueueMessage)) (queue, index) =>
        match queue.readyQueue with
        | [] => best
        | qm :: _ =>
          if qm.reqClock < best.1 then (qm.reqClock, some (index, qm)) else best) best
    (∃ index queue qm rest, queues[index]? = some queue ∧ queue.readyQueue = qm :: rest ∧
      found.2 = some (start + index, qm)) ∨
    found = best ∧ ∀ queue ∈ queues, ∀ qm rest, queue.readyQueue = qm :: rest →
      ¬ qm.reqClock < best.1 := by
  induction queues generalizing start best with
  | nil => exact .inr ⟨rfl, by simp⟩
  | cons queue queues induction =>
    rw [zipIdx_cons, foldl_cons]
    dsimp only
    -- A message that the rest of the scan finds, counted from the start of the list.
    have shift : ∀ {found : Option (Nat × QueueMessage)},
        (∃ index other qm rest, queues[index]? = some other ∧
          other.readyQueue = qm :: rest ∧ found = some (start + 1 + index, qm)) →
        ∃ index other qm rest, (queue :: queues)[index]? = some other ∧
          other.readyQueue = qm :: rest ∧ found = some (start + index, qm) := by
      rintro found ⟨index, other, qm, rest, at_index, first, rfl⟩
      exact ⟨index + 1, other, qm, rest, at_index, first, by rw [Nat.add_right_comm]; rfl⟩
    cases ready : queue.readyQueue with
    | nil =>
      rcases induction (start + 1) best with found | ⟨same, none_lower⟩
      · exact .inl (shift found)
      refine .inr ⟨same, forall_mem_cons.mpr ⟨?_, none_lower⟩⟩
      rw [ready]
      nofun
    | cons qm rest =>
      dsimp only
      split
      next lower =>
        rcases induction (start + 1) (qm.reqClock, some (start, qm)) with
          found | ⟨same, -⟩
        · exact .inl (shift found)
        · exact .inl ⟨0, queue, qm, rest, rfl, ready, by rw [same]; rfl⟩
      next notLower =>
        rcases induction (start + 1) best with found | ⟨same, none_lower⟩
        · exact .inl (shift found)
        refine .inr ⟨same, forall_mem_cons.mpr ⟨?_, none_lower⟩⟩
        intro first _ isFirst
        rw [ready] at isFirst
        cases isFirst
        exact notLower

variable {queues : List CommandQueue} {queued : List (List UInt8)} {queue : CommandQueue}
    {qm : QueueMessage} {sq : SerialQueue}

theorem findReady_eq_some (found : findReady queues = some (index, qm)) :
    ∃ queue rest, queues[index]? = some queue ∧ queue.readyQueue = qm :: rest := by
  rcases findReady_scan queues 0 (maxClock, none) with
    ⟨position, queue, first, rest, at_index, ready, result⟩ | ⟨same, -⟩
  · have both := found.symm.trans result
    cases both
    rw [zero_add]
    exact ⟨queue, rest, at_index, ready⟩
  · have none_eq := found.symm.trans (congrArg Prod.snd same)
    cases none_eq

theorem findReady_ne_none (member : queue ∈ queues) (ready : queue.readyQueue = qm :: rest)
    (below : qm.reqClock < maxClock) : findReady queues ≠ none := by
  intro notFound
  rcases findReady_scan queues 0 (maxClock, none) with
    ⟨position, other, first, others, -, -, result⟩ | ⟨-, none_lower⟩
  · have both := notFound.symm.trans result
    cases both
  · exact none_lower queue member qm rest ready below

/-- Taking a message off its queue: the queues before and behind are left alone. -/
theorem removeReady_cases (at_index : queues[index]? = some queue) :
    ∃ front back, queues = front ++ queue :: back ∧
      (removeReady queues index =
          front ++ { queue with readyQueue := queue.readyQueue.tail } :: back ∨
        queue.readyQueue.tail = [] ∧ queue.upcomingQueue = [] ∧
          removeReady queues index = front ++ back) := by
  rcases List.getElem?_eq_some_iff.mp at_index with ⟨inside, rfl⟩
  have split_eq : queues = queues.take index ++ queues[index] :: queues.drop (index + 1) := by
    rw [getElem_cons_drop, take_append_drop]
  refine ⟨queues.take index, queues.drop (index + 1), split_eq, ?_⟩
  rw [removeReady, at_index]
  dsimp only
  split
  next empty =>
    right
    rw [List.isEmpty_iff, List.isEmpty_iff] at empty
    exact ⟨empty.1, empty.2, eraseIdx_eq_take_drop_succ _ _⟩
  · left
    exact set_eq_take_append_cons_drop.trans (if_pos inside)

structure Removal (qm : QueueMessage) (queues removed : List CommandQueue) : Prop where
  ready : readyTotal queues = readyTotal removed + qm.msg.length
  upcoming : upcomingTotal queues = upcomingTotal removed
  count : (queues.map (·.readyQueue.length)).sum = (removed.map (·.readyQueue.length)).sum + 1
  ids : (removed.map CommandQueue.id).Sublist (queues.map CommandQueue.id)
  queues : ∀ queue ∈ removed, ∃ original ∈ queues,
    queue.readyQueue ++ queue.upcomingQueue ⊆ original.readyQueue ++ original.upcomingQueue

theorem Removal.within (removal : Removal qm [queue] kept) (front back : List CommandQueue) :
    Removal qm (front ++ ([queue] ++ back)) (front ++ (kept ++ back)) where
  ready := by
    simp only [readyTotal_append, removal.ready]
    omega
  upcoming := by simp only [upcomingTotal_append, removal.upcoming]
  count := by
    simp only [map_append, sum_append, removal.count]
    omega
  ids := by
    simp only [map_append]
    exact (Sublist.refl _).append (removal.ids.append (Sublist.refl _))
  queues := by
    intro other isOther
    rw [mem_append, mem_append] at isOther
    rcases isOther with before | own | later
    · exact ⟨other, mem_append_left _ before, Subset.refl _⟩
    · rcases removal.queues other own with ⟨original, isOriginal, subset⟩
      exact ⟨original, mem_append_right _ (mem_append_left _ isOriginal), subset⟩
    · exact ⟨other, mem_append_right _ (mem_append_right _ later), Subset.refl _⟩

theorem removeReady_removal (at_index : queues[index]? = some queue)
    (ready : queue.readyQueue = qm :: rest) : Removal qm queues (removeReady queues index) := by
  rcases removeReady_cases at_index with ⟨front, back, rfl, removed⟩
  rw [ready, tail_cons] at removed
  rcases removed with kept | ⟨noRest, noUpcoming, erased⟩
  · have single : Removal qm [queue] [{ queue with readyQueue := rest }] := by
      constructor <;> simp [readyTotal, upcomingTotal, ready, add_comm]
    exact kept ▸ single.within front back
  · have single : Removal qm [queue] [] := by
      constructor <;> simp [readyTotal, upcomingTotal, ready, noRest, noUpcoming]
    exact erased ▸ single.within front back

namespace Pending.Accounted

variable {sq : SerialQueue}

variable (accounted : sq.pending.Accounted queued)
include accounted

theorem ready_ne_zero (some_ready : sq.readyBytes ≠ 0) :
    ∃ queue ∈ sq.pendingQueues, ∃ qm rest, queue.readyQueue = qm :: rest := by
  by_contra none_ready
  apply some_ready
  rw [show sq.readyBytes = readyTotal sq.pendingQueues from accounted.ready]
  have zero : readyTotal sq.pendingQueues = 0 := by
    apply sum_eq_zero
    intro length member
    rcases mem_map.mp member with ⟨queue, isQueue, rfl⟩
    cases ready : queue.readyQueue with
    | nil => rfl
    | cons qm rest => exact absurd ⟨queue, isQueue, qm, rest, ready⟩ none_ready
  rw [zero]
  rfl

theorem findReady_isSome (some_ready : sq.readyBytes ≠ 0) :
    ∃ index qm, findReady sq.pendingQueues = some (index, qm) := by
  rcases accounted.ready_ne_zero some_ready with ⟨queue, member, qm, rest, ready⟩
  have sendable := (accounted.messages queue member qm (by simp [ready])).1
  rcases Option.ne_none_iff_exists'.mp (findReady_ne_none member ready sendable.2.2) with
    ⟨⟨index, found⟩, result⟩
  exact ⟨index, found, result⟩

theorem takeReady (found : findReady sq.pendingQueues = some (index, qm)) :
    (takeReady sq index qm).pending.Accounted queued ∧
      readyCount sq = readyCount (SerialLink.takeReady sq index qm) + 1 ∧
      qm.Sendable ∧ qm.msg ∈ queued := by
  rcases findReady_eq_some found with ⟨queue, rest, at_index, ready⟩
  have member : queue ∈ sq.pendingQueues := mem_of_getElem? at_index
  have removal := removeReady_removal at_index ready
  refine ⟨?_, removal.count, accounted.messages queue member qm (by simp [ready])⟩
  exact {
    ready := by
      have total : sq.readyBytes = readyTotal sq.pendingQueues := accounted.ready
      change sq.readyBytes - qm.msg.length = readyTotal (removeReady sq.pendingQueues index)
      rw [total, removal.ready]
      omega
    upcoming := by
      have total : sq.upcomingBytes = upcomingTotal sq.pendingQueues := accounted.upcoming
      change sq.upcomingBytes = upcomingTotal (removeReady sq.pendingQueues index)
      rw [total, removal.upcoming]
    ids := accounted.ids.sublist removal.ids
    messages := by
      intro other isOther message isMessage
      rcases removal.queues other isOther with ⟨original, isOriginal, kept⟩
      exact accounted.messages original isOriginal message (kept isMessage) }

/-- With a round for each ready message the loop comes to its end, having put messages into
the block; if any were ready, at least one. -/
theorem fillBlock (enough : readyCount sq ≤ rounds) (fits : payload.length ≤ messagePayloadMax) :
    ∃ next messages, fillBlock rounds sq payload = some (next, payload ++ messages.flatten) ∧
      next.pending.Accounted queued ∧
      (∀ message ∈ messages, message ∈ queued ∧ message ≠ []) ∧
      (sq.readyBytes ≠ 0 → payload = [] → messages ≠ []) := by
  induction rounds generalizing sq payload with
  | zero =>
    have noBytes : sq.readyBytes = 0 := by
      by_contra some_ready
      rcases accounted.findReady_isSome some_ready with ⟨index, qm, found⟩
      have count := (accounted.takeReady found).2.1
      omega
    refine ⟨sq, [], ?_, accounted, by simp, fun some_ready => absurd noBytes some_ready⟩
    rw [SerialLink.fillBlock, if_pos noBytes, flatten_nil, append_nil]
  | succ rounds induction =>
    rw [SerialLink.fillBlock]
    split
    next noBytes =>
      refine ⟨sq, [], ?_, accounted, by simp, fun some_ready => absurd noBytes some_ready⟩
      rw [flatten_nil, append_nil]
    next some_ready =>
      rcases accounted.findReady_isSome some_ready with ⟨index, qm, found⟩
      rcases accounted.takeReady found with ⟨taken, count, sendable, isQueued⟩
      rw [found]
      dsimp only
      split
      next full =>
        refine ⟨sq, [], ?_, accounted, by simp, ?_⟩
        · rw [flatten_nil, append_nil]
        -- A block without messages has room for any message.
        rintro - rfl
        have small := sendable.2.1
        simp only [messageHeaderSize, messageMax, messageTrailerSize, length_nil] at full
        simp only [messagePayloadMax, messageMax, messageMin] at small
        omega
      next room =>
        have roomFits : (payload ++ qm.msg).length ≤ messagePayloadMax := by
          rw [length_append]
          simp only [messageHeaderSize, messageMax, messageTrailerSize] at room
          simp only [messagePayloadMax, messageMax, messageMin]
          omega
        rcases induction taken (by omega) roomFits with
          ⟨next, messages, filled, kept, all, -⟩
        refine ⟨next, qm.msg :: messages, ?_, kept, ?_, fun _ _ => cons_ne_nil _ _⟩
        · rw [filled, flatten_cons, append_assoc]
        exact forall_mem_cons.mpr ⟨⟨isQueued, length_pos_iff.mp sendable.1⟩, all⟩

end Pending.Accounted

theorem fillBlock_frame {next : SerialQueue}
    (loop : fillBlock rounds sq payload = some (next, filled)) : next = { sq with
      pendingQueues := next.pendingQueues
      readyBytes := next.readyBytes
      notifyQueue := next.notifyQueue } := by
  refine fillBlock_keeps (fun now _ => now = { sq with
    pendingQueues := now.pendingQueues
    readyBytes := now.readyBytes
    notifyQueue := now.notifyQueue }) ?_ rfl loop
  intro now payload index qm same _ _
  rw [same]
  rfl

def HoldsMessages (queued : List (List UInt8)) (block : List UInt8) : Prop :=
  ∃ seq messages, messages ≠ [] ∧ (∀ message ∈ messages, message ∈ queued ∧ message ≠ []) ∧
    block = addFrame seq messages.flatten

theorem HoldsMessages.messageMin_lt (holds : HoldsMessages queued block) :
    messageMin < block.length := by
  rcases holds with ⟨seq, messages, nonempty, all, rfl⟩
  rw [length_addFrame]
  have positive : 0 < messages.flatten.length := by
    rw [length_pos_iff]
    intro empty
    rcases exists_mem_of_ne_nil messages nonempty with ⟨message, member⟩
    exact (all message member).2 (flatten_eq_nil_iff.mp empty message member)
  omega

/-! ## Deciding whether to send -/

theorem totalLength_promote (ackClock : UInt64) (queue : CommandQueue) :
    totalLength (promote ackClock queue).readyQueue =
        totalLength queue.readyQueue + promotedLength ackClock queue ∧
      totalLength queue.upcomingQueue =
        totalLength (promote ackClock queue).upcomingQueue + promotedLength ackClock queue := by
  constructor
  · exact totalLength_append _ _
  · rw [add_comm]
    refine Eq.trans ?_ (totalLength_append _ _)
    exact congrArg totalLength takeWhile_append_dropWhile.symm

theorem totals_promote (ackClock : UInt64) (queues : List CommandQueue) :
    readyTotal (queues.map (promote ackClock)) =
        readyTotal queues + (queues.map (promotedLength ackClock)).sum ∧
      upcomingTotal queues = upcomingTotal (queues.map (promote ackClock)) +
        (queues.map (promotedLength ackClock)).sum := by
  induction queues with
  | nil => exact ⟨rfl, rfl⟩
  | cons queue queues induction =>
    have own := totalLength_promote ackClock queue
    simp only [map_cons, readyTotal_cons, upcomingTotal_cons, sum_cons]
    omega

def promoted (sq : SerialQueue) (ackClock : UInt64) : SerialQueue :=
  { sq with
    pendingQueues := sq.pendingQueues.map (promote ackClock)
    upcomingBytes := sq.upcomingBytes - (sq.pendingQueues.map (promotedLength ackClock)).sum
    readyBytes := sq.readyBytes + (sq.pendingQueues.map (promotedLength ackClock)).sum }

theorem Pending.Accounted.promoted (accounted : sq.pending.Accounted queued) (ackClock : UInt64) :
    (promoted sq ackClock).pending.Accounted queued := by
  rcases totals_promote ackClock sq.pendingQueues with ⟨readyTotal_eq, upcomingTotal_eq⟩
  have ready : sq.readyBytes = readyTotal sq.pendingQueues := accounted.ready
  have upcoming : sq.upcomingBytes = upcomingTotal sq.pendingQueues := accounted.upcoming
  exact {
    ready := by
      change sq.readyBytes + _ = ((readyTotal (sq.pendingQueues.map _) : Nat) : Int)
      rw [ready, readyTotal_eq, Int.natCast_add]
    upcoming := by
      change sq.upcomingBytes - _ = ((upcomingTotal (sq.pendingQueues.map _) : Nat) : Int)
      omega
    ids := by
      change ((sq.pendingQueues.map _).map CommandQueue.id).Nodup
      rw [map_map]
      exact accounted.ids
    messages := by
      intro queue isQueue qm member
      rcases mem_map.mp isQueue with ⟨original, isOriginal, rfl⟩
      apply accounted.messages original isOriginal
      simp only [promote, append_assoc, takeWhile_append_dropWhile] at member
      exact member }

/-- The clocks are those of a machine that is still far from `MAX_CLOCK`. -/
def SendClocks.Reached (clocks : SendClocks) : Prop :=
  clocks.ackClock.toNat + clocks.reqclockDelta.toNat < maxClock.toNat

instance SendClocks.decidableReached (clocks : SendClocks) : Decidable clocks.Reached :=
  inferInstanceAs (Decidable (_ < _))

theorem SendClocks.Reached.lt {clocks : SendClocks} (reached : clocks.Reached) :
    ¬ maxClock ≤ clocks.ackClock + clocks.reqclockDelta := by
  unfold SendClocks.Reached at reached
  rw [UInt64.le_iff_toNat_le, UInt64.toNat_add]
  omega

/-- `check_send_command` waits for an ack, or it moves messages to the ready queues. A
decision to send is made for a ready message. -/
theorem checkSendCommand_cases (sq : SerialQueue) (clocks : SendClocks) :
    checkSendCommand sq clocks = (.never, sq) ∨
      windowFull sq = false ∧ receiverFull sq = false ∧ ∃ decision needKickClock,
        checkSendCommand sq clocks =
          (decision, { promoted sq clocks.ackClock with needKickClock }) ∧
        (decision = .now → clocks.Reached → (promoted sq clocks.ackClock).readyBytes ≠ 0 ∨
          ∃ queue ∈ (promoted sq clocks.ackClock).pendingQueues, queue.readyQueue ≠ []) := by
  rcases full : windowFull sq with _ | _
  · rcases receiver : receiverFull sq with _ | _
    · refine .inr ⟨rfl, rfl, ?_⟩
      rw [checkSendCommand, full, receiver, if_neg Bool.false_ne_true, if_neg Bool.false_ne_true]
      dsimp only
      split
      next enough =>
        refine ⟨_, _, rfl, fun _ _ => .inl ?_⟩
        have positive : (0 : Int) < messagePayloadMax := by decide
        exact (Int.lt_of_lt_of_le positive enough).ne'
      · split
        · split
          next some_ready => exact ⟨_, _, rfl, fun _ _ => .inl some_ready⟩
          · exact ⟨_, _, rfl, nofun⟩
        · split
          next due =>
            refine ⟨_, _, rfl, fun _ reached => .inr ?_⟩
            -- without a ready message the lowest clock is `MAX_CLOCK`, which is not reached
            by_contra none_ready
            rw [filterMap_eq_nil_iff.mpr] at due
            · exact reached.lt due
            intro queue member
            cases ready : queue.readyQueue with
            | nil => rfl
            | cons qm rest => exact absurd ⟨queue, member, by simp [ready]⟩ none_ready
          · exact ⟨_, _, rfl, nofun⟩
    · left
      rw [checkSendCommand, full, receiver]
      rfl
  · left
    rw [checkSendCommand, full]
    rfl

theorem checkSendCommand_keeps {Part : Type} (part : SerialQueue → Part) (sq : SerialQueue)
    (clocks : SendClocks) (kept : ∀ needKickClock,
      part { promoted sq clocks.ackClock with needKickClock } = part sq) :
    part (checkSendCommand sq clocks).2 = part sq := by
  rcases checkSendCommand_cases sq clocks with waits | ⟨-, -, decision, kick, result, -⟩
  · rw [waits]
  · rw [result]
    exact kept kick

theorem Pending.Accounted.readyBytes_ne_zero (accounted : sq.pending.Accounted queued)
    (member : queue ∈ sq.pendingQueues) (ready : queue.readyQueue ≠ []) : sq.readyBytes ≠ 0 := by
  rcases exists_cons_of_ne_nil ready with ⟨qm, rest, first⟩
  have positive := (accounted.messages queue member qm (by simp [first])).1.1
  have own_le : totalLength queue.readyQueue ≤ readyTotal sq.pendingQueues :=
    single_le_sum (fun _ _ => zero_le) _ (mem_map_of_mem member)
  have total : sq.readyBytes = readyTotal sq.pendingQueues := accounted.ready
  rw [first, totalLength_cons] at own_le
  omega

/-! ## New messages -/

@[simp] theorem limitMinClock_msg (qm : QueueMessage) : (limitMinClock qm).msg = qm.msg := by
  unfold limitMinClock
  split <;> rfl

@[simp] theorem limitMinClock_reqClock (qm : QueueMessage) :
    (limitMinClock qm).reqClock = qm.reqClock := by
  unfold limitMinClock
  split <;> rfl

def appendTo (queues : List CommandQueue) (cq : Nat) (msgs : List QueueMessage) :
    List CommandQueue :=
  if queues.any (·.id = cq) then
    queues.map fun queue =>
      if queue.id = cq then { queue with upcomingQueue := queue.upcomingQueue ++ msgs }
      else queue
  else queues ++ [{ id := cq, upcomingQueue := msgs, readyQueue := [] }]

theorem serialqueueSendBatch_pending (sq : SerialQueue) (cq : Nat) (msgs : List QueueMessage) :
    (serialqueueSendBatch sq cq msgs).pending = sq.pending ∨
      (serialqueueSendBatch sq cq msgs).pending =
        ⟨appendTo sq.pendingQueues cq (msgs.map limitMinClock), sq.readyBytes,
          sq.upcomingBytes + totalLength (msgs.map limitMinClock)⟩ := by
  unfold serialqueueSendBatch
  dsimp only
  split
  · exact .inl rfl
  · exact .inr rfl

theorem any_id_iff : queues.any (·.id = cq) ↔ cq ∈ queues.map CommandQueue.id := by
  simp

/-- Each command queue is on the list once, so the messages are appended once. -/
theorem upcomingTotal_appendTo (ids : (queues.map CommandQueue.id).Nodup) (cq : Nat)
    (msgs : List QueueMessage) :
    upcomingTotal (appendTo queues cq msgs) = upcomingTotal queues + totalLength msgs := by
  rw [appendTo]
  split
  next known =>
    rw [any_id_iff] at known
    induction queues with
    | nil => cases known
    | cons queue queues induction =>
      rw [map_cons, nodup_cons] at ids
      rw [map_cons, upcomingTotal_cons, upcomingTotal_cons]
      by_cases own : queue.id = cq
      · have others : queues.map (fun queue =>
            if queue.id = cq then
              { queue with upcomingQueue := queue.upcomingQueue ++ msgs }
            else queue) = queues := by
          refine (map_congr_left ?_).trans (map_id queues)
          intro other member
          apply if_neg
          intro same
          apply ids.1
          rw [own, ← same]
          exact mem_map_of_mem member
        rw [others, if_pos own, totalLength_append]
        omega
      · have later : cq ∈ queues.map CommandQueue.id := by
          rw [map_cons, mem_cons] at known
          exact known.resolve_left (Ne.symm own)
        rw [if_neg own, induction ids.2 later, add_assoc]
  · rw [upcomingTotal_append, upcomingTotal_cons]
    rfl

theorem readyTotal_appendTo (queues : List CommandQueue) (cq : Nat) (msgs : List QueueMessage) :
    readyTotal (appendTo queues cq msgs) = readyTotal queues := by
  rw [appendTo]
  split
  · rw [readyTotal, map_map]
    apply congrArg sum
    apply map_congr_left
    intro queue _
    rw [Function.comp_apply]
    split <;> rfl
  · rw [readyTotal_append, readyTotal_cons]
    rfl

theorem nodup_appendTo (ids : (queues.map CommandQueue.id).Nodup) (cq : Nat)
    (msgs : List QueueMessage) : ((appendTo queues cq msgs).map CommandQueue.id).Nodup := by
  rw [appendTo]
  split
  · have same : CommandQueue.id ∘ (fun queue =>
        if queue.id = cq then { queue with upcomingQueue := queue.upcomingQueue ++ msgs }
        else queue) = CommandQueue.id := by
      funext queue
      rw [Function.comp_apply]
      split <;> rfl
    rw [map_map, same]
    exact ids
  next new =>
    rw [any_id_iff] at new
    rw [map_append, map_singleton]
    refine nodup_append.mpr ⟨ids, pairwise_singleton _ _, ?_⟩
    intro id member other single same
    apply new
    have isNew : other = cq := mem_singleton.mp single
    rw [← isNew, ← same]
    exact member

theorem mem_appendTo (isQueue : queue ∈ appendTo queues cq msgs)
    (member : qm ∈ queue.readyQueue ++ queue.upcomingQueue) :
    qm ∈ msgs ∨ ∃ original ∈ queues, qm ∈ original.readyQueue ++ original.upcomingQueue := by
  rw [appendTo] at isQueue
  split at isQueue
  · rcases mem_map.mp isQueue with ⟨original, isOriginal, rfl⟩
    split at member
    · rw [← append_assoc] at member
      rcases mem_append.mp member with old | added
      · exact .inr ⟨original, isOriginal, old⟩
      · exact .inl added
    · exact .inr ⟨original, isOriginal, member⟩
  · rcases mem_append.mp isQueue with old | single
    · exact .inr ⟨queue, old, member⟩
    · rw [mem_singleton.mp single] at member
      exact .inl member

theorem Pending.Accounted.mono {queued more : List (List UInt8)} {pending : Pending}
    (accounted : pending.Accounted queued) (subset : queued ⊆ more) : pending.Accounted more :=
  { accounted with
    messages := by
      intro queue isQueue qm member
      rcases accounted.messages queue isQueue qm member with ⟨sendable, isQueued⟩
      exact ⟨sendable, subset isQueued⟩ }

theorem HoldsMessages.mono {queued more : List (List UInt8)} (holds : HoldsMessages queued block)
    (subset : queued ⊆ more) : HoldsMessages more block := by
  rcases holds with ⟨seq, messages, nonempty, all, framed⟩
  refine ⟨seq, messages, nonempty, ?_, framed⟩
  intro message member
  exact ⟨subset (all message member).1, (all message member).2⟩

theorem Pending.Accounted.sendBatch (accounted : sq.pending.Accounted queued) (cq : Nat)
    (sendable : ∀ qm ∈ msgs, qm.Sendable) :
    (serialqueueSendBatch sq cq msgs).pending.Accounted (queued ++ msgs.map QueueMessage.msg) := by
  have known := accounted.mono (subset_append_left queued (msgs.map QueueMessage.msg))
  rcases serialqueueSendBatch_pending sq cq msgs with same | appended
  · rw [same]
    exact known
  rw [appended]
  exact {
    ready := by
      rw [readyTotal_appendTo]
      exact accounted.ready
    upcoming := by
      have total : sq.upcomingBytes = upcomingTotal sq.pendingQueues := accounted.upcoming
      have ids : (sq.pendingQueues.map CommandQueue.id).Nodup := accounted.ids
      rw [upcomingTotal_appendTo ids, total, Int.natCast_add]
    ids := nodup_appendTo accounted.ids _ _
    messages := by
      intro queue isQueue qm member
      rcases mem_appendTo isQueue member with new | ⟨original, isOriginal, old⟩
      · rcases mem_map.mp new with ⟨given, isGiven, rfl⟩
        rw [QueueMessage.Sendable, limitMinClock_msg, limitMinClock_reqClock]
        exact ⟨sendable given isGiven, mem_append_right _ (mem_map_of_mem isGiven)⟩
      · exact known.messages original isOriginal qm old }

end CentauriCarbon.SerialLink
