import CentauriCarbon.Foundation.EventRun
import CentauriCarbon.Protocol.MsgblockCheck
import CentauriCarbon.SerialLink.PendingMessages

/-! # The accounts of the serial queue

`command_event`, `input_event` and `retransmit_event` as the background thread runs them. The
sequence numbers and byte counts that the functions keep agree at all times with the queues
they stand for.
-/

namespace CentauriCarbon.SerialLink

open List Protocol

structure CommandRun where
  queue : SerialQueue
  buf : List (List UInt8)
  written : List (List UInt8)

namespace CommandRun

def buflen (run : CommandRun) : Nat := run.buf.flatten.length

def doWrite (run : CommandRun) : CommandRun :=
  if run.buflen = 0 then run
  else { run with buf := [], written := run.written ++ [run.buf.flatten] }

def bufSize : Nat := messageMax * maxPendingBlocks.toNat

def writeIfDone (run : CommandRun) (waketime : SendDecision) : CommandRun :=
  if waketime ≠ .now ∨ run.buflen + messageMax > bufSize then run.doWrite else run

end CommandRun

/-- The loop of `command_event`. The blocks that can be under way bound its rounds; the result
is `none` where the code would follow a null pointer or not come to an end. -/
def commandLoop (clocks : Nat → SendClocks) : Nat → CommandRun → List (List UInt8) →
    Option (CommandRun × List (List UInt8))
  | 0, _, _ => none
  | rounds + 1, run, built =>
    let (waketime, queue) := checkSendCommand run.queue (clocks built.length)
    let run := { run with queue }.writeIfDone waketime
    if waketime ≠ .now then some (run, built)
    else
      match buildAndSendCommand run.queue with
      | none => none
      | some (queue, block) =>
        commandLoop clocks rounds { run with queue, buf := run.buf ++ [block] } (built ++ [block])

def commandEvent (queue : SerialQueue) (clocks : Nat → SendClocks) :
    Option (CommandRun × List (List UInt8)) :=
  commandLoop clocks (maxPendingBlocks.toNat + 1) ⟨queue, [], []⟩ []

structure SerialPort where
  queue : SerialQueue
  needSync : Bool
  inputBuf : List UInt8
  queued : List (List UInt8)
  built : List (List UInt8)

def SerialPort.alloc (receiveWindow : Int) : SerialPort where
  queue := { serialqueueAlloc with receiveWindow }
  needSync := false
  inputBuf := []
  queued := []
  built := []

def SerialPort.inputEvent (port : SerialPort) (read : List UInt8) : SerialPort :=
  let session := inputScanner.drain port.needSync (port.inputBuf ++ read)
  { port with
    queue := session.items.foldl handleMessage port.queue
    needSync := session.state
    inputBuf := session.buffer }

inductive PortEvent where
  | sendBatch (cq : Nat) (msgs : List QueueMessage)
  | commandEvent (clocks : Nat → SendClocks)
  | inputEvent (read : List UInt8)
  | retransmitEvent

/-- One event. The port is not a debug file, which `receive_seq` would mark. -/
def portStep (port : SerialPort) : PortEvent → Option SerialPort
  | .sendBatch cq msgs =>
    some { port with
      queue := serialqueueSendBatch port.queue cq msgs
      queued := port.queued ++ msgs.map QueueMessage.msg }
  | .commandEvent clocks =>
    if port.queue.receiveSeq = -1 then none
    else
      (commandEvent port.queue clocks).map fun (run, built) =>
        { port with queue := run.queue, built := port.built ++ built }
  | .inputEvent read => some (port.inputEvent read)
  | .retransmitEvent => some { port with queue := retransmitEvent port.queue }

structure Sent where
  sendSeq : UInt64
  receiveSeq : UInt64
  sentQueue : List (List UInt8)
  needAckBytes : Int

def SerialQueue.sent (sq : SerialQueue) : Sent :=
  ⟨sq.sendSeq, sq.receiveSeq, sq.sentQueue, sq.needAckBytes⟩

structure Sent.Accounted (sent : Sent) : Prop where
  sendSeq : sent.sendSeq = sent.receiveSeq + .ofNat sent.sentQueue.length
  length_le : sent.sentQueue.length ≤ maxPendingBlocks.toNat
  needAck : sent.needAckBytes = sent.sentQueue.flatten.length
  blocks : ∀ block ∈ sent.sentQueue, block.length ≤ messageMax

variable {queued : List (List UInt8)} {sq : SerialQueue}

theorem Sent.Accounted.push {sent : Sent} (accounted : sent.Accounted)
    (room : sent.sentQueue.length < maxPendingBlocks.toNat) (short : block.length ≤ messageMax) :
    Sent.Accounted ⟨sent.sendSeq + 1, sent.receiveSeq, sent.sentQueue ++ [block],
      sent.needAckBytes + block.length⟩ where
  sendSeq := by
    rw [accounted.sendSeq, length_append, UInt64.ofNat_add, ← UInt64.add_assoc]
    rfl
  length_le := by
    rw [length_append]
    exact room
  needAck := by
    rw [accounted.needAck, flatten_append, length_append, flatten_singleton, Int.natCast_add]
  blocks := forall_mem_append.mpr ⟨accounted.blocks, forall_mem_singleton.mpr short⟩

/-- The block is built from ready messages and joins the blocks under way. -/
theorem buildAndSendCommand_accounted (pending : sq.pending.Accounted queued)
    (some_ready : sq.readyBytes ≠ 0) (sent : sq.sent.Accounted)
    (room : sq.sentQueue.length < maxPendingBlocks.toNat) :
    ∃ next block, buildAndSendCommand sq = some (next, block) ∧
      next.pending.Accounted queued ∧ next.sent.Accounted ∧
      next.sentQueue = sq.sentQueue ++ [block] ∧ next.receiveSeq = sq.receiveSeq ∧
      HoldsMessages queued block ∧ block.length ≤ messageMax := by
  have noBytes : ([] : List UInt8).length ≤ messagePayloadMax := zero_le
  rcases pending.fillBlock le_rfl noBytes with
    ⟨filled, messages, loop, kept, all, nonempty⟩
  rw [nil_append] at loop
  have frame := fillBlock_frame loop
  have fits := (fillBlock_window loop noBytes).2
  have short : (addFrame (blockSequence filled.sendSeq) messages.flatten).length ≤ messageMax := by
    rw [length_addFrame]
    simp only [messagePayloadMax, messageMax, messageMin] at fits ⊢
    omega
  have same : filled.sent = sq.sent := by
    rw [frame]
    rfl
  have sentQueue : filled.sentQueue = sq.sentQueue := congrArg Sent.sentQueue same
  rw [← same] at sent
  rw [← sentQueue] at room
  refine ⟨storeBlock filled (addFrame (blockSequence filled.sendSeq) messages.flatten), _, ?_,
    { kept with }, { sent.push room short with }, congrArg (· ++ [_]) sentQueue,
    congrArg Sent.receiveSeq same, ⟨_, messages, nonempty some_ready rfl, all, rfl⟩, short⟩
  rw [buildAndSendCommand, loop]
  rfl

/-! ## The background thread keeps the accounts -/

structure SerialQueue.Accounted (queued : List (List UInt8)) (sq : SerialQueue) : Prop where
  pending : sq.pending.Accounted queued
  sent : sq.sent.Accounted

/-- A window with room for a block holds fewer than `MAX_PENDING_BLOCKS`. -/
theorem Sent.Accounted.length_lt (accounted : sq.sent.Accounted) (notFull : windowFull sq = false)
    (notFile : sq.receiveSeq ≠ -1) : sq.sentQueue.length < maxPendingBlocks.toNat := by
  have sendSeq : sq.sendSeq = sq.receiveSeq + .ofNat sq.sentQueue.length := accounted.sendSeq
  have length_le : sq.sentQueue.length ≤ maxPendingBlocks.toNat := accounted.length_le
  simp only [windowFull, decide_eq_false_iff_not, not_and, ne_eq, not_not] at notFull
  by_contra notLess
  apply notFile
  apply notFull
  have full : sq.sentQueue.length = maxPendingBlocks.toNat := by omega
  rw [sendSeq, full, UInt64.add_comm, UInt64.add_sub_cancel]
  decide

/-- A round of `command_event` that sends has room for a block and a message to put into it. -/
theorem SerialQueue.Accounted.checkSendCommand (accounted : sq.Accounted queued)
    (clocks : SendClocks) : (checkSendCommand sq clocks).2.Accounted queued ∧
      (checkSendCommand sq clocks).2.sent = sq.sent ∧
      ((SerialLink.checkSendCommand sq clocks).1 = .now → clocks.Reached →
        sq.receiveSeq ≠ -1 →
        (SerialLink.checkSendCommand sq clocks).2.readyBytes ≠ 0 ∧
        sq.sentQueue.length < maxPendingBlocks.toNat) := by
  rcases checkSendCommand_cases sq clocks with
    waits | ⟨notFull, -, decision, needKickClock, result, reason⟩
  · rw [waits]
    exact ⟨accounted, rfl, nofun⟩
  rw [result]
  have kept := accounted.pending.promoted clocks.ackClock
  refine ⟨⟨{ kept with }, { accounted.sent with }⟩, rfl, ?_⟩
  intro now reached notFile
  refine ⟨?_, accounted.sent.length_lt notFull notFile⟩
  rcases reason now reached with some_ready | ⟨queue, member, ready⟩
  · exact some_ready
  · exact kept.readyBytes_ne_zero member ready

variable {clocks : Nat → SendClocks}

/-- Every round that sends puts one more block under way, so the loop ends before the window
is full. -/
theorem commandLoop_accounted (reached : ∀ round, (clocks round).Reached)
    (accounted : run.queue.Accounted queued) (notFile : run.queue.receiveSeq ≠ -1)
    (enough : maxPendingBlocks.toNat < rounds + run.queue.sentQueue.length) :
    ∃ final blocks, commandLoop clocks rounds run built = some (final, built ++ blocks) ∧
      final.queue.Accounted queued ∧
      ∀ block ∈ blocks, HoldsMessages queued block ∧ block.length ≤ messageMax := by
  induction rounds generalizing run built with
  | zero =>
    have length_le : run.queue.sentQueue.length ≤ maxPendingBlocks.toNat := accounted.sent.length_le
    omega
  | succ rounds induction =>
    rcases accounted.checkSendCommand (clocks built.length) with ⟨checked, same, sends⟩
    rw [commandLoop]
    rcases check : checkSendCommand run.queue (clocks built.length) with ⟨waketime, queue⟩
    rw [check] at checked same sends
    dsimp only at checked same sends ⊢
    have written : ({ run with queue }.writeIfDone waketime).queue = queue := by
      unfold CommandRun.writeIfDone CommandRun.doWrite
      split_ifs <;> rfl
    generalize { run with queue }.writeIfDone waketime = sending at written ⊢
    subst written
    split
    next wait => exact ⟨_, [], by rw [append_nil], checked, by simp⟩
    next sendNow =>
      rcases sends (not_not.mp sendNow) (reached _) notFile with ⟨some_ready, room⟩
      have sentQueue : sending.queue.sentQueue = run.queue.sentQueue := congrArg Sent.sentQueue same
      have receiveSeq : sending.queue.receiveSeq = run.queue.receiveSeq :=
        congrArg Sent.receiveSeq same
      rw [← sentQueue] at room
      rcases buildAndSendCommand_accounted checked.pending some_ready checked.sent room with
        ⟨next, block, built_eq, pending, sent, appended, kept, holds, short⟩
      rw [built_eq]
      dsimp only
      have nextNotFile : next.receiveSeq ≠ -1 := by
        rw [kept, receiveSeq]
        exact notFile
      have nextEnough : maxPendingBlocks.toNat < rounds + next.sentQueue.length := by
        rw [appended, sentQueue, length_append, length_singleton]
        omega
      have nextAccounted :
          { sending with queue := next, buf := sending.buf ++ [block] }.queue.Accounted
            queued := ⟨pending, sent⟩
      rcases induction nextAccounted nextNotFile nextEnough with
        ⟨final, blocks, loop, finalAccounted, all⟩
      refine ⟨final, block :: blocks, ?_, finalAccounted, ?_⟩
      · rw [loop, append_assoc, singleton_append]
      exact forall_mem_cons.mpr ⟨⟨holds, short⟩, all⟩

theorem SerialQueue.Accounted.commandEvent (accounted : sq.Accounted queued)
    (reached : ∀ round, (clocks round).Reached) (notFile : sq.receiveSeq ≠ -1) :
    ∃ final blocks, commandEvent sq clocks = some (final, blocks) ∧
      final.queue.Accounted queued ∧
      ∀ block ∈ blocks, HoldsMessages queued block ∧ block.length ≤ messageMax := by
  have start : (CommandRun.mk sq [] []).queue.Accounted queued := accounted
  have enough : maxPendingBlocks.toNat <
      maxPendingBlocks.toNat + 1 + (CommandRun.mk sq [] []).queue.sentQueue.length := by
    omega
  exact commandLoop_accounted reached start notFile enough

/-- The blocks that the loop has not yet removed are counted from its own position. -/
theorem removeSent_accounted
    (accounted : (Sent.mk sq.sendSeq sentSeq sentQueue sq.needAckBytes).Accounted) :
    { removeSent rseq sq sentSeq sentQueue with receiveSeq := rseq }.sent.Accounted := by
  induction sentQueue generalizing sq sentSeq with
  | nil =>
    exact { accounted with
      sendSeq := (UInt64.add_zero rseq).symm }
  | cons sent rest induction =>
    have sendSeq : sq.sendSeq = sentSeq + 1 + .ofNat rest.length := by
      have counted : sq.sendSeq = sentSeq + .ofNat (rest.length + 1) := accounted.sendSeq
      rw [counted, UInt64.ofNat_add, UInt64.add_assoc, UInt64.add_comm 1]
      rfl
    have needAck : sq.needAckBytes - sent.length = rest.flatten.length := by
      have total := accounted.needAck
      dsimp only at total
      rw [total, flatten_cons, length_append]
      omega
    have rest_accounted : (Sent.mk sq.sendSeq (sentSeq + 1) rest
        (sq.needAckBytes - sent.length)).Accounted :=
      { sendSeq
        length_le := Nat.le_of_succ_le accounted.length_le
        needAck
        blocks := fun block member => accounted.blocks block (mem_cons_of_mem _ member) }
    rw [removeSent]
    split
    next last =>
      rw [last]
      exact { rest_accounted with }
    · exact induction rest_accounted

namespace SerialQueue.Accounted

variable (accounted : sq.Accounted queued)
include accounted

theorem updateReceiveSeq (rseq : UInt64) : (updateReceiveSeq sq rseq).Accounted queued := by
  have removed : { removeSent rseq sq sq.receiveSeq sq.sentQueue with
      receiveSeq := rseq }.sent.Accounted := removeSent_accounted { accounted.sent with }
  have kept : (removeSent rseq sq sq.receiveSeq sq.sentQueue).pending.Accounted queued := by
    rcases removeSent_frame sq rseq sq.receiveSeq sq.sentQueue with ⟨_, _, _, _, frame⟩
    rw [frame]
    exact accounted.pending
  exact ⟨{ kept with }, { removed with }⟩

/-- What a received block does beyond the window touches neither count. -/
theorem processMessage (rseq : UInt64) (msg : List UInt8) :
    (processMessage (releaseNotifications sq rseq msg.length) rseq msg).Accounted queued := by
  unfold SerialLink.processMessage
  split
  · split
    · exact ⟨{ accounted.pending with }, { accounted.sent with }⟩
    · split <;> exact ⟨{ accounted.pending with }, { accounted.sent with }⟩
  · exact ⟨{ accounted.pending with }, { accounted.sent with }⟩

theorem handleMessage (msg : List UInt8) : (handleMessage sq msg).Accounted queued := by
  unfold SerialLink.handleMessage
  dsimp only
  split
  · exact accounted
  · split
    · exact (accounted.updateReceiveSeq _).processMessage _ msg
    · exact accounted.processMessage _ msg

theorem handleMessages (msgs : List (List UInt8)) :
    (msgs.foldl SerialLink.handleMessage sq).Accounted queued := by
  induction msgs generalizing sq with
  | nil => exact accounted
  | cons msg msgs induction => exact induction (accounted.handleMessage msg)

end SerialQueue.Accounted

/-! ## Every run -/

/-- The messages of a batch can be sent, and the clocks of a command event are reached ones. -/
def PortEvent.Proper : PortEvent → Prop
  | .sendBatch _ msgs => ∀ qm ∈ msgs, qm.Sendable
  | .commandEvent clocks => ∀ round, (clocks round).Reached
  | .inputEvent _ | .retransmitEvent => True

structure SerialPort.Invariant (port : SerialPort) : Prop where
  queue : port.queue.Accounted port.queued
  built : ∀ block ∈ port.built, HoldsMessages port.queued block ∧ block.length ≤ messageMax

theorem SerialPort.Invariant.portStep {port next : SerialPort} (invariant : port.Invariant)
    (proper : event.Proper) (stepped : portStep port event = some next) : next.Invariant := by
  cases event with
  | sendBatch cq msgs =>
    cases stepped
    have subset : port.queued ⊆ port.queued ++ msgs.map QueueMessage.msg := subset_append_left _ _
    refine ⟨⟨invariant.queue.pending.sendBatch cq proper, ?_⟩, ?_⟩
    · rw [serialqueueSendBatch_keeps SerialQueue.sent fun _ _ _ => rfl]
      exact invariant.queue.sent
    · intro block member
      rcases invariant.built block member with ⟨holds, short⟩
      exact ⟨holds.mono subset, short⟩
  | commandEvent clocks =>
    rcases Option.ite_none_left_eq_some.mp stepped with ⟨notFile, stepped⟩
    rcases invariant.queue.commandEvent proper notFile with
      ⟨final, blocks, ran, accounted, all⟩
    rw [ran] at stepped
    cases stepped
    refine ⟨accounted, ?_⟩
    exact forall_mem_append.mpr ⟨invariant.built, all⟩
  | inputEvent read =>
    cases stepped
    exact ⟨invariant.queue.handleMessages _, invariant.built⟩
  | retransmitEvent =>
    cases stepped
    exact ⟨⟨{ invariant.queue.pending with }, { invariant.queue.sent with }⟩, invariant.built⟩

theorem SerialPort.invariant_alloc (receiveWindow : Int) :
    (SerialPort.alloc receiveWindow).Invariant where
  queue := {
    pending := ⟨rfl, rfl, nodup_nil, by simp [SerialPort.alloc, SerialQueue.pending,
      serialqueueAlloc]⟩
    sent := ⟨rfl, zero_le, rfl, by simp [SerialPort.alloc, SerialQueue.sent,
      serialqueueAlloc]⟩ }
  built := by simp [SerialPort.alloc]

structure SerialPort.Accounted (port : SerialPort) : Prop where
  inFlight : port.queue.sendSeq - port.queue.receiveSeq = .ofNat port.queue.sentQueue.length
  inFlight_le : port.queue.sentQueue.length ≤ 12
  needAckBytes : port.queue.needAckBytes = (port.queue.sentQueue.map length).sum
  readyBytes : port.queue.readyBytes =
    (port.queue.pendingQueues.map fun queue => totalLength queue.readyQueue).sum
  upcomingBytes : port.queue.upcomingBytes =
    (port.queue.pendingQueues.map fun queue => totalLength queue.upcomingQueue).sum
  built : ∀ block ∈ port.built, 6 ≤ block.length ∧ block.length ≤ 64 ∧
    ∃ seq messages, messages ≠ [] ∧ (∀ message ∈ messages, message ∈ port.queued) ∧
      block = addFrame seq messages.flatten
  retransmit : (retransmitBytes port.queue).length ≤ 64 * 12 + 1

theorem length_flatten_le {blocks : List (List UInt8)}
    (each : ∀ block ∈ blocks, block.length ≤ bound) :
    blocks.flatten.length ≤ blocks.length * bound := by
  induction blocks with
  | nil => exact zero_le
  | cons block blocks induction =>
    have first := each block mem_cons_self
    have others := induction fun other member => each other (mem_cons_of_mem _ member)
    rw [flatten_cons, length_append, length_cons, Nat.succ_mul]
    omega

theorem SerialPort.Invariant.accounted {port : SerialPort} (invariant : port.Invariant) :
    port.Accounted where
  inFlight := by
    have sendSeq : port.queue.sendSeq =
        port.queue.receiveSeq + .ofNat port.queue.sentQueue.length := invariant.queue.sent.sendSeq
    rw [sendSeq, UInt64.add_comm, UInt64.add_sub_cancel]
  inFlight_le := invariant.queue.sent.length_le
  needAckBytes := by
    have total : port.queue.needAckBytes = port.queue.sentQueue.flatten.length :=
      invariant.queue.sent.needAck
    rw [total, length_flatten]
  readyBytes := invariant.queue.pending.ready
  upcomingBytes := invariant.queue.pending.upcoming
  built := by
    intro block member
    rcases invariant.built block member with ⟨holds, short⟩
    refine ⟨holds.messageMin_lt, short, ?_⟩
    rcases holds with ⟨seq, messages, nonempty, all, framed⟩
    exact ⟨seq, messages, nonempty, fun message isMessage => (all message isMessage).1, framed⟩
  retransmit := by
    have sent := invariant.queue.sent
    apply Nat.succ_le_succ
    exact le_trans (length_flatten_le sent.blocks)
      (Nat.mul_le_mul_right messageMax sent.length_le)

/-- In every run the counters agree with the queues, and `command_event` comes to its end in
every state that is reached. -/
theorem serialqueue_accounted (receiveWindow : Int) {events : List PortEvent}
    (proper : ∀ event ∈ events, event.Proper) {final : SerialPort}
    (ran : runEvents portStep (.alloc receiveWindow) events = some final) :
    final.Accounted ∧
      ∀ clocks : Nat → SendClocks, (∀ round, (clocks round).Reached) →
        final.queue.receiveSeq ≠ -1 → (commandEvent final.queue clocks).isSome := by
  have invariant : final.Invariant := by
    refine runEvents_invariant_of_allowed ?_ proper (SerialPort.invariant_alloc receiveWindow) ran
    intro port event next invariant isProper stepped
    exact invariant.portStep isProper stepped
  refine ⟨invariant.accounted, ?_⟩
  intro clocks reached notFile
  rcases invariant.queue.commandEvent reached notFile with ⟨run, blocks, returned, -, -⟩
  rw [returned]
  rfl

/-- A message is queued, sent and acknowledged. -/
theorem serialqueue_accounted_sent :
    ∃ final, runEvents portStep (.alloc 192)
        [.sendBatch 0 [⟨[5, 1], 0, 100, 0⟩], .commandEvent fun _ => ⟨200, 0, true, 50⟩,
          .retransmitEvent, .inputEvent (addFrame 0x12 [])] = some final ∧
      final.built.length = 1 ∧ final.queue.receiveSeq = 2 ∧ final.Accounted := by
  refine exists_of_ran rfl fun ran => ⟨by decide +kernel, by decide +kernel, ?_⟩
  refine (serialqueue_accounted 192 ?_ ran).1
  intro event member
  simp only [mem_cons, not_mem_nil, or_false] at member
  rcases member with rfl | rfl | rfl | rfl
  · intro qm isMessage
    rw [mem_singleton.mp isMessage]
    decide
  · intro round
    change (SendClocks.mk 200 0 true 50).Reached
    decide
  · trivial
  · trivial

/-- At a clock estimate of `MAX_CLOCK` the code decides to send with nothing to send, and the
blocks it builds, until an ack is needed, are empty. -/
theorem serialqueue_empty_block :
    ∃ final, runEvents portStep (.alloc 192) [.commandEvent fun _ => ⟨maxClock, 0, true, 0⟩] =
        some final ∧
      final.built.map length = replicate 12 5 := by
  refine ⟨_, rfl, ?_⟩
  decide +kernel

end CentauriCarbon.SerialLink
