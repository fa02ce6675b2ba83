import CentauriCarbon.Protocol.FrameScanner
import Mathlib.Algebra.Order.Ring.Int

/-! # The host's serial queue

`serialqueue.c` without its clocks: the sequence window, the queue of blocks sent and
not yet acknowledged, the pending command queues and the two queues towards the
reader. What the code computes from floating-point times enters as an argument
(`SendClocks`), and the retransmit timer keeps only what decides between a nak and a
timeout.
-/

namespace CentauriCarbon.SerialLink

open Protocol

def maxPendingBlocks : UInt64 := 12
def maxClock : UInt64 := 0x7fffffffffffffff
def backgroundPriorityClock : UInt64 := 0x7fffffff00000000

structure QueueMessage where
  msg : List UInt8
  minClock : UInt64
  reqClock : UInt64
  notifyId : UInt64
  deriving DecidableEq

structure ReceivedMessage where
  msg : List UInt8
  notifyId : UInt64
  deriving DecidableEq

structure CommandQueue where
  id : Nat
  upcomingQueue : List QueueMessage
  readyQueue : List QueueMessage
  deriving DecidableEq

inductive RetransmitTimer where
  | never
  | now
  | later
  deriving DecidableEq

structure SerialQueue where
  receiveWindow : Int
  sendSeq : UInt64
  receiveSeq : UInt64
  ignoreNakSeq : UInt64
  lastAckSeq : UInt64
  retransmitSeq : UInt64
  retransmitTimer : RetransmitTimer
  sentQueue : List (List UInt8)
  pendingQueues : List CommandQueue
  readyBytes : Int
  upcomingBytes : Int
  needAckBytes : Int
  lastAckBytes : Int
  needKickClock : UInt64
  notifyQueue : List QueueMessage
  receiveQueue : List ReceivedMessage
  deriving DecidableEq

/-- `serialqueue_alloc` for a port that is read, not a debug file. -/
def serialqueueAlloc : SerialQueue where
  receiveWindow := 0
  sendSeq := 1
  receiveSeq := 1
  ignoreNakSeq := 0
  lastAckSeq := 0
  retransmitSeq := 0
  retransmitTimer := .never
  sentQueue := []
  pendingQueues := []
  readyBytes := 0
  upcomingBytes := 0
  needAckBytes := 0
  lastAckBytes := 0
  needKickClock := maxClock
  notifyQueue := []
  receiveQueue := []

def removeSent (rseq : UInt64) (sq : SerialQueue) : UInt64 → List (List UInt8) → SerialQueue
  | _, [] =>
    -- An ack for a message not sent; must be connection init
    { sq with sentQueue := [], sendSeq := rseq }
  | sentSeq, sent :: rest =>
    let sq := { sq with needAckBytes := sq.needAckBytes - sent.length }
    if rseq = sentSeq + 1 then
      { sq with sentQueue := rest, lastAckBytes := sent.length }
    else removeSent rseq sq (sentSeq + 1) rest

variable (sq : SerialQueue)

def updateReceiveSeq (rseq : UInt64) : SerialQueue :=
  let sq := removeSent rseq sq sq.receiveSeq sq.sentQueue
  { sq with receiveSeq := rseq, retransmitTimer := if sq.sentQueue.isEmpty then .never else .later }

/-- The sequence number that a received block stands for: the first one at or after
`receive_seq` with the block's low bits. -/
def receivedSeq (msg : List UInt8) : UInt64 :=
  sq.receiveSeq + (((msg.getD messagePosSeq 0).toUInt64 - sq.receiveSeq) &&&
    messageSeqMask.toUInt64)

def releaseNotifications (rseq : UInt64) (len : Nat) : SerialQueue :=
  let wakeSeq := rseq - 1 - (if len > messageMin then 1 else 0)
  let released := sq.notifyQueue.takeWhile fun qm => qm.reqClock ≤ wakeSeq
  { sq with
    notifyQueue := sq.notifyQueue.dropWhile fun qm => qm.reqClock ≤ wakeSeq
    receiveQueue := sq.receiveQueue ++
      released.map fun qm => { msg := [], notifyId := qm.notifyId } }

/-- An ack moves `last_ack_seq` or, as a duplicate, asks for a retransmission; any
other message goes to the reader. -/
def processMessage (rseq : UInt64) (msg : List UInt8) : SerialQueue :=
  if msg.length = messageMin then
    if sq.lastAckSeq < rseq then { sq with lastAckSeq := rseq }
    else if rseq > sq.ignoreNakSeq ∧ sq.sentQueue ≠ [] then
      { sq with retransmitTimer := .now }
    else sq
  else { sq with receiveQueue := sq.receiveQueue ++ [{ msg, notifyId := 0 }] }

def handleMessage (msg : List UInt8) : SerialQueue :=
  let rseq := receivedSeq sq msg
  if rseq ≠ sq.receiveSeq ∧ rseq > sq.sendSeq ∧ sq.receiveSeq ≠ 1 then
    -- An ack for a message not sent?  Out of order message?
    sq
  else
    let sq := if rseq ≠ sq.receiveSeq then updateReceiveSeq sq rseq else sq
    processMessage (releaseNotifications sq rseq msg.length) rseq msg

def retransmitBytes : List UInt8 := messageSync :: sq.sentQueue.flatten

def retransmitEvent : SerialQueue :=
  { sq with
    ignoreNakSeq :=
      if sq.retransmitTimer = .now then
        if sq.receiveSeq < sq.retransmitSeq then sq.retransmitSeq else sq.receiveSeq
      else sq.sendSeq
    retransmitSeq := sq.sendSeq
    retransmitTimer := .later }

/-! ## Sending -/

/-- `serialqueue_send_batch` never asks for more than `1 << 31` ticks of queueing. -/
def limitMinClock (qm : QueueMessage) : QueueMessage :=
  if qm.minClock + 0x80000000 < qm.reqClock ∧ qm.reqClock ≠ backgroundPriorityClock then
    { qm with minClock := qm.reqClock - 0x80000000 }
  else qm

def totalLength (messages : List QueueMessage) : Nat := (messages.map (·.msg.length)).sum

/-- A command queue is on `pending_queues` exactly while it holds messages. -/
def serialqueueSendBatch (cq : Nat) (msgs : List QueueMessage) : SerialQueue :=
  let msgs := msgs.map limitMinClock
  let len := totalLength msgs
  if len = 0 then sq
  else
    let pendingQueues :=
      if sq.pendingQueues.any (·.id = cq) then
        sq.pendingQueues.map fun queue =>
          if queue.id = cq then { queue with upcomingQueue := queue.upcomingQueue ++ msgs }
          else queue
      else sq.pendingQueues ++ [{ id := cq, upcomingQueue := msgs, readyQueue := [] }]
    let firstMinClock := (msgs.head?.map QueueMessage.minClock).getD 0
    { sq with
      pendingQueues
      upcomingBytes := sq.upcomingBytes + len
      needKickClock := if firstMinClock < sq.needKickClock then 0 else sq.needKickClock }

def findReady (pendingQueues : List CommandQueue) : Option (Nat × QueueMessage) :=
  (pendingQueues.zipIdx.foldl
    (fun (best : UInt64 × Option (Nat × QueueMessage)) (queue, index) =>
      match queue.readyQueue with
      | [] => best
      | qm :: _ =>
        if qm.reqClock < best.1 then (qm.reqClock, some (index, qm)) else best)
    (maxClock, none)).2

def removeReady (pendingQueues : List CommandQueue) (index : Nat) : List CommandQueue :=
  match pendingQueues[index]? with
  | none => pendingQueues
  | some queue =>
    let queue := { queue with readyQueue := queue.readyQueue.tail }
    if queue.readyQueue.isEmpty ∧ queue.upcomingQueue.isEmpty then
      pendingQueues.eraseIdx index
    else pendingQueues.set index queue

def takeReady (index : Nat) (qm : QueueMessage) : SerialQueue :=
  { sq with
    pendingQueues := removeReady sq.pendingQueues index
    readyBytes := sq.readyBytes - qm.msg.length
    notifyQueue :=
      if qm.notifyId ≠ 0 then sq.notifyQueue ++ [{ qm with reqClock := sq.sendSeq }]
      else sq.notifyQueue }

/-- The loop that fills a block. Every round takes one ready message, so their number
bounds the rounds; `none` is the null pointer that the code would follow if
`ready_bytes` were positive without a ready message. -/
def fillBlock : Nat → SerialQueue → List UInt8 → Option (SerialQueue × List UInt8)
  | 0, sq, payload => if sq.readyBytes = 0 then some (sq, payload) else none
  | rounds + 1, sq, payload =>
    if sq.readyBytes = 0 then some (sq, payload)
    else
      match findReady sq.pendingQueues with
      | none => none
      | some (index, qm) =>
        if messageHeaderSize + payload.length + qm.msg.length >
            messageMax - messageTrailerSize then
          some (sq, payload)
        else fillBlock rounds (takeReady sq index qm) (payload ++ qm.msg)

def readyCount : Nat := (sq.pendingQueues.map (·.readyQueue.length)).sum

def blockSequence (seq : UInt64) : UInt8 :=
  (messageDest.toUInt64 ||| (seq &&& messageSeqMask.toUInt64)).toUInt8

def storeBlock (block : List UInt8) : SerialQueue :=
  { sq with
    retransmitTimer := if sq.sentQueue.isEmpty then .later else sq.retransmitTimer
    sendSeq := sq.sendSeq + 1
    needAckBytes := sq.needAckBytes + block.length
    sentQueue := sq.sentQueue ++ [block] }

def buildAndSendCommand : Option (SerialQueue × List UInt8) :=
  (fillBlock (readyCount sq) sq []).map fun (sq, payload) =>
    let block := addFrame (blockSequence sq.sendSeq) payload
    (storeBlock sq block, block)

/-- What `check_send_command` computes from times: the clock at which an ack could
arrive, the clock that stands in for a background message, whether the clock
frequency is known, and `MIN_REQTIME_DELTA` in ticks. -/
structure SendClocks where
  ackClock : UInt64
  backgroundClock : UInt64
  frequencyKnown : Bool
  reqclockDelta : UInt64

inductive SendDecision where
  | never
  | now
  | later
  deriving DecidableEq

/-- An ack is needed before more blocks can be sent. The sentinel `-1` belongs to
debug files, which are never read. -/
def windowFull : Bool := sq.sendSeq - sq.receiveSeq ≥ maxPendingBlocks ∧ sq.receiveSeq ≠ -1

def receiverFull : Bool :=
  sq.sendSeq > sq.receiveSeq ∧ sq.receiveWindow ≠ 0 ∧
    sq.needAckBytes + messageMax +
      (if sq.lastAckSeq < sq.receiveSeq then sq.lastAckBytes else 0) > sq.receiveWindow

def promote (ackClock : UInt64) (queue : CommandQueue) : CommandQueue :=
  { queue with
    readyQueue := queue.readyQueue ++
      queue.upcomingQueue.takeWhile fun qm => ¬ ackClock < qm.minClock
    upcomingQueue := queue.upcomingQueue.dropWhile fun qm => ¬ ackClock < qm.minClock }

def promotedLength (ackClock : UInt64) (queue : CommandQueue) : Nat :=
  totalLength (queue.upcomingQueue.takeWhile fun qm => ¬ ackClock < qm.minClock)

def lowestClock (clocks : List UInt64) : UInt64 :=
  clocks.foldl (fun lowest clock => if clock < lowest then clock else lowest) maxClock

def checkSendCommand (clocks : SendClocks) : SendDecision × SerialQueue :=
  if windowFull sq then (.never, sq)
  else if receiverFull sq then (.never, sq)
  else
    let moved := (sq.pendingQueues.map (promotedLength clocks.ackClock)).sum
    let pendingQueues := sq.pendingQueues.map (promote clocks.ackClock)
    let sq := { sq with
      pendingQueues
      upcomingBytes := sq.upcomingBytes - moved
      readyBytes := sq.readyBytes + moved }
    let minStalledClock := lowestClock <|
      pendingQueues.filterMap fun queue => queue.upcomingQueue.head?.map (·.minClock)
    let minReadyClock := lowestClock <|
      pendingQueues.filterMap fun queue => queue.readyQueue.head?.map fun qm =>
        if qm.reqClock = backgroundPriorityClock then clocks.backgroundClock
        else qm.reqClock
    if (messagePayloadMax : Int) ≤ sq.readyBytes then (.now, sq)
    else if ¬ clocks.frequencyKnown then
      if sq.readyBytes ≠ 0 then (.now, sq)
      else (.never, { sq with needKickClock := maxClock })
    else if minReadyClock ≤ clocks.ackClock + clocks.reqclockDelta then (.now, sq)
    else
      let wantclock := minReadyClock - clocks.reqclockDelta
      (.later, { sq with
        needKickClock := if minStalledClock < wantclock then minStalledClock
          else wantclock })

/-! ## What the operations do to the window -/

structure Window where
  sendSeq : UInt64
  receiveSeq : UInt64
  sentQueue : List (List UInt8)

def SerialQueue.window : Window :=
  ⟨sq.sendSeq, sq.receiveSeq, sq.sentQueue⟩

/-- What each message that the loop takes keeps, the loop keeps. -/
theorem fillBlock_keeps (Holds : SerialQueue → List UInt8 → Prop)
    (taken : ∀ sq payload index qm, Holds sq payload →
      findReady sq.pendingQueues = some (index, qm) →
      ¬messageHeaderSize + payload.length + qm.msg.length > messageMax - messageTrailerSize →
      Holds (takeReady sq index qm) (payload ++ qm.msg))
    {sq next : SerialQueue} (initially : Holds sq payload)
    (loop : fillBlock rounds sq payload = some (next, filled)) : Holds next filled := by
  induction rounds generalizing sq payload with
  | zero =>
    unfold fillBlock at loop
    split at loop
    · cases loop
      exact initially
    · cases loop
  | succ rounds induction =>
    unfold fillBlock at loop
    split at loop
    · cases loop
      exact initially
    split at loop
    · cases loop
    rename_i index qm found
    split at loop
    · cases loop
      exact initially
    next room => exact induction (taken sq payload index qm initially found room) loop

theorem fillBlock_window {sq next : SerialQueue}
    (loop : fillBlock rounds sq payload = some (next, filled))
    (fits : payload.length ≤ messagePayloadMax) :
    next.window = sq.window ∧ filled.length ≤ messagePayloadMax := by
  refine fillBlock_keeps (fun now filled => now.window = sq.window ∧
    filled.length ≤ messagePayloadMax) ?_ ⟨rfl, fits⟩ loop
  rintro now payload index qm ⟨window, -⟩ - room
  refine ⟨window, ?_⟩
  simp only [List.length_append]
  unfold messageHeaderSize messageMax messageTrailerSize at room
  unfold messagePayloadMax messageMax messageMin
  omega

/-- A built block frames at most `MESSAGE_PAYLOAD_MAX` bytes under the current
`send_seq` and joins the blocks sent. -/
theorem buildAndSendCommand_eq_some {sq next : SerialQueue}
    (built : buildAndSendCommand sq = some (next, block)) :
    (∃ payload : List UInt8, payload.length ≤ messagePayloadMax ∧
      block = addFrame (blockSequence sq.sendSeq) payload) ∧
    next.window = ⟨sq.sendSeq + 1, sq.receiveSeq, sq.sentQueue ++ [block]⟩ := by
  rcases Option.map_eq_some_iff.mp built with ⟨⟨filled, payload⟩, loop, result⟩
  cases result
  rcases fillBlock_window loop (Nat.zero_le _) with ⟨same, fits⟩
  have sendSeq : filled.sendSeq = sq.sendSeq := congrArg Window.sendSeq same
  have receiveSeq : filled.receiveSeq = sq.receiveSeq := congrArg Window.receiveSeq same
  have sentQueue : filled.sentQueue = sq.sentQueue := congrArg Window.sentQueue same
  refine ⟨⟨payload, fits, by rw [sendSeq]⟩, ?_⟩
  simp [SerialQueue.window, storeBlock, sendSeq, receiveSeq, sentQueue]

section

variable (sq : SerialQueue)

theorem serialqueueSendBatch_keeps {sq : SerialQueue} {Part : Type} (part : SerialQueue → Part)
    (kept : ∀ pendingQueues upcomingBytes needKickClock,
      part { sq with pendingQueues, upcomingBytes, needKickClock } = part sq) :
    part (serialqueueSendBatch sq cq msgs) = part sq := by
  unfold serialqueueSendBatch
  dsimp only
  split
  · rfl
  · exact kept _ _ _

theorem retransmitEvent_window : (retransmitEvent sq).window = sq.window := rfl

theorem releaseNotifications_window (rseq : UInt64) (len : Nat) :
    (releaseNotifications sq rseq len).window = sq.window := rfl

theorem processMessage_window (rseq : UInt64) (msg : List UInt8) :
    (processMessage sq rseq msg).window = sq.window := by
  unfold processMessage
  split_ifs <;> rfl

end

/-- Only the counts of the blocks that are sent change. -/
theorem removeSent_frame (rseq sentSeq : UInt64) (sent : List (List UInt8)) :
    ∃ sendSeq sentQueue needAckBytes lastAckBytes, removeSent rseq sq sentSeq sent =
      { sq with sendSeq, sentQueue, needAckBytes, lastAckBytes } := by
  induction sent generalizing sq sentSeq with
  | nil => exact ⟨_, _, _, _, rfl⟩
  | cons block sent induction =>
    rw [removeSent]
    split
    · exact ⟨_, _, _, _, rfl⟩
    · rcases induction _ (sentSeq + 1) with ⟨_, _, _, _, later⟩
      exact ⟨_, _, _, _, later⟩

/-- When enough blocks are outstanding, exactly those before `rseq` are removed and subtracted,
and the size of the last one is remembered. -/
theorem removeSent_eq (base : UInt64) (sentQueue : List (List UInt8)) (first count : Nat)
    (some_acked : 0 < count) (outstanding : count ≤ sentQueue.length) (small : count < 2 ^ 64) :
    removeSent (base + .ofNat (first + count)) sq (base + .ofNat first) sentQueue =
      { sq with
        sentQueue := sentQueue.drop count
        needAckBytes := sq.needAckBytes - (sentQueue.take count).flatten.length
        lastAckBytes := (sentQueue.getD (count - 1) []).length } := by
  induction sentQueue generalizing sq first count with
  | nil =>
    rw [List.length_nil] at outstanding
    omega
  | cons sent rest induction =>
    have succ : base + UInt64.ofNat first + 1 = base + .ofNat (first + 1) := by
      rw [UInt64.add_assoc, UInt64.ofNat_add]
      rfl
    rw [removeSent, succ]
    cases count with
    | zero => exact absurd some_acked (lt_irrefl 0)
    | succ more =>
      by_cases last : more = 0
      · subst last
        simp
      have notYet : ¬ base + UInt64.ofNat (first + (more + 1)) = base + .ofNat (first + 1) := by
        intro equal
        have numbers := congrArg UInt64.toNat ((UInt64.add_right_inj base).mp equal)
        simp only [UInt64.toNat_ofNat'] at numbers
        omega
      rw [if_neg notYet, show first + (more + 1) = first + 1 + more by omega,
        induction _ (first + 1) more (Nat.pos_of_ne_zero last)
          (Nat.le_of_succ_le_succ outstanding) (Nat.lt_of_succ_lt small)]
      have position : (sent :: rest).getD (more + 1 - 1) [] = rest.getD (more - 1) [] := by
        conv_lhs => rw [← Nat.succ_pred last]
        rfl
      rw [position, List.take_succ_cons, List.flatten_cons, List.length_append,
        Int.natCast_add, ← Int.sub_sub, List.drop_succ_cons]

/-- An acknowledgement within the window removes exactly the blocks before it. -/
theorem updateReceiveSeq_window {sq : SerialQueue}
    (receiveSeq : sq.receiveSeq = base + .ofNat acked) (advances : acked < count)
    (outstanding : count - acked ≤ sq.sentQueue.length) (small : count - acked < 2 ^ 64) :
    (updateReceiveSeq sq (base + .ofNat count)).window =
      ⟨sq.sendSeq, base + .ofNat count, sq.sentQueue.drop (count - acked)⟩ := by
  have removed := removeSent_eq sq base sq.sentQueue acked (count - acked)
    (Nat.sub_pos_of_lt advances) outstanding small
  rw [Nat.add_sub_cancel' (le_of_lt advances), ← receiveSeq] at removed
  rw [updateReceiveSeq, removed]
  rfl

end CentauriCarbon.SerialLink
