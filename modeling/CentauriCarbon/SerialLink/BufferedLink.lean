import CentauriCarbon.SerialLink.Accounting
import CentauriCarbon.SerialLink.Link

/-! # The link with the receive buffer

The link byte by byte in the direction of the micro-controller: `serial_rx_byte` fills a buffer
of the size that is advertised as `RECEIVE_WINDOW`, and `console_task` dispatches a block,
removes it with `console_pop_input` and then sends the ack. Responses can leave at any time,
those to a block that is still in the buffer included.
-/

namespace CentauriCarbon.SerialLink

open Protocol

inductive ConsoleTask where
  | idle
  | dispatch (popCount : Nat)
  | ack
  deriving DecidableEq

structure BufferedLink where
  host : SerialQueue
  wire : List UInt8
  receiveBuf : List UInt8
  rxBufferSize : Nat
  mcu : FindBlockState
  task : ConsoleTask
  up : List (List UInt8)
  built : List (List UInt8)

/-- What can happen while nothing is lost or damaged and nothing is sent twice. An ack for
which the transmit buffer has no room is not sent. -/
inductive BufferedEvent where
  | sendBatch (cq : Nat) (msgs : List QueueMessage)
  | commandRound (clocks : SendClocks)
  | rxByte
  | findBlock
  | respond (payload : List UInt8)
  | popInput
  | sendAck (room : Bool)
  | receive

namespace BufferedLink

variable (link : BufferedLink)

def commandRound (clocks : SendClocks) : Option BufferedLink :=
  match checkSendCommand link.host clocks with
  | (.now, host) =>
    (buildAndSendCommand host).map fun (host, block) =>
      { link with host, wire := link.wire ++ block, built := link.built ++ [block] }
  | (_, host) => some { link with host }

/-- `serial_rx_byte`: a byte for which there is no room is dropped. -/
def serialRxByte (data : UInt8) : BufferedLink :=
  if link.receiveBuf.length ≥ link.rxBufferSize then link
  else { link with receiveBuf := link.receiveBuf ++ [data] }

/-- `console_task` up to `command_dispatch`, or all of it if there is no block to dispatch. -/
def findBlock : BufferedLink :=
  match commandFindBlock link.mcu link.receiveBuf with
  | (.found msglen, mcu) => { link with mcu, task := .dispatch msglen }
  | (blockExit, mcu) =>
    { link with
      mcu
      receiveBuf := link.receiveBuf.drop blockExit.popCount
      up := link.up ++ if blockExit.sendsNak then [commandAddFrame mcu []] else [] }

/-- One event. A response holds at least the number of its message. -/
def step : BufferedEvent → Option BufferedLink
  | .sendBatch cq msgs => some { link with host := serialqueueSendBatch link.host cq msgs }
  | .commandRound clocks => link.commandRound clocks
  | .rxByte =>
    match link.wire with
    | [] => none
    | data :: rest => some ({ link with wire := rest }.serialRxByte data)
  | .findBlock =>
    match link.task with
    | .idle => some link.findBlock
    | .dispatch _ => none
    | .ack => none
  | .respond payload =>
    if payload = [] then none
    else some { link with up := link.up ++ [commandAddFrame link.mcu payload] }
  | .popInput =>
    match link.task with
    | .dispatch popCount =>
      some { link with receiveBuf := link.receiveBuf.drop popCount, task := .ack }
    | .idle => none
    | .ack => none
  | .sendAck room =>
    match link.task with
    | .ack =>
      some { link with
        task := .idle
        up := link.up ++ if room then [commandAddFrame link.mcu []] else [] }
    | .idle => none
    | .dispatch _ => none
  | .receive =>
    match link.up with
    | [] => none
    | block :: rest => some { link with host := inputBlock link.host block, up := rest }

/-- Both ends agree on the next sequence number and on the size of the buffer, and nothing is
under way. -/
structure Synchronised (link : BufferedLink) : Prop where
  receiveSeq : link.host.receiveSeq = link.host.sendSeq
  nothingSent : link.host.sentQueue = []
  needAckBytes : link.host.needAckBytes = 0
  lastAckBytes : 0 ≤ link.host.lastAckBytes
  lastAckSeq : link.host.lastAckSeq ≤ link.host.receiveSeq
  receiveWindow : link.host.receiveWindow = link.rxBufferSize
  inSync : link.mcu.needSync = false
  dest : link.mcu.nextSequence &&& ~~~messageSeqMask = messageDest
  lowNibble : link.mcu.nextSequence.toNat % 16 = link.host.sendSeq.toNat % 16
  idle : link.task = .idle
  wireEmpty : link.wire = []
  bufferEmpty : link.receiveBuf = []
  upEmpty : link.up = []
  noneBuilt : link.built = []

end BufferedLink

structure Counts where
  receiveWindow : Int
  lastAckSeq : UInt64
  needAckBytes : Int
  lastAckBytes : Int

def SerialQueue.counts (sq : SerialQueue) : Counts :=
  ⟨sq.receiveWindow, sq.lastAckSeq, sq.needAckBytes, sq.lastAckBytes⟩

variable (sq : SerialQueue)

theorem buildAndSendCommand_counts {sq next : SerialQueue}
    (built : buildAndSendCommand sq = some (next, block)) :
    next.counts = { sq.counts with needAckBytes := sq.needAckBytes + block.length } := by
  rcases Option.map_eq_some_iff.mp built with ⟨⟨filled, payload⟩, loop, result⟩
  cases result
  rw [fillBlock_frame loop]
  rfl

theorem processMessage_counts (rseq : UInt64) (msg : List UInt8) :
    (processMessage sq rseq msg).counts =
      { sq.counts with
        lastAckSeq := if msg.length = messageMin ∧ sq.lastAckSeq < rseq then rseq
          else sq.lastAckSeq } := by
  unfold processMessage
  split
  next isAck =>
    split
    next newer =>
      rw [if_pos ⟨isAck, newer⟩]
      rfl
    next old =>
      have notNewer : ¬ (msg.length = messageMin ∧ sq.lastAckSeq < rseq) :=
        fun both => old both.2
      split <;> rfl
  next notAck =>
    rw [if_neg fun both => notAck both.1]
    rfl

theorem updateReceiveSeq_counts (rseq : UInt64) : (updateReceiveSeq sq rseq).counts =
      (removeSent rseq sq sq.receiveSeq sq.sentQueue).counts := rfl

/-- A buffer that begins a stream of frames begins with the first of them, once that has
arrived, and is incomplete before. -/
theorem frameAt_of_stream (stream : buf ++ wire = block ++ rest)
    (whole : frameAt block = .valid block.length) :
    if buf.length < block.length then frameAt buf = .incomplete
    else ∃ more, buf = block ++ more := by
  split
  next short =>
    have begins : buf <+: block :=
      List.prefix_of_prefix_length_le ⟨wire, stream⟩ ⟨rest, rfl⟩ (le_of_lt short)
    rcases begins with ⟨more, rfl⟩
    cases verdict : frameAt buf with
    | incomplete => rfl
    | valid length =>
      have extended := frameAt_append_of_valid more verdict
      rw [whole] at extended
      cases extended
      have inside := (frameAt_eq_valid_iff.mp verdict).2.2.2
      exact absurd short (Nat.not_lt.mpr inside)
    | invalid =>
      have extended := frameAt_append_of_invalid more verdict
      rw [whole] at extended
      cases extended
  next long =>
    have begins : block <+: buf :=
      List.prefix_of_prefix_length_le ⟨rest, rfl⟩ ⟨wire, stream⟩ (Nat.le_of_not_lt long)
    rcases begins with ⟨more, buf_eq⟩
    exact ⟨more, buf_eq.symm⟩

/-- The first block of the stream, once it has arrived, is the one that is found. -/
theorem commandFindBlock_of_stream {mcu : FindBlockState} (inSync : mcu.needSync = false)
    (stream : buf ++ wire = addFrame mcu.nextSequence payload ++ rest)
    (fits : payload.length ≤ messagePayloadMax)
    (dest : mcu.nextSequence &&& ~~~messageSeqMask = messageDest) : commandFindBlock mcu buf =
      if buf.length < (addFrame mcu.nextSequence payload).length then (.needMoreData, mcu)
      else (.found (addFrame mcu.nextSequence payload).length,
        { mcu with needValid := false, nextSequence := sequenceAfter mcu.nextSequence }) := by
  have whole := frameAt_addFrame fits dest
  have found := frameAt_of_stream stream whole
  rw [commandFindBlock_synced inSync]
  split at found
  next short => rw [found, if_pos short]
  next long =>
    rcases found with ⟨more, rfl⟩
    have enough : messageMin ≤ (addFrame mcu.nextSequence payload).length := by
      rw [length_addFrame]
      omega
    have sequence : (addFrame mcu.nextSequence payload ++ more).getD messagePosSeq 0 =
        mcu.nextSequence := by
      rw [List.getD_append _ _ _ _ (lt_of_lt_of_le (by decide) enough)]
      exact addFrame_sequence _ _
    rw [frameAt_append_of_valid more whole, if_neg long]
    rw [checkSequence, sequence, if_neg (not_not.mpr rfl), frameLength_append more enough,
      frameLength_addFrame _ fits, length_addFrame]

end CentauriCarbon.SerialLink
