import CentauriCarbon.SerialLink.NotifyLink

/-! # The notify queue

A message with a `notify_id` waits in `notify_queue` under the sequence number of its block. An ack
releases all messages of blocks before the number it carries; any other message is sent during or
after the dispatch of the block before that number and releases only the messages of the blocks
before that one. So a notification stands behind the responses to its block.
-/

namespace CentauriCarbon.SerialLink

open List Protocol

inductive Arrival where
  | response (origin : Option Nat) (msg : List UInt8)
  | notification (block : Nat) (qm : QueueMessage)

namespace Arrival

def received : Arrival → ReceivedMessage
  | response _ msg => ⟨msg, 0⟩
  | notification _ qm => ⟨[], qm.notifyId⟩

def response? : Arrival → Option (Option Nat × List UInt8)
  | response origin msg => some (origin, msg)
  | notification _ _ => none

def notification? : Arrival → Option (Nat × QueueMessage)
  | response _ _ => none
  | notification block qm => some (block, qm)

def MayPrecede (first second : Arrival) : Prop :=
  ∀ block qm msg, first = .notification block qm → second ≠ .response (some block) msg

end Arrival

def contents (placed : List (Nat × QueueMessage)) (index : Nat) : List UInt8 :=
  ((placed.filter (·.1 = index)).map (·.2.msg)).flatten

/-- The arrivals went through the receive queue, behind what was in it before. They are the
responses that reached the host and notifications for the first messages that asked for one, each
of them once and in the order of the messages: at least for those whose block was acknowledged, and
only for those whose block was dispatched. The responses to a block come before the notifications
for it. A block holds the messages that are recorded for it. -/
structure NotifyLink.Exact (system : NotifyLink) (before : List ReceivedMessage)
    (arrivals : List Arrival) : Prop where
  blocks : ∀ {index block}, system.link.built[index]? = some block →
    ∃ seq, block = addFrame seq (contents system.placed index)
  queue : system.pulled ++ system.link.host.receiveQueue = before ++ arrivals.map Arrival.received
  responses : arrivals.filterMap Arrival.response? = system.delivered
  inOrder : arrivals.filterMap Arrival.notification? <+: notifying system.placed
  afterAck : (notifying system.placed).filter (fun placed => placed.1 < system.acked) <+:
    arrivals.filterMap Arrival.notification?
  afterDispatch : ∀ placed ∈ arrivals.filterMap Arrival.notification?,
    placed.1 < system.link.dispatched.length
  responsesFirst : arrivals.Pairwise Arrival.MayPrecede

/-- The messages of a new block leave those of the others as they are. -/
theorem contents_append {placed : List (Nat × QueueMessage)} {count : Nat}
    (placed_lt : ∀ message ∈ placed, message.1 < count) (messages : List QueueMessage)
    (index : Nat) : contents (placed ++ messages.map (count, ·)) index =
      if index = count then (messages.map QueueMessage.msg).flatten
      else contents placed index := by
  unfold contents
  rw [filter_append, filter_map]
  split
  next isNew =>
    subst isNew
    have noneBefore : placed.filter (·.1 = index) = [] := by
      apply filter_eq_nil_iff.mpr
      intro message member isIndex
      have below := placed_lt message member
      rw [of_decide_eq_true isIndex] at below
      exact lt_irrefl _ below
    rw [noneBefore, nil_append, map_map]
    simp [Function.comp_def]
  next other =>
    have noneNew : messages.filter ((fun message => decide (message.1 = index)) ∘
        fun qm => (count, qm)) = [] := by
      apply filter_eq_nil_iff.mpr
      intro qm _ isIndex
      exact other (of_decide_eq_true isIndex).symm
    rw [noneNew, map_nil, append_nil]

/-! ## The queues of the host -/

structure Notices where
  notifyQueue : List QueueMessage
  receiveQueue : List ReceivedMessage

def SerialQueue.notices (sq : SerialQueue) : Notices := ⟨sq.notifyQueue, sq.receiveQueue⟩

variable {block : List UInt8} {sq next : SerialQueue} {sent : Upward}

/-- The loop appends the messages that it takes to the block, and those that ask for a
notification to the queue, under the number of the block. -/
theorem fillBlock_takenMessages (loop : fillBlock rounds sq payload = some (next, filled)) :
    filled = payload ++ ((takenMessages rounds sq payload).map QueueMessage.msg).flatten ∧
      next.notifyQueue = sq.notifyQueue ++
        ((takenMessages rounds sq payload).filter (·.notifyId ≠ 0)).map
          ({ · with reqClock := sq.sendSeq }) := by
  induction rounds generalizing sq payload with
  | zero =>
    rcases Option.ite_none_right_eq_some.mp loop with ⟨-, ⟨⟩⟩
    simp [takenMessages]
  | succ rounds induction =>
    rw [fillBlock] at loop
    split at loop
    next noBytes =>
      cases loop
      simp [takenMessages, noBytes]
    next someReady =>
      split at loop
      · cases loop
      next index qm found =>
        rw [takenMessages, if_neg someReady, found]
        dsimp only
        split at loop
        next full =>
          cases loop
          rw [if_pos full]
          simp
        next room =>
          rw [if_neg room]
          rcases induction loop with ⟨filled_eq, queue_eq⟩
          rw [filled_eq, queue_eq, takeReady]
          constructor
          · rw [map_cons, flatten_cons, append_assoc]
          · by_cases notifies : qm.notifyId = 0
            · simp [notifies]
            · simp [notifies]

theorem buildAndSendCommand_contents (built : buildAndSendCommand sq = some (next, block)) :
    ∃ seq, block = addFrame seq ((blockMessages sq).map QueueMessage.msg).flatten := by
  rcases Option.map_eq_some_iff.mp built with ⟨⟨filled, payload⟩, loop, result⟩
  cases result
  refine ⟨blockSequence filled.sendSeq, ?_⟩
  rw [(fillBlock_takenMessages loop).1]
  rfl

theorem buildAndSendCommand_notices (built : buildAndSendCommand sq = some (next, block)) :
    next.notices = ⟨sq.notifyQueue ++ ((blockMessages sq).filter (·.notifyId ≠ 0)).map
      ({ · with reqClock := sq.sendSeq }), sq.receiveQueue⟩ := by
  rcases Option.map_eq_some_iff.mp built with ⟨⟨filled, payload⟩, loop, result⟩
  cases result
  have receiveQueue : filled.receiveQueue = sq.receiveQueue := by rw [fillBlock_frame loop]
  have notifyQueue := (fillBlock_takenMessages loop).2
  rw [SerialQueue.notices, storeBlock, notifyQueue, receiveQueue]
  rfl

theorem processMessage_notices (sq : SerialQueue) (rseq : UInt64) (msg : List UInt8) :
    (processMessage sq rseq msg).notices = ⟨sq.notifyQueue, sq.receiveQueue ++
      if msg.length = messageMin then [] else [⟨msg, 0⟩]⟩ := by
  rw [processMessage]
  split
  · rw [append_nil]
    split_ifs <;> rfl
  · rfl

theorem handleMessage_notices (isRseq : receivedSeq sq msg = rseq) (notAbove : rseq ≤ sq.sendSeq) :
    let releases (qm : QueueMessage) : Bool :=
      qm.reqClock ≤ rseq - 1 - (if msg.length > messageMin then 1 else 0)
    (handleMessage sq msg).notices = ⟨sq.notifyQueue.dropWhile releases,
      sq.receiveQueue ++ (sq.notifyQueue.takeWhile releases).map (⟨[], ·.notifyId⟩) ++
        if msg.length = messageMin then [] else [⟨msg, 0⟩]⟩ := by
  intro releases
  rw [handleMessage, isRseq]
  rw [if_neg fun rejected => absurd rejected.2.1 (UInt64.not_lt.mpr notAbove),
    processMessage_notices]
  have same : (if rseq ≠ sq.receiveSeq then updateReceiveSeq sq rseq else sq).notices =
      sq.notices := by
    split
    · rcases removeSent_frame sq rseq sq.receiveSeq sq.sentQueue with ⟨_, _, _, _, removed⟩
      rw [updateReceiveSeq, removed]
      rfl
    · rfl
  rw [SerialQueue.notices, SerialQueue.notices, Notices.mk.injEq] at same
  simp only [releaseNotifications, same.1, same.2]
  rfl

/-! ## Releasing -/

section Release

variable {base : UInt64}

def stamped (base : UInt64) (placed : Nat × QueueMessage) : QueueMessage :=
  { placed.2 with reqClock := base + .ofNat placed.1 }

/-- A message of a block is released by a number beyond that of the block, by a response only if
it is beyond that of the next block. -/
theorem stamped_le_iff (twoLe : 2 ≤ base.toNat) {placed : Nat × QueueMessage} {count : Nat}
    (blockFits : base.toNat + placed.1 < 2 ^ 64) (countFits : base.toNat + count < 2 ^ 64)
    (isResponse : Prop) [Decidable isResponse] :
    (stamped base placed).reqClock ≤ base + .ofNat count - 1 - (if isResponse then 1 else 0) ↔
      placed.1 < count - if isResponse then 1 else 0 := by
  have block : (base + UInt64.ofNat placed.1).toNat = base.toNat + placed.1 := by
    rw [toNat_base_add, Nat.mod_eq_of_lt blockFits]
  have number : (base + UInt64.ofNat count).toNat = base.toNat + count := by
    rw [toNat_base_add, Nat.mod_eq_of_lt countFits]
  have one : (1 : UInt64).toNat = 1 := rfl
  have zero : (0 : UInt64).toNat = 0 := rfl
  rw [UInt64.le_iff_toNat_le, stamped, UInt64.toNat_sub, UInt64.toNat_sub, block, number]
  split
  · rw [one]
    omega
  · rw [one, zero]
    omega

theorem takeWhile_dropWhile_append {Value : Type} (releases : Value → Bool)
    {front back : List Value} (frontReleased : ∀ value ∈ front, releases value)
    (backKept : ∀ value ∈ back, releases value = false) :
    (front ++ back).takeWhile releases = front ∧ (front ++ back).dropWhile releases = back := by
  rw [takeWhile_append_of_pos frontReleased, dropWhile_append_of_pos frontReleased]
  cases back with
  | nil => simp
  | cons value back =>
    have kept := backKept value mem_cons_self
    simp [kept]

/-- Messages that wait in the order of their blocks are split at any number. -/
theorem exists_split {waiting : List (Nat × QueueMessage)}
    (sorted : waiting.Pairwise fun first second => first.1 ≤ second.1) (limit : Nat) :
    ∃ front back, waiting = front ++ back ∧ (∀ placed ∈ front, placed.1 < limit) ∧
      ∀ placed ∈ back, limit ≤ placed.1 := by
  induction waiting with
  | nil => exact ⟨[], [], rfl, by simp, by simp⟩
  | cons placed waiting induction =>
    rw [pairwise_cons] at sorted
    by_cases below : placed.1 < limit
    · rcases induction sorted.2 with ⟨front, back, rfl, isFront, isBack⟩
      exact ⟨placed :: front, back, rfl, forall_mem_cons.mpr ⟨below, isFront⟩, isBack⟩
    · rw [not_lt] at below
      refine ⟨[], placed :: waiting, rfl, by simp, forall_mem_cons.mpr ⟨below, ?_⟩⟩
      exact fun other later => le_trans below (sorted.1 other later)

end Release

def Upward.releaseLimit (sent : Upward) : Nat :=
  sent.dispatched - if sent.payload ≠ [] then 1 else 0

def Upward.responseArrival (sent : Upward) (block : List UInt8) : List Arrival :=
  if sent.payload = [] then [] else [.response sent.origin block]

/-- What reaches the receive queue with a message: the notifications it releases, and itself. -/
def Upward.arrivals (sent : Upward) (block : List UInt8) (front : List (Nat × QueueMessage)) :
    List Arrival :=
  front.map (fun placed => .notification placed.1 placed.2) ++ sent.responseArrival block

theorem notifications_received (arrivals : List Arrival) (front : List (Nat × QueueMessage))
    (sent : Upward) (block : List UInt8) :
    (arrivals ++ sent.arrivals block front).filterMap Arrival.notification? =
      arrivals.filterMap Arrival.notification? ++ front := by
  have noneOfResponse : (sent.responseArrival block).filterMap Arrival.notification? = [] := by
    unfold Upward.responseArrival
    split <;> rfl
  have allOfFront : (front.map fun placed => Arrival.notification placed.1 placed.2).filterMap
      Arrival.notification? = front := by
    rw [filterMap_map]
    exact filterMap_some
  rw [filterMap_append, Upward.arrivals, filterMap_append, noneOfResponse, allOfFront, append_nil]

theorem Arrival.mayPrecede_notification (first : Arrival) (placed : Nat × QueueMessage) :
    first.MayPrecede (.notification placed.1 placed.2) := by
  nofun

theorem mayPrecede_responseArrival {arrivals : List Arrival}
    (notOwn : sent.payload ≠ [] → ∀ placed ∈ arrivals.filterMap Arrival.notification?,
      sent.origin ≠ some placed.1) (member : first ∈ arrivals)
    (isResponse : second ∈ sent.responseArrival block) : first.MayPrecede second := by
  intro notified qm msg isNotification own
  rw [Upward.responseArrival] at isResponse
  split at isResponse
  · cases isResponse
  next payload =>
    have isSecond := mem_singleton.mp isResponse
    rw [own, Arrival.response.injEq] at isSecond
    subst isNotification
    have notifies : (notified, qm) ∈ arrivals.filterMap Arrival.notification? :=
      mem_filterMap.mpr ⟨_, member, rfl⟩
    exact notOwn payload _ notifies isSecond.1.symm

theorem responsesFirst_received {arrivals : List Arrival}
    (ordered : arrivals.Pairwise Arrival.MayPrecede)
    (notOwn : sent.payload ≠ [] → ∀ placed ∈ arrivals.filterMap Arrival.notification? ++ front,
      sent.origin ≠ some placed.1) :
    (arrivals ++ sent.arrivals block front).Pairwise Arrival.MayPrecede := by
  have single : (sent.responseArrival block).Pairwise Arrival.MayPrecede := by
    unfold Upward.responseArrival
    split <;> simp
  have notified := notifications_received arrivals front ⟨[], 0, none⟩ []
  change (arrivals ++ (_ ++ [])).filterMap Arrival.notification? = _ at notified
  rw [append_nil] at notified
  rw [← notified] at notOwn
  rw [Upward.arrivals, ← append_assoc]
  apply pairwise_append.mpr
  refine ⟨?_, single, fun first member second isResponse =>
    mayPrecede_responseArrival notOwn member isResponse⟩
  apply pairwise_append.mpr
  refine ⟨ordered, ?_, ?_⟩
  · apply pairwise_map.mpr
    exact pairwise_of_forall fun first second => Arrival.mayPrecede_notification _ second
  · intro first old second new
    rcases mem_map.mp new with ⟨placed, -, rfl⟩
    exact first.mayPrecede_notification placed

/-- A message of the micro-controller passes the checks of the host and releases the messages of
the blocks below its limit. -/
theorem inputBlock_notices {base : UInt64} (twoLe : 2 ≤ base.toNat)
    (framed : block = addFrame (blockSequence (base + .ofNat sent.dispatched)) sent.payload)
    (fits : sent.payload.length ≤ messagePayloadMax)
    (isRseq : receivedSeq sq block = base + .ofNat sent.dispatched)
    (notAbove : base + .ofNat sent.dispatched ≤ sq.sendSeq)
    (countFits : base.toNat + sent.dispatched < 2 ^ 64) {front back : List (Nat × QueueMessage)}
    (waiting : sq.notifyQueue = (front ++ back).map (stamped base))
    (blockFits : ∀ placed ∈ front ++ back, base.toNat + placed.1 < 2 ^ 64)
    (isFront : ∀ placed ∈ front, placed.1 < sent.releaseLimit)
    (isBack : ∀ placed ∈ back, sent.releaseLimit ≤ placed.1) :
    (inputBlock sq block).notices = ⟨back.map (stamped base),
      sq.receiveQueue ++ (sent.arrivals block front).map Arrival.received⟩ := by
  have valid : msgblockCheck false block = ((block.length : Int), false) := by
    rw [framed]
    exact (msgblockCheck_eq_length_iff.mpr (frameAt_addFrame fits (blockSequence_dest _))).1
  have long : block.length > messageMin ↔ sent.payload ≠ [] := by
    rw [framed, length_addFrame, ← length_pos_iff]
    omega
  have short : block.length = messageMin ↔ sent.payload = [] := by
    rw [framed, length_addFrame, ← length_eq_zero_iff]
    omega
  have releases_iff (placed : Nat × QueueMessage) (member : placed ∈ front ++ back) :=
    stamped_le_iff twoLe (blockFits placed member) countFits (sent.payload ≠ [])
  have notices := handleMessage_notices isRseq notAbove
  rw [waiting, map_append] at notices
  simp only [long, short] at notices
  let releases (qm : QueueMessage) : Bool :=
    qm.reqClock ≤ base + .ofNat sent.dispatched - 1 - if sent.payload ≠ [] then 1 else 0
  have frontReleased : ∀ qm ∈ front.map (stamped base), releases qm := by
    intro qm member
    rcases mem_map.mp member with ⟨placed, inFront, rfl⟩
    apply decide_eq_true
    exact (releases_iff placed (mem_append_left _ inFront)).mpr (isFront placed inFront)
  have backKept : ∀ qm ∈ back.map (stamped base), releases qm = false := by
    intro qm member
    rcases mem_map.mp member with ⟨placed, inBack, rfl⟩
    apply decide_eq_false
    intro released
    have below := (releases_iff placed (mem_append_right _ inBack)).mp released
    exact absurd below (Nat.not_lt.mpr (isBack placed inBack))
  have halves := takeWhile_dropWhile_append releases frontReleased backKept
  rw [halves.1, halves.2] at notices
  rw [inputBlock, if_pos valid, notices, Upward.arrivals, Upward.responseArrival, map_append,
    map_map, map_map, append_assoc]
  split_ifs <;> rfl

variable (link : Link) (block : List UInt8) (responses : List (List UInt8))

theorem consoleTask_host : (consoleTask link block responses).host = link.host := by
  unfold consoleTask
  split <;> rfl

theorem consoleTask_built : (consoleTask link block responses).built = link.built := by
  unfold consoleTask
  split <;> rfl

/-- What the micro-controller sends when a block reaches it carries its new sequence byte. -/
theorem consoleTask_up : (consoleTask link block responses).up = link.up ++
      ((NotifyLink.answers link block responses).map Upward.payload).map
        (commandAddFrame (consoleTask link block responses).mcu) := by
  unfold consoleTask NotifyLink.answers
  cases outcome : commandFindBlock link.mcu block with
  | mk blockExit mcu =>
    cases blockExit with
    | needMoreData | outOfSequence => simp [FindBlockExit.sendsNak]
    | found length => simp
    | discarded count nak => cases nak <;> simp [FindBlockExit.sendsNak]

end CentauriCarbon.SerialLink
