import CentauriCarbon.SerialLink.Link

/-! # The link with its notifications

The link together with the reader of the receive queue, and with records of what a notification
is about: which messages went into which block, and during which dispatch a response was
generated. The records are only written, no step depends on them.
-/

namespace CentauriCarbon.SerialLink

open Protocol

def takenMessages : Nat → SerialQueue → List UInt8 → List QueueMessage
  | 0, _, _ => []
  | rounds + 1, sq, payload =>
    if sq.readyBytes = 0 then []
    else
      match findReady sq.pendingQueues with
      | none => []
      | some (index, qm) =>
        if messageHeaderSize + payload.length + qm.msg.length >
            messageMax - messageTrailerSize then []
        else qm :: takenMessages rounds (takeReady sq index qm) (payload ++ qm.msg)

def blockMessages (sq : SerialQueue) : List QueueMessage := takenMessages (readyCount sq) sq []

def notifying (messages : List (Nat × QueueMessage)) : List (Nat × QueueMessage) :=
  messages.filter fun placed => placed.2.notifyId ≠ 0

/-- A message under way to the host, with the number of blocks that had been dispatched when it
was sent and, for a response, the block during whose dispatch it was generated. -/
structure Upward where
  payload : List UInt8
  dispatched : Nat
  origin : Option Nat

structure NotifyLink where
  link : Link
  /-- The messages in the channel to the host. -/
  upward : List Upward
  /-- The messages that were put into blocks, with the numbers of the blocks. -/
  placed : List (Nat × QueueMessage)
  /-- The number of blocks for which an ack has been received. -/
  acked : Nat
  /-- The responses that have reached the host, with their origins. -/
  delivered : List (Option Nat × List UInt8)
  /-- What `serialqueue_pull` has returned. -/
  pulled : List ReceivedMessage

inductive NotifyEvent where
  | link (event : LinkEvent)
  | pull

namespace NotifyLink

def answers (link : Link) (block : List UInt8) (responses : List (List UInt8)) : List Upward :=
  match (commandFindBlock link.mcu block).1 with
  | .found _ =>
    responses.map (fun payload =>
      ⟨payload, link.dispatched.length + 1, some link.dispatched.length⟩) ++
        [⟨[], link.dispatched.length + 1, none⟩]
  | blockExit => if blockExit.sendsNak then [⟨[], link.dispatched.length, none⟩] else []

def record (system : NotifyLink) : LinkEvent → NotifyLink
  | .buildAndSend =>
    { system with
      placed := system.placed ++
        (blockMessages system.link.host).map (system.link.built.length, ·) }
  | .deliverDown responses =>
    match system.link.down with
    | [] => system
    | block :: _ =>
      { system with upward := system.upward ++ answers system.link block responses }
  | .deliverUp =>
    match system.link.up, system.upward with
    | block :: _, sent :: rest =>
      if sent.payload = [] then
        { system with upward := rest, acked := max system.acked sent.dispatched }
      else
        { system with upward := rest, delivered := system.delivered ++ [(sent.origin, block)] }
    | _, _ => system
  | .loseUp index => { system with upward := system.upward.eraseIdx index }
  | .mcuSend payload =>
    { system with upward := system.upward ++ [⟨payload, system.link.dispatched.length, none⟩] }
  | .sendBatch _ _ | .checkSend _ | .retransmit | .loseDown _ => system

end NotifyLink

/-- What the micro-controller sends fits into a block, and a response holds at least the number
of its message. -/
def LinkEvent.Fits : LinkEvent → Prop
  | .deliverDown responses =>
    ∀ payload ∈ responses, payload ≠ [] ∧ payload.length ≤ messagePayloadMax
  | .mcuSend payload => payload.length ≤ messagePayloadMax
  | _ => True

instance LinkEvent.decidableFits : ∀ event : LinkEvent, Decidable event.Fits
  | .deliverDown responses =>
    inferInstanceAs (Decidable (∀ payload ∈ responses, _ ∧ _))
  | .mcuSend payload => inferInstanceAs (Decidable (payload.length ≤ messagePayloadMax))
  | .sendBatch _ _ | .checkSend _ | .buildAndSend | .retransmit | .deliverUp | .loseDown _
  | .loseUp _ => .isTrue trivial

namespace NotifyLink

/-- `serialqueue_pull`, which waits while there is nothing to return. -/
def serialqueuePull (system : NotifyLink) : Option NotifyLink :=
  match system.link.host.receiveQueue with
  | [] => none
  | qm :: rest =>
    some { system with
      link := { system.link with host := { system.link.host with receiveQueue := rest } }
      pulled := system.pulled ++ [qm] }

def step (system : NotifyLink) : NotifyEvent → Option NotifyLink
  | .link event =>
    if event.Fits then
      (linkStep system.link event).map fun next => { system.record event with link := next }
    else none
  | .pull => system.serialqueuePull

structure Synchronised (system : NotifyLink) : Prop where
  link : SerialLink.Synchronised system.link
  noneWaiting : system.link.host.notifyQueue = []
  noneUpward : system.upward = []
  nonePlaced : system.placed = []
  noneAcked : system.acked = 0
  noneDelivered : system.delivered = []
  nonePulled : system.pulled = []

end NotifyLink

end CentauriCarbon.SerialLink
