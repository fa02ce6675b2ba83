import CentauriCarbon.Foundation.EventRun
import CentauriCarbon.Foundation.GoBackN
import CentauriCarbon.Protocol.Framing
import CentauriCarbon.SerialLink.PendingMessages

/-! # The serial link

Host, micro-controller and the two channels between them. A channel carries whole
blocks, keeps their order and may lose any of them; a damaged block counts as lost.
Every step of the link is a step of go-back-N retransmission, from which the block
protocol inherits that blocks are dispatched exactly once and in order.
-/

namespace CentauriCarbon.SerialLink

open List Protocol

variable (seq : UInt64)

theorem blockSequence_toNat : (blockSequence seq).toNat = 16 + seq.toNat % 16 := by
  have low : seq.toNat &&& 15 = seq.toNat % 16 := Nat.and_two_pow_sub_one_eq_mod _ 4
  have joined : 16 ||| seq.toNat % 16 = 16 + seq.toNat % 16 :=
    (Nat.two_pow_add_eq_or_of_lt (i := 4) (Nat.mod_lt _ (by decide)) 1).symm
  change (16 ||| (seq.toNat &&& 15)) % 256 = _
  rw [low, joined]
  omega

theorem blockSequence_dest : blockSequence seq &&& ~~~messageSeqMask = messageDest := by
  have small : ∀ low < 16, UInt8.ofNat (16 + low) &&& ~~~messageSeqMask = messageDest := by
    decide
  have number := small (seq.toNat % 16) (Nat.mod_lt _ (by decide))
  rwa [← blockSequence_toNat, UInt8.ofNat_toNat] at number

theorem eq_blockSequence {seq : UInt64} (dest : byte &&& ~~~messageSeqMask = messageDest)
    (lowNibble : byte.toNat % 16 = seq.toNat % 16) : byte = blockSequence seq := by
  have high : ∀ number < 256, UInt8.ofNat number &&& ~~~messageSeqMask = messageDest →
      number = 16 + number % 16 := by
    decide +kernel
  have number := high byte.toNat byte.toNat_lt
  rw [UInt8.ofNat_toNat] at number
  apply UInt8.toNat_inj.mp
  rw [number dest, lowNibble, blockSequence_toNat]

theorem sequenceAfter_blockSequence :
    sequenceAfter (blockSequence seq) = blockSequence (seq + 1) := by
  have small : ∀ low < 16, (sequenceAfter (UInt8.ofNat (16 + low))).toNat =
      16 + (low + 1) % 16 := by
    decide
  have number := small (seq.toNat % 16) (Nat.mod_lt _ (by decide))
  rw [← blockSequence_toNat, UInt8.ofNat_toNat] at number
  apply UInt8.toNat_inj.mp
  rw [number, blockSequence_toNat, UInt64.toNat_add]
  change _ = 16 + (seq.toNat + 1) % 2 ^ 64 % 16
  omega

theorem toNat_base_add (base : UInt64) (count : Nat) :
    (base + UInt64.ofNat count).toNat = (base.toNat + count) % 2 ^ 64 := by
  rw [UInt64.toNat_add, UInt64.toNat_ofNat', Nat.add_mod_mod]

/-- The host recovers the full number of an acknowledgement within its window. -/
theorem receivedSeq_eq {sq : SerialQueue} {msg : List UInt8} {acked count : Nat}
    (receiveSeq : sq.receiveSeq = base + .ofNat acked)
    (sequence : msg.getD messagePosSeq 0 = blockSequence (base + .ofNat count))
    (notBelow : acked ≤ count) (near : count < acked + 16) :
    receivedSeq sq msg = base + .ofNat count := by
  rw [receivedSeq, receiveSeq, sequence]
  apply UInt64.toNat_inj.mp
  have low (value : UInt64) :
      (value &&& messageSeqMask.toUInt64).toNat = value.toNat % 16 :=
    Nat.and_two_pow_sub_one_eq_mod _ 4
  rw [UInt64.toNat_add, low, UInt64.toNat_sub, UInt8.toNat_toUInt64, blockSequence_toNat,
    toNat_base_add, toNat_base_add]
  omega

/-! ## The two ends and the channels -/

structure Link where
  host : SerialQueue
  mcu : FindBlockState
  down : List (List UInt8)
  up : List (List UInt8)
  built : List (List UInt8)
  dispatched : List (List UInt8)

/-- What can happen on the link. `responses` are the payloads sent while a block is
dispatched; `mcuSend` is any other message, such as the nak that damaged bytes
provoke. -/
inductive LinkEvent where
  | sendBatch (cq : Nat) (msgs : List QueueMessage)
  | checkSend (clocks : SendClocks)
  | buildAndSend
  | retransmit
  | deliverDown (responses : List (List UInt8))
  | deliverUp
  | loseDown (index : Nat)
  | loseUp (index : Nat)
  | mcuSend (payload : List UInt8)

/-- `command_add_frame`; an empty payload is an ack or a nak. -/
def commandAddFrame (mcu : FindBlockState) (payload : List UInt8) : List UInt8 :=
  addFrame mcu.nextSequence payload

/-- `console_task` on a receive buffer that holds one block. -/
def consoleTask (link : Link) (block : List UInt8) (responses : List (List UInt8)) : Link :=
  match commandFindBlock link.mcu block with
  | (.found msglen, mcu) =>
    { link with
      mcu
      dispatched := link.dispatched ++ [block.take msglen]
      up := link.up ++ (responses ++ [[]]).map (commandAddFrame mcu) }
  | (blockExit, mcu) =>
    { link with mcu, up := link.up ++ if blockExit.sendsNak then [commandAddFrame mcu []] else [] }

/-- `input_event` on a buffer that holds one block. -/
def inputBlock (sq : SerialQueue) (block : List UInt8) : SerialQueue :=
  if msgblockCheck false block = ((block.length : Int), false) then
    handleMessage sq block
  else sq

def linkStep (link : Link) : LinkEvent → Option Link
  | .sendBatch cq msgs => some { link with host := serialqueueSendBatch link.host cq msgs }
  | .checkSend clocks => some { link with host := (checkSendCommand link.host clocks).2 }
  | .buildAndSend =>
    if link.host.sendSeq - link.host.receiveSeq < maxPendingBlocks then
      (buildAndSendCommand link.host).map fun (host, block) =>
        { link with host, down := link.down ++ [block], built := link.built ++ [block] }
    else none
  | .retransmit =>
    some { link with host := retransmitEvent link.host, down := link.down ++ link.host.sentQueue }
  | .deliverDown responses =>
    match link.down with
    | [] => none
    | block :: rest => some (consoleTask { link with down := rest } block responses)
  | .deliverUp =>
    match link.up with
    | [] => none
    | block :: rest => some { link with host := inputBlock link.host block, up := rest }
  | .loseDown index => some { link with down := link.down.eraseIdx index }
  | .loseUp index => some { link with up := link.up.eraseIdx index }
  | .mcuSend payload => some { link with up := link.up ++ [commandAddFrame link.mcu payload] }

structure Synchronised (link : Link) : Prop where
  receiveSeq_eq : link.host.receiveSeq = link.host.sendSeq
  receiveSeq_ne_one : link.host.receiveSeq ≠ 1
  nothingSent : link.host.sentQueue = []
  inSync : link.mcu.needSync = false
  dest : link.mcu.nextSequence &&& ~~~messageSeqMask = messageDest
  lowNibble : link.mcu.nextSequence.toNat % 16 = link.host.sendSeq.toNat % 16
  downEmpty : link.down = []
  upEmpty : link.up = []
  noneBuilt : link.built = []
  noneDispatched : link.dispatched = []

/-! ## Refinement of go-back-N -/

structure Represents (base : UInt64) (link : Link) (state : GoBackN.State) : Prop where
  builtLength : link.built.length = state.sent
  builtFrames : ∀ {index block}, link.built[index]? = some block →
    ∃ payload : List UInt8, payload.length ≤ messagePayloadMax ∧
      block = addFrame (blockSequence (base + .ofNat index)) payload
  dispatched : link.dispatched = link.built.take state.accepted
  window : link.host.window =
    ⟨base + .ofNat state.sent, base + .ofNat state.acked, link.built.drop state.acked⟩
  inSync : link.mcu.needSync = false
  nextSequence : link.mcu.nextSequence = blockSequence (base + .ofNat state.accepted)
  down : Forall₂ (fun block index => link.built[index]? = some block) link.down state.down
  up : Forall₂
    (fun message count => message.getD messagePosSeq 0 = blockSequence (base + .ofNat count))
    link.up state.up

theorem forall_getElem?_concat {Entry : Type} {entries : List Entry} {entry : Entry}
    {Holds : Nat → Entry → Prop}
    (old : ∀ {index other}, entries[index]? = some other → Holds index other)
    (new : Holds entries.length entry) {index : Nat} {other : Entry}
    (found : (entries ++ [entry])[index]? = some other) : Holds index other := by
  rw [getElem?_append] at found
  split at found
  · exact old found
  next notOld =>
    rw [getElem?_singleton, Option.ite_none_right_eq_some] at found
    rcases found with ⟨isLast, ⟨⟩⟩
    rwa [show index = entries.length by omega]

theorem forall₂_eraseIdx {Left Right : Type} {Related : Left → Right → Prop} {lefts : List Left}
    {rights : List Right} (related : Forall₂ Related lefts rights) (index : Nat) :
    Forall₂ Related (lefts.eraseIdx index) (rights.eraseIdx index) := by
  induction related generalizing index with
  | nil => exact .nil
  | cons head tail induction =>
    cases index with
    | zero => exact tail
    | succ index => exact .cons head (induction index)

namespace Represents

variable {base : UInt64} {link : Link} {state : GoBackN.State}

theorem of_synchronised (synchronised : Synchronised link) :
    Represents link.host.sendSeq link .start where
  builtLength := by simp [synchronised.noneBuilt, GoBackN.State.start]
  builtFrames := by simp [synchronised.noneBuilt]
  dispatched := by simp [synchronised.noneDispatched, synchronised.noneBuilt]
  window := by
    simp [SerialQueue.window, synchronised.receiveSeq_eq, synchronised.nothingSent,
      synchronised.noneBuilt, GoBackN.State.start]
  inSync := synchronised.inSync
  nextSequence := by
    change _ = blockSequence (link.host.sendSeq + 0)
    rw [UInt64.add_zero]
    exact eq_blockSequence synchronised.dest synchronised.lowNibble
  down := by
    rw [synchronised.downEmpty]
    exact .nil
  up := by
    rw [synchronised.upEmpty]
    exact .nil

theorem withHost (represents : Represents base link state) {host : SerialQueue}
    (same : host.window = link.host.window) : Represents base { link with host } state :=
  { represents with window := same.trans represents.window }

variable (represents : Represents base link state)
include represents

/-- Every block in the downward channel is a frame with its own sequence byte. -/
theorem findBlock (at_index : link.built[index]? = some block) :
    commandFindBlock link.mcu block = checkSequence link.mcu block ∧
      frameLength block = block.length ∧
      block.getD messagePosSeq 0 = blockSequence (base + .ofNat index) := by
  rcases represents.builtFrames at_index with ⟨payload, fits, rfl⟩
  have verdict := frameAt_addFrame fits (blockSequence_dest (base + .ofNat index))
  refine ⟨?_, ?_, addFrame_sequence _ _⟩
  · rw [commandFindBlock_synced represents.inSync, verdict]
  · rw [frameLength_addFrame _ fits, length_addFrame]

theorem sendSeq : link.host.sendSeq = base + .ofNat state.sent :=
  congrArg Window.sendSeq represents.window

theorem receiveSeq : link.host.receiveSeq = base + .ofNat state.acked :=
  congrArg Window.receiveSeq represents.window

theorem sentQueue : link.host.sentQueue = link.built.drop state.acked :=
  congrArg Window.sentQueue represents.window

/-- The host counts the blocks that are not acknowledged by a difference of 64-bit numbers. -/
theorem room (invariant : GoBackN.Invariant maxPendingBlocks.toNat state)
    (notFull : link.host.sendSeq - link.host.receiveSeq < maxPendingBlocks) :
    state.sent < state.acked + maxPendingBlocks.toNat := by
  rw [represents.sendSeq, represents.receiveSeq, UInt64.lt_iff_toNat_lt, UInt64.toNat_sub,
    toNat_base_add, toNat_base_add] at notFull
  have sent_le := invariant.sent_le
  change _ < 12 at notFull
  change _ ≤ _ + 12 at sent_le
  change _ < _ + 12
  omega

theorem dispatched_length (accepted_le : state.accepted ≤ state.sent) :
    link.dispatched.length = state.accepted := by
  rw [represents.dispatched, length_take, represents.builtLength]
  exact Nat.min_eq_left accepted_le

theorem build (acked_le : state.acked ≤ state.sent) (accepted_le : state.accepted ≤ state.sent)
    (built : buildAndSendCommand link.host = some (host, block)) : Represents base
      { link with host, down := link.down ++ [block], built := link.built ++ [block] }
      { state with sent := state.sent + 1, down := state.down ++ [state.sent] } := by
  rcases buildAndSendCommand_eq_some built with ⟨⟨payload, fits, framed⟩, window⟩
  have length := represents.builtLength
  exact { represents with
    builtLength := by simp [length]
    builtFrames := by
      apply forall_getElem?_concat represents.builtFrames
      exact ⟨payload, fits, by rw [framed, represents.sendSeq, length]⟩
    dispatched := by
      rw [take_append_of_le_length (length ▸ accepted_le)]
      exact represents.dispatched
    window := by
      rw [window, represents.sendSeq, represents.receiveSeq, represents.sentQueue,
        drop_append_of_le_length (length ▸ acked_le), UInt64.add_assoc, UInt64.ofNat_add]
      rfl
    down := by
      apply rel_append
      · apply represents.down.imp
        intro other index found
        rw [getElem?_append_left (List.getElem?_eq_some_iff.mp found).1]
        exact found
      · exact .cons (by rw [← length, getElem?_concat_length]) .nil }

theorem retransmit : Represents base
      { link with host := retransmitEvent link.host, down := link.down ++ link.host.sentQueue }
      { state with down := state.down ++ range' state.acked (state.sent - state.acked) } :=
  { represents.withHost (retransmitEvent_window link.host) with
    down := by
      apply rel_append represents.down
      rw [represents.sentQueue]
      apply forall₂_iff_get.mpr
      constructor
      · simp [represents.builtLength]
      · intro index inBlocks inNumbers
        simp }

theorem loseDown (index : Nat) : Represents base { link with down := link.down.eraseIdx index }
      { state with down := state.down.eraseIdx index } :=
  { represents with down := forall₂_eraseIdx represents.down index }

theorem loseUp (index : Nat) : Represents base { link with up := link.up.eraseIdx index }
      { state with up := state.up.eraseIdx index } :=
  { represents with up := forall₂_eraseIdx represents.up index }

theorem signal (payloads : List (List UInt8)) : Represents base
      { link with up := link.up ++ payloads.map (commandAddFrame link.mcu) }
      { state with up := state.up ++ replicate payloads.length state.accepted } :=
  { represents with
    up := by
      apply rel_append represents.up
      induction payloads with
      | nil => exact .nil
      | cons payload payloads induction =>
        exact .cons represents.nextSequence induction }

theorem accept (found : link.built[state.accepted]? = some block)
    (others : Forall₂ (fun block index => link.built[index]? = some block) rest indices) :
    Represents base
      { link with
        mcu := { link.mcu with
          needValid := false
          nextSequence := sequenceAfter (blockSequence (base + .ofNat state.accepted)) }
        down := rest
        dispatched := link.dispatched ++ [block] }
      { state with accepted := state.accepted + 1, down := indices } :=
  { represents with
    dispatched := by
      rw [represents.dispatched, take_add_one, found]
      rfl
    nextSequence := by
      rw [sequenceAfter_blockSequence, UInt64.add_assoc, UInt64.ofNat_add]
      rfl
    down := others }

variable (invariant : GoBackN.Invariant maxPendingBlocks.toNat state)
include invariant

/-- A block that reaches the micro-controller is dispatched, if it is the one that it expects, or
answered by a nak. -/
theorem consoleTask_cases (underWay : link.down = block :: rest) (responses : List (List UInt8)) :
    ∃ index indices, state.down = index :: indices ∧
      ((commandFindBlock link.mcu block).1 = .found block.length ∧ index = state.accepted ∧
          Represents base (consoleTask { link with down := rest } block responses)
            { state with
              accepted := state.accepted + 1
              down := indices
              up := state.up ++ replicate (responses ++ [[]]).length (state.accepted + 1) } ∨
        (commandFindBlock link.mcu block).1 = .outOfSequence block.length ∧
          Represents base (consoleTask { link with down := rest } block responses)
            { state with down := indices, up := state.up ++ [state.accepted] }) := by
  have down := represents.down
  rw [underWay] at down
  rcases forall₂_cons_left_iff.mp down with ⟨index, indices, found, others, numbers⟩
  rcases represents.findBlock found with ⟨checks, length, sequence⟩
  refine ⟨index, indices, numbers, ?_⟩
  unfold consoleTask
  rw [checks, checkSequence, sequence, length]
  by_cases expected : blockSequence (base + .ofNat index) = link.mcu.nextSequence
  · rw [if_neg (not_not.mpr expected)]
    dsimp only
    rw [take_length]
    have residue := congrArg UInt8.toNat (expected.trans represents.nextSequence)
    rw [blockSequence_toNat, blockSequence_toNat, toNat_base_add, toNat_base_add] at residue
    have isNext : index = state.accepted :=
      invariant.eq_accepted (by decide : maxPendingBlocks.toNat < 16) (by simp [numbers]) (by omega)
    subst isNext
    exact .inl ⟨rfl, rfl, (represents.accept found others).signal (responses ++ [[]])⟩
  · rw [if_pos expected]
    have dropped : Represents base
        { link with mcu := { link.mcu with needValid := false }, down := rest }
        { state with down := indices } :=
      { represents with down := others }
    exact .inr ⟨rfl, dropped.signal [[]]⟩

theorem deliverDown (underWay : link.down = block :: rest) (responses : List (List UInt8)) :
    ∃ next, GoBackN.Steps maxPendingBlocks.toNat state next ∧
      Represents base (consoleTask { link with down := rest } block responses) next := by
  rcases represents.consoleTask_cases invariant underWay responses with
    ⟨index, indices, numbers, ⟨-, rfl, accepted⟩ | ⟨-, rejected⟩⟩
  · exact ⟨_, .head (.accept state indices numbers) (GoBackN.Steps.signals _ _ _), accepted⟩
  refine ⟨_, ?_, rejected⟩
  refine .head (.lose state indices state.up ?_ (Sublist.refl _)) (GoBackN.Steps.signals _ _ 1)
  rw [numbers]
  exact sublist_cons_self index indices

/-- A message that reaches the host acknowledges blocks or leaves the window alone. -/
theorem inputBlock_cases (underWay : link.up = block :: rest) :
    ∃ count counts acked, state.up = count :: counts ∧ (acked = state.acked ∨ acked = count) ∧
      receivedSeq link.host block = base + .ofNat count ∧
      Represents base { link with host := inputBlock link.host block, up := rest }
        { state with acked, up := counts } := by
  have up := represents.up
  rw [underWay] at up
  rcases forall₂_cons_left_iff.mp up with ⟨count, counts, sequence, others, numbers⟩
  have received : count ∈ state.up := by simp [numbers]
  have notBelow := invariant.up_ge count received
  have notAbove := invariant.up_le count received
  have accepted_le := invariant.accepted_le
  have sent_le : state.sent ≤ state.acked + 12 := invariant.sent_le
  have rseq := receivedSeq_eq represents.receiveSeq sequence notBelow (by omega)
  have ignored {host : SerialQueue} (same : host.window = link.host.window) :
      Represents base { link with host, up := rest } { state with up := counts } :=
    { represents.withHost same with up := others }
  unfold inputBlock
  split
  · -- A block that is not rejected leaves the window alone or moves it.
    unfold handleMessage
    dsimp only
    split
    · exact ⟨count, counts, state.acked, numbers, .inl rfl, rseq, ignored rfl⟩
    · by_cases old : base + UInt64.ofNat count = link.host.receiveSeq
      · refine ⟨count, counts, state.acked, numbers, .inl rfl, rseq, ignored ?_⟩
        rw [processMessage_window, releaseNotifications_window, rseq, if_neg (not_not.mpr old)]
      rw [rseq]
      have advances : state.acked < count := by
        apply Nat.lt_of_le_of_ne notBelow
        rintro rfl
        exact old represents.receiveSeq.symm
      have outstanding : count - state.acked ≤ link.host.sentQueue.length := by
        rw [represents.sentQueue, length_drop, represents.builtLength]
        omega
      refine ⟨count, counts, count, numbers, .inr rfl, rfl, ?_⟩
      exact { represents with
        window := by
          rw [processMessage_window, releaseNotifications_window, if_pos old,
            updateReceiveSeq_window represents.receiveSeq advances outstanding
            (by omega), represents.sendSeq, represents.sentQueue, drop_drop,
            Nat.add_sub_cancel' notBelow]
        up := others }
  · exact ⟨count, counts, state.acked, numbers, .inl rfl, rseq, ignored rfl⟩

theorem deliverUp (underWay : link.up = block :: rest) :
    ∃ next, GoBackN.Steps maxPendingBlocks.toNat state next ∧
      Represents base { link with host := inputBlock link.host block, up := rest } next := by
  rcases represents.inputBlock_cases invariant underWay with
    ⟨count, counts, acked, numbers, rfl | rfl, -, follows⟩
  · -- A message that leaves the window alone might as well have been lost.
    refine ⟨_, .single (.lose state state.down counts (Sublist.refl _) ?_), follows⟩
    rw [numbers]
    exact sublist_cons_self count counts
  · exact ⟨_, .single (.acknowledge state _ counts numbers), follows⟩

end Represents

/-! ## Runs -/

def Tracked (base : UInt64) (link : Link) : Prop :=
  ∃ state, GoBackN.Invariant maxPendingBlocks.toNat state ∧ Represents base link state

theorem linkStep_represented {base : UInt64} {link next : Link} {state : GoBackN.State}
    (represents : Represents base link state)
    (invariant : GoBackN.Invariant maxPendingBlocks.toNat state)
    (stepped : linkStep link event = some next) :
    ∃ nextState, GoBackN.Steps maxPendingBlocks.toNat state nextState ∧
      Represents base next nextState := by
  have acked_le := Nat.le_trans invariant.acked_le invariant.accepted_le
  cases event with
  | sendBatch cq msgs =>
    cases stepped
    exact ⟨state, .refl, represents.withHost
      (serialqueueSendBatch_keeps SerialQueue.window fun _ _ _ => rfl)⟩
  | checkSend clocks =>
    cases stepped
    exact ⟨state, .refl, represents.withHost
      (checkSendCommand_keeps SerialQueue.window _ clocks fun _ => rfl)⟩
  | buildAndSend =>
    rw [linkStep] at stepped
    split at stepped
    · rename_i room
      rcases Option.map_eq_some_iff.mp stepped with ⟨⟨host, block⟩, built, rfl⟩
      exact ⟨_, .single (.build state (represents.room invariant room)),
        represents.build acked_le invariant.accepted_le built⟩
    · cases stepped
  | retransmit =>
    cases stepped
    exact ⟨_, .single (.retransmit state), represents.retransmit⟩
  | deliverDown responses =>
    rw [linkStep] at stepped
    split at stepped
    · cases stepped
    · rename_i block rest underWay
      cases stepped
      exact represents.deliverDown invariant underWay responses
  | deliverUp =>
    rw [linkStep] at stepped
    split at stepped
    · cases stepped
    · rename_i block rest underWay
      cases stepped
      exact represents.deliverUp invariant underWay
  | loseDown index =>
    cases stepped
    refine ⟨_, .single (.lose state _ _ ?_ ?_), represents.loseDown index⟩
    · exact eraseIdx_sublist _ _
    · exact Sublist.refl _
  | loseUp index =>
    cases stepped
    refine ⟨_, .single (.lose state _ _ ?_ ?_), represents.loseUp index⟩
    · exact Sublist.refl _
    · exact eraseIdx_sublist _ _
  | mcuSend payload =>
    cases stepped
    exact ⟨_, GoBackN.Steps.signals _ _ 1, represents.signal [payload]⟩

theorem linkStep_tracked {base : UInt64} (link : Link) (event : LinkEvent) (next : Link)
    (tracked : Tracked base link) (stepped : linkStep link event = some next) :
    Tracked base next := by
  rcases tracked with ⟨state, invariant, represents⟩
  rcases linkStep_represented represents invariant stepped with ⟨nextState, steps, follows⟩
  exact ⟨nextState, steps.invariant invariant, follows⟩

theorem Synchronised.tracked {link : Link} (synchronised : Synchronised link) :
    Tracked link.host.sendSeq link :=
  ⟨.start, GoBackN.invariant_start _, .of_synchronised synchronised⟩

/-- Whatever is lost, repeated or delayed, the blocks dispatched are the first blocks
built, each of them once and in order, and the host has dropped from its queue only
blocks that were dispatched. -/
theorem blocks_dispatched_once_in_order {start final : Link}
    (synchronised : Synchronised start) {events : List LinkEvent}
    (ran : runEvents linkStep start events = some final) :
    final.dispatched <+: final.built ∧
      ∃ removed, final.built = removed ++ final.host.sentQueue ∧ removed <+: final.dispatched := by
  have tracked := runEvents_invariant linkStep_tracked synchronised.tracked ran
  rcases tracked with ⟨state, invariant, represents⟩
  rw [represents.dispatched, represents.sentQueue]
  refine ⟨?_, final.built.take state.acked, (take_append_drop _ _).symm, ?_⟩
  · exact take_prefix _ _
  · exact take_prefix_take_left invariant.acked_le

def connected : Link where
  host := { serialqueueAlloc with sendSeq := 18, receiveSeq := 18 }
  mcu := { FindBlockState.initial with nextSequence := 0x12 }
  down := []
  up := []
  built := []
  dispatched := []

def lossAndRetransmission : List LinkEvent :=
  [.sendBatch 0 [⟨[7], 0, 1, 0⟩], .checkSend ⟨0, 0, false, 0⟩, .buildAndSend,
    .sendBatch 0 [⟨[8, 9], 0, 2, 0⟩], .checkSend ⟨0, 0, false, 0⟩, .buildAndSend,
    .loseDown 0, .deliverDown [], .deliverUp, .retransmit,
    .deliverDown [[1, 2]], .deliverDown [], .deliverUp, .loseUp 0, .deliverUp]

theorem blocks_dispatched_after_loss :
    ∃ final, runEvents linkStep connected lossAndRetransmission = some final ∧
      final.dispatched.length = 2 ∧ final.host.sentQueue = [] ∧
      final.dispatched <+: final.built := by
  refine exists_of_observed (fun link => (link.dispatched.length, link.host.sentQueue)) (2, [])
    (by decide +kernel) fun final ran seen => ?_
  have synchronised : Synchronised connected := by
    constructor <;> decide
  exact ⟨congrArg Prod.fst seen, congrArg Prod.snd seen,
    (blocks_dispatched_once_in_order synchronised ran).1⟩

/-! ## Recovery -/

section

variable (represents : Represents base link state)
  (invariant : GoBackN.Invariant maxPendingBlocks.toNat state)
include represents invariant

theorem Represents.deliver_covered (covered : GoBackN.Covered state)
    (underWay : link.down = block :: rest) : ∃ next, linkStep link (.deliverDown []) = some next ∧
      next.down = rest ∧ next.built = link.built ∧
      ∃ after, Represents base next after ∧ GoBackN.Invariant maxPendingBlocks.toNat after ∧
        GoBackN.Covered after := by
  refine ⟨consoleTask { link with down := rest } block [], by rw [linkStep, underWay], ?_, ?_, ?_⟩
  · unfold consoleTask
    split <;> rfl
  · unfold consoleTask
    split <;> rfl
  have down := represents.down
  rcases represents.consoleTask_cases invariant underWay [] with
    ⟨index, indices, numbers, ⟨-, rfl, follows⟩ | ⟨rejected, follows⟩⟩
  · have steps : GoBackN.Steps maxPendingBlocks.toNat state _ :=
      .head (.accept state indices numbers) (GoBackN.Steps.signals _ _ 1)
    exact ⟨_, follows, steps.invariant invariant,
      covered.tail numbers rfl (Nat.le_succ _) fun _ => Nat.lt_succ_self _⟩
  rw [underWay, numbers, forall₂_cons] at down
  have fewer : indices.Sublist state.down := numbers ▸ sublist_cons_self index indices
  have steps : GoBackN.Steps maxPendingBlocks.toNat state _ :=
    .head (.lose state indices state.up fewer (Sublist.refl _)) (GoBackN.Steps.signals _ _ 1)
  refine ⟨_, follows, steps.invariant invariant, covered.tail numbers rfl le_rfl ?_⟩
  -- The expected block would not have been rejected.
  rintro rfl
  rcases represents.findBlock down.1 with ⟨checks, -, sequence⟩
  rw [checks, checkSequence, sequence, represents.nextSequence,
    if_neg (not_not.mpr rfl)] at rejected
  cases rejected

theorem Represents.deliver_all (covered : GoBackN.Covered state) : ∃ settled,
      runEvents linkStep link (replicate link.down.length (.deliverDown [])) = some settled ∧
        settled.built = link.built ∧ settled.dispatched = link.built := by
  induction underWay : link.down generalizing link state with
  | nil =>
    have nothing := represents.down
    rw [underWay, forall₂_nil_left_iff] at nothing
    refine ⟨link, rfl, rfl, ?_⟩
    rw [represents.dispatched, covered.accepted_eq invariant nothing, ← represents.builtLength,
      take_length]
  | cons block rest induction =>
    rcases represents.deliver_covered invariant covered underWay with
      ⟨next, stepped, down, built, after, follows, holds, still⟩
    rcases induction follows holds still down with ⟨settled, ran, same, dispatched⟩
    exact ⟨settled, runEvents_cons_eq_some.mpr ⟨next, stepped, ran⟩, same.trans built,
      dispatched.trans built⟩

end

/-- Whatever was lost, a retransmission that gets through brings every block to its dispatch. -/
theorem blocks_recovered {start link : Link} (synchronised : Synchronised start)
    {events : List LinkEvent} (ran : runEvents linkStep start events = some link) :
    ∃ count settled, runEvents linkStep link
        (.retransmit :: replicate count (.deliverDown [])) = some settled ∧
      settled.built = link.built ∧ settled.dispatched = link.built := by
  rcases runEvents_invariant linkStep_tracked synchronised.tracked ran with
    ⟨state, invariant, represents⟩
  exact ⟨_, represents.retransmit.deliver_all (GoBackN.Step.invariant (.retransmit state) invariant)
    ⟨state.down, state.acked, invariant.acked_le, rfl⟩⟩

theorem blocks_recovered_after_loss :
    ∃ link, runEvents linkStep connected (lossAndRetransmission.take 7) = some link ∧
      link.dispatched = [] ∧ ∃ count settled, runEvents linkStep link
          (.retransmit :: replicate count (.deliverDown [])) = some settled ∧
        settled.built = link.built ∧ settled.dispatched = link.built := by
  refine exists_of_observed Link.dispatched [] (by decide +kernel) fun link ran none => ?_
  have synchronised : Synchronised connected := by
    constructor <;> decide
  exact ⟨none, blocks_recovered synchronised ran⟩

end CentauriCarbon.SerialLink
