import CentauriCarbon.Foundation.ReceiveWindow
import CentauriCarbon.SerialLink.BufferedLink

/-! # The receive buffer of the micro-controller

The buffered link refines the abstract sender and receiver of `ReceiveWindow`, so that the
bytes the host has sent always fit into the buffer.
-/

namespace CentauriCarbon.SerialLink

open List Protocol

namespace BufferedLink

structure Represents (base : UInt64) (link : BufferedLink) (state : ReceiveWindow.State) :
    Prop where
  sizes : state.sizes = link.built.map length
  builtFrames : ∀ {index block}, link.built[index]? = some block →
    ∃ payload : List UInt8, payload.length ≤ messagePayloadMax ∧
      block = addFrame (blockSequence (base + .ofNat index)) payload
  window : link.host.window =
    ⟨base + .ofNat link.built.length, base + .ofNat state.acked, link.built.drop state.acked⟩
  length_le : link.built.length ≤ state.acked + maxPendingBlocks.toNat
  receiveWindow : link.host.receiveWindow = link.rxBufferSize
  needAckBytes : link.host.needAckBytes = ((state.sizes.drop state.acked).sum : Nat)
  lastAckBytes_nonneg : 0 ≤ link.host.lastAckBytes
  lastAckBytes : 0 < state.acked →
    link.host.lastAckBytes = (state.sizes.getD (state.acked - 1) 0 : Nat)
  lastAckSeq : link.host.lastAckSeq.toNat ≤ base.toNat + state.lastAck
  inSync : link.mcu.needSync = false
  nextSequence : link.mcu.nextSequence = blockSequence (base + .ofNat state.accepted)
  idle : (∀ popCount, link.task ≠ .dispatch popCount) → state.accepted = state.removed
  dispatch : ∀ popCount, link.task = .dispatch popCount →
    state.accepted = state.removed + 1 ∧ state.sizes[state.removed]? = some popCount ∧
      popCount ≤ link.receiveBuf.length
  stream : link.receiveBuf ++ link.wire = (link.built.drop state.removed).flatten
  up : Forall₂
    (fun message entry => message.getD messagePosSeq 0 = blockSequence (base + .ofNat entry.1) ∧
      (entry.2 = true ↔ message.length = messageMin))
    link.up state.up

namespace Represents

variable {base : UInt64} {link : BufferedLink} {state : ReceiveWindow.State}

theorem of_synchronised (synchronised : link.Synchronised) :
    Represents link.host.sendSeq link .start where
  __ := synchronised
  sizes := by
    rw [synchronised.noneBuilt]
    rfl
  builtFrames := by simp [synchronised.noneBuilt]
  window := by
    simp [SerialQueue.window, synchronised.receiveSeq, synchronised.nothingSent,
      synchronised.noneBuilt, ReceiveWindow.State.start]
  length_le := by simp [synchronised.noneBuilt]
  lastAckBytes_nonneg := synchronised.lastAckBytes
  lastAckBytes := fun positive => absurd positive (lt_irrefl 0)
  lastAckSeq := by
    rw [← synchronised.receiveSeq]
    exact UInt64.le_iff_toNat_le.mp synchronised.lastAckSeq
  nextSequence := by
    change _ = blockSequence (link.host.sendSeq + 0)
    rw [UInt64.add_zero]
    exact eq_blockSequence synchronised.dest synchronised.lowNibble
  idle := fun _ => rfl
  dispatch := by
    intro popCount busy
    rw [synchronised.idle] at busy
    cases busy
  stream := by
    rw [synchronised.bufferEmpty, synchronised.wireEmpty, synchronised.noneBuilt]
    rfl
  up := by
    rw [synchronised.upEmpty]
    exact .nil

variable (represents : Represents base link state)
include represents

theorem sendSeq : link.host.sendSeq = base + .ofNat link.built.length :=
  congrArg Window.sendSeq represents.window

theorem receiveSeq : link.host.receiveSeq = base + .ofNat state.acked :=
  congrArg Window.receiveSeq represents.window

theorem sentQueue : link.host.sentQueue = link.built.drop state.acked :=
  congrArg Window.sentQueue represents.window

theorem length_sizes : state.sizes.length = link.built.length := by
  rw [represents.sizes, length_map]

theorem outstanding : link.receiveBuf.length + link.wire.length = state.outstanding := by
  rw [← length_append, represents.stream, length_flatten, ReceiveWindow.State.outstanding,
    represents.sizes, map_drop]

theorem withHost {host : SerialQueue} (window : host.window = link.host.window)
    (counts : host.counts = link.host.counts) : Represents base { link with host } state := by
  rcases Counts.mk.inj counts with ⟨receiveWindow, lastSeq, needed, lastBytes⟩
  exact { represents with
    window := window.trans represents.window
    receiveWindow := receiveWindow.trans represents.receiveWindow
    needAckBytes := needed.trans represents.needAckBytes
    lastAckBytes_nonneg := by
      rw [lastBytes]
      exact represents.lastAckBytes_nonneg
    lastAckBytes := fun positive => lastBytes.trans (represents.lastAckBytes positive)
    lastAckSeq := by
      rw [lastSeq]
      exact represents.lastAckSeq }

/-- The host's test admits a block exactly as far as the abstract sender would. -/
theorem admitted (noWrap : base.toNat + link.built.length < 2 ^ 64)
    (positive : 0 < link.rxBufferSize) (room : receiverFull link.host = false)
    (more : state.acked < state.sizes.length) : state.counted + messageMax ≤ link.rxBufferSize := by
  have length_sizes := represents.length_sizes
  have sendSeq : link.host.sendSeq.toNat = base.toNat + link.built.length := by
    rw [represents.sendSeq, toNat_base_add, Nat.mod_eq_of_lt noWrap]
  have receiveSeq : link.host.receiveSeq.toNat = base.toNat + state.acked := by
    rw [represents.receiveSeq, toNat_base_add, Nat.mod_eq_of_lt (by omega)]
  have inFlight : link.host.sendSeq > link.host.receiveSeq := by
    apply UInt64.lt_iff_toNat_lt.mpr
    omega
  have windowSet : link.host.receiveWindow ≠ 0 := by
    rw [represents.receiveWindow]
    omega
  simp only [receiverFull, decide_eq_false_iff_not] at room
  have fits := Int.not_lt.mp fun tooMuch => room ⟨inFlight, windowSet, tooMuch⟩
  rw [represents.receiveWindow, represents.needAckBytes] at fits
  have nonneg := represents.lastAckBytes_nonneg
  unfold ReceiveWindow.State.counted
  split
  next unacked =>
    have older : link.host.lastAckSeq < link.host.receiveSeq := by
      have bound := represents.lastAckSeq
      apply UInt64.lt_iff_toNat_lt.mpr
      omega
    rw [if_pos older, represents.lastAckBytes (Nat.zero_lt_of_lt unacked)] at fits
    omega
  · split at fits <;> omega

/-- The host's other test leaves room in the window of sequence numbers. -/
theorem length_lt (noWrap : base.toNat + (link.built.length + 1) < 2 ^ 64)
    (acked_le : state.acked ≤ link.built.length) (notFull : windowFull link.host = false) :
    link.built.length < state.acked + maxPendingBlocks.toNat := by
  have receiveSeq : link.host.receiveSeq.toNat = base.toNat + state.acked := by
    rw [represents.receiveSeq, toNat_base_add, Nat.mod_eq_of_lt (by omega)]
  have inFlight : (link.host.sendSeq - link.host.receiveSeq).toNat =
      link.built.length - state.acked := by
    rw [UInt64.toNat_sub, receiveSeq, represents.sendSeq, toNat_base_add]
    omega
  have notFile : link.host.receiveSeq ≠ -1 := by
    intro isFile
    have number := congrArg UInt64.toNat isFile
    change _ = 2 ^ 64 - 1 at number
    omega
  simp only [windowFull, decide_eq_false_iff_not, not_and, not_not] at notFull
  by_contra tooLong
  apply notFile
  apply notFull
  apply UInt64.le_iff_toNat_le.mpr
  omega

/-- A message of the micro-controller carries the number of blocks it has accepted. -/
theorem signal (payload : List UInt8) :
    Represents base { link with up := link.up ++ [commandAddFrame link.mcu payload] }
      { state with up := state.up ++ [(state.accepted, decide (payload = []))] } :=
  { represents with
    up := by
      apply rel_append represents.up
      refine .cons ⟨?_, ?_⟩ .nil
      · rw [commandAddFrame, addFrame_sequence]
        exact represents.nextSequence
      · rw [commandAddFrame, length_addFrame, decide_eq_true_iff, ← length_eq_zero_iff]
        omega }

/-- `console_task` finds the block after the last one it removed, or nothing yet. -/
theorem findBlock (idle : link.task = .idle) :
    ∃ next, Relation.ReflGen (ReceiveWindow.Step link.rxBufferSize messageMax) state next ∧
      Represents base link.findBlock next := by
  have accepted_eq : state.accepted = state.removed := by
    apply represents.idle
    rw [idle]
    nofun
  have stream := represents.stream
  have nothing (waits : commandFindBlock link.mcu link.receiveBuf = (.needMoreData, link.mcu)) :
      link.findBlock = link := by
    rw [BufferedLink.findBlock, waits]
    simp [FindBlockExit.popCount, FindBlockExit.sendsNak]
  rcases lt_or_ge state.removed link.built.length with more | none_left
  · have first := getElem?_eq_getElem more
    rcases represents.builtFrames first with ⟨payload, fits, framed⟩
    have nextSequence := represents.nextSequence
    rw [accepted_eq] at nextSequence
    rw [← nextSequence] at framed
    rw [drop_eq_getElem_cons more, flatten_cons, framed] at stream
    have dest : link.mcu.nextSequence &&& ~~~messageSeqMask = messageDest := by
      rw [represents.nextSequence]
      exact blockSequence_dest _
    have found := commandFindBlock_of_stream represents.inSync stream fits dest
    split at found
    · rw [nothing found]
      exact ⟨state, .refl, represents⟩
    next long =>
      have available : state.accepted < state.sizes.length := by
        rw [represents.length_sizes, accepted_eq]
        exact more
      refine ⟨_, .single (.accept state available accepted_eq), ?_⟩
      rw [BufferedLink.findBlock, found]
      exact { represents with
        nextSequence := by
          rw [represents.nextSequence, sequenceAfter_blockSequence, UInt64.add_assoc,
            UInt64.ofNat_add]
          rfl
        idle := fun notBusy => absurd rfl (notBusy _)
        dispatch := by
          intro popCount busy
          cases busy
          refine ⟨congrArg (· + 1) accepted_eq, ?_, Nat.le_of_not_lt long⟩
          rw [represents.sizes, getElem?_map, first, framed]
          rfl }
  · have empty : link.receiveBuf = [] := by
      rw [drop_eq_nil_of_le none_left] at stream
      exact (append_eq_nil_iff.mp stream).1
    have waits : commandFindBlock link.mcu link.receiveBuf = (.needMoreData, link.mcu) := by
      rw [empty, commandFindBlock_synced represents.inSync]
      rfl
    rw [nothing waits]
    exact ⟨state, .refl, represents⟩

theorem popInput (busy : link.task = .dispatch popCount) : Represents base
      { link with receiveBuf := link.receiveBuf.drop popCount, task := .ack }
      { state with removed := state.removed + 1 } := by
  rcases represents.dispatch popCount busy with ⟨one, size, arrived⟩
  rw [represents.sizes, getElem?_map] at size
  rcases Option.map_eq_some_iff.mp size with ⟨block, at_index, rfl⟩
  rcases List.getElem?_eq_some_iff.mp at_index with ⟨inside, block_eq⟩
  exact { represents with
    idle := fun _ => one
    dispatch := by
      nofun
    stream := by
      rw [← drop_append_of_le_length arrived, represents.stream,
        drop_eq_getElem_cons inside, block_eq, flatten_cons, drop_left] }

variable (invariant : ReceiveWindow.Invariant link.rxBufferSize messageMax state)
include invariant

/-- A block is built after `check_send_command` has found room for it. -/
theorem build (noWrap : base.toNat + (link.built.length + 1) < 2 ^ 64)
    (notFull : windowFull link.host = false) {host next : SerialQueue}
    (window : host.window = link.host.window) (counts : host.counts = link.host.counts)
    (built : buildAndSendCommand host = some (next, block)) : block.length ≤ messageMax ∧
      Represents base
        { link with host := next, wire := link.wire ++ block, built := link.built ++ [block] }
        { state with sizes := state.sizes ++ [block.length] } := by
  have checked := represents.withHost window counts
  have inside := invariant.accepted_le
  have acked_sizes := le_trans invariant.acked_le inside
  have acked_le := acked_sizes
  have removed_le := le_trans invariant.removed_le inside
  rw [represents.length_sizes] at acked_le removed_le
  rcases buildAndSendCommand_eq_some built with ⟨⟨payload, fits, framed⟩, nextWindow⟩
  have sendSeq : host.sendSeq = base + .ofNat link.built.length := checked.sendSeq
  have receiveSeq : host.receiveSeq = base + .ofNat state.acked := checked.receiveSeq
  have sentQueue : host.sentQueue = link.built.drop state.acked := checked.sentQueue
  have nextCounts := buildAndSendCommand_counts built
  rw [counts] at nextCounts
  rcases Counts.mk.inj nextCounts with ⟨receiveWindow, lastSeq, needed, lastBytes⟩
  have short : block.length ≤ messageMax := by
    rw [framed, length_addFrame]
    unfold messagePayloadMax messageMax messageMin at fits
    unfold messageMax messageMin
    omega
  refine ⟨short, ?_⟩
  exact { represents with
    sizes := by
      rw [represents.sizes, map_append]
      rfl
    builtFrames := by
      apply forall_getElem?_concat represents.builtFrames
      exact ⟨payload, fits, by rw [framed, sendSeq]⟩
    window := by
      rw [nextWindow, sendSeq, receiveSeq, sentQueue, length_append, UInt64.add_assoc,
        UInt64.ofNat_add, drop_append_of_le_length acked_le]
      rfl
    length_le := by
      rw [length_append, length_singleton]
      exact represents.length_lt noWrap acked_le notFull
    receiveWindow := receiveWindow.trans represents.receiveWindow
    needAckBytes := by
      have before : host.needAckBytes = _ := checked.needAckBytes
      rw [needed, before, drop_append_of_le_length acked_sizes, sum_append,
        sum_singleton, Int.natCast_add]
    lastAckBytes_nonneg := by
      rw [lastBytes]
      exact represents.lastAckBytes_nonneg
    lastAckBytes := by
      intro positive
      have last : state.acked - 1 < state.sizes.length :=
        lt_of_lt_of_le (Nat.pred_lt positive.ne') acked_sizes
      rw [lastBytes]
      exact (represents.lastAckBytes positive).trans (by rw [getD_append _ _ _ _ last])
    lastAckSeq := by
      rw [lastSeq]
      exact represents.lastAckSeq
    dispatch := by
      intro popCount busy
      rcases represents.dispatch popCount busy with ⟨one, size, arrived⟩
      refine ⟨one, ?_, arrived⟩
      rw [getElem?_append_left (List.getElem?_eq_some_iff.mp size).1]
      exact size
    stream := by
      rw [← append_assoc, represents.stream, drop_append_of_le_length removed_le,
        flatten_append, flatten_singleton] }

theorem rxByte (wire : link.wire = data :: rest) :
    Represents base ({ link with wire := rest }.serialRxByte data) state := by
  have room : ¬ link.receiveBuf.length ≥ link.rxBufferSize := by
    have outstanding := represents.outstanding
    have bound := invariant.outstanding_le
    rw [wire, length_cons] at outstanding
    omega
  rw [serialRxByte, if_neg room]
  exact { represents with
    dispatch := by
      intro popCount busy
      rcases represents.dispatch popCount busy with ⟨one, size, arrived⟩
      refine ⟨one, size, ?_⟩
      rw [length_append]
      exact Nat.le_add_right_of_le arrived
    stream := by
      have stream := represents.stream
      rw [wire] at stream
      rw [← stream, append_assoc]
      rfl }

/-- The host after the window has moved to a count that was acknowledged. -/
theorem advance {count : Nat} (notBelow : state.acked ≤ count) (notAbove : count ≤ state.accepted) :
    let rseq := base + UInt64.ofNat count
    let sq := if rseq ≠ link.host.receiveSeq then updateReceiveSeq link.host rseq else link.host
    sq.window =
        ⟨base + .ofNat link.built.length, base + .ofNat count, link.built.drop count⟩ ∧
      sq.receiveWindow = link.rxBufferSize ∧ sq.lastAckSeq = link.host.lastAckSeq ∧
      sq.needAckBytes = ((state.sizes.drop count).sum : Nat) ∧ 0 ≤ sq.lastAckBytes ∧
      (0 < count → sq.lastAckBytes = (state.sizes.getD (count - 1) 0 : Nat)) := by
  intro rseq sq
  have accepted_le := invariant.accepted_le
  have length_le := represents.length_le
  have length_sizes := represents.length_sizes
  change _ ≤ _ + 12 at length_le
  rcases Nat.eq_or_lt_of_le notBelow with rfl | advances
  · have same : sq = link.host := if_neg (not_not.mpr represents.receiveSeq.symm)
    rw [same]
    exact ⟨represents.window, represents.receiveWindow, rfl, represents.needAckBytes,
      represents.lastAckBytes_nonneg, represents.lastAckBytes⟩
  have differs : rseq ≠ link.host.receiveSeq := by
    intro equal
    rw [represents.receiveSeq] at equal
    have numbers := congrArg UInt64.toNat ((UInt64.add_right_inj base).mp equal)
    simp only [UInt64.toNat_ofNat'] at numbers
    omega
  have moved : sq = updateReceiveSeq link.host rseq := if_pos differs
  have outstanding : count - state.acked ≤ link.host.sentQueue.length := by
    rw [represents.sentQueue, length_drop]
    omega
  have window := updateReceiveSeq_window represents.receiveSeq advances outstanding (by omega)
  have counts := congrArg SerialQueue.counts (removeSent_eq link.host base
    link.host.sentQueue state.acked (count - state.acked) (Nat.sub_pos_of_lt advances)
    outstanding (by omega))
  rw [Nat.add_sub_cancel' notBelow, ← represents.receiveSeq, ← updateReceiveSeq_counts,
    represents.sentQueue] at counts
  rcases Counts.mk.inj ((congrArg SerialQueue.counts moved).trans counts) with
    ⟨receiveWindow, lastSeq, needed, lastBytes⟩
  have lastAckBytes : sq.lastAckBytes = (state.sizes.getD (count - 1) 0 : Nat) := by
    have position : state.acked + (count - state.acked - 1) = count - 1 := by omega
    rw [lastBytes, represents.sizes, getD_eq_getElem?_getD, getD_eq_getElem?_getD,
      getElem?_drop, position, getElem?_map]
    cases link.built[count - 1]? <;> rfl
  have needAckBytes : sq.needAckBytes = ((state.sizes.drop count).sum : Nat) := by
    have total := represents.needAckBytes
    rw [← take_append_drop (count - state.acked) (state.sizes.drop state.acked),
      sum_append, drop_drop, Nat.add_sub_cancel' notBelow] at total
    rw [needed, total, length_flatten, map_take, map_drop, ← represents.sizes]
    dsimp only
    omega
  refine ⟨?_, receiveWindow.trans represents.receiveWindow, lastSeq, needAckBytes, ?_,
    fun _ => lastAckBytes⟩
  · rw [moved, window, represents.sendSeq, represents.sentQueue, drop_drop,
      Nat.add_sub_cancel' notBelow]
  · rw [lastAckBytes]
    exact Int.natCast_nonneg _

/-- A message of the micro-controller moves the host's window to the count it carries. -/
theorem receive (noWrap : base.toNat + link.built.length < 2 ^ 64)
    (underWay : link.up = block :: rest) :
    ∃ next, Relation.ReflGen (ReceiveWindow.Step link.rxBufferSize messageMax) state next ∧
      Represents base { link with host := inputBlock link.host block, up := rest } next := by
  have up := represents.up
  rw [underWay] at up
  rcases forall₂_cons_left_iff.mp up with
    ⟨⟨count, isAck⟩, entries, ⟨sequence, ack_iff⟩, others, first⟩
  have member : (count, isAck) ∈ state.up := by simp [first]
  have notBelow : state.acked ≤ count := invariant.up_ge _ member
  have notAbove : count ≤ state.accepted := invariant.up_le _ member
  have accepted_le := invariant.accepted_le
  have length_le : link.built.length ≤ state.acked + 12 := represents.length_le
  rw [represents.length_sizes] at accepted_le
  unfold inputBlock
  split
  · refine ⟨_, .single (.receive state count isAck entries first), ?_⟩
    have rseq_eq := receivedSeq_eq represents.receiveSeq sequence notBelow (by omega)
    have rseq_toNat : (base + UInt64.ofNat count).toNat = base.toNat + count := by
      rw [toNat_base_add, Nat.mod_eq_of_lt (by omega)]
    have taken : ¬ (base + UInt64.ofNat count ≠ link.host.receiveSeq ∧
        base + UInt64.ofNat count > link.host.sendSeq ∧ link.host.receiveSeq ≠ 1) := by
      rintro ⟨-, beyond, -⟩
      have numbers := UInt64.lt_iff_toNat_lt.mp beyond
      rw [rseq_toNat, represents.sendSeq, toNat_base_add, Nat.mod_eq_of_lt noWrap] at numbers
      omega
    rcases represents.advance invariant notBelow notAbove with
      ⟨window, receiveWindow, lastAckSeq, needAckBytes, nonneg, lastAckBytes⟩
    rw [handleMessage, rseq_eq, if_neg taken]
    generalize ite (base + UInt64.ofNat count ≠ link.host.receiveSeq)
      (updateReceiveSeq link.host (base + UInt64.ofNat count)) link.host = sq at *
    rcases Counts.mk.inj (processMessage_counts (releaseNotifications sq _ block.length)
      (base + UInt64.ofNat count) block) with ⟨sameWindow, lastSeq, needed, lastBytes⟩
    exact { represents with
      window := (processMessage_window _ _ _).trans window
      length_le := le_trans length_le (Nat.add_le_add_right notBelow 12)
      receiveWindow := sameWindow.trans receiveWindow
      needAckBytes := needed.trans needAckBytes
      lastAckBytes_nonneg := by
        rw [lastBytes]
        exact nonneg
      lastAckBytes := fun positive => lastBytes.trans (lastAckBytes positive)
      lastAckSeq := by
        have before := represents.lastAckSeq
        rw [lastSeq]
        change (if block.length = messageMin ∧ sq.lastAckSeq < _ then _
          else sq.lastAckSeq).toNat ≤ _
        rw [lastAckSeq]
        split
        next newer =>
          rw [rseq_toNat, if_pos (ack_iff.mpr newer.1)]
          exact Nat.add_le_add_left (Nat.le_max_right _ _) _
        · apply le_trans before
          apply Nat.add_le_add_left
          split
          · exact Nat.le_max_left _ _
          · exact le_rfl
      up := others }
  · refine ⟨{ state with up := entries }, .single (.lose state entries ?_), ?_⟩
    · rw [first]
      exact sublist_cons_self _ _
    · exact { represents with up := others }

end Represents

/-! ## Runs -/

def Tracked (base : UInt64) (size : Nat) (link : BufferedLink) : Prop :=
  link.rxBufferSize = size ∧
    (base.toNat + link.built.length < 2 ^ 64 →
      ∃ state, ReceiveWindow.Invariant size messageMax state ∧ Represents base link state)

/-- An event that is a step of the abstract sender and receiver, or none. -/
theorem Tracked.moves {link next : BufferedLink} (twoFit : messageMax + messageMax ≤ size)
    (tracked : Tracked base size link)
    (frame : next.rxBufferSize = link.rxBufferSize ∧ link.built.length ≤ next.built.length)
    (moves : ∀ state, Represents base link state →
      ReceiveWindow.Invariant link.rxBufferSize messageMax state →
      base.toNat + next.built.length < 2 ^ 64 → ∃ nextState,
        Relation.ReflGen (ReceiveWindow.Step link.rxBufferSize messageMax) state nextState ∧
        Represents base next nextState) : Tracked base size next := by
  rcases tracked with ⟨rfl, follows⟩
  refine ⟨frame.1, ?_⟩
  intro noWrap
  rcases follows (Nat.lt_of_le_of_lt (Nat.add_le_add_left frame.2 _) noWrap) with
    ⟨state, invariant, represents⟩
  rcases moves state represents invariant noWrap with ⟨nextState, abstractStep, nextRepresents⟩
  refine ⟨nextState, ?_, nextRepresents⟩
  cases abstractStep with
  | refl => exact invariant
  | single stepTaken => exact stepTaken.invariant twoFit invariant

section Events

variable {base : UInt64} {link next : BufferedLink} (twoFit : messageMax + messageMax ≤ size)
  (tracked : Tracked base size link)
include twoFit tracked

theorem Tracked.sendBatch (cq : Nat) (msgs : List QueueMessage) :
    Tracked base size { link with host := serialqueueSendBatch link.host cq msgs } := by
  refine tracked.moves twoFit ⟨rfl, le_rfl⟩ fun state represents _ _ => ?_
  exact ⟨state, .refl, represents.withHost
    (serialqueueSendBatch_keeps SerialQueue.window fun _ _ _ => rfl)
    (serialqueueSendBatch_keeps SerialQueue.counts fun _ _ _ => rfl)⟩

theorem Tracked.commandRound (ran : link.commandRound clocks = some next) :
    Tracked base size next := by
  have window := checkSendCommand_keeps SerialQueue.window link.host clocks fun _ => rfl
  have counts := checkSendCommand_keeps SerialQueue.counts link.host clocks fun _ => rfl
  have cases := checkSendCommand_cases link.host clocks
  rw [BufferedLink.commandRound] at ran
  split at ran
  next host checked =>
    rw [checked] at window counts cases
    rcases cases with waits | ⟨notFull, room, -⟩
    · cases waits
    rcases Option.map_eq_some_iff.mp ran with ⟨⟨built, block⟩, isBuilt, rfl⟩
    have longer : (link.built ++ [block]).length = link.built.length + 1 := length_append
    refine tracked.moves twoFit ⟨rfl, longer ▸ Nat.le_succ _⟩ ?_
    intro state represents invariant noWrap
    rw [longer] at noWrap
    have positive : 0 < link.rxBufferSize := lt_of_lt_of_le (by decide) (tracked.1 ▸ twoFit)
    rcases represents.build invariant noWrap notFull window counts isBuilt with
      ⟨short, built_represents⟩
    exact ⟨_, .single (.send state _ short
      (represents.admitted (Nat.lt_of_succ_lt noWrap) positive room)), built_represents⟩
  next host _ checked =>
    cases ran
    rw [checked] at window counts
    exact tracked.moves twoFit ⟨rfl, le_rfl⟩ fun state represents _ _ =>
      ⟨state, .refl, represents.withHost window counts⟩

theorem Tracked.rxByte (wire : link.wire = data :: rest) :
    Tracked base size ({ link with wire := rest }.serialRxByte data) := by
  refine tracked.moves twoFit ?_ fun state represents invariant _ =>
    ⟨state, .refl, represents.rxByte invariant wire⟩
  unfold serialRxByte
  split <;> exact ⟨rfl, le_rfl⟩

theorem Tracked.findBlock (idle : link.task = .idle) : Tracked base size link.findBlock := by
  refine tracked.moves twoFit ?_ fun state represents _ _ => represents.findBlock idle
  unfold BufferedLink.findBlock
  split <;> exact ⟨rfl, le_rfl⟩

theorem Tracked.respond (nonempty : payload ≠ []) :
    Tracked base size { link with up := link.up ++ [commandAddFrame link.mcu payload] } := by
  refine tracked.moves twoFit ⟨rfl, le_rfl⟩ fun state represents _ _ => ?_
  have sent := represents.signal payload
  rw [decide_eq_false nonempty] at sent
  exact ⟨_, .single (.respond state), sent⟩

theorem Tracked.popInput (busy : link.task = .dispatch popCount) :
    Tracked base size
      { link with receiveBuf := link.receiveBuf.drop popCount, task := .ack } := by
  refine tracked.moves twoFit ⟨rfl, le_rfl⟩ fun state represents _ _ => ?_
  have one := (represents.dispatch popCount busy).1
  exact ⟨_, .single (.remove state (by omega)), represents.popInput busy⟩

theorem Tracked.sendAck (popped : link.task = .ack) (room : Bool) :
    Tracked base size { link with
      task := .idle
      up := link.up ++ if room then [commandAddFrame link.mcu []] else [] } := by
  refine tracked.moves twoFit ⟨rfl, le_rfl⟩ fun state represents _ _ => ?_
  have idle : state.accepted = state.removed := by
    apply represents.idle
    rw [popped]
    nofun
  have done : Represents base { link with task := .idle } state :=
    { represents with
      idle := fun _ => idle
      dispatch := by
        intro popCount busy
        cases busy }
  cases room with
  | false =>
    refine ⟨state, .refl, ?_⟩
    rw [if_neg Bool.false_ne_true, append_nil]
    exact done
  | true => exact ⟨_, .single (.ack state idle), done.signal []⟩

theorem Tracked.receive (underWay : link.up = block :: rest) :
    Tracked base size { link with host := inputBlock link.host block, up := rest } :=
  tracked.moves twoFit ⟨rfl, le_rfl⟩ fun _ represents invariant noWrap =>
    represents.receive invariant noWrap underWay

end Events

theorem step_tracked {base : UInt64} (twoFit : messageMax + messageMax ≤ size) (link : BufferedLink)
    (event : BufferedEvent) (next : BufferedLink) (tracked : Tracked base size link)
    (stepped : link.step event = some next) : Tracked base size next := by
  cases event with
  | sendBatch cq msgs =>
    cases stepped
    exact tracked.sendBatch twoFit cq msgs
  | commandRound clocks => exact tracked.commandRound twoFit stepped
  | rxByte =>
    rw [step] at stepped
    split at stepped
    · cases stepped
    next wire =>
      cases stepped
      exact tracked.rxByte twoFit wire
  | findBlock =>
    rw [step] at stepped
    split at stepped
    next idle =>
      cases stepped
      exact tracked.findBlock twoFit idle
    · cases stepped
    · cases stepped
  | respond payload =>
    rcases Option.ite_none_left_eq_some.mp stepped with ⟨nonempty, ⟨⟩⟩
    exact tracked.respond twoFit nonempty
  | popInput =>
    rw [step] at stepped
    split at stepped
    next busy =>
      cases stepped
      exact tracked.popInput twoFit busy
    · cases stepped
    · cases stepped
  | sendAck room =>
    rw [step] at stepped
    split at stepped
    next popped =>
      cases stepped
      exact tracked.sendAck twoFit popped room
    · cases stepped
    · cases stepped
  | receive =>
    rw [step] at stepped
    split at stepped
    · cases stepped
    next underWay =>
      cases stepped
      exact tracked.receive twoFit underWay

theorem Synchronised.tracked {link : BufferedLink} (synchronised : link.Synchronised) :
    Tracked link.host.sendSeq link.rxBufferSize link :=
  ⟨rfl, fun _ => ⟨.start, ReceiveWindow.invariant_start _ _, .of_synchronised synchronised⟩⟩

/-- Whatever the order of blocks, responses and acks: the bytes that the host has sent and the
micro-controller has not removed from its buffer fit into that buffer. -/
theorem receive_buffer_bounded {start final : BufferedLink}
    (synchronised : start.Synchronised) (window : 128 ≤ start.host.receiveWindow)
    {events : List BufferedEvent} (ran : runEvents step start events = some final)
    (noWrap : start.host.sendSeq.toNat + final.built.length < 2 ^ 64) :
    ((final.wire.length + final.receiveBuf.length : Nat) : Int) ≤ start.host.receiveWindow := by
  have twoFit : messageMax + messageMax ≤ start.rxBufferSize := by
    rw [synchronised.receiveWindow] at window
    change 128 ≤ _
    omega
  rcases runEvents_invariant (step_tracked twoFit) synchronised.tracked ran with ⟨-, follows⟩
  rcases follows noWrap with ⟨state, invariant, represents⟩
  rw [synchronised.receiveWindow, add_comm, represents.outstanding]
  exact Int.ofNat_le.mpr invariant.outstanding_le

def connected (sendSeq : UInt64) : BufferedLink where
  host := { serialqueueAlloc with sendSeq, receiveSeq := sendSeq, receiveWindow := 128 }
  wire := []
  receiveBuf := []
  rxBufferSize := 128
  mcu := { FindBlockState.initial with nextSequence := blockSequence sendSeq }
  task := .idle
  up := []
  built := []

/-- The host builds its second block after a response to the first, which is still in the
buffer. -/
theorem receive_buffer_bounded_in_dispatch :
    ∃ final, runEvents step (connected 18)
        ([.sendBatch 0 [⟨[7], 0, 1, 0⟩], .commandRound ⟨0, 0, false, 0⟩] ++
          replicate 6 .rxByte ++
          [.findBlock, .respond [9], .receive, .sendBatch 0 [⟨[8, 9], 0, 2, 0⟩],
            .commandRound ⟨0, 0, false, 0⟩]) = some final ∧
      final.wire.length + final.receiveBuf.length = 13 ∧ final.host.needAckBytes = 7 ∧
      ((final.wire.length + final.receiveBuf.length : Nat) : Int) ≤ 128 := by
  refine exists_of_observed (fun link => (link.wire.length + link.receiveBuf.length,
    link.host.needAckBytes, link.built.length)) (13, 7, 2) (by decide +kernel) ?_
  intro final ran seen
  have synchronised : (connected 18).Synchronised := by
    constructor <;> decide
  have noWrap : (connected 18).host.sendSeq.toNat + final.built.length < 2 ^ 64 := by
    rw [show final.built.length = 2 from congrArg (·.2.2) seen]
    decide
  exact ⟨congrArg (·.1) seen, congrArg (·.2.1) seen,
    receive_buffer_bounded synchronised (by decide) ran noWrap⟩

/-- Once `send_seq` has wrapped it is below `receive_seq`, and the host sends without looking at
the window: 192 bytes to a buffer of 128. -/
theorem receive_buffer_exceeded_at_wrap :
    (connected 0xfffffffffffffffe).Synchronised ∧
      ∃ final, runEvents step (connected 0xfffffffffffffffe)
          [.sendBatch 0 (replicate 3 ⟨replicate 59 7, 0, 1, 0⟩),
            .commandRound ⟨0, 0, false, 0⟩, .commandRound ⟨0, 0, false, 0⟩,
            .commandRound ⟨0, 0, false, 0⟩] = some final ∧
        final.wire.length + final.receiveBuf.length = 192 := by
  constructor
  · constructor <;> decide
  · apply Option.map_eq_some_iff.mp
    decide +kernel

end BufferedLink

end CentauriCarbon.SerialLink
